import OsbClient.Basic

/-!
# The version registry

`version.go` gives every revision of the Open Service Broker API a label and an `order` byte,
and compares revisions by `order` alone: `OsbClient.APIVersion.atLeast` never looks at the
label. The registry's contract is that the orders are assigned in release order, so that
comparison is the release order, and that `OsbClient.latestAPIVersion` is the greatest
revision; both are checked beside the table `OsbClient.apiVersions`.

Nothing stops a value of `APIVersion` other than the seven constructors' from reaching a
client (the zero value, with the empty label and order `0`, is one), so every statement about
a client below holds for every `APIVersion` value, not only the listed ones.
-/

namespace OsbClient

/-- `APIVersion` of `version.go`: a revision's label and its place in the release order. -/
structure APIVersion where
  label : GoString
  order : UInt8

namespace APIVersion

/-- `AtLeast`: whether this revision is the given one or a later one. -/
def atLeast (v test : APIVersion) : Bool := test.order.toNat ≤ v.order.toNat

/-- `HeaderValue`: the value sent in the version header. -/
def headerValue (v : APIVersion) : GoString := v.label

/-- `IsLessThan`. -/
def isLessThan (v other : APIVersion) : Bool := !v.atLeast other

@[simp] theorem atLeast_iff (v w : APIVersion) : v.atLeast w = true ↔ w.order.toNat ≤ v.order.toNat :=
  decide_eq_true_iff

@[simp] theorem isLessThan_iff (v w : APIVersion) :
    v.isLessThan w = true ↔ v.order.toNat < w.order.toNat := by
  simp [isLessThan, atLeast]

theorem atLeast_refl (v : APIVersion) : v.atLeast v = true := by simp

theorem atLeast_trans {u v w : APIVersion} (h₁ : u.atLeast v = true) (h₂ : v.atLeast w = true) :
    u.atLeast w = true := by
  simp only [atLeast_iff] at *; omega

theorem atLeast_total (v w : APIVersion) : v.atLeast w = true ∨ w.atLeast v = true := by
  simp only [atLeast_iff]; omega

end APIVersion

/-- `Version2_11`. -/
def version2_11 : APIVersion := ⟨"2.11", 0⟩
/-- `Version2_12`. -/
def version2_12 : APIVersion := ⟨"2.12", 1⟩
/-- `Version2_13`, which introduced the originating identity header. -/
def version2_13 : APIVersion := ⟨"2.13", 2⟩
/-- `Version2_14`. -/
def version2_14 : APIVersion := ⟨"2.14", 3⟩
/-- `Version2_15`. -/
def version2_15 : APIVersion := ⟨"2.15", 4⟩
/-- `Version2_16`. -/
def version2_16 : APIVersion := ⟨"2.16", 5⟩
/-- `Version2_17`, which introduced binding rotation. -/
def version2_17 : APIVersion := ⟨"2.17", 6⟩

/-- `LatestAPIVersion`. -/
def latestAPIVersion : APIVersion := version2_17

/-- `APIVersions`: the supported revisions keyed by label, in release order (the Go map has no
order; the list's order is the release order the registry promises). -/
def apiVersions : List (GoString × APIVersion) :=
  [("2.11", version2_11), ("2.12", version2_12), ("2.13", version2_13), ("2.14", version2_14),
    ("2.15", version2_15), ("2.16", version2_16), ("2.17", version2_17)]

/- The registry is consistent: each revision is filed under its own label, the orders strictly
increase along the release order, so `AtLeast` is the release order, and `LatestAPIVersion` is
at least every supported revision. -/
example : (∀ p ∈ apiVersions, p.1 = p.2.label) ∧
    apiVersions.Pairwise (fun p q => p.2.order.toNat < q.2.order.toNat) := by
  decide

example : ∀ p ∈ apiVersions, latestAPIVersion.atLeast p.2 = true := by
  decide

end OsbClient
