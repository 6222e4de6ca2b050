import OsbClient.Json.Scanner

/-!
# The grammar of a JSON text

The grammar of a JSON text, over bytes, as the abstract side of the scanner of
`Json/Scanner.lean`: a text is whitespace, one value and whitespace; a value is a literal, a
number, a string, an array or an object. `Json/Valid.lean` proves that
`OsbClient.Json.checkValid` accepts exactly the texts derived here
(`OsbClient.Json.checkValid_eq_none_iff`).

The grammar is written with what the scanner does in two places. A string's unescaped bytes are
any bytes from `0x20` on but the quote and the backslash, whether or not they are UTF-8, since
`stateInString` never decodes a rune; and a text nests at most `OsbClient.Json.maxNestingDepth`
arrays and objects, which is why `OsbClient.Json.Derives` counts the nesting a derivation may
still use.

Whitespace sits after `[`, `{`, `:` and `,` and before `]`, `}`, `:` and `,`: the places where
the scanner's state functions skip it.
-/

namespace OsbClient

namespace Json

/-- `simp` reads a byte literal's value modulo `UInt8.size`; with its value it decides which byte
a literal is. -/
@[simp] theorem uint8_size : UInt8.size = 256 := rfl

/-! ### Tokens -/

/-- `ws = *( %x20 / %x09 / %x0A / %x0D )`. -/
def IsWs (w : GoString) : Prop := ∀ c ∈ w, isSpace c = true

/-- The one-letter escapes: `\"`, `\\`, `\/`, `\b`, `\f`, `\n`, `\r`, `\t`. -/
def isShortEscape (c : UInt8) : Bool :=
  c.toNat = 0x22 || c.toNat = 0x5C || c.toNat = 0x2F || c.toNat = 0x62 || c.toNat = 0x66 ||
    c.toNat = 0x6E || c.toNat = 0x72 || c.toNat = 0x74

/-- `*char`: the bytes between the quotes of a string. -/
inductive StringBody : GoString → Prop
  | nil : StringBody []
  /-- `unescaped`, as Go reads it: a byte, not a decoded code point. -/
  | unescaped {c : UInt8} {cs : GoString} : 0x20 ≤ c.toNat → c.toNat ≠ 0x22 → c.toNat ≠ 0x5C →
      StringBody cs → StringBody (c :: cs)
  | escape {e : UInt8} {cs : GoString} : isShortEscape e = true → StringBody cs →
      StringBody (0x5C :: e :: cs)
  /-- `\u` and four hexadecimal digits. -/
  | unicode {h₁ h₂ h₃ h₄ : UInt8} {cs : GoString} : isHex h₁ = true → isHex h₂ = true →
      isHex h₃ = true → isHex h₄ = true → StringBody cs →
      StringBody (0x5C :: 0x75 :: h₁ :: h₂ :: h₃ :: h₄ :: cs)

/-- `string = quotation-mark *char quotation-mark`. -/
def IsString (s : GoString) : Prop := ∃ cs, StringBody cs ∧ s = 0x22 :: (cs ++ [0x22])

/-- `*DIGIT`. -/
def AllDigits (ds : GoString) : Prop := ∀ c ∈ ds, isDigit c = true

/-- `1*DIGIT`. -/
def IsDigits (ds : GoString) : Prop := ds ≠ [] ∧ AllDigits ds

/-- `int = zero / ( digit1-9 *DIGIT )`. -/
def IsInt (i : GoString) : Prop :=
  i = [0x30] ∨ ∃ c ds, 0x31 ≤ c.toNat ∧ c.toNat ≤ 0x39 ∧ AllDigits ds ∧ i = c :: ds

/-- `frac = decimal-point 1*DIGIT`, or nothing. -/
def IsFrac (f : GoString) : Prop := f = [] ∨ ∃ ds, IsDigits ds ∧ f = 0x2E :: ds

/-- `[ minus / plus ]`. -/
def IsSign (sg : GoString) : Prop := sg = [] ∨ sg = [0x2B] ∨ sg = [0x2D]

/-- `exp = e [ minus / plus ] 1*DIGIT`, or nothing. -/
def IsExp (x : GoString) : Prop :=
  x = [] ∨ ∃ e sg ds, (e.toNat = 0x65 ∨ e.toNat = 0x45) ∧ IsSign sg ∧ IsDigits ds ∧
    x = e :: (sg ++ ds)

/-- `number = [ minus ] int [ frac ] [ exp ]`. -/
def IsNumber (n : GoString) : Prop :=
  ∃ m i f x, (m = [] ∨ m = [0x2D]) ∧ IsInt i ∧ IsFrac f ∧ IsExp x ∧ n = m ++ i ++ f ++ x

/-! ### Values -/

/-- The nonterminals of the grammar. -/
inductive Nonterminal where
  /-- `value`. -/
  | value
  /-- `member = string name-separator value`. -/
  | member
  /-- What follows an array's first element: `*( value-separator value )` and the
  whitespace before `]`. -/
  | elements
  /-- What follows an object's first member: `*( value-separator member )` and the whitespace
  before `}`. -/
  | members

/-- `Derives x d s`: the nonterminal `x` derives the bytes `s`, in which arrays and objects nest
at most `d` deep. -/
inductive Derives : Nonterminal → Nat → GoString → Prop
  /-- `false / null / true`. -/
  | literal {d : Nat} {w : GoString} :
      w = "true" ∨ w = "false" ∨ w = "null" → Derives .value d w
  | number {d : Nat} {n : GoString} : IsNumber n → Derives .value d n
  | string {d : Nat} {s : GoString} : IsString s → Derives .value d s
  | emptyArray {d : Nat} {w : GoString} : IsWs w → Derives .value (d + 1) (0x5B :: w ++ [0x5D])
  | array {d : Nat} {w v es : GoString} : IsWs w → Derives .value d v → Derives .elements d es →
      Derives .value (d + 1) (0x5B :: w ++ v ++ es ++ [0x5D])
  | emptyObject {d : Nat} {w : GoString} : IsWs w → Derives .value (d + 1) (0x7B :: w ++ [0x7D])
  | object {d : Nat} {w m ms : GoString} : IsWs w → Derives .member d m → Derives .members d ms →
      Derives .value (d + 1) (0x7B :: w ++ m ++ ms ++ [0x7D])
  | member {d : Nat} {k w₁ w₂ v : GoString} : IsString k → IsWs w₁ → IsWs w₂ →
      Derives .value d v → Derives .member d (k ++ w₁ ++ 0x3A :: w₂ ++ v)
  | elementsNil {d : Nat} {w : GoString} : IsWs w → Derives .elements d w
  | elementsCons {d : Nat} {w₁ w₂ v es : GoString} : IsWs w₁ → IsWs w₂ → Derives .value d v →
      Derives .elements d es → Derives .elements d (w₁ ++ 0x2C :: w₂ ++ v ++ es)
  | membersNil {d : Nat} {w : GoString} : IsWs w → Derives .members d w
  | membersCons {d : Nat} {w₁ w₂ m ms : GoString} : IsWs w₁ → IsWs w₂ → Derives .member d m →
      Derives .members d ms → Derives .members d (w₁ ++ 0x2C :: w₂ ++ m ++ ms)

/-- **A JSON text**: `ws value ws`, nesting at most `maxNestingDepth` arrays and objects. -/
def Text (s : GoString) : Prop :=
  ∃ w₁ v w₂, IsWs w₁ ∧ Derives .value maxNestingDepth v ∧ IsWs w₂ ∧ s = w₁ ++ v ++ w₂

/-! ### Whitespace -/

@[simp] theorem isWs_nil : IsWs [] := fun _ h => absurd h (List.not_mem_nil _)

theorem isWs_cons {c : UInt8} {w : GoString} : IsWs (c :: w) ↔ isSpace c = true ∧ IsWs w :=
  List.forall_mem_cons

theorem isWs_append {w₁ w₂ : GoString} : IsWs (w₁ ++ w₂) ↔ IsWs w₁ ∧ IsWs w₂ :=
  List.forall_mem_append

/-- Every byte string is a run of bytes that satisfy `p`, followed by bytes that do not start
with one: whitespace and then a token, or the digits of a number and what follows them. -/
theorem exists_span (p : UInt8 → Bool) (s : GoString) :
    ∃ w t, s = w ++ t ∧ (∀ c ∈ w, p c = true) ∧ ∀ c ∈ t.head?, p c = false := by
  induction s with
  | nil => exact ⟨[], [], rfl, by simp, by simp⟩
  | cons c s ih =>
    cases hc : p c
    · exact ⟨[], c :: s, rfl, by simp, by simpa using hc⟩
    · obtain ⟨w, t, rfl, hw, ht⟩ := ih
      exact ⟨c :: w, t, rfl, List.forall_mem_cons.2 ⟨hc, hw⟩, ht⟩

end Json

end OsbClient
