import OsbClient.Url.Parse

/-!
# Paths and their segments

A server reads a request's path segment by segment: it splits the path at each `/` and
percent-decodes each piece. This file relates that reading to the two ways `EscapedPath` writes
a path. Written back by `escape`, a path splits into the escapes of its segments
(`OsbClient.Url.splitOn_escape`), since `escape` keeps `/` and writes no other `/`, and so reads
back as the segments of the path (`OsbClient.Url.mapM_splitOn_escape`); kept as it was written,
a path splits into pieces that decode to the segments of the decoded path as long as no piece
holds an escaped `/` (`OsbClient.Url.mapM_splitOn_unescape`), the one escape that decodes to a
separator.

Together they say what a server reads of any URL whose path as written holds no escaped `/`
(`OsbClient.Url.mapM_splitOn_escapedPath`), and `OsbClient.Url.cut_requestURI` says where the
path of a request target ends: `EscapedPath` writes no `?`, so the first `?` of the target is
the one `RequestURI` puts before the query.
-/

namespace OsbClient

namespace Url

/-! ### Splitting at a byte -/

theorem splitOn_of_not_mem {sep : UInt8} {a : GoString} (h : sep ∉ a) : a.splitOn sep = [a] :=
  List.splitOnP_eq_single _ _ fun x hx hs => h (by simpa using (beq_iff_eq.1 hs) ▸ hx)

/-- Bytes in front of a piece without the separator join its first segment. -/
theorem splitOn_append_of_not_mem {sep : UInt8} {a : GoString} (h : sep ∉ a) (b : GoString) :
    (a ++ b).splitOn sep = (b.splitOn sep).modifyHead (a ++ ·) := by
  induction a with
  | nil => rw [List.nil_append]; cases b.splitOn sep <;> rfl
  | cons c a ih =>
    rw [List.mem_cons, not_or] at h
    simp only [List.splitOn, List.cons_append] at ih ⊢
    rw [List.splitOnP_cons, if_neg (by simpa using Ne.symm h.1), ih h.2]
    cases b.splitOnP (· == sep) <;> rfl

/-- A separator splits a text into the segments before it and those after it. -/
theorem splitOn_append_cons (sep : UInt8) (a b : GoString) :
    (a ++ sep :: b).splitOn sep = a.splitOn sep ++ b.splitOn sep := by
  induction a with
  | nil => simp [List.splitOn, List.splitOnP_cons]
  | cons c a ih =>
    simp only [List.splitOn, List.cons_append] at ih ⊢
    rw [List.splitOnP_cons, List.splitOnP_cons, ih]
    split
    · rfl
    · obtain ⟨s, ss, hs⟩ := List.exists_cons_of_ne_nil (List.splitOnP_ne_nil (· == sep) a)
      rw [hs]; rfl

/-! ### Writing a path back -/

/-- A byte that is neither `%` nor a hexadecimal digit `upperhex` writes is in the escape of a
byte only if it is that byte, kept as it is. -/
theorem not_mem_escapeByte {b c : UInt8} (hb : b.toNat ≠ 0x25 ∧ ∀ n < 16, upperhex n ≠ b)
    (hc : b = c → shouldEscape c .path = true) : b ∉ escapeByte .path c := by
  unfold escapeByte
  split
  · split
    · next h => exact absurd h.2 (by decide)
    · have := c.toNat_lt
      simp only [percentByte, List.mem_cons, List.not_mem_nil, or_false, not_or]
      exact ⟨fun h => hb.1 (by rw [h]; rfl), fun h => hb.2 _ (by omega) h.symm,
        fun h => hb.2 _ (by omega) h.symm⟩
  · next hs => exact fun h => hs (hc (List.mem_singleton.1 h))

theorem slash_not_mem_escapeByte {c : UInt8} (hc : c ≠ 0x2F) :
    (0x2F : UInt8) ∉ escapeByte .path c :=
  not_mem_escapeByte ⟨by decide, by decide⟩ fun h => absurd h.symm hc

theorem escapeByte_slash : escapeByte .path 0x2F = [0x2F] := by decide

/-- **A path written back splits into the escapes of its segments.** -/
theorem splitOn_escape (p : GoString) :
    (escape .path p).splitOn 0x2F = (p.splitOn 0x2F).map (escape .path) := by
  induction p with
  | nil => rfl
  | cons c p ih =>
    rw [escape_cons]
    by_cases hc : c = 0x2F
    · subst hc
      rw [escapeByte_slash, List.singleton_append, ← List.nil_append (0x2F :: escape .path p),
        splitOn_append_cons, ih, ← List.nil_append (0x2F :: p), splitOn_append_cons]
      rfl
    · rw [splitOn_append_of_not_mem (slash_not_mem_escapeByte hc), ih,
        ← List.singleton_append, splitOn_append_of_not_mem (by simpa using Ne.symm hc)]
      obtain ⟨s, ss, hs⟩ := List.exists_cons_of_ne_nil (List.splitOnP_ne_nil (· == (0x2F : UInt8)) p)
      simp only [List.splitOn] at hs ⊢
      rw [hs]
      rfl

/-- `escape` writes no `?` into a path: it escapes every `?`. -/
theorem question_not_mem_escape (p : GoString) : (0x3F : UInt8) ∉ escape .path p := fun h => by
  obtain ⟨c, -, hc⟩ := List.mem_flatMap.1 h
  exact not_mem_escapeByte ⟨by decide, by decide⟩ (fun h => h ▸ rfl) hc

theorem escapeByte_ne_nil (mode : Encoding) (c : UInt8) : escapeByte mode c ≠ [] := by
  unfold escapeByte; split_ifs <;> simp [percentByte]

/-! ### Reading a path segment by segment -/

theorem splitOn_cons_of_ne {sep c : UInt8} (hc : c ≠ sep) (s : GoString) :
    (c :: s).splitOn sep = (s.splitOn sep).modifyHead (c :: ·) :=
  splitOn_append_of_not_mem (a := [c]) (by simpa using Ne.symm hc) s

theorem splitOn_cons_self (sep : UInt8) (s : GoString) :
    (sep :: s).splitOn sep = [] :: s.splitOn sep :=
  splitOn_append_cons sep [] s

theorem mapM_map_ok {α β ε : Type} {f : α → Except ε β} {g : β → α} (h : ∀ b, f (g b) = .ok b)
    (l : List β) : (l.map g).mapM f = .ok l := by
  induction l with
  | nil => rfl
  | cons b l ih =>
    simp only [List.map_cons, List.mapM_cons, h, ih, bind, Except.bind, pure, Except.pure]

/-- `mapM` over a list whose first element is changed by `g`, where `f` turns `g` into `g'`. -/
theorem mapM_modifyHead {α β ε : Type} {f : α → Except ε β} {g : α → α} {g' : β → β}
    (hf : ∀ a, f (g a) = (f a).map g') {l : List α} {l' : List β} (h : l.mapM f = .ok l') :
    (l.modifyHead g).mapM f = .ok (l'.modifyHead g') := by
  cases l with
  | nil => cases h; rfl
  | cons a l =>
    cases ha : f a with
    | error => simp only [List.mapM_cons, ha, bind, Except.bind] at h; cases h
    | ok b =>
      cases hl : l.mapM f with
      | error => simp only [List.mapM_cons, ha, hl, bind, Except.bind] at h; cases h
      | ok bs =>
        simp only [List.mapM_cons, ha, hl, bind, Except.bind, pure, Except.pure,
          Except.ok.injEq] at h
        subst h
        simp only [List.modifyHead, List.mapM_cons, hf, ha, hl, bind, Except.bind, pure,
          Except.pure, Except.map]

/-- `unhex` by cases: the value of a digit, of a lower-case letter, of an upper-case letter, or
`0`. -/
theorem unhex_cases (c : UInt8) :
    (0x30 ≤ c.toNat ∧ c.toNat ≤ 0x39 ∧ unhex c = c.toNat - 0x30) ∨
    (0x61 ≤ c.toNat ∧ c.toNat ≤ 0x66 ∧ unhex c = c.toNat - 0x57) ∨
    (0x41 ≤ c.toNat ∧ c.toNat ≤ 0x46 ∧ unhex c = c.toNat - 0x37) ∨ unhex c = 0 := by
  unfold unhex isDigit
  split_ifs <;> simp_all

/-- The one escape that decodes to `/`: `%2F`, in either case. -/
theorem unhex_eq_slash {x y : UInt8} (h : UInt8.ofNat (unhex x * 16 + unhex y) = 0x2F) :
    x.toNat = 0x32 ∧ (y.toNat = 0x46 ∨ y.toNat = 0x66) := by
  have h47 : (unhex x * 16 + unhex y) % 256 = 0x2F := congrArg UInt8.toNat h
  rcases unhex_cases x with hx | hx | hx | hx <;> rcases unhex_cases y with hy | hy | hy | hy <;>
    omega

theorem isHex_ne_slash {x : UInt8} (hx : isHex x = true) : x ≠ 0x2F := fun h => by
  subst h; exact absurd hx (by decide)

/-- **A path read segment by segment**: splitting a path as written at `/` and unescaping each
piece gives the segments of the unescaped path, as long as no piece holds an escaped `/`. -/
theorem mapM_splitOn_unescape {q path : GoString} (hq : unescape .pathSegment q = .ok path)
    (h2F : ¬[0x25, 0x32, 0x46] <:+: q) (h2f : ¬[0x25, 0x32, 0x66] <:+: q) :
    (q.splitOn 0x2F).mapM pathUnescape = .ok (path.splitOn 0x2F) := by
  induction q using unescape.induct .pathSegment generalizing path with
  | case1 => cases hq; rfl
  | case2 c hc x y rest hxy => rename_i hhost; exact absurd hhost.1 (by decide)
  | case3 c hc x y rest hxy => rename_i hhost hzone; exact absurd hzone.1 (by decide)
  | case4 c hc x y rest hxy =>
    rename_i hhost hzone ih
    have hstep : ∀ s, pathUnescape (c :: x :: y :: s) =
        (pathUnescape s).map (UInt8.ofNat (unhex x * 16 + unhex y) :: ·) := fun s => by
      rw [pathUnescape, unescape_pct hc, if_pos hxy, if_neg hhost, if_neg hzone]; rfl
    rw [← pathUnescape, hstep] at hq
    obtain ⟨path', hr, rfl⟩ := map_eq_ok hq
    obtain ⟨hx, hy⟩ := Bool.and_eq_true_iff.1 hxy
    have hsuf : ∀ l : GoString, ¬l <:+: c :: x :: y :: rest → ¬l <:+: rest :=
      fun l h h' => h (h'.trans (List.suffix_append [c, x, y] rest).isInfix)
    -- The escape is not `%2F`, so the byte it decodes to is not a separator.
    have hd : UInt8.ofNat (unhex x * 16 + unhex y) ≠ 0x2F := fun hd => by
      obtain ⟨h2, hF | hF⟩ := unhex_eq_slash hd
      · rw [byte_eq_of_toNat hc, byte_eq_of_toNat h2, byte_eq_of_toNat hF] at h2F
        exact h2F (List.prefix_append _ rest).isInfix
      · rw [byte_eq_of_toNat hc, byte_eq_of_toNat h2, byte_eq_of_toNat hF] at h2f
        exact h2f (List.prefix_append _ rest).isInfix
    have hcxy : (0x2F : UInt8) ∉ [c, x, y] := by
      simp only [List.mem_cons, List.not_mem_nil, or_false, not_or]
      exact ⟨fun h => by rw [← h] at hc; exact absurd hc (by decide),
        Ne.symm (isHex_ne_slash hx), Ne.symm (isHex_ne_slash hy)⟩
    rw [show c :: x :: y :: rest = [c, x, y] ++ rest from rfl, splitOn_append_of_not_mem hcxy,
      splitOn_cons_of_ne hd]
    exact mapM_modifyHead (fun s => hstep s) (ih hr (hsuf _ h2F) (hsuf _ h2f))
  | case5 c hc x y rest hxy => rw [unescape_pct hc, if_neg hxy] at hq; cases hq
  | case6 c rest hc hshort =>
    match rest, hshort with
    | [], _ | [_], _ => simp only [unescape, if_pos hc] at hq; cases hq
    | x :: y :: rest', hshort => exact (hshort x y rest' rfl).elim
  | case7 c rest hc hplus => exact absurd hplus.2 (by decide)
  | case8 c rest hc hplus hhost => exact absurd hhost.1 (by decide)
  | case9 c rest hc hplus hhost ih =>
    have hstep : ∀ s, pathUnescape (c :: s) = (pathUnescape s).map (c :: ·) := fun s =>
      unescape_cons_plain s hc hplus (by decide)
    rw [← pathUnescape, hstep] at hq
    obtain ⟨path', hr, rfl⟩ := map_eq_ok hq
    have hsuf : ∀ l : GoString, ¬l <:+: c :: rest → ¬l <:+: rest :=
      fun l h h' => h (h'.trans (List.suffix_cons c rest).isInfix)
    have ih' := ih hr (hsuf _ h2F) (hsuf _ h2f)
    by_cases hs : c = 0x2F
    · subst hs
      rw [splitOn_cons_self, splitOn_cons_self]
      simp only [List.mapM_cons, ih', bind, Except.bind, pure, Except.pure]
      rfl
    · rw [splitOn_cons_of_ne hs, splitOn_cons_of_ne hs]
      exact mapM_modifyHead (fun s => hstep s) ih'

/-- A text without `%` reads back segment by segment as itself. -/
theorem mapM_splitOn_of_no_pct {s : GoString} (h : ∀ c ∈ s, c.toNat ≠ 0x25) :
    (s.splitOn 0x2F).mapM pathUnescape = .ok (s.splitOn 0x2F) :=
  mapM_splitOn_unescape (unescape_of_no_pct (by decide) h)
    (fun hi => h _ (hi.subset (List.mem_cons_self _ _)) rfl)
    (fun hi => h _ (hi.subset (List.mem_cons_self _ _)) rfl)

/-- Segments read back piece by piece across a `/`. -/
theorem mapM_splitOn_append_slash {q₁ q₂ p₁ p₂ : GoString}
    (h₁ : (q₁.splitOn 0x2F).mapM pathUnescape = .ok (p₁.splitOn 0x2F))
    (h₂ : (q₂.splitOn 0x2F).mapM pathUnescape = .ok (p₂.splitOn 0x2F)) :
    ((q₁ ++ 0x2F :: q₂).splitOn 0x2F).mapM pathUnescape =
      .ok ((p₁ ++ 0x2F :: p₂).splitOn 0x2F) := by
  rw [splitOn_append_cons, splitOn_append_cons, List.mapM_append, h₁, h₂]
  rfl

/-- `PathUnescape` reads back what `escape` writes into a path. -/
theorem pathUnescape_escape (s : GoString) : pathUnescape (escape .path s) = .ok s := by
  have h := unescape_escape .pathSegment .path (by decide) (by decide) s []
  rw [List.append_nil] at h
  exact h.trans (by simp [unescape, Except.map])

/-- **A path written back reads back as its segments.** -/
theorem mapM_splitOn_escape (p : GoString) :
    ((escape .path p).splitOn 0x2F).mapM pathUnescape = .ok (p.splitOn 0x2F) := by
  rw [splitOn_escape]
  exact mapM_map_ok pathUnescape_escape _

/-! ### The target of a request -/

/-- **What a server reads of `EscapedPath`**: the segments of the path, whenever the path as
written, if it is kept, reads back as them. -/
theorem mapM_splitOn_escapedPath {v : URL}
    (hraw : v.rawPath = [] ∨
      (v.rawPath.splitOn 0x2F).mapM pathUnescape = .ok (v.path.splitOn 0x2F)) :
    (v.escapedPath.splitOn 0x2F).mapM pathUnescape = .ok (v.path.splitOn 0x2F) := by
  unfold URL.escapedPath
  split
  · next h => exact hraw.resolve_left h.1
  · split
    · next hstar => rw [hstar]; rfl
    · exact mapM_splitOn_escape v.path

theorem question_not_mem_escapedPath {v : URL} (h : 0x3F ∉ v.rawPath) :
    0x3F ∉ v.escapedPath := by
  unfold URL.escapedPath
  split
  · exact h
  · split
    · decide
    · exact question_not_mem_escape _

theorem escapedPath_ne_nil {v : URL} (h : v.path ≠ []) : v.escapedPath ≠ [] := by
  unfold URL.escapedPath
  split
  · next h' => exact h'.1
  · split
    · exact List.cons_ne_nil _ _
    · obtain ⟨c, p, hp⟩ := List.exists_cons_of_ne_nil h
      rw [hp, escape_cons]
      simp [escapeByte_ne_nil]

/-- **The target of a request** is its escaped path and, after the first `?`, its query. -/
theorem cut_requestURI {v : URL} (ho : v.opaqueText = []) (hne : v.escapedPath ≠ [])
    (hq : 0x3F ∉ v.escapedPath) : cut 0x3F v.requestURI = (v.escapedPath, v.rawQuery) := by
  unfold URL.requestURI
  simp only [ho, if_true, if_neg hne]
  split
  · rw [List.append_assoc, List.singleton_append, cut_append _ hq]
  · next h =>
    rw [cut_of_not_mem hq]
    simp only [not_or, ne_eq, not_not] at h
    rw [h.2]

/-- **The target of a URL whose path runs on past a path as written**: when the path is the
decoding `base` of a text `p` as written, then a `/` and a text `t` with no `%`, and `rawPath` is
what `setPath` keeps of `p ++ 0x2F :: t`, the path of the target reads back as the segments of
`base` followed by those of `t`, and its query follows its first `?`. -/
theorem requestURI_append {v : URL} {p base t : GoString} (hp : unescape .path p = .ok base)
    (h2F : ¬[0x25, 0x32, 0x46] <:+: p) (h2f : ¬[0x25, 0x32, 0x66] <:+: p)
    (hq : 0x3F ∉ p ++ 0x2F :: t) (ht : ∀ b ∈ t, b.toNat ≠ 0x25) (ho : v.opaqueText = [])
    (hpath : v.path = base ++ 0x2F :: t)
    (hraw : v.rawPath = if escape .path v.path = p ++ 0x2F :: t then [] else p ++ 0x2F :: t) :
    cut 0x3F v.requestURI = (v.escapedPath, v.rawQuery) ∧
      (v.escapedPath.splitOn 0x2F).mapM pathUnescape =
        .ok (base.splitOn 0x2F ++ t.splitOn 0x2F) := by
  have hslash : (0x2F : UInt8) ∈ v.path := by rw [hpath]; simp
  have hq' : 0x3F ∉ v.rawPath := by
    rw [hraw]; split
    · exact List.not_mem_nil _
    · exact hq
  refine ⟨cut_requestURI ho (escapedPath_ne_nil (List.ne_nil_of_mem hslash))
    (question_not_mem_escapedPath hq'), ?_⟩
  rw [mapM_splitOn_escapedPath, hpath, splitOn_append_cons]
  rw [hraw]; split
  · exact .inl rfl
  · rw [unescape_path_eq_pathSegment] at hp
    rw [hpath]
    exact .inr <| mapM_splitOn_append_slash (mapM_splitOn_unescape hp h2F h2f) (mapM_splitOn_of_no_pct ht)

end Url

end OsbClient
