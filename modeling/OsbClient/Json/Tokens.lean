import OsbClient.Json.Grammar

/-!
# The scanner on tokens

What the scanner of `Json/Scanner.lean` does with each token of the grammar of
`Json/Grammar.lean`: whitespace, strings, the literals and numbers. Each token gets two
lemmas. A run lemma says where the scanner ends after reading the token
(`OsbClient.Json.scanAll_string`, `OsbClient.Json.scanAll_number`). An inversion lemma says
that a run which is accepted in the end, started where the token starts, reads one such token
first (`OsbClient.Json.string_of_accepted`, `OsbClient.Json.number_of_accepted`).

A number has no closing byte: the scanner is still in one of its number steps after the last
digit, and only the next byte, read as `stateEndValue` reads it, ends the number.
`OsbClient.Json.Step.closes` says which bytes do that in which step.
-/

namespace OsbClient

namespace Json

open Scanner

/-! ### Runs and errors -/

@[simp] theorem scanAll_nil (K : Scanner) : scanAll K [] = K := rfl

@[simp] theorem scanAll_cons (K : Scanner) (c : UInt8) (t : GoString) :
    scanAll K (c :: t) = scanAll (step { K with bytes := K.bytes + 1 } c) t := rfl

theorem scanAll_append (K : Scanner) (s t : GoString) :
    scanAll K (s ++ t) = scanAll (scanAll K s) t := by
  induction s generalizing K with
  | nil => rfl
  | cons c s ih => exact ih _

/-- What `eof` needs to accept: no error, and the top-level value over, or ended by a space. -/
theorem eof_eq_none {K : Scanner} (h : eof K = none) :
    K.err = none ∧ (K.endTop = true ∨ (step K 0x20).endTop = true) := by
  unfold eof at h
  split at h
  · cases h
  · refine ⟨‹_›, ?_⟩
    by_contra hn
    simp only [not_or, Bool.not_eq_true] at hn
    simp [hn.1, hn.2] at h

/-- Once failed, the scanner stays failed: `stateError` reads every byte as an error. -/
theorem scanAll_error {K : Scanner} (hK : K.step = .error) (s : GoString) :
    ∃ b, scanAll K s = { K with bytes := b } := by
  induction s generalizing K with
  | nil => exact ⟨K.bytes, rfl⟩
  | cons c s ih =>
    have : step { K with bytes := K.bytes + 1 } c = { K with bytes := K.bytes + 1 } := by
      simp [step, hK]
    rw [scanAll_cons, this]
    exact ih hK

/-- A run that fails is not accepted, whatever follows. -/
theorem not_accepted_fail (K : Scanner) (c : UInt8) (m : String) (s : GoString) :
    eof (scanAll (K.fail c m) s) ≠ none := fun h => by
  obtain ⟨b, hb⟩ := scanAll_error (K := K.fail c m) rfl s
  rw [hb] at h
  simpa [Scanner.fail] using (eof_eq_none h).1

/-! ### Whitespace -/

/-- The steps that read whitespace by doing nothing. -/
def Step.skipsSpace : Step → Bool
  | .beginValueOrEmpty | .beginValue | .beginStringOrEmpty | .beginString | .endTop => true
  | _ => false

theorem step_space {K : Scanner} {c : UInt8} (hK : K.step.skipsSpace = true)
    (hc : isSpace c = true) : step K c = K := by
  rcases K with ⟨q, ps, t, e, b⟩
  cases q <;> simp_all [Step.skipsSpace, step, beginValue, beginString, endTop]

theorem scanAll_ws (K : Scanner) {w : GoString} (hK : K.step.skipsSpace = true) (hw : IsWs w) :
    ∃ b, scanAll K w = { K with bytes := b } := by
  induction w generalizing K with
  | nil => exact ⟨K.bytes, rfl⟩
  | cons c w ih =>
    rw [isWs_cons] at hw
    rw [scanAll_cons, step_space (K := { K with bytes := K.bytes + 1 }) hK hw.1]
    exact ih _ hK hw.2

/-- The first step of a value, on any byte but whitespace and `]`. -/
theorem step_beginsValue {K : Scanner} {c : UInt8}
    (hK : K.step = .beginValue ∨ K.step = .beginValueOrEmpty) (hs : isSpace c = false)
    (hc : c.toNat ≠ 0x5D) : step K c = beginValue K c := by
  rcases hK with hK | hK <;> simp [step, hK, hs, hc]

/-! ### Strings -/

theorem isShortEscape_iff {e : UInt8} : isShortEscape e = true ↔
    (e.toNat = 0x62 ∨ e.toNat = 0x66 ∨ e.toNat = 0x6E ∨ e.toNat = 0x72 ∨ e.toNat = 0x74 ∨
      e.toNat = 0x5C ∨ e.toNat = 0x2F ∨ e.toNat = 0x22) := by
  simp only [isShortEscape, Bool.or_eq_true, decide_eq_true_eq, or_assoc]
  constructor <;> rintro (h | h | h | h | h | h | h | h) <;> simp only [h, true_or, or_true]

/-- **The scanner reads a string's body and its closing quote**, and is then after a value. -/
theorem scanAll_string {cs : GoString} (h : StringBody cs) {K : Scanner}
    (hK : K.step = .inString) :
    ∃ b, scanAll K (cs ++ [0x22]) = { K with step := .endValue, bytes := b } := by
  induction h generalizing K with
  | nil => exact ⟨K.bytes + 1, by simp [step, hK]⟩
  | unescaped h₁ h₂ h₃ _ ih =>
    simp only [List.cons_append, scanAll_cons]
    simpa [step, hK, h₂, h₃, Nat.not_lt.2 h₁] using ih (K := { K with bytes := K.bytes + 1 }) hK
  | @escape e _ he _ ih =>
    have hu : e.toNat ≠ 0x75 := by have := isShortEscape_iff.1 he; omega
    simp only [List.cons_append, scanAll_cons]
    simpa [step, hK, hu, isShortEscape_iff.1 he] using ih (K := { K with bytes := K.bytes + 2 }) hK
  | unicode h₁ h₂ h₃ h₄ _ ih =>
    simp only [List.cons_append, scanAll_cons]
    simpa [step, hK, h₁, h₂, h₃, h₄] using ih (K := { K with bytes := K.bytes + 6 }) hK

/-- At the end of the input, a scanner that a space does not bring to the end of the top-level
value refuses. -/
theorem eof_ne_none {K : Scanner} (hT : K.endTop = false) (hs : (step K 0x20).endTop = false) :
    eof K ≠ none := fun h => by
  rcases (eof_eq_none h).2 with h | h <;> simp_all

/-- In `stateInStringEscU`, an accepted run reads the hexadecimal digits still owed. -/
theorem hex_of_accepted : ∀ (k : Nat) {K : Scanner} {t : GoString},
    eof (scanAll K t) = none → K.step = .inStringEscU (k + 1) → K.endTop = false →
    ∃ hs r, t = hs ++ r ∧ hs.length = k + 1 ∧ (∀ h ∈ hs, isHex h = true) ∧
      ∃ b, scanAll K hs = { K with step := .inString, bytes := b }
  | k, K, [], h, hK, hT =>
    absurd h (eof_ne_none hT (by simp [step, hK, isHex, isDigit, Scanner.fail, hT]))
  | k, K, c :: t, h, hK, hT => by
    rw [scanAll_cons] at h
    by_cases hc : isHex c = true
    · cases k with
      | zero =>
        exact ⟨[c], t, rfl, rfl, by simpa using hc, K.bytes + 1, by simp [step, hK, hc]⟩
      | succ k =>
        simp only [step, hK, hc, if_true, Nat.reduceLeDiff, if_false] at h
        obtain ⟨hs, r, rfl, hlen, hhex, b, hb⟩ := hex_of_accepted k h rfl hT
        refine ⟨c :: hs, r, rfl, by simp [hlen], by simpa [hc] using hhex, b, ?_⟩
        simpa [step, hK, hc] using hb
    · simp only [step, hK, hc, if_false] at h
      exact absurd h (not_accepted_fail _ _ _ _)

/-- **An accepted run inside a string reads a string body and its closing quote.** -/
theorem string_of_accepted {K : Scanner} {t : GoString} (h : eof (scanAll K t) = none)
    (hK : K.step = .inString) (hT : K.endTop = false) :
    ∃ cs r, t = cs ++ 0x22 :: r ∧ StringBody cs := by
  suffices ∀ n (K : Scanner) (t : GoString), t.length < n → eof (scanAll K t) = none →
      K.step = .inString → K.endTop = false → ∃ cs r, t = cs ++ 0x22 :: r ∧ StringBody cs from
    this _ K t (Nat.lt_succ_self _) h hK hT
  intro n
  induction n with
  | zero => intro K t hn; omega
  | succ n ih =>
  intro K t hn h hK hT
  match t with
  | [] => exact absurd h (eof_ne_none hT (by simp [step, hK, hT]))
  | c :: t =>
    rw [scanAll_cons] at h
    by_cases hq : c.toNat = 0x22
    · exact ⟨[], t, by rw [byte_eq_of_toNat hq]; rfl, .nil⟩
    by_cases hb : c.toNat = 0x5C
    · simp only [step, hK, hq, hb, if_true, if_false] at h
      rw [byte_eq_of_toNat hb]
      match t with
      | [] => exact absurd h (eof_ne_none hT (by simp [step, Scanner.fail, hT]))
      | e :: t =>
        rw [scanAll_cons] at h
        by_cases hu : e.toNat = 0x75
        · simp only [step, hu, if_true] at h
          obtain ⟨hs, r, rfl, hlen, hhex, b, hr⟩ := hex_of_accepted 3 h rfl hT
          rw [scanAll_append, hr] at h
          obtain ⟨cs, r, rfl, hcs⟩ := ih _ _ (by simp at hn; omega) h rfl hT
          match hs, hlen, hhex with
          | [h₁, h₂, h₃, h₄], _, hhex =>
            simp only [List.mem_cons, List.mem_singleton, forall_eq_or_imp, forall_eq,
              List.not_mem_nil, or_false] at hhex
            refine ⟨0x5C :: e :: h₁ :: h₂ :: h₃ :: h₄ :: cs, r, rfl, ?_⟩
            rw [byte_eq_of_toNat hu]
            exact .unicode hhex.1 hhex.2.1 hhex.2.2.1 hhex.2.2.2 hcs
        by_cases he : isShortEscape e = true
        · simp only [step, hu, isShortEscape_iff.1 he, if_true, if_false] at h
          obtain ⟨cs, r, rfl, hcs⟩ := ih _ _ (by simp at hn; omega) h rfl hT
          exact ⟨0x5C :: e :: cs, r, rfl, .escape he hcs⟩
        · rw [isShortEscape_iff] at he
          simp only [step, hu, he, if_false] at h
          exact absurd h (not_accepted_fail _ _ _ _)
    by_cases hlt : c.toNat < 0x20
    · simp only [step, hK, hq, hb, hlt, if_true, if_false] at h
      exact absurd h (not_accepted_fail _ _ _ _)
    · simp only [step, hK, hq, hb, hlt, if_false] at h
      obtain ⟨cs, r, rfl, hcs⟩ := ih _ _ (by simp at hn; omega) h rfl hT
      exact ⟨c :: cs, r, rfl, .unescaped (Nat.not_lt.1 hlt) hq hb hcs⟩

/-! ### Literals -/

/-- **In a literal, the scanner reads the bytes it still owes** and is then after a value. -/
theorem scanAll_literal : ∀ {owed : GoString} {K : Scanner} {word : String},
    K.step = .literal owed word → owed ≠ [] →
    ∃ b, scanAll K owed = { K with step := .endValue, bytes := b }
  | [_], K, _, hK, _ => ⟨K.bytes + 1, by simp [step, hK]⟩
  | _ :: b :: owed, K, word, hK, _ => by
    simpa [step, hK] using
      scanAll_literal (K := { K with step := .literal (b :: owed) word, bytes := K.bytes + 1 }) rfl
      (List.cons_ne_nil _ _)

/-- An accepted run in a literal reads the bytes it owes. -/
theorem literal_of_accepted : ∀ {owed : GoString} {K : Scanner} {word : String} {t : GoString},
    eof (scanAll K t) = none → K.step = .literal owed word → K.endTop = false →
    ∃ r, t = owed ++ r
  | [], _, _, t, _, _, _ => ⟨t, rfl⟩
  | b :: owed, K, word, [], h, hK, hT => by
    rw [scanAll_nil] at h
    refine absurd h (eof_ne_none hT ?_)
    have : (step K 0x20).endTop = K.endTop := by
      simp only [step, hK]
      split_ifs <;> rfl
    rw [this, hT]
  | b :: owed, K, word, c :: t, h, hK, hT => by
    rw [scanAll_cons] at h
    by_cases hc : c = b
    · subst hc
      cases owed with
      | nil => exact ⟨t, rfl⟩
      | cons b' owed =>
        simp only [step, hK, if_true, reduceCtorEq, if_false] at h
        obtain ⟨r, rfl⟩ := literal_of_accepted h rfl hT
        exact ⟨r, rfl⟩
    · simp only [step, hK, hc, if_false] at h
      exact absurd h (not_accepted_fail _ _ _ _)

/-- **The scanner reads `true`, `false` and `null` from the start of a value**, and is then
after a value. -/
theorem scanAll_word {K : Scanner} {w : GoString}
    (hK : K.step = .beginValue ∨ K.step = .beginValueOrEmpty)
    (hw : w = "true" ∨ w = "false" ∨ w = "null") :
    ∃ b, scanAll K w = { K with step := .endValue, bytes := b } := by
  have first : ∀ (c : UInt8) (owed : GoString) (word : String),
      step { K with bytes := K.bytes + 1 } c =
        { K with step := .literal owed word, bytes := K.bytes + 1 } → owed ≠ [] →
      ∃ b, scanAll K (c :: owed) = { K with step := .endValue, bytes := b } := fun c owed word hs hne => by
    rw [scanAll_cons, hs]
    exact scanAll_literal (K := { K with step := .literal owed word, bytes := K.bytes + 1 }) rfl hne
  have hs : ∀ c : UInt8, c.toNat ≠ 0x20 ∧ c.toNat ≠ 0x09 ∧ c.toNat ≠ 0x0D ∧ c.toNat ≠ 0x0A →
      c.toNat ≠ 0x5D → step { K with bytes := K.bytes + 1 } c = beginValue { K with bytes := K.bytes + 1 } c :=
    fun c h1 h2 => step_beginsValue hK (by simp [isSpace, h1]) h2
  rcases hw with rfl | rfl | rfl
  · exact first 0x74 "rue" "true" (by rw [hs _ (by decide) (by decide)]; simp [beginValue, isSpace])
      (by decide)
  · exact first 0x66 "alse" "false" (by rw [hs _ (by decide) (by decide)]; simp [beginValue, isSpace])
      (by decide)
  · exact first 0x6E "ull" "null" (by rw [hs _ (by decide) (by decide)]; simp [beginValue, isSpace])
      (by decide)

/-- An accepted run that starts a value with `t`, `f` or `n` reads `true`, `false` or `null`. -/
theorem word_of_accepted {K : Scanner} {c : UInt8} {t : GoString}
    (h : eof (scanAll K (c :: t)) = none) (hK : K.step = .beginValue) (hT : K.endTop = false)
    (hc : c.toNat = 0x74 ∨ c.toNat = 0x66 ∨ c.toNat = 0x6E) :
    ∃ w r, c :: t = w ++ r ∧ (w = "true" ∨ w = "false" ∨ w = "null") := by
  rw [scanAll_cons] at h
  rcases hc with hc | hc | hc <;> rw [byte_eq_of_toNat hc] at h ⊢ <;>
    simp only [step, beginValue, hK] at h <;> simp [isSpace] at h
  · obtain ⟨r, rfl⟩ := literal_of_accepted h rfl hT
    exact ⟨"true", r, rfl, .inl rfl⟩
  · obtain ⟨r, rfl⟩ := literal_of_accepted h rfl hT
    exact ⟨"false", r, rfl, .inr (.inl rfl)⟩
  · obtain ⟨r, rfl⟩ := literal_of_accepted h rfl hT
    exact ⟨"null", r, rfl, .inr (.inr rfl)⟩

/-! ### Numbers -/

/-- After a value, whether the scanner reads the byte `c` as `stateEndValue` does, ending the
value. In a number's last steps the bytes that continue the number do not end it. -/
def Step.closes : Step → UInt8 → Bool
  | .endValue, _ | .endTop, _ => true
  | .zero, c => !(c.toNat = 0x2E || c.toNat = 0x65 || c.toNat = 0x45)
  | .one, c => !(isDigit c || c.toNat = 0x2E || c.toNat = 0x65 || c.toNat = 0x45)
  | .dot0, c => !(isDigit c || c.toNat = 0x65 || c.toNat = 0x45)
  | .e0, c => !isDigit c
  | _, _ => false

/-- The scanner, from `K`, reads `n` and stops in one of the steps that end a number, one in
which the first byte of `r` ends it. -/
def EndsNumber (K : Scanner) (n r : GoString) : Prop :=
  ∃ q b, (q = .zero ∨ q = .one ∨ q = .dot0 ∨ q = .e0) ∧
    scanAll K n = { K with step := q, bytes := b } ∧ ∀ c ∈ r.head?, q.closes c = true

theorem step_digit {K : Scanner} {c : UInt8} (hK : K.step = .one ∨ K.step = .dot0 ∨ K.step = .e0)
    (hc : isDigit c = true) : step K c = K := by
  rcases hK with hK | hK | hK <;> simp [step, hK, hc]

theorem step_exp {K : Scanner} {c : UInt8}
    (hK : K.step = .zero ∨ K.step = .one ∨ K.step = .dot0) (hc : c.toNat = 0x65 ∨ c.toNat = 0x45) :
    step K c = { K with step := .e } := by
  have hd : isDigit c = false := by simp [isDigit]; omega
  have hdot : c.toNat ≠ 0x2E := by omega
  rcases hK with hK | hK | hK <;> simp [step, zero, hK, hd, hdot, hc]

theorem step_dot {K : Scanner} {c : UInt8} (hK : K.step = .zero ∨ K.step = .one)
    (hc : c.toNat = 0x2E) : step K c = { K with step := .dot } := by
  have hd : isDigit c = false := by simp [isDigit]; omega
  rcases hK with hK | hK <;> simp [step, zero, hK, hd, hc]

theorem step_expDigit {K : Scanner} {c : UInt8} (hK : K.step = .e ∨ K.step = .eSign)
    (hc : isDigit c = true) : step K c = { K with step := .e0 } := by
  have : ¬(c.toNat = 0x2B ∨ c.toNat = 0x2D) := by simp [isDigit] at hc; omega
  rcases hK with hK | hK <;> simp [step, eSign, hK, hc, this]

theorem scanAll_digits {K : Scanner} {ds : GoString}
    (hK : K.step = .one ∨ K.step = .dot0 ∨ K.step = .e0) (hds : AllDigits ds) :
    ∃ b, scanAll K ds = { K with bytes := b } := by
  induction ds generalizing K with
  | nil => exact ⟨K.bytes, rfl⟩
  | cons d ds ih =>
    simp only [AllDigits, List.mem_cons, forall_eq_or_imp] at hds
    rw [scanAll_cons, step_digit (K := { K with bytes := K.bytes + 1 }) hK hds.1]
    exact ih hK hds.2

/-- From `stateE`, the scanner reads an optional sign and a digit. -/
theorem scanAll_signDigit {K : Scanner} {sg : GoString} {d : UInt8} (hK : K.step = .e)
    (hsg : IsSign sg) (hd : isDigit d = true) :
    ∃ b, scanAll K (sg ++ [d]) = { K with step := .e0, bytes := b } := by
  have : ¬(d.toNat = 0x2B ∨ d.toNat = 0x2D) := by simp [isDigit] at hd; omega
  rcases hsg with rfl | rfl | rfl <;> simp [step, eSign, hK, hd, this]

/-- The scanner reads an exponent from the end of an integer or a fraction. -/
theorem scanAll_exp {K : Scanner} {x : GoString}
    (hK : K.step = .zero ∨ K.step = .one ∨ K.step = .dot0) (hx : IsExp x) (hne : x ≠ []) :
    ∃ b, scanAll K x = { K with step := .e0, bytes := b } := by
  obtain rfl | ⟨e, sg, ds, he, hsg, ⟨hds0, hds⟩, rfl⟩ := hx
  · exact absurd rfl hne
  obtain ⟨d, ds, rfl⟩ := List.exists_cons_of_ne_nil hds0
  simp only [AllDigits, List.mem_cons, forall_eq_or_imp] at hds
  rw [scanAll_cons, step_exp (K := { K with bytes := K.bytes + 1 }) hK he,
    show sg ++ d :: ds = (sg ++ [d]) ++ ds by simp, scanAll_append]
  obtain ⟨b, hb⟩ := scanAll_signDigit (K := { K with step := .e, bytes := K.bytes + 1 }) rfl hsg hds.1
  rw [hb]
  exact scanAll_digits (Or.inr (Or.inr rfl)) hds.2

theorem step_fracDigit {K : Scanner} {c : UInt8} (hK : K.step = .dot) (hc : isDigit c = true) :
    step K c = { K with step := .dot0 } := by
  simp [step, hK, hc]

/-- The scanner reads a fraction from the end of an integer. -/
theorem scanAll_frac {K : Scanner} {f : GoString} (hK : K.step = .zero ∨ K.step = .one)
    (hf : IsFrac f) (hne : f ≠ []) : ∃ b, scanAll K f = { K with step := .dot0, bytes := b } := by
  obtain rfl | ⟨ds, ⟨hds0, hds⟩, rfl⟩ := hf
  · exact absurd rfl hne
  obtain ⟨d, ds, rfl⟩ := List.exists_cons_of_ne_nil hds0
  simp only [AllDigits, List.mem_cons, forall_eq_or_imp] at hds
  rw [scanAll_cons, step_dot (K := { K with bytes := K.bytes + 1 }) (c := 0x2E) hK rfl, scanAll_cons,
    step_fracDigit (K := { K with step := .dot, bytes := K.bytes + 1 + 1 }) rfl hds.1]
  exact scanAll_digits (Or.inr (Or.inl rfl)) hds.2

/-- After an integer the scanner reads `[ frac ] [ exp ]` and stops in a step that ends a
number. -/
theorem scanAll_fracExp {K : Scanner} {f x : GoString} (hK : K.step = .zero ∨ K.step = .one)
    (hf : IsFrac f) (hx : IsExp x) :
    ∃ q b, (q = .zero ∨ q = .one ∨ q = .dot0 ∨ q = .e0) ∧
      scanAll K (f ++ x) = { K with step := q, bytes := b } := by
  by_cases hf0 : f = []
  · subst hf0
    by_cases hx0 : x = []
    · subst hx0
      exact ⟨K.step, K.bytes, by rcases hK with h | h <;> simp [h], rfl⟩
    · obtain ⟨b, hb⟩ := scanAll_exp (Or.imp_right Or.inl hK) hx hx0
      exact ⟨.e0, b, by simp, hb⟩
  · obtain ⟨b, hb⟩ := scanAll_frac hK hf hf0
    rw [scanAll_append, hb]
    by_cases hx0 : x = []
    · subst hx0
      exact ⟨.dot0, b, by simp, rfl⟩
    · obtain ⟨b', hb'⟩ :=
        scanAll_exp (K := { K with step := .dot0, bytes := b }) (Or.inr (Or.inr rfl)) hx hx0
      exact ⟨.e0, b', by simp, hb'⟩

theorem step_intStart {K : Scanner} {c : UInt8}
    (hK : K.step = .beginValue ∨ K.step = .beginValueOrEmpty ∨ K.step = .neg)
    (h1 : 0x31 ≤ c.toNat) (h9 : c.toNat ≤ 0x39) : step K c = { K with step := .one } := by
  have hs : isSpace c = false := by simp [isSpace]; omega
  rcases hK with hK | hK | hK
  iterate 2
    rw [step_beginsValue (by simp [hK]) hs (by omega), beginValue, if_neg (by simp [hs])]
    simp (disch := omega) only [if_pos, if_neg]
  simp only [step, hK]
  simp (disch := omega) only [if_pos, if_neg]

theorem step_intZero {K : Scanner}
    (hK : K.step = .beginValue ∨ K.step = .beginValueOrEmpty ∨ K.step = .neg) :
    step K 0x30 = { K with step := .zero } := by
  rcases hK with hK | hK | hK <;> simp [step, beginValue, hK, isSpace]

/-- From the start of a value, or after a minus sign, the scanner reads an integer. -/
theorem scanAll_int {K : Scanner} {i : GoString}
    (hK : K.step = .beginValue ∨ K.step = .beginValueOrEmpty ∨ K.step = .neg) (hi : IsInt i) :
    ∃ q b, (q = .zero ∨ q = .one) ∧ scanAll K i = { K with step := q, bytes := b } := by
  rcases hi with rfl | ⟨c, ds, h1, h9, hds, rfl⟩
  · exact ⟨.zero, K.bytes + 1, .inl rfl, by
      rw [scanAll_cons, step_intZero (K := { K with bytes := K.bytes + 1 }) hK]; rfl⟩
  · rw [scanAll_cons, step_intStart (K := { K with bytes := K.bytes + 1 }) hK h1 h9]
    obtain ⟨b, hb⟩ := scanAll_digits (K := { K with step := .one, bytes := K.bytes + 1 })
      (.inl rfl) hds
    exact ⟨.one, b, .inr rfl, hb⟩

/-- **The scanner reads a number from the start of a value** and stops in a step that ends a
number. -/
theorem scanAll_number {K : Scanner} {n : GoString}
    (hK : K.step = .beginValue ∨ K.step = .beginValueOrEmpty) (hn : IsNumber n) :
    ∃ q b, (q = .zero ∨ q = .one ∨ q = .dot0 ∨ q = .e0) ∧
      scanAll K n = { K with step := q, bytes := b } := by
  obtain ⟨m, i, f, x, hm, hi, hf, hx, rfl⟩ := hn
  have hstart : ∃ K', (K'.step = .beginValue ∨ K'.step = .beginValueOrEmpty ∨ K'.step = .neg) ∧
      K'.parseState = K.parseState ∧ K'.endTop = K.endTop ∧ K'.err = K.err ∧ scanAll K m = K' := by
    rcases hm with rfl | rfl
    · exact ⟨K, Or.imp_right Or.inl hK, rfl, rfl, rfl, rfl⟩
    · refine ⟨{ K with step := .neg, bytes := K.bytes + 1 }, .inr (.inr rfl), rfl, rfl, rfl, ?_⟩
      rw [scanAll_cons, scanAll_nil, step_beginsValue (K := { K with bytes := K.bytes + 1 }) hK
        (by decide) (by decide)]
      simp [beginValue, isSpace]
  obtain ⟨K', hK', hps, hT, he, hm'⟩ := hstart
  obtain ⟨q, b, hq, hi'⟩ := scanAll_int hK' hi
  obtain ⟨q', b', hq', hfx⟩ :=
    scanAll_fracExp (K := { K' with step := q, bytes := b }) (by simpa using hq) hf hx
  refine ⟨q', b', hq', ?_⟩
  rw [show m ++ i ++ f ++ x = m ++ (i ++ (f ++ x)) by simp, scanAll_append, hm', scanAll_append,
    hi', hfx]
  simp [hps, hT, he]

theorem EndsNumber.append {K : Scanner} {p n r : GoString} {q : Step} {b : Nat}
    (hp : scanAll K p = { K with step := q, bytes := b })
    (h : EndsNumber { K with step := q, bytes := b } n r) : EndsNumber K (p ++ n) r := by
  obtain ⟨q', b', hq', hn, hr⟩ := h
  exact ⟨q', b', hq', by rw [scanAll_append, hp, hn], hr⟩

/-- In `state1`, `stateDot0` and `stateE0` the scanner reads the digits that follow. -/
theorem digits_of_scan {K : Scanner} (hK : K.step = .one ∨ K.step = .dot0 ∨ K.step = .e0)
    (t : GoString) : ∃ ds r, t = ds ++ r ∧ AllDigits ds ∧
      scanAll K ds = { K with bytes := K.bytes + ds.length } ∧ ∀ c ∈ r.head?, isDigit c = false := by
  obtain ⟨ds, r, rfl, hds, hr⟩ := exists_span isDigit t
  refine ⟨ds, r, rfl, hds, ?_, hr⟩
  induction ds generalizing K with
  | nil => rfl
  | cons d ds ih =>
    simp only [List.mem_cons, forall_eq_or_imp] at hds
    rw [scanAll_cons, step_digit (K := { K with bytes := K.bytes + 1 }) hK hds.1,
      ih (K := { K with bytes := K.bytes + 1 }) hK hds.2]
    simp only [List.length_cons]
    congr 1
    omega

/-- An accepted run in `stateE` reads the rest of an exponent. -/
theorem exp_of_accepted {K : Scanner} {t : GoString} (h : eof (scanAll K t) = none)
    (hK : K.step = .e) (hT : K.endTop = false) :
    ∃ sg ds r, t = sg ++ ds ++ r ∧ IsSign sg ∧ IsDigits ds ∧ EndsNumber K (sg ++ ds) r := by
  -- the first digit, read from `stateE` or `stateESign`, and the digits after it
  have digits : ∀ {K : Scanner} {d : UInt8} {t : GoString}, K.step = .e ∨ K.step = .eSign →
      isDigit d = true → ∃ ds r, d :: t = ds ++ r ∧ IsDigits ds ∧ EndsNumber K ds r := by
    intro K d t hK hd
    obtain ⟨ds, r, rfl, hds, hb, hr⟩ :=
      digits_of_scan (K := { K with step := .e0, bytes := K.bytes + 1 }) (by simp) t
    refine ⟨d :: ds, r, rfl, ⟨List.cons_ne_nil _ _, List.forall_mem_cons.2 ⟨hd, hds⟩⟩,
      .e0, K.bytes + 1 + ds.length, by simp, ?_, by simpa [Step.closes] using hr⟩
    rw [scanAll_cons, step_expDigit (K := { K with bytes := K.bytes + 1 }) hK hd]
    exact hb
  match t with
  | [] => exact absurd h (eof_ne_none hT (by simp [step, hK, eSign, isDigit, Scanner.fail, hT]))
  | c :: t =>
    by_cases hs : c.toNat = 0x2B ∨ c.toNat = 0x2D
    · rw [scanAll_cons] at h
      simp only [step, hK, hs, if_true] at h
      match t with
      | [] => exact absurd h (eof_ne_none hT (by simp [step, eSign, isDigit, Scanner.fail, hT]))
      | d :: t =>
        by_cases hd : isDigit d = true
        · obtain ⟨ds, r, hdt, hds, hn⟩ := digits (K := { K with step := .eSign, bytes := K.bytes + 1 })
            (t := t) (.inr rfl) hd
          refine ⟨[c], ds, r, by simp [hdt], ?_, hds, ?_⟩
          · rcases hs with hs | hs <;> rw [byte_eq_of_toNat hs] <;> simp [IsSign]
          · refine EndsNumber.append (q := .eSign) (b := K.bytes + 1) ?_ hn
            simp [step, hK, hs]
        · rw [scanAll_cons] at h
          simp only [step, eSign, hd, if_false] at h
          exact absurd h (not_accepted_fail _ _ _ _)
    · by_cases hd : isDigit c = true
      · obtain ⟨ds, r, hdt, hds, hn⟩ := digits (t := t) (.inl hK) hd
        exact ⟨[], ds, r, hdt, .inl rfl, hds, hn⟩
      · rw [scanAll_cons] at h
        simp only [step, hK, hs, eSign, hd, if_false] at h
        exact absurd h (not_accepted_fail _ _ _ _)

/-- After a number's digits, in a step that ends a number, an accepted run reads an exponent
if `e` or `E` follows, and otherwise stops: the byte that follows ends the number. -/
theorem exp_or_end_of_accepted {K : Scanner} {t : GoString} (h : eof (scanAll K t) = none)
    (hK : K.step = .zero ∨ K.step = .one ∨ K.step = .dot0) (hT : K.endTop = false)
    (hc : ∀ c ∈ t.head?, K.step.closes c = true ∨ c.toNat = 0x65 ∨ c.toNat = 0x45) :
    ∃ x r, t = x ++ r ∧ IsExp x ∧ EndsNumber K x r := by
  match t with
  | [] => exact ⟨[], [], rfl, .inl rfl, K.step, K.bytes, by rcases hK with h | h | h <;> simp [h],
      rfl, by simp⟩
  | c :: t =>
    rcases hc c rfl with hc | he
    · exact ⟨[], c :: t, rfl, .inl rfl, K.step, K.bytes,
        by rcases hK with h | h | h <;> simp [h], rfl, by simpa using hc⟩
    · rw [scanAll_cons, step_exp (K := { K with bytes := K.bytes + 1 }) hK he] at h
      obtain ⟨sg, ds, r, rfl, hsg, hds, hn⟩ := exp_of_accepted h rfl hT
      refine ⟨c :: (sg ++ ds), r, by simp, .inr ⟨c, sg, ds, he, hsg, hds, rfl⟩, ?_⟩
      exact EndsNumber.append (p := [c]) (q := .e) (b := K.bytes + 1)
        (by rw [scanAll_cons, step_exp (K := { K with bytes := K.bytes + 1 }) hK he]; rfl) hn

/-- An accepted run in `stateDot` reads a fraction's digits, and an exponent if one follows. -/
theorem frac_of_accepted {K : Scanner} {t : GoString} (h : eof (scanAll K t) = none)
    (hK : K.step = .dot) (hT : K.endTop = false) :
    ∃ ds x r, t = ds ++ x ++ r ∧ IsDigits ds ∧ IsExp x ∧ EndsNumber K (ds ++ x) r := by
  match t with
  | [] => exact absurd h (eof_ne_none hT (by simp [step, hK, isDigit, Scanner.fail, hT]))
  | d :: t =>
    rw [scanAll_cons] at h
    by_cases hd : isDigit d = true
    · rw [step_fracDigit (K := { K with bytes := K.bytes + 1 }) hK hd] at h
      obtain ⟨ds, t, rfl, hds, hb, hr⟩ :=
        digits_of_scan (K := { K with step := .dot0, bytes := K.bytes + 1 }) (by simp) t
      rw [scanAll_append, hb] at h
      obtain ⟨x, r, rfl, hx, hn⟩ := exp_or_end_of_accepted h (.inr (.inr rfl)) hT fun c hc => by
        have := hr c hc
        simp only [Step.closes, this, Bool.false_or, Bool.not_eq_true', Bool.or_eq_false_iff,
          decide_eq_false_iff_not]
        omega
      refine ⟨d :: ds, x, r, by simp, ⟨List.cons_ne_nil _ _, List.forall_mem_cons.2 ⟨hd, hds⟩⟩,
        hx, ?_⟩
      exact EndsNumber.append (p := d :: ds) (q := .dot0) (b := K.bytes + 1 + ds.length)
        (by rw [scanAll_cons, step_fracDigit (K := { K with bytes := K.bytes + 1 }) hK hd]; exact hb)
        hn
    · simp only [step, hK, hd, if_false] at h
      exact absurd h (not_accepted_fail _ _ _ _)

/-- After an integer, an accepted run reads `[ frac ] [ exp ]`. -/
theorem fracExp_of_accepted {K : Scanner} {t : GoString} (h : eof (scanAll K t) = none)
    (hK : K.step = .zero ∨ (K.step = .one ∧ ∀ c ∈ t.head?, isDigit c = false))
    (hT : K.endTop = false) :
    ∃ f x r, t = f ++ x ++ r ∧ IsFrac f ∧ IsExp x ∧ EndsNumber K (f ++ x) r := by
  have hK' : K.step = .zero ∨ K.step = .one := hK.imp_right And.left
  have noFrac : (∀ c ∈ t.head?, c.toNat ≠ 0x2E) →
      ∃ f x r, t = f ++ x ++ r ∧ IsFrac f ∧ IsExp x ∧ EndsNumber K (f ++ x) r := fun hdot => by
    obtain ⟨x, r, rfl, hx, hn⟩ := exp_or_end_of_accepted h (hK'.imp_right Or.inl) hT fun c hc => by
      have := hdot c hc
      rcases hK with hK | ⟨hK, hd⟩
      · simp only [hK, Step.closes, Bool.not_eq_true', Bool.or_eq_false_iff, decide_eq_false_iff_not]
        omega
      · simp only [hK, Step.closes, hd c hc, Bool.false_or, Bool.not_eq_true', Bool.or_eq_false_iff,
          decide_eq_false_iff_not]
        omega
    exact ⟨[], x, r, rfl, .inl rfl, hx, hn⟩
  match t with
  | [] => exact noFrac (by simp)
  | c :: t =>
    by_cases hdot : c.toNat = 0x2E
    · have hs := step_dot (K := { K with bytes := K.bytes + 1 }) hK' hdot
      rw [scanAll_cons, hs] at h
      obtain ⟨ds, x, r, rfl, hds, hx, hn⟩ := frac_of_accepted h rfl hT
      refine ⟨c :: ds, x, r, by simp, .inr ⟨ds, hds, by rw [byte_eq_of_toNat hdot]; rfl⟩, hx, ?_⟩
      exact EndsNumber.append (p := [c]) (q := .dot) (b := K.bytes + 1)
        (by rw [scanAll_cons, hs]; rfl) hn
    · exact noFrac (by simpa using hdot)

/-- An accepted run that reads a digit where an integer starts reads an integer and
`[ frac ] [ exp ]`. -/
theorem int_of_accepted {K : Scanner} {c : UInt8} {t : GoString}
    (h : eof (scanAll K (c :: t)) = none) (hK : K.step = .beginValue ∨ K.step = .neg)
    (hT : K.endTop = false) (hc : isDigit c = true) :
    ∃ i f x r, c :: t = i ++ f ++ x ++ r ∧ IsInt i ∧ IsFrac f ∧ IsExp x ∧
      EndsNumber K (i ++ f ++ x) r := by
  have hK' : K.step = .beginValue ∨ K.step = .beginValueOrEmpty ∨ K.step = .neg :=
    hK.imp_right Or.inr
  rw [scanAll_cons] at h
  by_cases h0 : c.toNat = 0x30
  · have hs : step { K with bytes := K.bytes + 1 } c = { K with step := .zero, bytes := K.bytes + 1 } := by
      rw [byte_eq_of_toNat h0]
      exact step_intZero hK'
    rw [hs] at h
    obtain ⟨f, x, r, rfl, hf, hx, hn⟩ := fracExp_of_accepted h (.inl rfl) hT
    refine ⟨[c], f, x, r, by simp, .inl (by rw [byte_eq_of_toNat h0]; rfl), hf, hx, ?_⟩
    rw [List.append_assoc]
    exact EndsNumber.append (q := .zero) (b := K.bytes + 1) (by rw [scanAll_cons, hs]; rfl) hn
  · have h19 : 0x31 ≤ c.toNat ∧ c.toNat ≤ 0x39 := by simp [isDigit] at hc; omega
    have hs := step_intStart (K := { K with bytes := K.bytes + 1 }) hK' h19.1 h19.2
    rw [hs] at h
    obtain ⟨ds, t, rfl, hds, hb, hd⟩ :=
      digits_of_scan (K := { K with step := .one, bytes := K.bytes + 1 }) (.inl rfl) t
    rw [scanAll_append, hb] at h
    obtain ⟨f, x, r, rfl, hf, hx, hn⟩ := fracExp_of_accepted h (.inr ⟨rfl, hd⟩) hT
    refine ⟨c :: ds, f, x, r, by simp, .inr ⟨c, ds, h19.1, h19.2, hds, rfl⟩, hf, hx, ?_⟩
    rw [List.append_assoc]
    exact EndsNumber.append (q := .one) (b := K.bytes + 1 + ds.length)
      (by rw [scanAll_cons, hs]; exact hb) hn

/-- **An accepted run that starts a value with `-` or a digit reads a number first**, and stops
in a step that the byte after the number ends. -/
theorem number_of_accepted {K : Scanner} {c : UInt8} {t : GoString}
    (h : eof (scanAll K (c :: t)) = none) (hK : K.step = .beginValue) (hT : K.endTop = false)
    (hc : c.toNat = 0x2D ∨ isDigit c = true) :
    ∃ n r, c :: t = n ++ r ∧ IsNumber n ∧ EndsNumber K n r := by
  rcases hc with hm | hd
  · have hs : step { K with bytes := K.bytes + 1 } c = { K with step := .neg, bytes := K.bytes + 1 } := by
      rw [byte_eq_of_toNat hm]
      simp [step, beginValue, hK, isSpace]
    rw [scanAll_cons, hs] at h
    match t with
    | [] => exact absurd h (eof_ne_none hT (by simp [step, Scanner.fail, hT]))
    | d :: t =>
      by_cases hd : isDigit d = true
      · obtain ⟨i, f, x, r, hit, hi, hf, hx, hn⟩ := int_of_accepted h (.inr rfl) hT hd
        refine ⟨c :: (i ++ f ++ x), r, by simp [hit],
          ⟨[c], i, f, x, .inr (by rw [byte_eq_of_toNat hm]; rfl), hi, hf, hx, by simp⟩, ?_⟩
        exact EndsNumber.append (p := [c]) (q := .neg) (b := K.bytes + 1)
          (by rw [scanAll_cons, hs]; rfl) hn
      · have : ¬d.toNat = 0x30 ∧ ¬(0x31 ≤ d.toNat ∧ d.toNat ≤ 0x39) := by
          simp [isDigit] at hd; omega
        rw [scanAll_cons] at h
        simp only [step, this, if_false] at h
        exact absurd h (not_accepted_fail _ _ _ _)
  · obtain ⟨i, f, x, r, hit, hi, hf, hx, hn⟩ := int_of_accepted h (.inl hK) hT hd
    exact ⟨i ++ f ++ x, r, hit, ⟨[], i, f, x, .inl rfl, hi, hf, hx, by simp⟩, hn⟩

/-- **The scanner reads a string where a value or an object key starts**, and is then after a
value. -/
theorem scanAll_quoted {K : Scanner} {s : GoString}
    (hK : K.step = .beginValue ∨ K.step = .beginValueOrEmpty ∨ K.step = .beginString ∨
      K.step = .beginStringOrEmpty) (hs : IsString s) :
    ∃ b, scanAll K s = { K with step := .endValue, bytes := b } := by
  obtain ⟨cs, hcs, rfl⟩ := hs
  have : step { K with bytes := K.bytes + 1 } 0x22 =
      { K with step := .inString, bytes := K.bytes + 1 } := by
    rcases hK with hK | hK | hK | hK <;> simp [step, beginValue, beginString, hK, isSpace]
  rw [scanAll_cons, this]
  exact scanAll_string hcs rfl

end Json

end OsbClient
