import OsbClient.Json.Tokens

/-!
# The scanner accepts exactly the JSON texts

`OsbClient.Json.checkValid`, the state machine of `Json/Scanner.lean`, refines the grammar of
`Json/Grammar.lean`: it accepts a byte string exactly when the string is a JSON text
(`OsbClient.Json.checkValid_eq_none_iff`). The client asks it one question,
`OsbClient.isValidJSON`, about an originating identity's value, so the header the client
builds carries a JSON text whenever it is built (`OsbClient.buildOriginatingIdentityHeaderValue_ok_iff`).

| direction | statement | proof |
|---|---|---|
| the scanner accepts every text | `OsbClient.Json.checkValid_of_text` | induction on the derivation |
| every accepted input is a text | `OsbClient.Json.text_of_checkValid` | induction on the input's length |

Between two values the scanner holds the stack of the arrays and objects it is inside and is
in a step `OsbClient.Json.AfterValue` describes; the structure of the proof is what the scanner
does from there with whitespace, `,`, `:`, `]` and `}`.
-/

namespace OsbClient

namespace Json

open Scanner

/-! ### After a value -/

/-- The steps the scanner is in right after a token: `stateEndValue` and the steps that end a
number. -/
def Step.endsToken : Step → Bool
  | .endValue | .zero | .one | .dot0 | .e0 => true
  | _ => false

/-- The scanner has just read a whole value inside the containers `st`, innermost first: it is
after a token, or the top-level value is over. -/
structure AfterValue (K : Scanner) (st : List ParseState) : Prop where
  err : K.err = none
  parseState : K.parseState = st
  ends : K.step.endsToken = true ∧ K.endTop = false ∨ K.step = .endTop ∧ K.endTop = true ∧ st = []

section AfterValue

variable {K : Scanner} {st : List ParseState} {c : UInt8}

theorem AfterValue.bytes (h : AfterValue K st) (b : Nat) : AfterValue { K with bytes := b } st :=
  ⟨h.err, h.parseState, h.ends⟩

/-- A token's last step, with no error and the top-level value not over. -/
theorem afterValue_token {q : Step} (hq : q.endsToken = true) (he : K.err = none)
    (hT : K.endTop = false) (b : Nat) : AfterValue { K with step := q, bytes := b } K.parseState :=
  ⟨he, rfl, .inl ⟨hq, hT⟩⟩

/-- **After a value, a byte that ends it is read as `stateEndValue` reads it.** -/
theorem AfterValue.step_eq (h : AfterValue K st) (hc : K.step.closes c = true) :
    step K c = endValue K c := by
  rcases K with ⟨q, ps, t, e, b⟩
  rcases h with ⟨-, hps, ⟨hq, -⟩ | ⟨hq, hT, rfl⟩⟩
  · cases q <;> simp_all [Step.endsToken, Step.closes, step, zero]
  · simp only at hq hT hps
    subst hq hT hps
    simp [step, endValue]

/-- Whitespace and the structural bytes end every value. -/
theorem AfterValue.closes (h : AfterValue K st) (hc : isDigit c = false) (h1 : c.toNat ≠ 0x2E)
    (h2 : c.toNat ≠ 0x65) (h3 : c.toNat ≠ 0x45) : K.step.closes c = true := by
  rcases h with ⟨-, -, ⟨hq, -⟩ | ⟨hq, -⟩⟩
  · cases hK : K.step <;> simp_all [Step.endsToken, Step.closes]
  · simp [hq, Step.closes]

theorem closes_space (hc : isSpace c = true) :
    isDigit c = false ∧ c.toNat ≠ 0x2E ∧ c.toNat ≠ 0x65 ∧ c.toNat ≠ 0x45 := by
  simp only [isSpace, Bool.or_eq_true, decide_eq_true_eq] at hc
  simp only [isDigit, Bool.and_eq_false_imp, decide_eq_true_eq, decide_eq_false_iff_not]
  omega

/-- After whitespace, a value is followed by `stateEndValue`, or by `stateEndTop` at the top. -/
theorem AfterValue.endValue_space (h : AfterValue K st) (hc : isSpace c = true) :
    AfterValue (endValue K c) st ∧ ∀ c', (endValue K c).step.closes c' = true := by
  obtain ⟨he, rfl, hs⟩ := h
  cases hps : K.parseState with
  | nil => exact ⟨⟨by simp [endValue, endTop, hps, hc, he], by simp [endValue, endTop, hps, hc],
      .inr ⟨by simp [endValue, endTop, hps, hc], by simp [endValue, endTop, hps, hc], rfl⟩⟩,
      fun _ => by simp [endValue, endTop, hps, hc, Step.closes]⟩
  | cons p ps =>
    rcases hs with ⟨-, hT⟩ | ⟨-, -, hst⟩
    · exact ⟨⟨by simp [endValue, hps, hc, he], by simp [endValue, hps, hc],
        .inl ⟨by simp [endValue, hps, hc, Step.endsToken], by simp [endValue, hps, hc, hT]⟩⟩,
        fun _ => by simp [endValue, hps, hc, Step.closes]⟩
    · simp [hst] at hps

/-- **Whitespace after a value.** The first byte after it is read as `stateEndValue` reads it,
since a space ends any value. -/
theorem AfterValue.scanAll_ws {w t : GoString} (h : AfterValue K st) (hw : IsWs w)
    (ht : ∀ c ∈ (w ++ t).head?, K.step.closes c = true) :
    AfterValue (scanAll K w) st ∧ ∀ c ∈ t.head?, (scanAll K w).step.closes c = true := by
  induction w generalizing K with
  | nil => exact ⟨h, by simpa using ht⟩
  | cons c w ih =>
    rw [isWs_cons] at hw
    have hK := h.bytes (K.bytes + 1)
    rw [scanAll_cons, hK.step_eq (by simpa using ht c rfl)]
    obtain ⟨h', hc'⟩ := hK.endValue_space hw.1
    exact ih h' hw.2 fun c _ => hc' c

/-- The scanner closes an array or an object: the stack shrinks by one, and the step that
follows ends every value. -/
theorem afterValue_pop {p : ParseState} (he : K.err = none) (hT : K.endTop = false)
    (hps : K.parseState = p :: st) : AfterValue K.pop st ∧ ∀ c, K.pop.step.closes c = true := by
  unfold Scanner.pop
  rw [hps]
  cases st with
  | nil => exact ⟨⟨he, rfl, .inr ⟨rfl, rfl, rfl⟩⟩, fun _ => rfl⟩
  | cons p' st => exact ⟨⟨he, rfl, .inl ⟨rfl, hT⟩⟩, fun _ => rfl⟩

/-- At the end of the input, a value is accepted exactly at the top. -/
theorem AfterValue.eof_eq_none (h : AfterValue K []) : eof K = none := by
  rcases h with ⟨he, hps, ⟨hq, hT⟩ | ⟨-, hT, -⟩⟩
  · have hK : AfterValue K [] := ⟨he, hps, .inl ⟨hq, hT⟩⟩
    simp [eof, he, hT, hK.step_eq (hK.closes (c := 0x20) (by decide) (by decide) (by decide) (by decide)),
      endValue, endTop, hps, isSpace]
  · simp [eof, he, hT]

theorem AfterValue.eof_ne_none {p : ParseState} (h : AfterValue K (p :: st)) : eof K ≠ none := by
  rcases h with ⟨he, hps, ⟨hq, hT⟩ | ⟨-, -, hst⟩⟩
  · have hK : AfterValue K (p :: st) := ⟨he, hps, .inl ⟨hq, hT⟩⟩
    refine Json.eof_ne_none hT ?_
    rw [hK.step_eq (hK.closes (c := 0x20) (by decide) (by decide) (by decide) (by decide))]
    simp [endValue, hps, isSpace, hT]
  · cases hst

theorem AfterValue.endTop_false {p : ParseState} (h : AfterValue K (p :: st)) : K.endTop = false := by
  rcases h.ends with ⟨-, hT⟩ | ⟨-, -, hst⟩
  · exact hT
  · cases hst

/-- Whitespace after a value leaves the scanner after the value. -/
theorem AfterValue.scanAll_ws' {w : GoString} (h : AfterValue K st) (hw : IsWs w) :
    AfterValue (scanAll K w) st :=
  (h.scanAll_ws (t := []) hw fun c hc => by
    cases w with
    | nil => cases hc
    | cons c' w =>
      simp only [List.cons_append, List.head?_cons, Option.mem_def, Option.some.injEq] at hc
      subst hc
      have := closes_space (isWs_cons.1 hw).1
      exact h.closes this.1 this.2.1 this.2.2.1 this.2.2.2).1

/-- **After a value, whitespace and then a structural byte**: the byte is read as
`stateEndValue` reads it, with the stack the value left. -/
theorem AfterValue.ws_then {w : GoString} {b : UInt8} (h : AfterValue K st) (hw : IsWs w)
    (hb : isDigit b = false ∧ b.toNat ≠ 0x2E ∧ b.toNat ≠ 0x65 ∧ b.toNat ≠ 0x45) (t : GoString) :
    ∃ K', AfterValue K' st ∧ scanAll K (w ++ b :: t) = scanAll (endValue K' b) t := by
  obtain ⟨h', hc⟩ := h.scanAll_ws (t := b :: t) hw fun c hc' => by
    cases w with
    | nil => simp only [List.nil_append, List.head?_cons, Option.mem_def, Option.some.injEq] at hc'
             subst hc'
             exact h.closes hb.1 hb.2.1 hb.2.2.1 hb.2.2.2
    | cons c' w =>
      simp only [List.cons_append, List.head?_cons, Option.mem_def, Option.some.injEq] at hc'
      subst hc'
      have := closes_space (isWs_cons.1 hw).1
      exact h.closes this.1 this.2.1 this.2.2.1 this.2.2.2
  refine ⟨_, h'.bytes ((scanAll K w).bytes + 1), ?_⟩
  rw [scanAll_append, scanAll_cons, (h'.bytes ((scanAll K w).bytes + 1)).step_eq (hc b rfl)]

end AfterValue

/-! ### Arrays and objects -/

section Containers

variable {K : Scanner} {st : List ParseState}

theorem step_openArray (hK : K.step = .beginValue ∨ K.step = .beginValueOrEmpty)
    (hd : K.parseState.length + 1 ≤ maxNestingDepth) :
    step K 0x5B = { K with step := .beginValueOrEmpty, parseState := .arrayValue :: K.parseState } := by
  rw [step_beginsValue hK (by decide) (by decide)]
  simp [beginValue, isSpace, Scanner.push, hd]

theorem step_openObject (hK : K.step = .beginValue ∨ K.step = .beginValueOrEmpty)
    (hd : K.parseState.length + 1 ≤ maxNestingDepth) :
    step K 0x7B =
      { K with step := .beginStringOrEmpty, parseState := .objectKey :: K.parseState } := by
  rw [step_beginsValue hK (by decide) (by decide)]
  simp [beginValue, isSpace, Scanner.push, hd]

theorem step_emptyArray (hK : K.step = .beginValueOrEmpty)
    (hps : K.parseState = .arrayValue :: st) : step K 0x5D = K.pop := by
  simp [step, endValue, hK, hps, isSpace]

theorem step_emptyObject (hK : K.step = .beginStringOrEmpty)
    (hps : K.parseState = .objectKey :: st) :
    step K 0x7D = { K with parseState := .objectValue :: st }.pop := by
  simp [step, endValue, Scanner.setTop, hK, hps, isSpace]

theorem endValue_arrayComma (hps : K.parseState = .arrayValue :: st) :
    endValue K 0x2C = { K with step := .beginValue } := by
  simp [endValue, hps, isSpace]

theorem endValue_arrayClose (hps : K.parseState = .arrayValue :: st) : endValue K 0x5D = K.pop := by
  simp [endValue, hps, isSpace]

theorem endValue_colon (hps : K.parseState = .objectKey :: st) :
    endValue K 0x3A = { K with step := .beginValue, parseState := .objectValue :: st } := by
  simp [endValue, Scanner.setTop, hps, isSpace]

theorem endValue_objectComma (hps : K.parseState = .objectValue :: st) :
    endValue K 0x2C = { K with step := .beginString, parseState := .objectKey :: st } := by
  simp [endValue, Scanner.setTop, hps, isSpace]

theorem endValue_objectClose (hps : K.parseState = .objectValue :: st) :
    endValue K 0x7D = K.pop := by
  simp [endValue, hps, isSpace]

/-- `[` and whitespace: the scanner pushes the array and waits for its first element. -/
theorem scanAll_openArray {w : GoString} (hK : K.step = .beginValue ∨ K.step = .beginValueOrEmpty)
    (hd : K.parseState.length + 1 ≤ maxNestingDepth) (hw : IsWs w) (t : GoString) :
    ∃ K₁ : Scanner, scanAll K (0x5B :: w ++ t) = scanAll K₁ t ∧ K₁.step = .beginValueOrEmpty ∧
      K₁.parseState = .arrayValue :: K.parseState ∧ K₁.err = K.err ∧ K₁.endTop = K.endTop := by
  have hs := step_openArray (K := { K with bytes := K.bytes + 1 }) hK hd
  obtain ⟨b, hb⟩ := scanAll_ws (step { K with bytes := K.bytes + 1 } 0x5B) (by rw [hs]; rfl) hw
  exact ⟨_, by rw [List.cons_append, scanAll_cons, scanAll_append, hb], by simp [hs],
    by simp [hs], by simp [hs], by simp [hs]⟩

/-- `{` and whitespace: the scanner pushes the object and waits for its first key. -/
theorem scanAll_openObject {w : GoString} (hK : K.step = .beginValue ∨ K.step = .beginValueOrEmpty)
    (hd : K.parseState.length + 1 ≤ maxNestingDepth) (hw : IsWs w) (t : GoString) :
    ∃ K₁ : Scanner, scanAll K (0x7B :: w ++ t) = scanAll K₁ t ∧ K₁.step = .beginStringOrEmpty ∧
      K₁.parseState = .objectKey :: K.parseState ∧ K₁.err = K.err ∧ K₁.endTop = K.endTop := by
  have hs := step_openObject (K := { K with bytes := K.bytes + 1 }) hK hd
  obtain ⟨b, hb⟩ := scanAll_ws (step { K with bytes := K.bytes + 1 } 0x7B) (by rw [hs]; rfl) hw
  exact ⟨_, by rw [List.cons_append, scanAll_cons, scanAll_append, hb], by simp [hs],
    by simp [hs], by simp [hs], by simp [hs]⟩

end Containers

/-! ### Every text is accepted -/

/-- Where the scanner reads what a nonterminal derives, and where it is afterwards: a value from
a step where a value starts, a member after `{` or `,`, and the rest of an array or an object
after a value in it. `d` is the nesting the derivation may use, which the stack must leave room
for. -/
def Scans : Nonterminal → Nat → GoString → Prop
  | .value, d, v => ∀ K : Scanner, (K.step = .beginValue ∨ K.step = .beginValueOrEmpty) →
      K.err = none → K.endTop = false → K.parseState.length + d ≤ maxNestingDepth →
      AfterValue (scanAll K v) K.parseState
  | .member, d, m => ∀ (K : Scanner) (st : List ParseState),
      (K.step = .beginString ∨ K.step = .beginStringOrEmpty) → K.err = none → K.endTop = false →
      K.parseState = .objectKey :: st → st.length + 1 + d ≤ maxNestingDepth →
      AfterValue (scanAll K m) (.objectValue :: st)
  | .elements, d, es => ∀ (K : Scanner) (st : List ParseState), AfterValue K (.arrayValue :: st) →
      st.length + 1 + d ≤ maxNestingDepth → AfterValue (scanAll K es) (.arrayValue :: st)
  | .members, d, ms => ∀ (K : Scanner) (st : List ParseState), AfterValue K (.objectValue :: st) →
      st.length + 1 + d ≤ maxNestingDepth → AfterValue (scanAll K ms) (.objectValue :: st)

/-- **The scanner reads every derivation**, one case for each rule of the grammar. -/
theorem Derives.scans {x : Nonterminal} {d : Nat} {s : GoString} (h : Derives x d s) :
    Scans x d s := by
  induction h with
  | literal hw =>
    intro K hK he hT _
    obtain ⟨b, hb⟩ := scanAll_word hK hw
    rw [hb]
    exact afterValue_token (q := .endValue) rfl he hT b
  | number hn =>
    intro K hK he hT _
    obtain ⟨q, b, hq, hb⟩ := scanAll_number hK hn
    rw [hb]
    exact afterValue_token (by rcases hq with rfl | rfl | rfl | rfl <;> rfl) he hT b
  | string hs =>
    intro K hK he hT _
    obtain ⟨b, hb⟩ := scanAll_quoted (hK.imp_right Or.inl) hs
    rw [hb]
    exact afterValue_token (q := .endValue) rfl he hT b
  | emptyArray hw =>
    intro K hK he hT hd
    obtain ⟨K₁, heq, hq, hps, he₁, hT₁⟩ := scanAll_openArray hK (by omega) hw [0x5D]
    rw [heq, scanAll_cons, scanAll_nil, step_emptyArray (K := { K₁ with bytes := K₁.bytes + 1 }) hq hps]
    exact (afterValue_pop (K := { K₁ with bytes := K₁.bytes + 1 }) (he₁.trans he) (hT₁.trans hT) hps).1
  | array hw _ _ ihv ihes =>
    intro K hK he hT hd
    simp only [List.append_assoc]
    obtain ⟨K₁, heq, hq, hps, he₁, hT₁⟩ := scanAll_openArray hK (by omega) hw _
    rw [heq, scanAll_append, scanAll_append]
    have hv := ihv K₁ (.inr hq) (he₁.trans he) (hT₁.trans hT) (by simp [hps]; omega)
    rw [hps] at hv
    obtain ⟨K', hK', heq⟩ := (ihes _ K.parseState hv (by omega)).ws_then (b := 0x5D) isWs_nil (by decide) []
    rw [List.nil_append] at heq
    rw [heq, scanAll_nil, endValue_arrayClose hK'.parseState]
    exact (afterValue_pop hK'.err hK'.endTop_false hK'.parseState).1
  | emptyObject hw =>
    intro K hK he hT hd
    obtain ⟨K₁, heq, hq, hps, he₁, hT₁⟩ := scanAll_openObject hK (by omega) hw [0x7D]
    rw [heq, scanAll_cons, scanAll_nil, step_emptyObject (K := { K₁ with bytes := K₁.bytes + 1 }) hq hps]
    exact (afterValue_pop (K := { K₁ with bytes := K₁.bytes + 1, parseState := .objectValue :: _ })
      (he₁.trans he) (hT₁.trans hT) rfl).1
  | object hw _ _ ihm ihms =>
    intro K hK he hT hd
    simp only [List.append_assoc]
    obtain ⟨K₁, heq, hq, hps, he₁, hT₁⟩ := scanAll_openObject hK (by omega) hw _
    rw [heq, scanAll_append, scanAll_append]
    have hm := ihm K₁ K.parseState (.inr hq) (he₁.trans he) (hT₁.trans hT) hps (by omega)
    obtain ⟨K', hK', heq⟩ := (ihms _ K.parseState hm (by omega)).ws_then (b := 0x7D) isWs_nil (by decide) []
    rw [List.nil_append] at heq
    rw [heq, scanAll_nil, endValue_objectClose hK'.parseState]
    exact (afterValue_pop hK'.err hK'.endTop_false hK'.parseState).1
  | @member _ k w₁ w₂ v hk hw₁ hw₂ _ ihv =>
    intro K st hK he hT hps hd
    rw [show k ++ w₁ ++ 0x3A :: w₂ ++ v = k ++ (w₁ ++ 0x3A :: (w₂ ++ v)) by simp, scanAll_append]
    obtain ⟨b, hb⟩ := scanAll_quoted (K := K) (by rcases hK with hK | hK <;> simp [hK]) hk
    have hkey : AfterValue { K with step := .endValue, bytes := b } (.objectKey :: st) :=
      hps ▸ afterValue_token (q := .endValue) rfl he hT b
    obtain ⟨K', hK', heq⟩ := hkey.ws_then (b := 0x3A) hw₁ (by decide) (w₂ ++ v)
    rw [hb, heq, endValue_colon hK'.parseState]
    obtain ⟨b', hb'⟩ :=
      scanAll_ws { K' with step := .beginValue, parseState := .objectValue :: st } rfl hw₂
    rw [scanAll_append, hb']
    exact ihv _ (.inl rfl) hK'.err hK'.endTop_false (by simp; omega)
  | elementsNil hw => exact fun K st h _ => h.scanAll_ws' hw
  | elementsCons hw₁ hw₂ _ _ ihv ihes =>
    intro K st h hd
    simp only [List.cons_append, List.append_assoc]
    obtain ⟨K', hK', heq⟩ := h.ws_then (b := 0x2C) hw₁ (by decide) _
    rw [heq, endValue_arrayComma hK'.parseState]
    obtain ⟨b, hb⟩ := scanAll_ws { K' with step := .beginValue } rfl hw₂
    rw [scanAll_append, hb, scanAll_append]
    have hv := ihv { K' with step := .beginValue, bytes := b } (.inl rfl) hK'.err hK'.endTop_false
      (by simp [hK'.parseState]; omega)
    exact ihes _ st (hK'.parseState ▸ hv) hd
  | membersNil hw => exact fun K st h _ => h.scanAll_ws' hw
  | membersCons hw₁ hw₂ _ _ ihm ihms =>
    intro K st h hd
    simp only [List.cons_append, List.append_assoc]
    obtain ⟨K', hK', heq⟩ := h.ws_then (b := 0x2C) hw₁ (by decide) _
    rw [heq, endValue_objectComma hK'.parseState]
    obtain ⟨b, hb⟩ :=
      scanAll_ws { K' with step := .beginString, parseState := .objectKey :: st } rfl hw₂
    rw [scanAll_append, hb, scanAll_append]
    exact ihms _ st (ihm _ st (.inl rfl) hK'.err hK'.endTop_false rfl hd) hd

/-- **The scanner accepts every JSON text.** -/
theorem checkValid_of_text {s : GoString} (h : Text s) : checkValid s = none := by
  obtain ⟨w₁, v, w₂, hw₁, hv, hw₂, rfl⟩ := h
  obtain ⟨b, hb⟩ := scanAll_ws ({} : Scanner) rfl hw₁
  rw [checkValid, scanAll_append, scanAll_append, hb]
  exact ((hv.scans { ({} : Scanner) with bytes := b } (.inl rfl) rfl rfl (by simp)).scanAll_ws'
    hw₂).eof_eq_none

/-! ### Every accepted input is a text -/

section Sound

variable {K : Scanner} {st : List ParseState} {c : UInt8}

theorem Derives.value_ne_nil {d : Nat} {v : GoString} (h : Derives .value d v) : v ≠ [] := by
  cases h with
  | literal hw => rcases hw with rfl | rfl | rfl <;> decide
  | number hn =>
    obtain ⟨m, i, f, x, -, hi, -, -, rfl⟩ := hn
    rcases hi with rfl | ⟨c, ds, -, -, -, rfl⟩ <;> simp
  | string hs =>
    obtain ⟨cs, -, rfl⟩ := hs
    simp
  | emptyArray | array | emptyObject | object => simp

theorem Derives.member_ne_nil {d : Nat} {m : GoString} (h : Derives .member d m) : m ≠ [] := by
  cases h with
  | member hk =>
    obtain ⟨cs, -, rfl⟩ := hk
    simp

theorem fail_step (q : Step) (m : String) : ({ K with step := q }).fail c m = K.fail c m := rfl

/-- Apart from whitespace, `stateBeginValue` does not depend on the step it is called from. -/
theorem beginValue_step (q : Step) (hs : isSpace c = false) :
    beginValue { K with step := q } c = beginValue K c := by
  unfold beginValue
  simp only [hs, Bool.false_eq_true, if_false, fail_step]

theorem beginString_step (q : Step) (hs : isSpace c = false) :
    beginString { K with step := q } c = beginString K c := by
  unfold beginString
  simp only [hs, Bool.false_eq_true, if_false, fail_step]

/-- Before a byte that is neither whitespace nor `]`, `stateBeginValueOrEmpty` is
`stateBeginValue`. -/
theorem scanAll_beginValueOrEmpty {t : GoString} (hK : K.step = .beginValueOrEmpty)
    (hs : isSpace c = false) (hc : c.toNat ≠ 0x5D) :
    scanAll K (c :: t) = scanAll { K with step := .beginValue } (c :: t) := by
  rw [scanAll_cons, scanAll_cons,
    step_beginsValue (K := { K with bytes := K.bytes + 1 }) (.inr hK) hs hc,
    step_beginsValue (K := { K with step := .beginValue, bytes := K.bytes + 1 }) (.inl rfl) hs hc]
  exact congrArg (scanAll · t) (beginValue_step (K := { K with bytes := K.bytes + 1 }) _ hs).symm

/-- Before a byte that is neither whitespace nor `}`, `stateBeginStringOrEmpty` is
`stateBeginString`. -/
theorem scanAll_beginStringOrEmpty {t : GoString} (hK : K.step = .beginStringOrEmpty)
    (hs : isSpace c = false) (hc : c.toNat ≠ 0x7D) :
    scanAll K (c :: t) = scanAll { K with step := .beginString } (c :: t) := by
  rw [scanAll_cons, scanAll_cons]
  simp only [step, hK, hs, hc, Bool.false_eq_true, if_false]
  exact congrArg (scanAll · t)
    ((beginString_step (K := { K with bytes := K.bytes + 1 }) .beginStringOrEmpty hs).trans
      (beginString_step (K := { K with bytes := K.bytes + 1 }) .beginString hs).symm)

/-- **After a value inside an array or an object, an accepted run reads whitespace and then a
byte that is not whitespace**, read as `stateEndValue` reads it. -/
theorem AfterValue.next_of_accepted {p : ParseState} {s : GoString} (h : AfterValue K (p :: st))
    (hc : ∀ c ∈ s.head?, K.step.closes c = true) (ha : eof (scanAll K s) = none) :
    ∃ w c t K', s = w ++ c :: t ∧ IsWs w ∧ isSpace c = false ∧ AfterValue K' (p :: st) ∧
      ∀ X, scanAll K (w ++ c :: X) = scanAll (endValue K' c) X := by
  obtain ⟨w, s₁, rfl, hw, hs₁⟩ := exists_span isSpace s
  obtain ⟨h₁, hc₁⟩ := h.scanAll_ws hw hc
  rw [scanAll_append] at ha
  match s₁, hs₁, hc₁, ha with
  | [], _, _, ha => exact absurd ha h₁.eof_ne_none
  | c :: t, hs₁, hc₁, _ =>
    refine ⟨w, c, t, _, rfl, hw, hs₁ c rfl, h₁.bytes ((scanAll K w).bytes + 1), fun X => ?_⟩
    rw [scanAll_append, scanAll_cons, (h₁.bytes ((scanAll K w).bytes + 1)).step_eq (hc₁ c rfl)]

/-- A top-level value is followed by whitespace only. -/
theorem ws_of_accepted_top {r : GoString} (h : AfterValue K [])
    (hc : ∀ c ∈ r.head?, K.step.closes c = true) (ha : eof (scanAll K r) = none) : IsWs r := by
  induction r generalizing K with
  | nil => exact isWs_nil
  | cons c r ih =>
    have hK := h.bytes (K.bytes + 1)
    rw [scanAll_cons, hK.step_eq (hc c rfl)] at ha
    by_cases hs : isSpace c = true
    · obtain ⟨h', hc'⟩ := hK.endValue_space hs
      exact isWs_cons.2 ⟨hs, ih h' (fun c _ => hc' c) ha⟩
    · simp only [endValue, h.parseState, endTop, hs, if_false] at ha
      exact absurd ha (not_accepted_fail _ _ _ _)

/-- The byte that starts a value, if it starts none. -/
theorem beginValue_fail (hs : isSpace c = false)
    (hc : ¬(c.toNat = 0x7B ∨ c.toNat = 0x5B ∨ c.toNat = 0x22 ∨ c.toNat = 0x2D ∨ isDigit c = true ∨
      c.toNat = 0x74 ∨ c.toNat = 0x66 ∨ c.toNat = 0x6E)) :
    beginValue K c = K.fail c "looking for beginning of value" := by
  simp only [isDigit, Bool.and_eq_true, decide_eq_true_eq] at hc
  rw [beginValue, if_neg (by simp [hs])]
  simp (disch := omega) only [if_neg]

/-- From where a value starts, an accepted run over fewer than `n` bytes reads whitespace, a
value, and bytes of which the first ends the value. -/
def ValueSound (n : Nat) : Prop :=
  ∀ (K : Scanner) (d : Nat) (s : GoString), s.length < n → eof (scanAll K s) = none →
    K.step = .beginValue → K.err = none → K.endTop = false →
    K.parseState.length + d = maxNestingDepth →
    ∃ w v r, s = w ++ v ++ r ∧ IsWs w ∧ Derives .value d v ∧
      AfterValue (scanAll K (w ++ v)) K.parseState ∧
      ∀ c ∈ r.head?, (scanAll K (w ++ v)).step.closes c = true

/-- After a value inside an array or an object (`p` is `arrayValue` or `objectValue`, `b` the
closing byte), an accepted run over fewer than `n` bytes reads what `x` derives and `b`. -/
def RestSound (x : Nonterminal) (p : ParseState) (b : UInt8) (n : Nat) : Prop :=
  ∀ (K : Scanner) (st : List ParseState) (d : Nat) (s : GoString), s.length < n →
    eof (scanAll K s) = none → AfterValue K (p :: st) → (∀ c ∈ s.head?, K.step.closes c = true) →
    st.length + 1 + d = maxNestingDepth →
    ∃ es r, s = es ++ b :: r ∧ Derives x d es ∧ AfterValue (scanAll K (es ++ [b])) st ∧
      ∀ c, (scanAll K (es ++ [b])).step.closes c = true

/-- After `{` or `,` in an object, an accepted run reads whitespace and a member. -/
theorem member_of_accepted {n : Nat} (hV : ValueSound n) {K : Scanner} {d : Nat} {s : GoString}
    (hs : s.length ≤ n) (h : eof (scanAll K s) = none) (hK : K.step = .beginString)
    (he : K.err = none) (hT : K.endTop = false) (hps : K.parseState = .objectKey :: st)
    (hd : st.length + 1 + d = maxNestingDepth) :
    ∃ w m r, s = w ++ m ++ r ∧ IsWs w ∧ Derives .member d m ∧
      AfterValue (scanAll K (w ++ m)) (.objectValue :: st) ∧
      ∀ c ∈ r.head?, (scanAll K (w ++ m)).step.closes c = true := by
  obtain ⟨w, s₁, rfl, hw, hs₁⟩ := exists_span isSpace s
  obtain ⟨b, hb⟩ := scanAll_ws K (by simp [hK, Step.skipsSpace]) hw
  rw [scanAll_append, hb] at h
  match s₁, hs₁, h with
  | [], _, h => exact absurd h (eof_ne_none hT (by simp [step, hK, beginString, isSpace, hT]))
  | c :: t, hs₁, h =>
  rw [scanAll_cons] at h
  by_cases hq : c.toNat = 0x22
  · obtain rfl : c = 0x22 := byte_eq_of_toNat hq
    have h1 : step { K with bytes := b + 1 } 0x22 = { K with step := .inString, bytes := b + 1 } := by
      simp [step, hK, beginString, isSpace]
    rw [h1] at h
    obtain ⟨cs, t, rfl, hcs⟩ := string_of_accepted h rfl hT
    obtain ⟨b₁, hb₁⟩ := scanAll_string hcs (K := { K with step := .inString, bytes := b + 1 }) rfl
    have hkey : AfterValue { K with step := .endValue, bytes := b₁ } (.objectKey :: st) :=
      hps ▸ afterValue_token (q := .endValue) rfl he hT b₁
    rw [show cs ++ 0x22 :: t = cs ++ [0x22] ++ t by simp, scanAll_append, hb₁] at h
    obtain ⟨w₁, c', t, K', rfl, hw₁, hs', hK', E⟩ := hkey.next_of_accepted (fun _ _ => rfl) h
    rw [E] at h
    by_cases hcolon : c'.toNat = 0x3A
    · obtain rfl : c' = 0x3A := byte_eq_of_toNat hcolon
      rw [endValue_colon hK'.parseState] at h
      obtain ⟨w₂, v, r, rfl, hw₂, hv, hav, hcl⟩ :=
        hV _ d _ (by simp at hs; omega) h rfl hK'.err hK'.endTop_false (by simp; omega)
      have hrun : scanAll K (w ++ (0x22 :: (cs ++ [0x22]) ++ w₁ ++ 0x3A :: w₂ ++ v)) =
          scanAll { K' with step := .beginValue, parseState := .objectValue :: st } (w₂ ++ v) := by
        rw [show w ++ (0x22 :: (cs ++ [0x22]) ++ w₁ ++ 0x3A :: w₂ ++ v) =
          w ++ 0x22 :: (cs ++ [0x22] ++ (w₁ ++ 0x3A :: (w₂ ++ v))) by simp, scanAll_append, hb,
          scanAll_cons, h1, scanAll_append, hb₁, E, endValue_colon hK'.parseState]
      refine ⟨w, 0x22 :: (cs ++ [0x22]) ++ w₁ ++ 0x3A :: w₂ ++ v, r, by simp, hw,
        .member ⟨cs, hcs, rfl⟩ hw₁ hw₂ hv, hrun ▸ hav, hrun ▸ hcl⟩
    · simp only [endValue, hK'.parseState, hs', hcolon, Bool.false_eq_true, if_false] at h
      exact absurd h (not_accepted_fail _ _ _ _)
  · simp only [step, hK, beginString, hs₁ c rfl, hq, Bool.false_eq_true, if_false] at h
    exact absurd h (not_accepted_fail _ _ _ _)

/-- After `[`, an accepted run reads whitespace and either `]`, or the array's first element,
the rest of its elements and `]`. -/
theorem array_of_accepted {n : Nat} (hV : ValueSound n) (hE : RestSound .elements .arrayValue 0x5D n)
    {K : Scanner} {d : Nat} {t : GoString} (ht : t.length < n) (h : eof (scanAll K t) = none)
    (hK : K.step = .beginValueOrEmpty) (he : K.err = none) (hT : K.endTop = false)
    (hps : K.parseState = .arrayValue :: st) (hd : st.length + 1 + d = maxNestingDepth) :
    ∃ body r, t = body ++ 0x5D :: r ∧ Derives .value (d + 1) (0x5B :: (body ++ [0x5D])) ∧
      AfterValue (scanAll K (body ++ [0x5D])) st ∧
      ∀ c, (scanAll K (body ++ [0x5D])).step.closes c = true := by
  obtain ⟨w, t₁, rfl, hw, hs₁⟩ := exists_span isSpace t
  obtain ⟨b, hb⟩ := scanAll_ws K (by simp [hK, Step.skipsSpace]) hw
  rw [scanAll_append, hb] at h
  match t₁, hs₁, h with
  | [], _, h => exact absurd h (eof_ne_none hT (by simp [step, hK, isSpace, hT]))
  | c :: t, hs₁, h =>
  by_cases hc : c.toNat = 0x5D
  · obtain rfl : c = 0x5D := byte_eq_of_toNat hc
    have hrun : scanAll K (w ++ [0x5D]) = { K with bytes := b + 1 }.pop := by
      rw [scanAll_append, hb, scanAll_cons, scanAll_nil,
        step_emptyArray (K := { K with bytes := b + 1 }) hK hps]
    refine ⟨w, t, rfl, by simpa using Derives.emptyArray (d := d) hw, ?_⟩
    rw [hrun]
    exact afterValue_pop (K := { K with bytes := b + 1 }) he hT hps
  · have hK₁ := scanAll_beginValueOrEmpty (K := { K with bytes := b }) (t := t) hK (hs₁ c rfl) hc
    rw [hK₁] at h
    obtain ⟨w₁, v, r, hvr, hw₁, hv, hav, hcl⟩ :=
      hV _ d _ (by simp at ht ⊢; omega) h rfl he hT (by simp [hps]; omega)
    obtain ⟨p, hp⟩ : ∃ p, w₁ ++ v = c :: p := by
      cases hwv : w₁ ++ v with
      | nil => exact absurd (List.append_eq_nil.1 hwv).2 hv.value_ne_nil
      | cons c₀ p => rw [hwv, List.cons_append, List.cons.injEq] at hvr; exact ⟨p, by rw [hvr.1]⟩
    have hrun₁ : scanAll { K with bytes := b } (w₁ ++ v) =
        scanAll { K with bytes := b, step := .beginValue } (w₁ ++ v) := by
      rw [hp]
      exact scanAll_beginValueOrEmpty hK (hs₁ c rfl) hc
    rw [← hrun₁] at hav hcl
    rw [hvr, scanAll_append, ← hrun₁] at h
    obtain ⟨es, r', rfl, hes, hav', hcl'⟩ :=
      hE _ st d r (by simp [hvr] at ht; omega) h (by simpa [hps] using hav) hcl hd
    have hrun : scanAll K (w ++ w₁ ++ v ++ es ++ [0x5D]) =
        scanAll (scanAll { K with bytes := b } (w₁ ++ v)) (es ++ [0x5D]) := by
      rw [show w ++ w₁ ++ v ++ es ++ [0x5D] = w ++ ((w₁ ++ v) ++ (es ++ [0x5D])) by simp,
        scanAll_append, hb, scanAll_append]
    refine ⟨w ++ w₁ ++ v ++ es, r', by simp [hvr], ?_, by rw [hrun]; exact hav', by
      rw [hrun]; exact hcl'⟩
    simpa using Derives.array (isWs_append.2 ⟨hw, hw₁⟩) hv hes

/-- After `{`, an accepted run reads whitespace and either `}`, or the object's first member, the
rest of its members and `}`. -/
theorem object_of_accepted {n : Nat} (hV : ValueSound n) (hM : RestSound .members .objectValue 0x7D n)
    {K : Scanner} {d : Nat} {t : GoString} (ht : t.length < n) (h : eof (scanAll K t) = none)
    (hK : K.step = .beginStringOrEmpty) (he : K.err = none) (hT : K.endTop = false)
    (hps : K.parseState = .objectKey :: st) (hd : st.length + 1 + d = maxNestingDepth) :
    ∃ body r, t = body ++ 0x7D :: r ∧ Derives .value (d + 1) (0x7B :: (body ++ [0x7D])) ∧
      AfterValue (scanAll K (body ++ [0x7D])) st ∧
      ∀ c, (scanAll K (body ++ [0x7D])).step.closes c = true := by
  obtain ⟨w, t₁, rfl, hw, hs₁⟩ := exists_span isSpace t
  obtain ⟨b, hb⟩ := scanAll_ws K (by simp [hK, Step.skipsSpace]) hw
  rw [scanAll_append, hb] at h
  match t₁, hs₁, h with
  | [], _, h => exact absurd h (eof_ne_none hT (by simp [step, hK, isSpace, hT]))
  | c :: t, hs₁, h =>
  by_cases hc : c.toNat = 0x7D
  · obtain rfl : c = 0x7D := byte_eq_of_toNat hc
    have hrun : scanAll K (w ++ [0x7D]) =
        { K with bytes := b + 1, parseState := .objectValue :: st }.pop := by
      rw [scanAll_append, hb, scanAll_cons, scanAll_nil,
        step_emptyObject (K := { K with bytes := b + 1 }) hK hps]
    refine ⟨w, t, rfl, by simpa using Derives.emptyObject (d := d) hw, ?_⟩
    rw [hrun]
    exact afterValue_pop he hT rfl
  · have hK₁ := scanAll_beginStringOrEmpty (K := { K with bytes := b }) (t := t) hK (hs₁ c rfl) hc
    rw [hK₁] at h
    obtain ⟨w₁, m, r, hmr, hw₁, hm, hav, hcl⟩ :=
      member_of_accepted hV (by simp at ht ⊢; omega) h rfl he hT hps hd
    obtain ⟨p, hp⟩ : ∃ p, w₁ ++ m = c :: p := by
      cases hwm : w₁ ++ m with
      | nil => exact absurd (List.append_eq_nil.1 hwm).2 hm.member_ne_nil
      | cons c₀ p => rw [hwm, List.cons_append, List.cons.injEq] at hmr; exact ⟨p, by rw [hmr.1]⟩
    have hrun₁ : scanAll { K with bytes := b } (w₁ ++ m) =
        scanAll { K with bytes := b, step := .beginString } (w₁ ++ m) := by
      rw [hp]
      exact scanAll_beginStringOrEmpty hK (hs₁ c rfl) hc
    rw [← hrun₁] at hav hcl
    rw [hmr, scanAll_append, ← hrun₁] at h
    obtain ⟨ms, r', rfl, hms, hav', hcl'⟩ :=
      hM _ st d r (by simp [hmr] at ht; omega) h hav hcl hd
    have hrun : scanAll K (w ++ w₁ ++ m ++ ms ++ [0x7D]) =
        scanAll (scanAll { K with bytes := b } (w₁ ++ m)) (ms ++ [0x7D]) := by
      rw [show w ++ w₁ ++ m ++ ms ++ [0x7D] = w ++ ((w₁ ++ m) ++ (ms ++ [0x7D])) by simp,
        scanAll_append, hb, scanAll_append]
    refine ⟨w ++ w₁ ++ m ++ ms, r', by simp [hmr], ?_, by rw [hrun]; exact hav', by
      rw [hrun]; exact hcl'⟩
    simpa using Derives.object (isWs_append.2 ⟨hw, hw₁⟩) hm hms

/-- **After an element, an accepted run reads `,` and another element, or `]`.** -/
theorem elements_of_accepted {n : Nat} (hV : ValueSound n)
    (hE : RestSound .elements .arrayValue 0x5D n) : RestSound .elements .arrayValue 0x5D (n + 1) := by
  intro K st d s hs h hK hc hd
  obtain ⟨w, c, t, K', rfl, hw, hsp, hK', E⟩ := hK.next_of_accepted hc h
  rw [E] at h
  by_cases hcomma : c.toNat = 0x2C
  · obtain rfl : c = 0x2C := byte_eq_of_toNat hcomma
    rw [endValue_arrayComma hK'.parseState] at h
    obtain ⟨w₂, v, r, rfl, hw₂, hv, hav, hcl⟩ := hV _ d _ (by simp at hs; omega) h rfl hK'.err
      hK'.endTop_false (by simp [hK'.parseState]; omega)
    rw [scanAll_append] at h
    obtain ⟨es, r', rfl, hes, hav', hcl'⟩ :=
      hE _ st d r (by simp at hs; omega) h (by simpa [hK'.parseState] using hav) hcl hd
    have hrun : scanAll K (w ++ 0x2C :: (w₂ ++ v ++ es) ++ [0x5D]) =
        scanAll (scanAll { K' with step := .beginValue } (w₂ ++ v)) (es ++ [0x5D]) := by
      rw [show w ++ 0x2C :: (w₂ ++ v ++ es) ++ [0x5D] = w ++ 0x2C :: ((w₂ ++ v) ++ (es ++ [0x5D]))
        by simp, E, endValue_arrayComma hK'.parseState, scanAll_append]
    exact ⟨w ++ 0x2C :: (w₂ ++ v ++ es), r', by simp, by simpa using Derives.elementsCons hw hw₂ hv hes,
      by rw [hrun]; exact hav', by rw [hrun]; exact hcl'⟩
  by_cases hclose : c.toNat = 0x5D
  · obtain rfl : c = 0x5D := byte_eq_of_toNat hclose
    have hrun : scanAll K (w ++ [0x5D]) = K'.pop := by
      rw [E, endValue_arrayClose hK'.parseState, scanAll_nil]
    exact ⟨w, t, rfl, .elementsNil hw, by
      rw [hrun]; exact afterValue_pop hK'.err hK'.endTop_false hK'.parseState⟩
  · simp only [endValue, hK'.parseState, hsp, hcomma, hclose, Bool.false_eq_true, if_false] at h
    exact absurd h (not_accepted_fail _ _ _ _)

/-- **After a member, an accepted run reads `,` and another member, or `}`.** -/
theorem members_of_accepted {n : Nat} (hV : ValueSound n)
    (hM : RestSound .members .objectValue 0x7D n) : RestSound .members .objectValue 0x7D (n + 1) := by
  intro K st d s hs h hK hc hd
  obtain ⟨w, c, t, K', rfl, hw, hsp, hK', E⟩ := hK.next_of_accepted hc h
  rw [E] at h
  by_cases hcomma : c.toNat = 0x2C
  · obtain rfl : c = 0x2C := byte_eq_of_toNat hcomma
    rw [endValue_objectComma hK'.parseState] at h
    obtain ⟨w₂, m, r, rfl, hw₂, hm, hav, hcl⟩ := member_of_accepted hV (by simp at hs; omega) h rfl
      hK'.err hK'.endTop_false rfl hd
    rw [scanAll_append] at h
    obtain ⟨ms, r', rfl, hms, hav', hcl'⟩ := hM _ st d r (by simp at hs; omega) h hav hcl hd
    have hrun : scanAll K (w ++ 0x2C :: (w₂ ++ m ++ ms) ++ [0x7D]) =
        scanAll (scanAll { K' with step := .beginString, parseState := .objectKey :: st }
          (w₂ ++ m)) (ms ++ [0x7D]) := by
      rw [show w ++ 0x2C :: (w₂ ++ m ++ ms) ++ [0x7D] = w ++ 0x2C :: ((w₂ ++ m) ++ (ms ++ [0x7D]))
        by simp, E, endValue_objectComma hK'.parseState, scanAll_append]
    exact ⟨w ++ 0x2C :: (w₂ ++ m ++ ms), r', by simp, by simpa using Derives.membersCons hw hw₂ hm hms,
      by rw [hrun]; exact hav', by rw [hrun]; exact hcl'⟩
  by_cases hclose : c.toNat = 0x7D
  · obtain rfl : c = 0x7D := byte_eq_of_toNat hclose
    have hrun : scanAll K (w ++ [0x7D]) = K'.pop := by
      rw [E, endValue_objectClose hK'.parseState, scanAll_nil]
    exact ⟨w, t, rfl, .membersNil hw, by
      rw [hrun]; exact afterValue_pop hK'.err hK'.endTop_false hK'.parseState⟩
  · simp only [endValue, hK'.parseState, hsp, hcomma, hclose, Bool.false_eq_true, if_false] at h
    exact absurd h (not_accepted_fail _ _ _ _)

/-- **From where a value starts, an accepted run reads whitespace and a value**, one case for
each byte a value can start with. -/
theorem value_of_accepted {n : Nat} (hV : ValueSound n)
    (hE : RestSound .elements .arrayValue 0x5D n) (hM : RestSound .members .objectValue 0x7D n) :
    ValueSound (n + 1) := by
  intro K d s hs h hK he hT hd
  obtain ⟨w, s₁, rfl, hw, hs₁⟩ := exists_span isSpace s
  obtain ⟨b, hb⟩ := scanAll_ws K (by simp [hK, Step.skipsSpace]) hw
  rw [scanAll_append, hb] at h
  match s₁, hs₁, h with
  | [], _, h => exact absurd h (eof_ne_none hT (by simp [step, hK, beginValue, isSpace, hT]))
  | c :: t, hs₁, h =>
  have run : ∀ X, scanAll K (w ++ c :: X) = scanAll (step { K with bytes := b + 1 } c) X :=
    fun X => by rw [scanAll_append, hb, scanAll_cons]
  have hlen : t.length < n := by simp at hs; omega
  have hK' : ({ K with bytes := b + 1 } : Scanner).step = .beginValue ∨
      ({ K with bytes := b + 1 } : Scanner).step = .beginValueOrEmpty := .inl hK
  rw [scanAll_cons] at h
  by_cases hobj : c.toNat = 0x7B
  · obtain rfl : c = 0x7B := byte_eq_of_toNat hobj
    by_cases hroom : K.parseState.length + 1 ≤ maxNestingDepth
    · rw [step_openObject hK' hroom] at h run
      obtain ⟨d, rfl⟩ : ∃ d', d = d' + 1 := ⟨d - 1, by omega⟩
      obtain ⟨body, r, rfl, hv, hav, hcl⟩ := object_of_accepted (d := d) hV hM hlen h rfl he hT rfl (by simp only at hd ⊢; omega)
      exact ⟨w, 0x7B :: (body ++ [0x7D]), r, by simp, hw, hv, by rw [run]; exact hav,
        by rw [run]; exact fun c _ => hcl c⟩
    · simp [step, hK, beginValue, isSpace, Scanner.push, hroom] at h
      exact absurd h (not_accepted_fail _ _ _ _)
  by_cases harr : c.toNat = 0x5B
  · obtain rfl : c = 0x5B := byte_eq_of_toNat harr
    by_cases hroom : K.parseState.length + 1 ≤ maxNestingDepth
    · rw [step_openArray hK' hroom] at h run
      obtain ⟨d, rfl⟩ : ∃ d', d = d' + 1 := ⟨d - 1, by omega⟩
      obtain ⟨body, r, rfl, hv, hav, hcl⟩ := array_of_accepted (d := d) hV hE hlen h rfl he hT rfl (by simp only at hd ⊢; omega)
      exact ⟨w, 0x5B :: (body ++ [0x5D]), r, by simp, hw, hv, by rw [run]; exact hav,
        by rw [run]; exact fun c _ => hcl c⟩
    · simp [step, hK, beginValue, isSpace, Scanner.push, hroom] at h
      exact absurd h (not_accepted_fail _ _ _ _)
  by_cases hstr : c.toNat = 0x22
  · obtain rfl : c = 0x22 := byte_eq_of_toNat hstr
    have hq : step { K with bytes := b + 1 } 0x22 = { K with step := .inString, bytes := b + 1 } := by
      simp [step, hK, beginValue, isSpace]
    rw [hq] at h run
    obtain ⟨cs, r, rfl, hcs⟩ := string_of_accepted h rfl hT
    obtain ⟨b₁, hb₁⟩ := scanAll_string hcs (K := { K with step := .inString, bytes := b + 1 }) rfl
    have hrun : scanAll K (w ++ 0x22 :: (cs ++ [0x22])) = { K with step := .endValue, bytes := b₁ } := by
      rw [run, hb₁]
    exact ⟨w, 0x22 :: (cs ++ [0x22]), r, by simp, hw, .string ⟨cs, hcs, rfl⟩,
      by rw [hrun]; exact afterValue_token (q := .endValue) rfl he hT b₁, by rw [hrun]; exact fun _ _ => rfl⟩
  have h' : eof (scanAll { K with bytes := b } (c :: t)) = none := by rwa [scanAll_cons]
  by_cases hnum : c.toNat = 0x2D ∨ isDigit c = true
  · obtain ⟨nn, r, hnr, hn, q, b₁, hq, hb₁, hcl⟩ := number_of_accepted h' hK hT hnum
    have hrun : scanAll K (w ++ nn) = { K with step := q, bytes := b₁ } := by
      rw [scanAll_append, hb, hb₁]
    refine ⟨w, nn, r, by rw [List.append_assoc, ← hnr], hw, .number hn, ?_, by rw [hrun]; exact hcl⟩
    rw [hrun]
    exact afterValue_token (by rcases hq with rfl | rfl | rfl | rfl <;> rfl) he hT b₁
  by_cases hword : c.toNat = 0x74 ∨ c.toNat = 0x66 ∨ c.toNat = 0x6E
  · obtain ⟨ww, r, hwr, hww⟩ := word_of_accepted h' hK hT hword
    obtain ⟨b₁, hb₁⟩ := scanAll_word (K := { K with bytes := b }) (.inl hK) hww
    have hrun : scanAll K (w ++ ww) = { K with step := .endValue, bytes := b₁ } := by
      rw [scanAll_append, hb, hb₁]
    exact ⟨w, ww, r, by rw [List.append_assoc, ← hwr], hw, .literal hww,
      by rw [hrun]; exact afterValue_token (q := .endValue) rfl he hT b₁, by rw [hrun]; exact fun _ _ => rfl⟩
  · have hfail : step { K with bytes := b + 1 } c = beginValue { K with bytes := b + 1 } c := by
      simp [step, hK]
    rw [hfail, beginValue_fail (hs₁ c rfl) (by
      simp only [not_or] at hnum hword ⊢
      exact ⟨hobj, harr, hstr, hnum.1, hnum.2, hword⟩)] at h
    exact absurd h (not_accepted_fail _ _ _ _)

/-- The three inversion statements, by induction on the length bound. -/
theorem sound : ∀ n, ValueSound n ∧ RestSound .elements .arrayValue 0x5D n ∧
    RestSound .members .objectValue 0x7D n
  | 0 => ⟨fun _ _ _ hs => absurd hs (Nat.not_lt_zero _), fun _ _ _ _ hs => absurd hs (Nat.not_lt_zero _),
      fun _ _ _ _ hs => absurd hs (Nat.not_lt_zero _)⟩
  | n + 1 =>
    have ih := sound n
    ⟨value_of_accepted ih.1 ih.2.1 ih.2.2, elements_of_accepted ih.1 ih.2.1,
      members_of_accepted ih.1 ih.2.2⟩

end Sound

/-- **Every input the scanner accepts is a JSON text.** -/
theorem text_of_checkValid {s : GoString} (h : checkValid s = none) : Text s := by
  obtain ⟨w, v, r, rfl, hw, hv, hav, hcl⟩ :=
    (sound (s.length + 1)).1 {} maxNestingDepth s (Nat.lt_succ_self _) h rfl rfl rfl (by simp)
  rw [checkValid, scanAll_append] at h
  exact ⟨w, v, r, hw, hv, ws_of_accepted_top hav hcl h, rfl⟩

/-- **The scanner refines the grammar**: `checkValid` accepts a byte string exactly when it is
a JSON text. -/
theorem checkValid_eq_none_iff (s : GoString) : checkValid s = none ↔ Text s :=
  ⟨text_of_checkValid, checkValid_of_text⟩

/-- A text holds a value, so it is not empty. -/
theorem Text.ne_nil {s : GoString} (h : Text s) : s ≠ [] := by
  obtain ⟨w₁, v, w₂, -, hv, -, rfl⟩ := h
  simp [hv.value_ne_nil]

end Json

end OsbClient
