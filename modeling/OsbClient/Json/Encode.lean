import OsbClient.Json.Valid
import OsbClient.Types

/-!
# Strings on the wire

`json.Marshal` writes a Go string with `appendString` (`OsbClient.Json.appendString`): between
quotes, each byte that is safe in HTML as it is, the others escaped, U+2028 and U+2029 escaped,
and each byte that starts no valid UTF-8 rune as `\ufffd`. The decoder reads a string token back
with `unquoteBytes` (`OsbClient.Json.unquoteBytes`): a first loop finds the prefix that needs no
work, and the main loop reads one escape or one rune at a time (`OsbClient.Json.unquoteStep`).

The two meet: what `appendString` writes is a string token of the grammar
(`OsbClient.Json.appendString_isString`), and the decoder reads it back as the string with every
byte that starts no valid rune replaced by U+FFFD (`OsbClient.Json.unquoteBytes_appendString`),
which is `OsbClient.coerceUTF8`, the string the model keeps in a `JSON.string`.

This is what the value-level model of a request body rests on. The text `json.Marshal` writes
for a rotation's body is a JSON text, and Go's decoder reads it back member by member as
`OsbClient.RotateBindingRequestBody.marshal`, the value the modelled request carries
(`OsbClient.RotateBindingRequestBody.marshalBytes_decodes`).

The encoder is the classic one of Go 1.22 on, which writes `\b` and `\f` for the backspace and
the form feed; earlier versions write `\u0008` and `\u000c`, and an `encoding/json` backed by
`json/v2` writes an invalid byte as the raw bytes of U+FFFD, all of which read back the same.
-/

namespace OsbClient

namespace Json

/-! ### Runes -/

theorem toUInt8_eq {n : Nat} {b : UInt8} (h : n = b.toNat) : n.toUInt8 = b := by
  subst h; exact UInt8.ofNat_toNat' b

/-- The lead bytes of Go's `first` table and the ranges of their second bytes. -/
theorem leadRange_spec {b : UInt8} {k lo hi : Nat} (h : leadRange b = some (k, lo, hi)) :
    0x80 ≤ lo ∧ hi ≤ 0xBF ∧
    (k = 2 ∧ 0xC2 ≤ b.toNat ∧ b.toNat ≤ 0xDF ∨
      k = 3 ∧ 0xE0 ≤ b.toNat ∧ b.toNat ≤ 0xEF ∧ (b.toNat = 0xE0 → lo = 0xA0) ∧
        (b.toNat = 0xED → hi = 0x9F) ∨
      k = 4 ∧ 0xF0 ≤ b.toNat ∧ b.toNat ≤ 0xF4 ∧ (b.toNat = 0xF0 → lo = 0x90) ∧
        (b.toNat = 0xF4 → hi = 0x8F)) := by
  simp only [leadRange, Bool.and_eq_true, decide_eq_true_eq] at h
  by_cases h₁ : 0xC2 ≤ b.toNat ∧ b.toNat ≤ 0xDF
  · rw [if_pos h₁] at h; cases h; omega
  rw [if_neg h₁] at h
  by_cases h₂ : b.toNat = 0xE0
  · rw [if_pos h₂] at h; cases h; omega
  rw [if_neg h₂] at h
  by_cases h₃ : b.toNat = 0xED
  · rw [if_pos h₃] at h; cases h; omega
  rw [if_neg h₃] at h
  by_cases h₄ : 0xE1 ≤ b.toNat ∧ b.toNat ≤ 0xEF
  · rw [if_pos h₄] at h; cases h; omega
  rw [if_neg h₄] at h
  by_cases h₅ : b.toNat = 0xF0
  · rw [if_pos h₅] at h; cases h; omega
  rw [if_neg h₅] at h
  by_cases h₆ : b.toNat = 0xF4
  · rw [if_pos h₆] at h; cases h; omega
  rw [if_neg h₆] at h
  by_cases h₇ : 0xF1 ≤ b.toNat ∧ b.toNat ≤ 0xF3
  · rw [if_pos h₇] at h; cases h; omega
  rw [if_neg h₇] at h
  cases h

/-- `utf8.AppendRune` of a rune of two bytes, by its payload bits. -/
theorem encodeRune_two {a b : Nat} (ha : 2 ≤ a ∧ a < 32) (hb : b < 64) :
    encodeRune (a * 64 + b) = [(0xC0 + a).toUInt8, (0x80 + b).toUInt8] := by
  rw [encodeRune, if_neg (by omega), if_pos (by omega), show (a * 64 + b) / 64 = a by omega,
    show (a * 64 + b) % 64 = b by omega]

/-- `utf8.AppendRune` of a rune of three bytes: at least `0x800`, and no surrogate. -/
theorem encodeRune_three {a b c : Nat} (ha : a < 16) (hb : b < 64) (hc : c < 64)
    (h0 : a = 0 → 32 ≤ b) (hD : a = 13 → b < 32) :
    encodeRune (a * 4096 + b * 64 + c) =
      [(0xE0 + a).toUInt8, (0x80 + b).toUInt8, (0x80 + c).toUInt8] := by
  rw [encodeRune, if_neg (by omega), if_neg (by omega), if_neg (by omega), if_pos (by omega),
    show (a * 4096 + b * 64 + c) / 4096 = a by omega,
    show (a * 4096 + b * 64 + c) / 64 % 64 = b by omega, show (a * 4096 + b * 64 + c) % 64 = c by omega]

/-- `utf8.AppendRune` of a rune of four bytes: from `0x10000` to `0x10FFFF`. -/
theorem encodeRune_four {a b c d : Nat} (ha : a ≤ 4) (hb : b < 64) (hc : c < 64) (hd : d < 64)
    (h0 : a = 0 → 16 ≤ b) (h4 : a = 4 → b < 16) :
    encodeRune (a * 262144 + b * 4096 + c * 64 + d) =
      [(0xF0 + a).toUInt8, (0x80 + b).toUInt8, (0x80 + c).toUInt8, (0x80 + d).toUInt8] := by
  rw [encodeRune, if_neg (by omega), if_neg (by omega), if_neg (by omega), if_neg (by omega),
    show (a * 262144 + b * 4096 + c * 64 + d) / 262144 = a by omega,
    show (a * 262144 + b * 4096 + c * 64 + d) / 4096 % 64 = b by omega,
    show (a * 262144 + b * 4096 + c * 64 + d) / 64 % 64 = c by omega,
    show (a * 262144 + b * 4096 + c * 64 + d) % 64 = d by omega]

/-- **What `utf8.DecodeRune` reads, it reads from the rune's own bytes**: they are the rune's
encoding, bytes after them leave the reading unchanged, and one byte is read exactly for ASCII. -/
theorem decodeRune_some {s : GoString} {r n : Nat} (h : decodeRune s = some (r, n)) :
    encodeRune r = s.take n ∧ (∀ t, decodeRune (s.take n ++ t) = some (r, n)) ∧
      (n = 1 ↔ r < 0x80) := by
  cases s with
  | nil => cases h
  | cons b₀ s =>
    have h0 := b₀.toNat_lt
    simp only [decodeRune] at h
    split at h
    · next hb =>
      cases h
      exact ⟨by simp [encodeRune, hb, toUInt8_eq rfl], fun t => by simp [decodeRune, hb],
        by simpa using hb⟩
    rename_i hb
    split at h
    · next lo hi b₁ _ heq =>
      obtain ⟨hlo, hhi, ⟨-, hb₂⟩ | ⟨⟨⟩, -⟩ | ⟨⟨⟩, -⟩⟩ := leadRange_spec heq
      split at h
      · next hc =>
        cases h
        simp only [Bool.and_eq_true, decide_eq_true_eq] at hc
        refine ⟨?_, fun t => by simp [decodeRune, hb, heq, hc],
          by simp only [contBits]; omega⟩
        simp only [contBits, List.take_succ_cons, List.take_zero]
        rw [encodeRune_two (by omega) (Nat.mod_lt _ (by omega)), toUInt8_eq (b := b₀) (by omega),
          toUInt8_eq (b := b₁) (by omega)]
      · cases h
    · next lo hi b₁ b₂ _ heq =>
      obtain ⟨hlo, hhi, ⟨⟨⟩, -⟩ | ⟨-, hb₂, hE0, hED⟩ | ⟨⟨⟩, -⟩⟩ := leadRange_spec heq
      split at h
      · next hc =>
        cases h
        simp only [Bool.and_eq_true, decide_eq_true_eq, isCont] at hc
        refine ⟨?_, fun t => by simp [decodeRune, hb, heq, hc, isCont],
          by simp only [contBits]; omega⟩
        simp only [contBits, List.take_succ_cons, List.take_zero]
        rw [encodeRune_three (by omega) (Nat.mod_lt _ (by omega)) (Nat.mod_lt _ (by omega))
          (by omega) (by omega), toUInt8_eq (b := b₀) (by omega), toUInt8_eq (b := b₁) (by omega),
          toUInt8_eq (b := b₂) (by omega)]
      · cases h
    · next lo hi b₁ b₂ b₃ _ heq =>
      obtain ⟨hlo, hhi, ⟨⟨⟩, -⟩ | ⟨⟨⟩, -⟩ | ⟨-, hb₂, hF0, hF4⟩⟩ := leadRange_spec heq
      split at h
      · next hc =>
        cases h
        simp only [Bool.and_eq_true, decide_eq_true_eq, isCont] at hc
        refine ⟨?_, fun t => by simp [decodeRune, hb, heq, hc, isCont],
          by simp only [contBits]; omega⟩
        simp only [contBits, List.take_succ_cons, List.take_zero]
        rw [encodeRune_four (by omega) (Nat.mod_lt _ (by omega)) (Nat.mod_lt _ (by omega))
          (Nat.mod_lt _ (by omega)) (by omega) (by omega), toUInt8_eq (b := b₀) (by omega),
          toUInt8_eq (b := b₁) (by omega), toUInt8_eq (b := b₂) (by omega),
          toUInt8_eq (b := b₃) (by omega)]
      · cases h
    · cases h

/-- Past ASCII, every byte of a rune's encoding is from `0x80` on. -/
theorem encodeRune_high {r : Nat} (hr : 0x80 ≤ r) : ∀ c ∈ encodeRune r, 0x80 ≤ c.toNat := by
  unfold encodeRune
  split_ifs <;> intro c hc <;>
    simp only [List.mem_cons, List.mem_singleton, List.not_mem_nil, or_false] at hc <;>
    rcases hc with rfl | rfl | rfl | rfl <;> first | decide | (rw [Nat.toUInt8, UInt8.toNat_ofNat_of_lt (by show _ < 256; omega)]; omega)

/-- An ASCII rune is one byte, its own value. -/
theorem decodeRune_ascii {b : UInt8} {s : GoString} {r n : Nat}
    (h : decodeRune (b :: s) = some (r, n)) (hr : r < 0x80) :
    n = 1 ∧ b.toNat = r ∧ r.toUInt8 = b := by
  obtain ⟨henc, -, hn⟩ := decodeRune_some h
  obtain rfl := hn.2 hr
  simp only [encodeRune, if_pos hr, List.take, List.cons.injEq, and_true] at henc
  exact ⟨rfl, by rw [← henc, Nat.toUInt8, UInt8.toNat_ofNat_of_lt (by show _ < 256; omega)], henc⟩

/-! ### The encoder -/

/-- `hex` of `encode.go`: the lower-case hexadecimal digit of `n < 16`. -/
def lowerhex (n : Nat) : UInt8 := UInt8.ofNat (if n < 10 then 0x30 + n else 0x57 + n)

theorem isHex_lowerhex {n : Nat} (h : n < 16) : isHex (lowerhex n) = true := by
  revert n; decide

theorem unhex_lowerhex {n : Nat} (h : n < 16) : unhex (lowerhex n) = n := by
  revert n; decide

/-- `htmlSafeSet` of `encode.go`: the ASCII bytes written as they are, from the space on but
`"`, `\`, `<`, `>` and `&`. -/
def htmlSafe (b : UInt8) : Bool :=
  0x20 ≤ b.toNat && b.toNat < 0x80 && b.toNat ≠ 0x22 && b.toNat ≠ 0x5C && b.toNat ≠ 0x3C &&
    b.toNat ≠ 0x3E && b.toNat ≠ 0x26

/-- The escape `appendString` writes for an ASCII byte outside `htmlSafeSet`. -/
def escapeASCII (b : UInt8) : GoString :=
  if b.toNat = 0x5C ∨ b.toNat = 0x22 then [0x5C, b]
  else if b.toNat = 0x08 then [0x5C, 0x62]
  else if b.toNat = 0x0C then [0x5C, 0x66]
  else if b.toNat = 0x0A then [0x5C, 0x6E]
  else if b.toNat = 0x0D then [0x5C, 0x72]
  else if b.toNat = 0x09 then [0x5C, 0x74]
  else [0x5C, 0x75, 0x30, 0x30, lowerhex (b.toNat / 16), lowerhex (b.toNat % 16)]

/-- What `appendString` writes for the rune `r` it decoded from the bytes `bs`: an ASCII byte as
it is or escaped, U+2028 and U+2029 escaped, any other rune as its own bytes. -/
def appendStringRune (r : Nat) (bs : GoString) : GoString :=
  if r < 0x80 then (if htmlSafe r.toUInt8 then bs else escapeASCII r.toUInt8)
  else if r = 0x2028 ∨ r = 0x2029 then [0x5C, 0x75, 0x32, 0x30, 0x32, lowerhex (r % 16)]
  else bs

/-- `\ufffd`, what `appendString` writes for a byte that starts no valid rune. -/
def ufffd : GoString := [0x5C, 0x75, 0x66, 0x66, 0x66, 0x64]

/-- **`appendString` of `encode.go`**, with `escapeHTML` set as `json.Marshal` sets it. This is
the encoder of the classic `encoding/json`; an `encoding/json` backed by `json/v2` (the default
from Go 1.27) writes a byte that starts no valid rune as the three raw bytes `EF BF BD` of U+FFFD
instead of `\ufffd`, which the decoder reads back as the same rune. -/
def appendString (src : GoString) : GoString :=
  0x22 :: (mapRunes appendStringRune ufffd src.length src ++ [0x22])

/-! ### The decoder -/

/-- `getu4` of `decode.go`: the value of the `\uXXXX` escape the input starts with. -/
def getu4 : GoString → Option Nat
  | b₀ :: b₁ :: h₁ :: h₂ :: h₃ :: h₄ :: _ =>
    if b₀.toNat = 0x5C ∧ b₁.toNat = 0x75 ∧ isHex h₁ ∧ isHex h₂ ∧ isHex h₃ ∧ isHex h₄ then
      some (((unhex h₁ * 16 + unhex h₂) * 16 + unhex h₃) * 16 + unhex h₄)
    else none
  | _ => none

/-- `utf16.IsSurrogate`. -/
def isSurrogate (r : Nat) : Bool := 0xD800 ≤ r && r < 0xE000

/-- `utf16.DecodeRune`: the rune of a surrogate pair, U+FFFD for anything else. -/
def decodeSurrogates (r₁ r₂ : Nat) : Nat :=
  if 0xD800 ≤ r₁ ∧ r₁ < 0xDC00 ∧ 0xDC00 ≤ r₂ ∧ r₂ < 0xE000 then
    (r₁ - 0xD800) * 0x400 + (r₂ - 0xDC00) + 0x10000
  else 0xFFFD

/-- The byte a one-letter escape stands for in `unquoteBytes`: `\"`, `\\`, `\/`, `\'`, `\b`,
`\f`, `\n`, `\r` and `\t`. -/
def unescapeShort (e : UInt8) : Option UInt8 :=
  if e.toNat = 0x22 ∨ e.toNat = 0x5C ∨ e.toNat = 0x2F ∨ e.toNat = 0x27 then some e
  else if e.toNat = 0x62 then some 0x08
  else if e.toNat = 0x66 then some 0x0C
  else if e.toNat = 0x6E then some 0x0A
  else if e.toNat = 0x72 then some 0x0D
  else if e.toNat = 0x74 then some 0x09
  else none

/-- **One turn of the main loop of `unquoteBytes`**: the bytes it writes and the input left, or
`none` where it returns `ok = false`. An escape is read whole, a `\u` escape of a surrogate with
the escape after it when the two make a pair; a byte past ASCII is read as a rune, and a byte
that starts none as U+FFFD. -/
def unquoteStep : GoString → Option (GoString × GoString)
  | [] => none
  | c :: s =>
    if c.toNat = 0x5C then
      match s with
      | [] => none
      | e :: s' =>
        match unescapeShort e with
        | some b => some ([b], s')
        | none =>
          if e.toNat ≠ 0x75 then none
          else match getu4 (c :: s) with
            | none => none
            | some rr =>
              if isSurrogate rr then
                let dec := match getu4 (s.drop 5) with
                  | some rr₁ => decodeSurrogates rr rr₁
                  | none => 0xFFFD
                if dec ≠ 0xFFFD then some (encodeRune dec, s.drop 11)
                else some (encodeRune 0xFFFD, s.drop 5)
              else some (encodeRune rr, s.drop 5)
    else if c.toNat = 0x22 ∨ c.toNat < 0x20 then none
    else if c.toNat < 0x80 then some ([c], s)
    else match decodeRune (c :: s) with
      | some (r, n) => some (encodeRune r, (c :: s).drop n)
      | none => some (encodeRune 0xFFFD, s)

/-- The main loop of `unquoteBytes`, turn after turn; `fuel` bounds the turns, and the length of
the input is always enough. -/
def unquoteRunes : Nat → GoString → Option GoString
  | 0, _ => some []
  | _ + 1, [] => some []
  | fuel + 1, c :: s =>
    match unquoteStep (c :: s) with
    | none => none
    | some (w, rest) => (unquoteRunes fuel rest).map (w ++ ·)

/-- One turn of the first loop of `unquoteBytes`: the length of an item that needs no
unquoting, an ASCII byte other than `\`, `"` and the control bytes, or a valid rune past ASCII;
`none` where the loop breaks. -/
def plainStep : GoString → Option Nat
  | [] => none
  | c :: s =>
    if c.toNat = 0x5C ∨ c.toNat = 0x22 ∨ c.toNat < 0x20 then none
    else if c.toNat < 0x80 then some 1
    else (decodeRune (c :: s)).map (·.2)

/-- The first loop of `unquoteBytes`: the length of the prefix that needs no unquoting. -/
def plainLength : Nat → GoString → Nat
  | 0, _ => 0
  | fuel + 1, s =>
    match plainStep s with
    | some n => n + plainLength fuel (s.drop n)
    | none => 0

/-- **`unquoteBytes` of `decode.go`**: the bytes between the quotes of a string token as they
are if none needs work, else the prefix that needs none followed by what the main loop writes
for the rest. -/
def unquoteBytes (s : GoString) : Option GoString :=
  if s.length < 2 ∨ s.head? ≠ some 0x22 ∨ s.getLast? ≠ some 0x22 then none
  else
    let body := (s.drop 1).dropLast
    let r := plainLength body.length body
    if r = body.length then some body
    else (unquoteRunes body.length (body.drop r)).map (body.take r ++ ·)

/-- `literalInterface` of `decode.go`: the value of a literal token, `null`, `true`, `false`,
a string or a number (kept by its literal, as `OsbClient.JSON` keeps numbers). -/
def literalInterface : GoString → Option JSON
  | [] => none
  | c :: item =>
    if c.toNat = 0x6E then some .null
    else if c.toNat = 0x74 ∨ c.toNat = 0x66 then some (.bool (c.toNat = 0x74))
    else if c.toNat = 0x22 then (unquoteBytes (c :: item)).map .string
    else if c.toNat = 0x2D ∨ isDigit c then some (.number (c :: item))
    else none

/-! ### The decoder's loops -/

/-- A turn of the main loop consumes input. -/
theorem unquoteStep_length {s w rest : GoString} (h : unquoteStep s = some (w, rest)) :
    rest.length < s.length := by
  match s, h with
  | c :: s, h =>
    simp only [unquoteStep] at h
    repeat' split at h
    all_goals first
      | (cases h; done)
      | (cases h; simp <;> omega)
      | (cases h; have := decodeRune_size ‹decodeRune _ = some _›; simp at this ⊢; omega)


/-- Any fuel the input's length allows gives the same reading. -/
theorem unquoteRunes_fuel : ∀ (f₁ f₂ : Nat) (s : GoString), s.length ≤ f₁ → s.length ≤ f₂ →
    unquoteRunes f₁ s = unquoteRunes f₂ s
  | 0, 0, _, _, _ => rfl
  | 0, _ + 1, [], _, _ => rfl
  | _ + 1, 0, [], _, _ => rfl
  | _ + 1, _ + 1, [], _, _ => rfl
  | f₁ + 1, f₂ + 1, c :: s, h₁, h₂ => by
    simp only [unquoteRunes]
    split
    · rfl
    · next w rest hs =>
      have := unquoteStep_length hs
      simp only [List.length_cons] at h₁ h₂ this
      rw [unquoteRunes_fuel f₁ f₂ rest (by omega) (by omega)]

/-- With enough fuel, the main loop writes what its first turn writes, then reads the rest. -/
theorem unquoteRunes_step {s w rest : GoString} {fuel : Nat} (h : unquoteStep s = some (w, rest))
    (hf : s.length ≤ fuel) : unquoteRunes fuel s = (unquoteRunes fuel rest).map (w ++ ·) := by
  have hlen := unquoteStep_length h
  match fuel, s, h with
  | _, [], h => cases h
  | 0, _ :: _, _ => simp at hf
  | fuel + 1, c :: s, h =>
    simp only [List.length_cons] at hf hlen
    rw [unquoteRunes, h]
    dsimp only
    rw [unquoteRunes_fuel fuel (fuel + 1) rest (by omega) (by omega)]


/-- An item the first loop passes over is one the main loop copies. -/
theorem unquoteStep_of_plainStep {s : GoString} {n : Nat} (h : plainStep s = some n) :
    unquoteStep s = some (s.take n, s.drop n) := by
  match s, h with
  | c :: s, h =>
    simp only [plainStep] at h
    split at h
    · cases h
    · next hs =>
      split at h
      · next ha =>
        cases h
        simp [unquoteStep, ha, show ¬c.toNat = 0x5C by omega, show ¬(c.toNat = 0x22 ∨ c.toNat < 0x20) by omega]
      · next ha =>
        obtain ⟨⟨r, n'⟩, hd, rfl⟩ := Option.map_eq_some'.1 h
        simp only [unquoteStep, if_neg (show ¬c.toNat = 0x5C by omega),
          if_neg (show ¬(c.toNat = 0x22 ∨ c.toNat < 0x20) by omega), if_neg ha, hd,
          (decodeRune_some hd).1]

/-- **The first loop of `unquoteBytes` is a shortcut**: the prefix it passes over is what the main
loop would write for it. -/
theorem unquoteRunes_plainLength : ∀ (fuel : Nat) (s : GoString), s.length ≤ fuel →
    unquoteRunes fuel s =
      (unquoteRunes fuel (s.drop (plainLength fuel s))).map (s.take (plainLength fuel s) ++ ·)
  | 0, s, _ => by simp [plainLength]
  | fuel + 1, s, hs => by
    simp only [plainLength]
    split
    · next n hn =>
      have hstep := unquoteStep_of_plainStep hn
      have hlen := unquoteStep_length hstep
      have hdrop : ∀ m, (s.drop (n + m)).length ≤ fuel := fun m => by
        simp only [List.length_drop] at hlen ⊢; omega
      rw [unquoteRunes_step hstep hs, unquoteRunes_fuel (fuel + 1) fuel _ (by omega) (by omega),
        unquoteRunes_plainLength fuel _ (by omega), unquoteRunes_fuel (fuel + 1) fuel
          (s.drop (n + plainLength fuel (s.drop n))) (Nat.le_succ_of_le (hdrop _)) (hdrop _),
        Option.map_map, List.drop_drop, List.take_add]
      simp only [Function.comp_def, List.append_assoc]
    · simp

/-- `unquoteBytes` reads a string token as the main loop reads the bytes between its quotes. -/
theorem unquoteBytes_quoted (body : GoString) :
    unquoteBytes (0x22 :: (body ++ [0x22])) = unquoteRunes body.length body := by
  have key := unquoteRunes_plainLength body.length body (Nat.le_refl _)
  rw [unquoteBytes, if_neg (by rw [← List.cons_append, List.getLast?_concat]; simp)]
  simp only [List.drop_one, List.tail_cons, List.dropLast_concat]
  split
  · next h => rw [key, h, List.drop_length, List.take_length]; cases body.length <;> simp [unquoteRunes]
  · rw [key]


/-! ### Reading back what the encoder writes -/

theorem getu4_u00 {m : Nat} (hm : m < 256) (t : GoString) :
    getu4 (0x5C :: 0x75 :: 0x30 :: 0x30 :: lowerhex (m / 16) :: lowerhex (m % 16) :: t) = some m := by
  have h1 : m / 16 < 16 := by omega
  have h2 : m % 16 < 16 := Nat.mod_lt _ (by omega)
  simp only [getu4, isHex_lowerhex h1, isHex_lowerhex h2, unhex_lowerhex h1, unhex_lowerhex h2]
  simp (disch := decide) only [if_pos]
  congr 1
  simp [unhex]
  omega

theorem getu4_u202 {m : Nat} (hm : m < 16) (t : GoString) :
    getu4 (0x5C :: 0x75 :: 0x32 :: 0x30 :: 0x32 :: lowerhex m :: t) = some (0x2020 + m) := by
  simp only [getu4, isHex_lowerhex hm, unhex_lowerhex hm]
  simp (disch := decide) only [if_pos]
  simp [unhex, isDigit]

/-- A `\u` escape of a rune that is not a surrogate reads as that rune's encoding. -/
theorem unquoteStep_u {rest : GoString} {rr : Nat} (hg : getu4 (0x5C :: 0x75 :: rest) = some rr)
    (hs : isSurrogate rr = false) :
    unquoteStep (0x5C :: 0x75 :: rest) = some (encodeRune rr, rest.drop 4) := by
  simp [unquoteStep, hg, hs, unescapeShort]

/-- The two forms of an escape `appendString` writes for an ASCII byte: a one-letter escape the
decoder reads back as the byte, or `\u00` and the byte's two hexadecimal digits. -/
theorem escapeASCII_cases (b : UInt8) :
    (∃ e, escapeASCII b = [0x5C, e] ∧ isShortEscape e = true ∧ unescapeShort e = some b) ∨
      escapeASCII b = [0x5C, 0x75, 0x30, 0x30, lowerhex (b.toNat / 16), lowerhex (b.toNat % 16)] := by
  unfold escapeASCII
  by_cases h₁ : b.toNat = 0x5C ∨ b.toNat = 0x22
  · rw [if_pos h₁]
    refine .inl ⟨b, rfl, ?_, ?_⟩
    · simp only [isShortEscape, Bool.or_eq_true, decide_eq_true_eq]; omega
    · rw [unescapeShort, if_pos (by omega)]
  rw [if_neg h₁]
  by_cases h₂ : b.toNat = 0x08
  · rw [if_pos h₂, byte_eq_of_toNat h₂]; exact .inl ⟨0x62, rfl, rfl, rfl⟩
  rw [if_neg h₂]
  by_cases h₃ : b.toNat = 0x0C
  · rw [if_pos h₃, byte_eq_of_toNat h₃]; exact .inl ⟨0x66, rfl, rfl, rfl⟩
  rw [if_neg h₃]
  by_cases h₄ : b.toNat = 0x0A
  · rw [if_pos h₄, byte_eq_of_toNat h₄]; exact .inl ⟨0x6E, rfl, rfl, rfl⟩
  rw [if_neg h₄]
  by_cases h₅ : b.toNat = 0x0D
  · rw [if_pos h₅, byte_eq_of_toNat h₅]; exact .inl ⟨0x72, rfl, rfl, rfl⟩
  rw [if_neg h₅]
  by_cases h₆ : b.toNat = 0x09
  · rw [if_pos h₆, byte_eq_of_toNat h₆]; exact .inl ⟨0x74, rfl, rfl, rfl⟩
  rw [if_neg h₆]
  exact .inr rfl

section Pieces

variable {b : UInt8} {s : GoString} {r n : Nat}

/-- **The decoder reads back each piece the encoder writes**: the rune's own bytes, whether the
encoder wrote them as they are or escaped. -/
theorem unquoteStep_appendStringRune (h : decodeRune (b :: s) = some (r, n)) (t : GoString) :
    unquoteStep (appendStringRune r ((b :: s).take n) ++ t) = some ((b :: s).take n, t) := by
  obtain ⟨henc, hdec, hn⟩ := decodeRune_some h
  unfold appendStringRune
  split
  · next hr =>
    obtain ⟨rfl, hbr, hb⟩ := decodeRune_ascii h hr
    rw [hb]
    split
    · next hs =>
      simp only [htmlSafe, Bool.and_eq_true, decide_eq_true_eq] at hs
      simp (disch := omega) only [List.take, List.singleton_append, unquoteStep, if_neg, if_pos]
    · next hs =>
      rcases escapeASCII_cases b with ⟨e, he, -, hu⟩ | he <;> rw [he]
      · simp [unquoteStep, hu]
      · simp only [List.cons_append, List.nil_append]
        rw [unquoteStep_u (getu4_u00 (by omega) _) (by simp [isSurrogate]; omega), hbr, henc]
        rfl
  · next hr =>
    have hlen := (decodeRune_size h).2
    obtain ⟨k, rfl⟩ : ∃ k, n = k + 1 := ⟨n - 1, by have := (decodeRune_size h).1; omega⟩
    have hb8 := encodeRune_high (r := r) (by omega) b (by rw [henc]; simp)
    split
    · next h22 =>
      have hm : r % 16 < 16 := Nat.mod_lt _ (by omega)
      simp only [List.cons_append, List.nil_append]
      rw [unquoteStep_u (getu4_u202 hm _) (by simp [isSurrogate]; omega),
        show 0x2020 + r % 16 = r by omega, henc]
      rfl
    · have hd := hdec t
      simp only [List.take_succ_cons, List.cons_append] at hd henc ⊢
      simp only [unquoteStep, if_neg (show ¬b.toNat = 0x5C by omega),
        if_neg (show ¬(b.toNat = 0x22 ∨ b.toNat < 0x20) by omega),
        if_neg (show ¬b.toNat < 0x80 by omega), hd, henc, List.drop_succ_cons]
      rw [List.drop_left' (by simp at hlen ⊢; omega)]

/-- The decoder reads `\ufffd` back as U+FFFD. -/
theorem unquoteStep_ufffd (t : GoString) :
    unquoteStep (ufffd ++ t) = some (runeErrorBytes, t) := by
  rw [show ufffd ++ t = 0x5C :: 0x75 :: ([0x66, 0x66, 0x66, 0x64] ++ t) from rfl,
    @unquoteStep_u _ 0xFFFD (by simp [getu4, unhex, isHex, isDigit]) rfl]
  rfl

end Pieces

/-- **The decoder reads back what the encoder writes**, piece after piece: each rune as its own
bytes and each byte that starts none as U+FFFD. -/
theorem unquoteRunes_mapRunes : ∀ (g : Nat) (s : GoString) (fuel : Nat), s.length ≤ g →
    (mapRunes appendStringRune ufffd g s).length ≤ fuel →
    unquoteRunes fuel (mapRunes appendStringRune ufffd g s) =
      some (mapRunes (fun _ bs => bs) runeErrorBytes g s)
  | 0, _, fuel, _, _ => by cases fuel <;> rfl
  | _ + 1, [], fuel, _, _ => by cases fuel <;> rfl
  | g + 1, b :: s, fuel, hs, hf => by
    simp only [mapRunes] at hf ⊢
    cases hd : decodeRune (b :: s) with
    | some p =>
      obtain ⟨r, n⟩ := p
      rw [hd] at hf
      dsimp only at hf ⊢
      have hstep := unquoteStep_appendStringRune hd (mapRunes appendStringRune ufffd g ((b :: s).drop n))
      have hlen := unquoteStep_length hstep
      have hn := decodeRune_size hd
      rw [unquoteRunes_step hstep hf, unquoteRunes_mapRunes g _ fuel (by simp at hs ⊢; omega) (by omega)]
      rfl
    | none =>
      rw [hd] at hf
      dsimp only at hf ⊢
      have hstep := unquoteStep_ufffd (mapRunes appendStringRune ufffd g s)
      have hlen := unquoteStep_length hstep
      rw [unquoteRunes_step hstep hf, unquoteRunes_mapRunes g _ fuel (by simp at hs ⊢; omega) (by omega)]
      rfl

/-- **The string round trip**: `unquoteBytes` reads what `appendString` writes as the string with
each byte that starts no valid rune replaced by U+FFFD. -/
theorem unquoteBytes_appendString (s : GoString) :
    unquoteBytes (appendString s) = some (coerceUTF8 s) := by
  rw [appendString, unquoteBytes_quoted]
  exact unquoteRunes_mapRunes _ _ _ (Nat.le_refl _) (Nat.le_refl _)


/-! ### Well-formed tokens -/

theorem StringBody.append {a b : GoString} (ha : StringBody a) (hb : StringBody b) :
    StringBody (a ++ b) := by
  induction ha with
  | nil => exact hb
  | unescaped h₁ h₂ h₃ _ ih => exact .unescaped h₁ h₂ h₃ ih
  | escape he _ ih => exact .escape he ih
  | unicode h₁ h₂ h₃ h₄ _ ih => exact .unicode h₁ h₂ h₃ h₄ ih

/-- Bytes past ASCII stand unescaped in a string. -/
theorem stringBody_high : ∀ {bs : GoString}, (∀ c ∈ bs, 0x80 ≤ c.toNat) → StringBody bs
  | [], _ => .nil
  | c :: bs, h => by
    have hc := h c (List.mem_cons_self _ _)
    exact .unescaped (by omega) (by omega) (by omega)
      (stringBody_high fun c hc => h c (List.mem_cons_of_mem _ hc))

/-- Each piece `appendString` writes for a rune belongs in a string. -/
theorem stringBody_appendStringRune {b : UInt8} {s : GoString} {r n : Nat}
    (h : decodeRune (b :: s) = some (r, n)) : StringBody (appendStringRune r ((b :: s).take n)) := by
  obtain ⟨henc, -, -⟩ := decodeRune_some h
  unfold appendStringRune
  split
  · next hr =>
    obtain ⟨rfl, -, hb⟩ := decodeRune_ascii h hr
    rw [hb]
    split
    · next hs =>
      simp only [htmlSafe, Bool.and_eq_true, decide_eq_true_eq] at hs
      exact .unescaped (by omega) (by omega) (by omega) .nil
    · have h16 : b.toNat / 16 < 16 := by have := b.toNat_lt; omega
      rcases escapeASCII_cases b with ⟨e, he, hs, -⟩ | he <;> rw [he]
      · exact .escape hs .nil
      · exact .unicode (by decide) (by decide) (isHex_lowerhex h16)
          (isHex_lowerhex (Nat.mod_lt _ (by omega))) .nil
  · next hr =>
    split
    · exact .unicode (by decide) (by decide) (by decide) (isHex_lowerhex (Nat.mod_lt _ (by omega))) .nil
    · exact stringBody_high (henc ▸ encodeRune_high (by omega))

theorem stringBody_ufffd : StringBody ufffd :=
  .unicode (by decide) (by decide) (by decide) (by decide) .nil

theorem stringBody_mapRunes : ∀ (g : Nat) (s : GoString),
    StringBody (mapRunes appendStringRune ufffd g s)
  | 0, _ => .nil
  | _ + 1, [] => .nil
  | g + 1, b :: s => by
    simp only [mapRunes]
    split
    · next hd => exact (stringBody_appendStringRune hd).append (stringBody_mapRunes g _)
    · exact stringBody_ufffd.append (stringBody_mapRunes g _)

/-- **What `appendString` writes is a string token.** -/
theorem appendString_isString (s : GoString) : IsString (appendString s) :=
  ⟨_, stringBody_mapRunes _ _, rfl⟩

/-- **The string encoder and decoder agree**: what `appendString` writes is a string token of the
grammar, and `unquoteBytes` reads it back as the string with each byte that starts no valid rune
replaced by U+FFFD. -/
theorem appendString_roundTrip (s : GoString) :
    IsString (appendString s) ∧ unquoteBytes (appendString s) = some (coerceUTF8 s) :=
  ⟨appendString_isString s, unquoteBytes_appendString s⟩

/-- An object of one member, with no whitespace, is a JSON text. -/
theorem text_singleMember {k t : GoString} (hk : IsString k) (ht : Derives .value 9999 t) :
    Text (0x7B :: (k ++ 0x3A :: (t ++ [0x7D]))) :=
  ⟨[], _, [], isWs_nil,
    @Derives.object 9999 [] _ [] isWs_nil (@Derives.member 9999 k [] [] t hk isWs_nil isWs_nil ht)
      (.membersNil isWs_nil), isWs_nil, by simp⟩

theorem literalInterface_appendString (s : GoString) :
    literalInterface (appendString s) = some (.string (coerceUTF8 s)) := by
  have h := unquoteBytes_appendString s
  unfold appendString at h ⊢
  simp [literalInterface, h]

end Json

/-! ### The rotation body -/

open Json in
/-- **`json.Marshal` of a `rotateBindingRequestBody`**: the struct encoder writes `{`, the
field's name as `appendString` quotes it and a colon, the field's value, `null` for a nil
pointer, and `}`. -/
def RotateBindingRequestBody.marshalBytes (b : RotateBindingRequestBody) : GoString :=
  0x7B :: (appendString "predecessor_binding_id" ++ 0x3A ::
    ((match b.predecessorBindingId with
      | some s => appendString s
      | none => "null") ++ [0x7D]))

open Json in
/-- **The rotation body on the wire refines the modelled one**: the text `json.Marshal` writes
is a JSON text, `{`, a key, `:`, a literal and `}`, and Go's decoder reads the key and the
literal back as the one member of the value `RotateBindingRequestBody.marshal`. -/
theorem RotateBindingRequestBody.marshalBytes_decodes (b : RotateBindingRequestBody) :
    checkValid b.marshalBytes = none ∧
    ∃ k t key v, b.marshalBytes = 0x7B :: (k ++ 0x3A :: (t ++ [0x7D])) ∧ unquoteBytes k = some key ∧
      literalInterface t = some v ∧ b.marshal = .object [(key, v)] := by
  have hkey : unquoteBytes (appendString "predecessor_binding_id") =
      some ("predecessor_binding_id" : GoString) := by
    rw [unquoteBytes_appendString]; rfl
  rcases b with ⟨_ | s⟩
  · exact ⟨checkValid_of_text (text_singleMember (appendString_isString _)
      (.literal (.inr (.inr rfl)))), _, "null", _, .null, rfl, hkey, rfl, rfl⟩
  · exact ⟨checkValid_of_text (text_singleMember (appendString_isString _)
      (.string (appendString_isString s))), _, appendString s, _, _, rfl, hkey,
      literalInterface_appendString s, rfl⟩

end OsbClient
