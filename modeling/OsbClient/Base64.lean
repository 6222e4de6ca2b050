import OsbClient.Basic

/-!
# Standard base64

`buildOriginatingIdentityHeaderValue` writes the identity's JSON value with
`base64.StdEncoding.EncodeToString`, and a broker reads it back with
`base64.StdEncoding.DecodeString`. Both are transcribed here over bytes, with the `=` padding
of `StdEncoding`, and the round trip is proved for every byte string
(`OsbClient.Base64.decode_encode`): three bytes at a time, the way the encoder walks them, with
the two short tails as the base cases.

The decoder is Go's lenient one: it skips line breaks, and it does not insist that the bits a
padded quantum leaves over are zero. Neither matters to the round trip, which only feeds it what
the encoder writes.
-/

namespace OsbClient

namespace Base64

/-- The character of `encodeStd` for a six-bit value. -/
def encodeChar (n : Nat) : UInt8 :=
  UInt8.ofNat (if n < 26 then 0x41 + n else if n < 52 then 0x47 + n
    else if n < 62 then n - 4 else if n = 62 then 0x2B else 0x2F)

/-- The six-bit value of a character of the alphabet. -/
def decodeChar (c : UInt8) : Option Nat :=
  let n := c.toNat
  if 0x41 ≤ n ∧ n ≤ 0x5A then some (n - 0x41)
  else if 0x61 ≤ n ∧ n ≤ 0x7A then some (n - 0x47)
  else if 0x30 ≤ n ∧ n ≤ 0x39 then some (n + 4)
  else if n = 0x2B then some 62 else if n = 0x2F then some 63 else none

/-- The padding character. -/
def pad : UInt8 := 0x3D

/-- **`StdEncoding.EncodeToString`**: each three bytes to four characters, a short tail padded
with `=`. -/
def encode : GoString → GoString
  | a :: b :: c :: rest =>
    encodeChar (a.toNat / 4) :: encodeChar (a.toNat % 4 * 16 + b.toNat / 16) ::
      encodeChar (b.toNat % 16 * 4 + c.toNat / 64) :: encodeChar (c.toNat % 64) :: encode rest
  | [a, b] =>
    [encodeChar (a.toNat / 4), encodeChar (a.toNat % 4 * 16 + b.toNat / 16),
      encodeChar (b.toNat % 16 * 4), pad]
  | [a] => [encodeChar (a.toNat / 4), encodeChar (a.toNat % 4 * 16), pad, pad]
  | [] => []

/-- The quanta of a text without line breaks: four characters to three bytes, padding only in
the last quantum. -/
def decodeQuanta : GoString → Option GoString
  | [] => some []
  | c₁ :: c₂ :: c₃ :: c₄ :: rest =>
    match decodeChar c₁, decodeChar c₂, decodeChar c₃, decodeChar c₄ with
    | some w, some x, some y, some z =>
      (decodeQuanta rest).map fun bs =>
        UInt8.ofNat (w * 4 + x / 16) :: UInt8.ofNat (x % 16 * 16 + y / 4) ::
          UInt8.ofNat (y % 4 * 64 + z) :: bs
    | some w, some x, some y, none =>
      if c₄ = pad ∧ rest = [] then some [UInt8.ofNat (w * 4 + x / 16),
        UInt8.ofNat (x % 16 * 16 + y / 4)] else none
    | some w, some x, none, none =>
      if c₃ = pad ∧ c₄ = pad ∧ rest = [] then some [UInt8.ofNat (w * 4 + x / 16)] else none
    | _, _, _, _ => none
  | _ => none

/-- **`StdEncoding.DecodeString`**: `none` where Go reports a `CorruptInputError`. -/
def decode (s : GoString) : Option GoString :=
  decodeQuanta (s.filter fun c => c.toNat ≠ 0x0A ∧ c.toNat ≠ 0x0D)

theorem decodeChar_encodeChar {n : Nat} (h : n < 64) : decodeChar (encodeChar n) = some n := by
  revert n; decide

/-- The characters the encoder writes: the alphabet and `=`, neither a line break nor a
space. -/
theorem encodeChar_ne_break {n : Nat} (h : n < 64) :
    (encodeChar n).toNat ≠ 0x0A ∧ (encodeChar n).toNat ≠ 0x0D ∧ (encodeChar n).toNat ≠ 0x20 := by
  revert n; decide

theorem mem_encode {s : GoString} {c : UInt8} (h : c ∈ encode s) :
    c = pad ∨ ∃ n < 64, c = encodeChar n := by
  induction s using encode.induct with
  | case1 a b c' rest ih =>
    have := a.toNat_lt; have := b.toNat_lt; have := c'.toNat_lt
    simp only [encode, List.mem_cons] at h
    rcases h with rfl | rfl | rfl | rfl | h
    iterate 4 exact .inr ⟨_, by omega, rfl⟩
    exact ih h
  | case2 a b =>
    have := a.toNat_lt; have := b.toNat_lt
    simp only [encode, List.mem_cons, List.mem_singleton, List.not_mem_nil, or_false] at h
    rcases h with rfl | rfl | rfl | rfl
    iterate 3 exact .inr ⟨_, by omega, rfl⟩
    exact .inl rfl
  | case3 a =>
    have := a.toNat_lt
    simp only [encode, List.mem_cons, List.mem_singleton, List.not_mem_nil, or_false] at h
    rcases h with rfl | rfl | rfl | rfl
    iterate 2 exact .inr ⟨_, by omega, rfl⟩
    all_goals exact .inl rfl
  | case4 => simp [encode] at h

/-- No character the encoder writes is a line break or a space. -/
theorem encode_no_break {s : GoString} {c : UInt8} (h : c ∈ encode s) :
    c.toNat ≠ 0x0A ∧ c.toNat ≠ 0x0D ∧ c.toNat ≠ 0x20 := by
  rcases mem_encode h with rfl | ⟨n, hn, rfl⟩
  · decide
  · exact encodeChar_ne_break hn

theorem decodeQuanta_encode (s : GoString) : decodeQuanta (encode s) = some s := by
  induction s using encode.induct with
  | case1 a b c rest ih =>
    have ha := a.toNat_lt; have hb := b.toNat_lt; have hc := c.toNat_lt
    simp only [encode, decodeQuanta,
      decodeChar_encodeChar (show a.toNat / 4 < 64 by omega),
      decodeChar_encodeChar (show a.toNat % 4 * 16 + b.toNat / 16 < 64 by omega),
      decodeChar_encodeChar (show b.toNat % 16 * 4 + c.toNat / 64 < 64 by omega),
      decodeChar_encodeChar (show c.toNat % 64 < 64 by omega), ih, Option.map_some']
    congr 1
    refine List.cons_eq_cons.2 ⟨?_, List.cons_eq_cons.2 ⟨?_, List.cons_eq_cons.2 ⟨?_, rfl⟩⟩⟩
    · rw [show a.toNat / 4 * 4 + (a.toNat % 4 * 16 + b.toNat / 16) / 16 = a.toNat by omega]
      exact UInt8.ofNat_toNat' a
    · rw [show (a.toNat % 4 * 16 + b.toNat / 16) % 16 * 16 + (b.toNat % 16 * 4 + c.toNat / 64) / 4
        = b.toNat by omega]
      exact UInt8.ofNat_toNat' b
    · rw [show (b.toNat % 16 * 4 + c.toNat / 64) % 4 * 64 + c.toNat % 64 = c.toNat by omega]
      exact UInt8.ofNat_toNat' c
  | case2 a b =>
    have ha := a.toNat_lt; have hb := b.toNat_lt
    have hpad : decodeChar pad = none := by decide
    simp only [encode, decodeQuanta, hpad,
      decodeChar_encodeChar (show a.toNat / 4 < 64 by omega),
      decodeChar_encodeChar (show a.toNat % 4 * 16 + b.toNat / 16 < 64 by omega),
      decodeChar_encodeChar (show b.toNat % 16 * 4 < 64 by omega), and_self, if_true]
    rw [show a.toNat / 4 * 4 + (a.toNat % 4 * 16 + b.toNat / 16) / 16 = a.toNat by omega,
      show (a.toNat % 4 * 16 + b.toNat / 16) % 16 * 16 + b.toNat % 16 * 4 / 4 = b.toNat by omega,
      UInt8.ofNat_toNat', UInt8.ofNat_toNat']
  | case3 a =>
    have ha := a.toNat_lt
    have hpad : decodeChar pad = none := by decide
    simp only [encode, decodeQuanta, hpad,
      decodeChar_encodeChar (show a.toNat / 4 < 64 by omega),
      decodeChar_encodeChar (show a.toNat % 4 * 16 < 64 by omega), and_self, if_true]
    rw [show a.toNat / 4 * 4 + a.toNat % 4 * 16 / 16 = a.toNat by omega, UInt8.ofNat_toNat']
  | case4 => rfl

/-- **The base64 round trip**: the standard decoding of the standard encoding of any byte string
is that byte string. -/
theorem decode_encode (s : GoString) : decode (encode s) = some s := by
  rw [decode, List.filter_eq_self.2 fun c hc => by simpa using (encode_no_break hc).imp_right And.left,
    decodeQuanta_encode]

end Base64

end OsbClient
