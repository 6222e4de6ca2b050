import Mathlib.Tactic.Common
import Mathlib.Data.String.Basic

/-!
# Go strings, runes and errors

The client is written in Go, and everything it sends or reads is a Go `string`: an immutable
sequence of bytes that *need not* be UTF-8. The model keeps that: a `OsbClient.GoString` is a
list of bytes, and the string constants of the source are their UTF-8 bytes.

Two pieces of the standard library walk a string rune by rune, and both are needed below:
`encoding/json` coerces every string it writes to valid UTF-8, and it matches object keys to
struct fields up to case folding. Both loops are one combinator, `OsbClient.mapRunes`, over
Go's `utf8.DecodeRune` (`OsbClient.decodeRune`), which is transcribed from its first-byte table.

Go errors are values. `OsbClient.GoError` has one constructor per kind of error the modelled
code creates or passes on; the repository's own kinds carry the fields the source gives them.
-/

theorem UInt8.ofNat_toNat' (c : UInt8) : UInt8.ofNat c.toNat = c :=
  UInt8.toNat.inj (UInt8.toNat_ofNat_of_lt c.toNat_lt_size)

namespace OsbClient

/-- A Go `string`: a sequence of bytes. -/
abbrev GoString := List UInt8

/-- The bytes of a string literal of the source: its UTF-8 encoding, as Go stores it. -/
def GoString.ofString (s : String) : GoString := s.toList.flatMap String.utf8EncodeChar

instance : Coe String GoString := ⟨GoString.ofString⟩

/-! ### Bytes

Bytes are compared through their value, `UInt8.toNat`: that is what Go's comparisons of a
`byte` with a constant mean, and it leaves every arithmetic side condition to `omega`. -/

/-- A byte is the literal of its value. -/
theorem byte_eq_of_toNat {c : UInt8} {n : Nat} (h : c.toNat = n) : c = UInt8.ofNat n := by
  rw [← h, UInt8.ofNat_toNat']

/-- An ASCII digit. -/
def isDigit (c : UInt8) : Bool := 0x30 ≤ c.toNat && c.toNat ≤ 0x39

/-- An ASCII letter. -/
def isAlpha (c : UInt8) : Bool :=
  (0x41 ≤ c.toNat && c.toNat ≤ 0x5A) || (0x61 ≤ c.toNat && c.toNat ≤ 0x7A)

/-- `ishex` of `net/url`. -/
def isHex (c : UInt8) : Bool :=
  isDigit c || (0x41 ≤ c.toNat && c.toNat ≤ 0x46) || (0x61 ≤ c.toNat && c.toNat ≤ 0x66)

/-- `unhex` of `net/url`: the value of a hexadecimal digit. -/
def unhex (c : UInt8) : Nat :=
  if isDigit c then c.toNat - 0x30 else if 0x61 ≤ c.toNat && c.toNat ≤ 0x66 then c.toNat - 0x57
  else if 0x41 ≤ c.toNat && c.toNat ≤ 0x46 then c.toNat - 0x37 else 0

/-- The upper-case hexadecimal digit of `n < 16`, as `net/url`'s `upperhex` table writes it. -/
def upperhex (n : Nat) : UInt8 := UInt8.ofNat (if n < 10 then 0x30 + n else 0x37 + n)

theorem isHex_upperhex {n : Nat} (h : n < 16) : isHex (upperhex n) = true := by
  revert n; decide

theorem unhex_upperhex {n : Nat} (h : n < 16) : unhex (upperhex n) = n := by
  revert n; decide

/-! ### Runes -/

/-- Go's `first` table past the ASCII range: for a byte that can start a multi-byte sequence,
the length of the sequence and the range its second byte must lie in (`acceptRanges`). -/
def leadRange (b : UInt8) : Option (Nat × Nat × Nat) :=
  if 0xC2 ≤ b.toNat && b.toNat ≤ 0xDF then some (2, 0x80, 0xBF)
  else if b.toNat = 0xE0 then some (3, 0xA0, 0xBF)
  else if b.toNat = 0xED then some (3, 0x80, 0x9F)
  else if 0xE1 ≤ b.toNat && b.toNat ≤ 0xEF then some (3, 0x80, 0xBF)
  else if b.toNat = 0xF0 then some (4, 0x90, 0xBF)
  else if b.toNat = 0xF4 then some (4, 0x80, 0x8F)
  else if 0xF1 ≤ b.toNat && b.toNat ≤ 0xF3 then some (4, 0x80, 0xBF)
  else none

/-- A continuation byte, `0x80`–`0xBF`. -/
def isCont (b : UInt8) : Bool := 0x80 ≤ b.toNat && b.toNat ≤ 0xBF

/-- The payload bits of a continuation byte. -/
def contBits (b : UInt8) : Nat := b.toNat % 64

/-- **Go's `utf8.DecodeRune`**: `some (r, n)` when the input starts with the `n`-byte encoding
of the rune `r`, `none` where Go answers `(RuneError, 1)` (an invalid or truncated sequence,
or no input). -/
def decodeRune : GoString → Option (Nat × Nat)
  | [] => none
  | b₀ :: s =>
    if b₀.toNat < 0x80 then some (b₀.toNat, 1) else
    match leadRange b₀, s with
    | some (2, lo, hi), b₁ :: _ =>
      if lo ≤ b₁.toNat && b₁.toNat ≤ hi then some (b₀.toNat % 32 * 64 + contBits b₁, 2) else none
    | some (3, lo, hi), b₁ :: b₂ :: _ =>
      if lo ≤ b₁.toNat && b₁.toNat ≤ hi && isCont b₂ then
        some (b₀.toNat % 16 * 4096 + contBits b₁ * 64 + contBits b₂, 3) else none
    | some (4, lo, hi), b₁ :: b₂ :: b₃ :: _ =>
      if lo ≤ b₁.toNat && b₁.toNat ≤ hi && isCont b₂ && isCont b₃ then
        some (b₀.toNat % 8 * 262144 + contBits b₁ * 4096 + contBits b₂ * 64 + contBits b₃, 4)
      else none
    | _, _ => none

/-- A decoded rune takes at least one byte, and no more than there are. -/
theorem decodeRune_size {s : GoString} {r n : Nat} (h : decodeRune s = some (r, n)) :
    1 ≤ n ∧ n ≤ s.length := by
  match s, h with
  | b₀ :: s, h =>
    simp only [decodeRune] at h
    split at h
    · cases h; simp
    · split at h <;> (try split at h) <;> simp_all <;> omega

/-- Go's `utf8.AppendRune`: the UTF-8 encoding of a rune, `RuneError`'s for a surrogate or a
value past `0x10FFFF`. -/
def encodeRune (r : Nat) : GoString :=
  if r < 0x80 then [r.toUInt8]
  else if r < 0x800 then [(0xC0 + r / 64).toUInt8, (0x80 + r % 64).toUInt8]
  else if 0xD800 ≤ r ∧ r < 0xE000 ∨ 0x10FFFF < r then [0xEF, 0xBF, 0xBD]
  else if r < 0x10000 then
    [(0xE0 + r / 4096).toUInt8, (0x80 + r / 64 % 64).toUInt8, (0x80 + r % 64).toUInt8]
  else [(0xF0 + r / 262144).toUInt8, (0x80 + r / 4096 % 64).toUInt8,
    (0x80 + r / 64 % 64).toUInt8, (0x80 + r % 64).toUInt8]

/-- The bytes of `utf8.RuneError`, U+FFFD. -/
def runeErrorBytes : GoString := [0xEF, 0xBF, 0xBD]

/-- **The rune loop** of the standard library: walk `s` as `for i := 0; i < len(s); i += n`
does over `utf8.DecodeRune`, writing `valid r bs` for each valid rune `r` with bytes `bs` and
`invalid` for each byte that starts no valid rune. `fuel` bounds the steps; the length of the
string is always enough. -/
def mapRunes (valid : Nat → GoString → GoString) (invalid : GoString) :
    Nat → GoString → GoString
  | 0, _ => []
  | _ + 1, [] => []
  | fuel + 1, b :: s =>
    match decodeRune (b :: s) with
    | some (r, n) => valid r ((b :: s).take n) ++ mapRunes valid invalid fuel ((b :: s).drop n)
    | none => invalid ++ mapRunes valid invalid fuel s

/-- Every rune of `s` is valid: Go's `utf8.ValidString`, by the same loop. -/
def validRunes : Nat → GoString → Bool
  | 0, _ => true
  | _ + 1, [] => true
  | fuel + 1, b :: s =>
    match decodeRune (b :: s) with
    | some (_, n) => validRunes fuel ((b :: s).drop n)
    | none => false

/-- `utf8.ValidString`: the string is well-formed UTF-8. -/
def validUTF8 (s : GoString) : Bool := validRunes s.length s

/-- **The string coercion of `encoding/json`**: every byte that starts no valid rune is
replaced by U+FFFD, as `json.Marshal` does to every string it writes. -/
def coerceUTF8 (s : GoString) : GoString := mapRunes (fun _ bs => bs) runeErrorBytes s.length s

theorem mapRunes_id_of_validRunes : ∀ (fuel : Nat) (s : GoString), s.length ≤ fuel →
    validRunes fuel s = true → mapRunes (fun _ bs => bs) runeErrorBytes fuel s = s
  | 0, [], _, _ => rfl
  | _ + 1, [], _, _ => rfl
  | fuel + 1, b :: s, hl, hv => by
    simp only [validRunes, mapRunes] at hv ⊢
    split at hv
    · next r n h =>
      have hn := decodeRune_size h
      simp only [List.length_cons] at hl hn
      rw [mapRunes_id_of_validRunes fuel _ (by simp; omega) hv, List.take_append_drop]
    · cases hv

/-- Valid UTF-8 goes through the coercion of `encoding/json` unchanged. -/
theorem coerceUTF8_of_valid {s : GoString} (h : validUTF8 s = true) : coerceUTF8 s = s :=
  mapRunes_id_of_validRunes _ _ (Nat.le_refl _) h

/-- The four runes outside ASCII that `unicode.ToUpper (unicode.ToLower r)` sends into ASCII:
`ſ` and `ı` (upper-case `S` and `I`), `İ` and the Kelvin sign (lower-case `i` and `k`). -/
def foldRune (r : Nat) : Nat :=
  if 0x61 ≤ r ∧ r ≤ 0x7A then r - 32
  else if r = 0x17F then 0x53
  else if r = 0x131 ∨ r = 0x130 then 0x49
  else if r = 0x212A then 0x4B
  else r

/-- **`foldName` of `encoding/json`**, against which object keys are matched to struct fields:
ASCII letters to upper case, and each rune to `ToUpper (ToLower r)`. Only the runes that fold
into ASCII are folded here; every other rune outside ASCII folds to a rune outside ASCII, so no
key holding one matches a field name, which is all the decoder compares. -/
def foldName (s : GoString) : GoString :=
  mapRunes (fun r _ => encodeRune (foldRune r)) runeErrorBytes s.length s

/-! ### Errors -/

/-- The Go errors the modelled code creates or passes on. -/
inductive GoError where
  /-- An error that is only its text: `errors.New`, or `fmt.Errorf` with no error operand. -/
  | new (text : String)
  /-- `fmt.Errorf(text + ": %v", err)`. -/
  | wrap (text : String) (err : GoError)
  /-- `fmt.Errorf(before + "%q" + after, arg)`: a text quoted by `strconv.Quote` between two
  fixed ones. -/
  | quoted (before : String) (arg : GoString) (after : String)
  /-- `*json.SyntaxError`: the scanner refused the byte at `offset`. -/
  | scanError (msg : String) (offset : Nat)
  /-- `*json.UnmarshalTypeError`: a JSON value of kind `value` met a Go type it does not fit. -/
  | unmarshalType (value : String) (type : String)
  /-- `url.EscapeError`: a `%` not followed by two hexadecimal digits, or not allowed where it
  stands. -/
  | escape (text : GoString)
  /-- `url.InvalidHostError`: a byte a host may not hold. -/
  | invalidHost (text : GoString)
  /-- `*url.Error`, as `url.Parse` wraps its failures. -/
  | url (op : String) (url : GoString) (err : GoError)
  /-- `HTTPStatusCodeError` of the repository: a response the client did not accept. -/
  | httpStatusCode (statusCode : Int) (errorMessage : Option GoString)
      (description : Option GoString) (responseError : Option GoError)
  /-- `OperationNotAllowedError` of the repository. -/
  | operationNotAllowed (reason : GoString)
  /-- What `required(field)` returns: a missing required field of a request. -/
  | required (field : String)

end OsbClient
