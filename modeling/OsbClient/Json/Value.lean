import OsbClient.Basic

/-!
# JSON values, and the bodies the client reads

`encoding/json` reads a body in two passes: a scanner checks that the bytes are one JSON text
(`OsbClient.Json.Scanner`), and a decoder assigns the value they denote to a Go value
(`OsbClient.Json.Decode`). This file holds what the two share: the values themselves.

A value keeps what the decoder looks at. An object keeps its members *in order and with their
repetitions*, because Go assigns them one after the other and the last assignment wins. A
number keeps its literal, because what it decodes to depends on the literal: `strconv` refuses
a literal whose value, as it reads it, is out of the range of a `float64`
(`OsbClient.Json.fitsFloat64`), and a
`uint16` field takes only an unsigned integer literal below `65536`
(`OsbClient.Json.parseUint16`). A string keeps its bytes after unescaping.

The client never sees the bytes of a response body otherwise than through this reader, so a
body is modelled by what the reader makes of it: `OsbClient.Body` is an unreadable stream, a
text the scanner refuses, or a JSON value.

The other way round, `prepareAndDo` hands its `body interface{}` to `json.Marshal`, which can
refuse it: a `float64` that is `NaN` or infinite, or a channel, a function or a complex number
somewhere inside it. `OsbClient.GoValue` is such a Go value as the encoder sees it, and
`OsbClient.Json.marshal` the value of the text the encoder writes for it, or its error, which
always names what it could not write (`OsbClient.Json.marshal_error`).
-/

namespace OsbClient

/-- A JSON value, as `encoding/json`'s decoder sees it. -/
inductive JSON where
  | null
  | bool (b : Bool)
  /-- A number, by its literal. -/
  | number (lit : GoString)
  /-- A string, by its bytes after unescaping. -/
  | string (s : GoString)
  | array (elems : List JSON)
  /-- An object, by its members in order, repetitions included. -/
  | object (members : List (GoString × JSON))

/-- A response body as `io.ReadAll` and `json.Unmarshal` see it. -/
inductive Body where
  /-- Reading the body failed with `err`. -/
  | unreadable (err : GoError)
  /-- The bytes are not one JSON text; `err` is the scanner's `*json.SyntaxError`. -/
  | malformed (err : GoError)
  /-- The bytes are the text of `v`. -/
  | json (v : JSON)

/-- A Go value handed to `json.Marshal`, by what the encoder does with it. -/
inductive GoValue where
  /-- A nil pointer, interface, slice or map: `null`. -/
  | null
  | bool (b : Bool)
  /-- A finite number, by the literal the encoder writes for it. -/
  | number (lit : GoString)
  /-- A `float64` that is `NaN`. -/
  | nan
  /-- A `float64` that is infinite, `-Inf` when `negative`. -/
  | inf (negative : Bool)
  | string (s : GoString)
  /-- A slice or an array. -/
  | array (elems : List GoValue)
  /-- A struct, or a pointer to one, by the fields the encoder writes, in the order of the
  declaration, each under its JSON name. -/
  | struct (fields : List (GoString × GoValue))
  /-- A channel, a function or a complex number, by its type as `reflect` writes it. -/
  | unsupported (type : String)

namespace Json

/-- The kind of a value as an `*json.UnmarshalTypeError` names it. -/
def kind : JSON → String
  | .null => "null"
  | .bool _ => "bool"
  | .number _ => "number"
  | .string _ => "string"
  | .array _ => "array"
  | .object _ => "object"

/-- **The member a map holds at `key`** after the decoder has assigned an object's members in
order: the last member named `key`. -/
def member (key : GoString) : List (GoString × JSON) → Option JSON
  | [] => none
  | (k, v) :: rest =>
    match member key rest with
    | some w => some w
    | none => if k = key then some v else none

/-! ### What `json.Marshal` writes -/

mutual
/-- **`json.Marshal`**, by the value of the text it writes: each string coerced to UTF-8, and
for what it cannot write the `*UnsupportedValueError` or `*UnsupportedTypeError` of the first
such part, in the order it writes them. -/
def marshal : GoValue → Except GoError JSON
  | .null => .ok .null
  | .bool b => .ok (.bool b)
  | .number lit => .ok (.number lit)
  | .nan => .error (.new "json: unsupported value: NaN")
  | .inf negative =>
    .error (.new ("json: unsupported value: " ++ if negative then "-Inf" else "+Inf"))
  | .string s => .ok (.string (coerceUTF8 s))
  | .array vs => (marshalElems vs).map .array
  | .struct fs => (marshalFields fs).map .object
  | .unsupported type => .error (.new ("json: unsupported type: " ++ type))

/-- The elements of a slice, one after the other. -/
def marshalElems : List GoValue → Except GoError (List JSON)
  | [] => .ok []
  | v :: vs => do
    let j ← marshal v
    let js ← marshalElems vs
    pure (j :: js)

/-- The fields of a struct, one after the other. -/
def marshalFields : List (GoString × GoValue) → Except GoError (List (GoString × JSON))
  | [] => .ok []
  | (k, v) :: fs => do
    let j ← marshal v
    let js ← marshalFields fs
    pure ((k, j) :: js)
end

/-- The errors `json.Marshal` returns: the `*UnsupportedValueError` of a `float64` it cannot
write, or the `*UnsupportedTypeError` of a type it cannot write. -/
def UnsupportedError (e : GoError) : Prop :=
  ∃ what, e = .new ("json: unsupported value: " ++ what) ∨
    e = .new ("json: unsupported type: " ++ what)

mutual
/-- **Every error `json.Marshal` returns names what it cannot write.** -/
theorem marshal_error : ∀ {v : GoValue} {e : GoError}, marshal v = .error e → UnsupportedError e
  | .null, _, h | .bool _, _, h | .number _, _, h | .string _, _, h => nomatch h
  | .nan, _, h => ⟨"NaN", .inl (Except.error.inj h).symm⟩
  | .inf _, _, h => ⟨_, .inl (Except.error.inj h).symm⟩
  | .unsupported type, _, h => ⟨type, .inr (Except.error.inj h).symm⟩
  | .array vs, _, h => by
    cases hm : marshalElems vs <;> simp only [marshal, hm, Except.map, reduceCtorEq] at h
    cases h; exact marshalElems_error hm
  | .struct fs, _, h => by
    cases hm : marshalFields fs <;> simp only [marshal, hm, Except.map, reduceCtorEq] at h
    cases h; exact marshalFields_error hm

theorem marshalElems_error : ∀ {vs : List GoValue} {e : GoError},
    marshalElems vs = .error e → UnsupportedError e
  | [], _, h => nomatch h
  | v :: vs, _, h => by
    cases hv : marshal v with
    | error => simp only [marshalElems, hv] at h; cases h; exact marshal_error hv
    | ok =>
      cases hs : marshalElems vs with
      | error => simp only [marshalElems, hv, hs] at h; cases h; exact marshalElems_error hs
      | ok => simp only [marshalElems, hv, hs] at h; cases h

theorem marshalFields_error : ∀ {fs : List (GoString × GoValue)} {e : GoError},
    marshalFields fs = .error e → UnsupportedError e
  | [], _, h => nomatch h
  | (_, v) :: fs, _, h => by
    cases hv : marshal v with
    | error => simp only [marshalFields, hv] at h; cases h; exact marshal_error hv
    | ok =>
      cases hs : marshalFields fs with
      | error => simp only [marshalFields, hv, hs] at h; cases h; exact marshalFields_error hs
      | ok => simp only [marshalFields, hv, hs] at h; cases h
end

/-! ### Number literals -/

/-- The decimal digits at the head of a literal, and what follows them. -/
def spanDigits (s : GoString) : List Nat × GoString :=
  ((s.takeWhile isDigit).map (fun c => c.toNat - 0x30), s.dropWhile isDigit)

/-- The value of a list of decimal digits. -/
def digitsValue (ds : List Nat) : Nat := ds.foldl (fun acc d => acc * 10 + d) 0

/-- The value of the digits of an exponent as `readFloat` and `decimal.set` accumulate it: a
digit is added only while the value read so far is below `10000`, and the digits after that are
passed over, so `1e100000` is read as `1e10000`. -/
def exponentValue (ds : List Nat) : Nat :=
  ds.foldl (fun e d => if e < 10000 then e * 10 + d else e) 0

example : exponentValue [1, 0, 0, 0, 0, 0] = 10000 := by decide

/-- The exponent part of a literal, after its `e` or `E`. -/
def parseExponent : GoString → Int
  | 0x2D :: s => -(exponentValue (spanDigits s).1 : Int)
  | 0x2B :: s => exponentValue (spanDigits s).1
  | s => exponentValue (spanDigits s).1

/-- A number literal as `strconv` reads it: its value is `± m · 10 ^ e` for the mantissa `m`
of all its digits and the exponent `e`, as `OsbClient.Json.exponentValue` reads it, corrected by
the number of fraction digits. -/
def parseNumber (lit : GoString) : Nat × Int :=
  let body := match lit with | 0x2D :: s => s | s => s
  let (int, rest) := spanDigits body
  let (frac, rest) := match rest with | 0x2E :: s => spanDigits s | s => ([], s)
  let exp := match rest with
    | e :: s => if e.toNat = 0x65 ∨ e.toNat = 0x45 then parseExponent s else 0
    | [] => 0
  (digitsValue (int ++ frac), exp - frac.length)

/-- The least magnitude that `strconv.ParseFloat(s, 64)` rounds to infinity: `MaxFloat64` and
half a unit in its last place. -/
def float64Overflow : Nat := Nat.pow 2 1024 - Nat.pow 2 970

/-- **`strconv.ParseFloat(lit, 64)` succeeds**: the literal's magnitude, with its exponent read
as `strconv` reads it, rounds to a finite `float64`. A magnitude too small rounds to zero, which
is no error. The whole mantissa counts: the fast paths round it correctly, and the slow one
keeps 800 digits and remembers whether it dropped a non-zero one. -/
def fitsFloat64 (lit : GoString) : Bool :=
  let (m, e) := parseNumber lit
  if 0 ≤ e then decide (m * Nat.pow 10 e.toNat < float64Overflow)
  else decide (m < float64Overflow * Nat.pow 10 (-e).toNat)

/-- What the decoder stores in a `uint16` for a number literal: `strconv.ParseUint(lit, 10, 64)`
must accept it (only decimal digits), and the value must not overflow sixteen bits. -/
def parseUint16 (lit : GoString) : Option Nat :=
  if lit ≠ [] ∧ lit.all isDigit then
    let n := digitsValue (lit.map fun c => c.toNat - 0x30)
    if n ≤ 65535 then some n else none
  else none

end Json

end OsbClient
