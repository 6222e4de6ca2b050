import OsbClient.Json.Value

/-!
# The JSON scanner

`isValidJSON` of `client.go` unmarshals a string into a `json.RawMessage`, which accepts the
bytes of any JSON text: what it checks is exactly `checkValid` of `encoding/json`, the scanner
that runs before every decode. The scanner is a state machine read one byte at a time, with a
stack of the arrays and objects it is inside; this file transcribes it, state function by state
function (`stateBeginValue` is `OsbClient.Json.beginValue`, and so on).

Two features of Go's scanner are kept as they are: it refuses nesting deeper than `10000`, and
it does not look at the bytes inside a string, so a string holding invalid UTF-8 passes.
-/

namespace OsbClient

namespace Json

/-- `parseObjectKey`, `parseObjectValue`, `parseArrayValue`: what the scanner is inside. -/
inductive ParseState where
  | objectKey
  | objectValue
  | arrayValue

/-- The step function the scanner holds, by the name of Go's state function. -/
inductive Step where
  | beginValueOrEmpty
  | beginValue
  | beginStringOrEmpty
  | beginString
  | endValue
  | endTop
  | inString
  | inStringEsc
  /-- `stateInStringEscU`, `…U1`, `…U12`, `…U123`: `owed` hexadecimal digits still owed. -/
  | inStringEscU (owed : Nat)
  | neg
  | one
  | zero
  | dot
  | dot0
  | e
  | eSign
  | e0
  /-- The states inside `true`, `false` and `null`: the bytes still owed, and the literal. -/
  | literal (owed : List UInt8) (word : String)
  | error

/-- The scanner's state. -/
structure Scanner where
  step : Step := .beginValue
  /-- The stack of `parseState`, innermost first. -/
  parseState : List ParseState := []
  endTop : Bool := false
  err : Option GoError := none
  /-- The number of bytes read, `SyntaxError.Offset`. -/
  bytes : Nat := 0

/-- `maxNestingDepth`. -/
def maxNestingDepth : Nat := 10000

/-- `isSpace`. -/
def isSpace (c : UInt8) : Bool := c.toNat = 0x20 || c.toNat = 0x09 || c.toNat = 0x0D || c.toNat = 0x0A

/-- The apostrophe, which the scanner's messages put around a character. -/
def apostrophe : String := String.singleton (Char.ofNat 0x27)

/-- The lower-case hexadecimal digits of `n`, `width` of them. -/
def lowerHex (width n : Nat) : String :=
  String.mk ((List.range width).reverse.map fun i =>
    let d := n / Nat.pow 16 i % 16
    Char.ofNat (if d < 10 then 0x30 + d else 0x57 + d))

/-- `strconv.Quote` of the rune `r < 256` without its quotes, as `quoteChar` uses it. -/
def quoteRune (r : Nat) : String :=
  if r = 0x5C then "\\\\"
  else if 0x20 ≤ r ∧ r < 0x7F ∨ 0xA0 < r ∧ r ≤ 0xFF ∧ r ≠ 0xAD then String.singleton (Char.ofNat r)
  else if r = 0x07 then "\\a" else if r = 0x08 then "\\b" else if r = 0x0C then "\\f"
  else if r = 0x0A then "\\n" else if r = 0x0D then "\\r" else if r = 0x09 then "\\t"
  else if r = 0x0B then "\\v" else if r < 0x20 ∨ r = 0x7F then "\\x" ++ lowerHex 2 r
  else "\\u" ++ lowerHex 4 r

/-- `quoteChar`: a byte as the scanner's messages show it. -/
def quoteChar (c : UInt8) : String :=
  if c.toNat = 0x27 then apostrophe ++ "\\" ++ apostrophe ++ apostrophe
  else if c.toNat = 0x22 then apostrophe ++ "\"" ++ apostrophe
  else apostrophe ++ quoteRune c.toNat ++ apostrophe

namespace Scanner

/-- `s.error(c, context)`: the scanner stops, with a `*SyntaxError` at the current offset. -/
def fail (s : Scanner) (c : UInt8) (context : String) : Scanner :=
  { s with step := .error,
           err := some (.scanError ("invalid character " ++ quoteChar c ++ " " ++ context) s.bytes) }

/-- `pushParseState`. -/
def push (s : Scanner) (c : UInt8) (ps : ParseState) : Scanner :=
  if s.parseState.length + 1 ≤ maxNestingDepth then { s with parseState := ps :: s.parseState }
  else (s.fail c "exceeded max depth")

/-- `popParseState`. -/
def pop (s : Scanner) : Scanner :=
  match s.parseState with
  | [] | [_] => { s with parseState := [], step := .endTop, endTop := true }
  | _ :: rest => { s with parseState := rest, step := .endValue }

/-- Replace the innermost parse state. -/
def setTop (s : Scanner) (ps : ParseState) : Scanner :=
  { s with parseState := ps :: s.parseState.tail }

end Scanner

open Scanner

/-- `stateEndTop`. -/
def endTop (s : Scanner) (c : UInt8) : Scanner :=
  if isSpace c then s else s.fail c "after top-level value"

/-- `stateEndValue`. -/
def endValue (s : Scanner) (c : UInt8) : Scanner :=
  match s.parseState with
  | [] => endTop { s with step := .endTop, endTop := true } c
  | ps :: _ =>
    if isSpace c then { s with step := .endValue } else
    match ps with
    | .objectKey =>
      if c.toNat = 0x3A then { s.setTop .objectValue with step := .beginValue }
      else s.fail c "after object key"
    | .objectValue =>
      if c.toNat = 0x2C then { s.setTop .objectKey with step := .beginString }
      else if c.toNat = 0x7D then s.pop
      else s.fail c "after object key:value pair"
    | .arrayValue =>
      if c.toNat = 0x2C then { s with step := .beginValue }
      else if c.toNat = 0x5D then s.pop
      else s.fail c "after array element"

/-- `stateBeginValue`. -/
def beginValue (s : Scanner) (c : UInt8) : Scanner :=
  if isSpace c then s
  else if c.toNat = 0x7B then { s with step := .beginStringOrEmpty }.push c .objectKey
  else if c.toNat = 0x5B then { s with step := .beginValueOrEmpty }.push c .arrayValue
  else if c.toNat = 0x22 then { s with step := .inString }
  else if c.toNat = 0x2D then { s with step := .neg }
  else if c.toNat = 0x30 then { s with step := .zero }
  else if c.toNat = 0x74 then { s with step := .literal "rue" "true" }
  else if c.toNat = 0x66 then { s with step := .literal "alse" "false" }
  else if c.toNat = 0x6E then { s with step := .literal "ull" "null" }
  else if 0x31 ≤ c.toNat ∧ c.toNat ≤ 0x39 then { s with step := .one }
  else s.fail c "looking for beginning of value"

/-- `stateBeginString`. -/
def beginString (s : Scanner) (c : UInt8) : Scanner :=
  if isSpace c then s
  else if c.toNat = 0x22 then { s with step := .inString }
  else s.fail c "looking for beginning of object key string"

/-- `state0`: after the integer part of a number. -/
def zero (s : Scanner) (c : UInt8) : Scanner :=
  if c.toNat = 0x2E then { s with step := .dot }
  else if c.toNat = 0x65 ∨ c.toNat = 0x45 then { s with step := .e }
  else endValue s c

/-- `stateESign`. -/
def eSign (s : Scanner) (c : UInt8) : Scanner :=
  if isDigit c then { s with step := .e0 } else s.fail c "in exponent of numeric literal"

/-- **One step of the scanner**: the state function the scanner holds, applied to one byte. -/
def step (s : Scanner) (c : UInt8) : Scanner :=
  match s.step with
  | .beginValueOrEmpty =>
    if isSpace c then s else if c.toNat = 0x5D then endValue s c else beginValue s c
  | .beginValue => beginValue s c
  | .beginStringOrEmpty =>
    if isSpace c then s else if c.toNat = 0x7D then endValue (s.setTop .objectValue) c
    else beginString s c
  | .beginString => beginString s c
  | .endValue => endValue s c
  | .endTop => endTop s c
  | .inString =>
    if c.toNat = 0x22 then { s with step := .endValue }
    else if c.toNat = 0x5C then { s with step := .inStringEsc }
    else if c.toNat < 0x20 then s.fail c "in string literal"
    else s
  | .inStringEsc =>
    if c.toNat = 0x75 then { s with step := .inStringEscU 4 }
    else if (c.toNat = 0x62 ∨ c.toNat = 0x66 ∨ c.toNat = 0x6E ∨ c.toNat = 0x72 ∨ c.toNat = 0x74 ∨
      c.toNat = 0x5C ∨ c.toNat = 0x2F ∨ c.toNat = 0x22) then { s with step := .inString }
    else s.fail c "in string escape code"
  | .inStringEscU owed =>
    if isHex c then { s with step := if owed ≤ 1 then .inString else .inStringEscU (owed - 1) }
    else s.fail c "in \\u hexadecimal character escape"
  | .neg =>
    if c.toNat = 0x30 then { s with step := .zero }
    else if 0x31 ≤ c.toNat ∧ c.toNat ≤ 0x39 then { s with step := .one }
    else s.fail c "in numeric literal"
  | .one => if isDigit c then s else zero s c
  | .zero => zero s c
  | .dot => if isDigit c then { s with step := .dot0 }
    else s.fail c "after decimal point in numeric literal"
  | .dot0 =>
    if isDigit c then s else if c.toNat = 0x65 ∨ c.toNat = 0x45 then { s with step := .e }
    else endValue s c
  | .e => if c.toNat = 0x2B ∨ c.toNat = 0x2D then { s with step := .eSign } else eSign s c
  | .eSign => eSign s c
  | .e0 => if isDigit c then s else endValue s c
  | .literal [] _ => endValue s c
  | .literal (b :: owed) word =>
    if c = b then { s with step := if owed = [] then .endValue else .literal owed word }
    else s.fail c ("in literal " ++ word ++ " (expecting " ++ quoteChar b ++ ")")
  | .error => s

/-- The scanner after the bytes of `data`, each counted before it is stepped on. -/
def scanAll (s : Scanner) : GoString → Scanner
  | [] => s
  | c :: data => scanAll (step { s with bytes := s.bytes + 1 } c) data

/-- `eof`: the end of the input, read as a space that ends a pending number. -/
def eof (s : Scanner) : Option GoError :=
  match s.err with
  | some e => some e
  | none =>
    if s.endTop then none else
    let s' := step s 0x20
    if s'.endTop then none
    else some (s'.err.getD (.scanError "unexpected end of JSON input" s.bytes))

/-- **`checkValid`**: the scanner's verdict on a whole input, `none` when it is one JSON
text. -/
def checkValid (data : GoString) : Option GoError := eof (scanAll {} data)

end Json

/-- `isValidJSON` of `client.go`: unmarshalling into a `json.RawMessage` fails exactly when the
scanner refuses the text. -/
def isValidJSON (s : GoString) : Option GoError := Json.checkValid s

end OsbClient
