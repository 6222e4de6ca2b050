import OsbClient.Json.Value

/-!
# Decoding a JSON value into Go values

The second pass of `json.Unmarshal`: the value the scanner accepted is assigned to a Go value,
by the rules of `encoding/json` for each kind of target. A decoder here takes the value
already in the target, because Go decodes *into* it: an object decoded into a map adds to the
map, a struct keeps the fields the object does not name, and a `null` leaves a `bool` or a
`string` as it was while it empties a pointer, a map or a slice.

| target | decoder | `null` | the kinds it takes |
|---|---|---|---|
| `bool` | `OsbClient.Json.decodeBool` | kept | `true`, `false` |
| `string` | `OsbClient.Json.decodeString` | kept | strings |
| `uint16` | `OsbClient.Json.decodeUint16` | kept | integer literals below `65536` |
| `interface{}` | `OsbClient.Json.decodeAny` | `nil` | all, numbers in `float64` range |
| `map[string]interface{}` | `OsbClient.Json.decodeMap` | `nil` | objects |
| `*T` | `OsbClient.Json.decodePtr` | `nil` | those of `T` |
| `[]T` | `OsbClient.Json.decodeSlice` | `nil` | arrays |
| a struct | `OsbClient.Json.decodeStruct` | kept | objects |

A value of the wrong kind is an `*UnmarshalTypeError`. Go records the first one and goes on
decoding, but `Unmarshal` then returns it, and every caller in the client drops the value when
there is an error; so the decoders stop at the first one, which is the same error.

A struct field is found by its name, and failing that by its folded name (`OsbClient.foldName`):
Go matches object keys to fields case-insensitively.

## Where the model stops

An `interface{}` holding a number holds the `float64` nearest to it; the model keeps the
literal, since only whether it is in range can be observed by the client. A slice decoded a
second time reuses the elements of the first decode up to the new length, as here; Go also
reuses elements past the length that lie within the slice's capacity, which depends on the
allocator, and the model does not.
-/

namespace OsbClient

namespace Json

/-- A Go decode of a JSON value into a target already holding a value of type `α`. -/
abbrev Decoder (α : Type) := JSON → α → Except GoError α

/-- The `*UnmarshalTypeError` for a value of the wrong kind. -/
def typeError {α : Type} (v : JSON) (type : String) : Except GoError α :=
  .error (.unmarshalType (kind v) type)

/-- `bool`. -/
def decodeBool : Decoder Bool
  | .null, x => .ok x
  | .bool b, _ => .ok b
  | v, _ => typeError v "bool"

/-- `string`, and the named types whose kind is `string` (`type` names the target). -/
def decodeString (type : String) : Decoder GoString
  | .null, x => .ok x
  | .string s, _ => .ok s
  | v, _ => typeError v type

/-- `uint16`: `strconv.ParseUint` must take the literal, and the value fit in sixteen bits. -/
def decodeUint16 : Decoder UInt16
  | .null, x => .ok x
  | .number lit, _ =>
    match parseUint16 lit with
    | some n => .ok (UInt16.ofNat n)
    | none => .error (.unmarshalType ("number " ++ String.mk (lit.map fun c => Char.ofNat c.toNat))
        "uint16")
  | v, _ => typeError v "uint16"

/-- Assign `v` to key `k` of a map: replace the entry if there is one, else add it. -/
def mapSet (m : List (GoString × JSON)) (k : GoString) (v : JSON) : List (GoString × JSON) :=
  if m.any (fun p => decide (p.1 = k)) then m.map (fun p => if p.1 = k then (k, v) else p)
  else m ++ [(k, v)]

mutual
/-- `interface{}`: a fresh value of the JSON value's own shape, every number checked by
`strconv.ParseFloat` and every object made a map. -/
def decodeAny : JSON → Except GoError JSON
  | .number lit =>
    if fitsFloat64 lit then .ok (.number lit)
    else .error (.unmarshalType ("number " ++ String.mk (lit.map fun c => Char.ofNat c.toNat))
      "float64")
  | .array vs => (decodeAnyList vs).map .array
  | .object kvs => (decodeAnyMembers [] kvs).map .object
  | v => .ok v

/-- The elements of an array decoded into `[]interface{}`. -/
def decodeAnyList : List JSON → Except GoError (List JSON)
  | [] => .ok []
  | v :: vs => do
    let w ← decodeAny v
    let ws ← decodeAnyList vs
    pure (w :: ws)

/-- The members of an object decoded into the map `m`, in order. -/
def decodeAnyMembers (m : List (GoString × JSON)) :
    List (GoString × JSON) → Except GoError (List (GoString × JSON))
  | [] => .ok m
  | (k, v) :: kvs => do
    let w ← decodeAny v
    decodeAnyMembers (mapSet m k w) kvs
end

/-- A Go `map[string]interface{}`; `none` is the nil map. -/
abbrev GoMap := Option (List (GoString × JSON))

/-- `map[string]interface{}`: an object adds its members to the map (made if it is nil). -/
def decodeMap : Decoder GoMap
  | .null, _ => .ok none
  | .object kvs, m => (decodeAnyMembers (m.getD []) kvs).map some
  | v, _ => typeError v "map[string]interface {}"

/-! ### What a map decode keeps -/

/-- The type assertion `.(string)`: the string a value is, if it is one. -/
def asString : JSON → Option GoString
  | .string s => some s
  | _ => none

mutual
/-- Every number of a value, at any depth, is in the range of a `float64`: what `decodeAny`
checks. -/
def numbersFit : JSON → Bool
  | .number lit => fitsFloat64 lit
  | .array vs => numbersFitList vs
  | .object kvs => numbersFitMembers kvs
  | _ => true

/-- `numbersFit` of each element. -/
def numbersFitList : List JSON → Bool
  | [] => true
  | v :: vs => numbersFit v && numbersFitList vs

/-- `numbersFit` of each member's value. -/
def numbersFitMembers : List (GoString × JSON) → Bool
  | [] => true
  | (_, v) :: kvs => numbersFit v && numbersFitMembers kvs
end

mutual
/-- **`decodeAny` fails exactly on a number out of range.** -/
theorem decodeAny_isOk : ∀ v : JSON, (decodeAny v).isOk = numbersFit v
  | .null | .bool _ | .string _ => rfl
  | .number lit => by
    rw [decodeAny, numbersFit]
    split <;> simp_all [Except.isOk, Except.toBool]
  | .array vs => by
    rw [decodeAny, numbersFit, ← decodeAnyList_isOk vs]
    cases decodeAnyList vs <;> rfl
  | .object kvs => by
    rw [decodeAny, numbersFit, ← decodeAnyMembers_isOk [] kvs]
    cases decodeAnyMembers [] kvs <;> rfl

theorem decodeAnyList_isOk : ∀ vs : List JSON, (decodeAnyList vs).isOk = numbersFitList vs
  | [] => rfl
  | v :: vs => by
    rw [decodeAnyList, numbersFitList, ← decodeAny_isOk v, ← decodeAnyList_isOk vs]
    cases decodeAny v <;> cases decodeAnyList vs <;> rfl

theorem decodeAnyMembers_isOk :
    ∀ (m kvs : List (GoString × JSON)), (decodeAnyMembers m kvs).isOk = numbersFitMembers kvs
  | _, [] => rfl
  | m, (k, v) :: kvs => by
    rw [decodeAnyMembers, numbersFitMembers, ← decodeAny_isOk v]
    cases decodeAny v with
    | error => rfl
    | ok w => exact decodeAnyMembers_isOk _ kvs
end

/-- The value a map holds at a key, read as a string. -/
def stringAt (key : GoString) (m : List (GoString × JSON)) : Option GoString :=
  ((m.find? (·.1 = key)).map Prod.snd).bind asString

/-- `*T`: `null` makes the pointer nil; anything else is decoded into the value it points to,
made if the pointer is nil. -/
def decodePtr {α : Type} (d : Decoder α) (zero : α) : Decoder (Option α)
  | .null, _ => .ok none
  | v, x => (d v (x.getD zero)).map some

/-- The elements of an array decoded one by one into the elements of a slice, a zero value
past its end. -/
def decodeElems {α : Type} (d : Decoder α) (zero : α) : List JSON → List α → Except GoError (List α)
  | [], _ => .ok []
  | v :: vs, old => do
    let y ← d v (old.headD zero)
    let ys ← decodeElems d zero vs old.tail
    pure (y :: ys)

/-- `[]T`: `null` makes the slice nil; an array is decoded element by element, and the slice
takes its length. -/
def decodeSlice {α : Type} (d : Decoder α) (zero : α) (type : String) : Decoder (List α)
  | .null, _ => .ok []
  | .array vs, old => decodeElems d zero vs old
  | v, _ => typeError v type

/-- A struct field, for the decoder: its JSON name, and how a value is decoded into it. -/
structure StructField (α : Type) where
  name : GoString
  decode : JSON → α → Except GoError α

/-- The field of type `β` named `name`, read by `get` and written by `set`. -/
def field {α β : Type} (name : GoString) (d : Decoder β) (get : α → β) (set : α → β → α) :
    StructField α :=
  ⟨name, fun v x => (d v (get x)).map (set x)⟩

/-- The field an object key names: the one of that name, and failing that the one whose name
folds to the key's fold. -/
def fieldFor {α : Type} (fields : List (StructField α)) (key : GoString) : Option (StructField α) :=
  match fields.find? (fun f => decide (f.name = key)) with
  | some f => some f
  | none => fields.find? (fun f => decide (foldName f.name = foldName key))

/-- The members of an object decoded into a struct, in order; a key naming no field is
skipped. -/
def decodeMembers {α : Type} (fields : List (StructField α)) : List (GoString × JSON) → α → Except GoError α
  | [], x => .ok x
  | (k, v) :: kvs, x =>
    match fieldFor fields k with
    | some f => do decodeMembers fields kvs (← f.decode v x)
    | none => decodeMembers fields kvs x

/-- A struct: an object assigns the fields its keys name; `null` leaves the struct as it was. -/
def decodeStruct {α : Type} (fields : List (StructField α)) (type : String) : Decoder α
  | .null, x => .ok x
  | .object kvs, x => decodeMembers fields kvs x
  | v, _ => typeError v type

end Json

end OsbClient
