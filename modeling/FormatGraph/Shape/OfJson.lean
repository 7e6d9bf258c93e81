import FormatGraph.Shape.Basic

/-! Values of a shape from JSON values and back. A record may be an object, whose further keys are
ignored, or a list of all its fields in order. -/

namespace FormatGraph

def countOfNumber : Number → Except Mismatch UInt64
  | .int i =>
    if 0 ≤ i then .ok (UInt64.ofNat i.toNat) else .error (.invalidValue (.num (.int i)) "u64")
  | .double bits => .error (.invalidType (.num (.double bits)) "u64")

mutual

def Shape.ofJson : (shape : Shape) → Json → Except Mismatch shape.Carrier
  | .flag, .bool b => .ok b
  | .flag, value => .error (.invalidType value.found "a boolean")
  | .count, .num n => countOfNumber n
  | .count, value => .error (.invalidType value.found "u64")
  | .text, .str s => .ok s
  | .text, value => .error (.invalidType value.found "a string")
  | .tokenTag, value => (Spelled.ofJson value : Except Mismatch TokenTag)
  | .object, .obj members => .ok members
  | .object, value => .error (.invalidType value.found "a map")
  | .list item, .arr values => values.mapM fun value => item.ofJson value
  | .list _, value => .error (.invalidType value.found "a sequence")
  | .optional _, .null => .ok none
  | .optional inner, value => (inner.ofJson value).map some
  | .record _ fields, .obj members => do
    fields.collect
      (← members.foldlM (fun slots (key, value) => fields.assign key value slots) fields.noSlots)
  | .record name fields, .arr values => do
    match ← fields.ofItems (fields.describe name) 0 values with
    | (record, []) => return record
    | (_, _ :: _) => throw (.invalidLength values.length "fewer elements in array")
  | .record name _, value => .error (.invalidType value.found ("struct " ++ name))

def Fields.assign : (fields : Fields) → String → Json → fields.Slots → Except Mismatch fields.Slots
  | .nil, _, _, slots => .ok slots
  | .cons key shape rest, name, value, (slot, slots) =>
    if name = key then (shape.ofJson value).map fun v => (some v, slots)
    else (rest.assign name value slots).map (slot, ·)

def Fields.ofItems : (fields : Fields) → (wanted : String) → Nat → List Json →
    Except Mismatch (fields.Carrier × List Json)
  | .nil, _, _, values => .ok ((), values)
  | .cons _ _ _, wanted, index, [] => .error (.invalidLength index wanted)
  | .cons _ shape rest, wanted, index, value :: values => do
    let v ← shape.ofJson value
    let (vs, values) ← rest.ofItems wanted (index + 1) values
    return ((v, vs), values)

end

mutual

def Shape.toJson : (shape : Shape) → shape.Carrier → Json
  | .flag, b => .bool b
  | .count, n => .nat n.toNat
  | .text, s => .str s
  | .tokenTag, (t : TokenTag) => Spelled.toJson t
  | .object, members => .obj members
  | .list item, values => .arr (values.map fun value => item.toJson value)
  | .optional _, none => .null
  | .optional inner, some value => inner.toJson value
  | .record _ fields, values => .obj (fields.toMembers values)

def Fields.toMembers : (fields : Fields) → fields.Carrier → List (String × Json)
  | .nil, _ => []
  | .cons key shape rest, (value, values) => (key, shape.toJson value) :: rest.toMembers values

end

end FormatGraph
