import FormatGraph.Payload.TokenTag

/-! Shapes of payload values. A shape says what a value looks like, and its carrier is the type of
the values that look so. One description serves the reader of JSON values, the reader of JSON text,
and the writer. -/

namespace FormatGraph

mutual

inductive Shape where
  | flag
  | count
  | text
  | tokenTag
  | object
  | list (item : Shape)
  | optional (inner : Shape)
  | record (name : String) (fields : Fields)

inductive Fields where
  | nil
  | cons (key : String) (shape : Shape) (rest : Fields)

end

mutual

def Shape.Carrier : Shape → Type
  | .flag => Bool
  | .count => UInt64
  | .text => String
  | .tokenTag => TokenTag
  | .object => Json.Object
  | .list item => List item.Carrier
  | .optional inner => Option inner.Carrier
  | .record _ fields => fields.Carrier

def Fields.Carrier : Fields → Type
  | .nil => Unit
  | .cons _ shape rest => shape.Carrier × rest.Carrier

end

def Shape.absent? : (shape : Shape) → Option shape.Carrier
  | .optional _ => some none
  | _ => none

namespace Fields

def Slots : Fields → Type
  | .nil => Unit
  | .cons _ shape rest => Option shape.Carrier × rest.Slots

def noSlots : (fields : Fields) → fields.Slots
  | .nil => ()
  | .cons _ _ rest => (none, rest.noSlots)

def collect : (fields : Fields) → fields.Slots → Except Mismatch fields.Carrier
  | .nil, _ => .ok ()
  | .cons key shape rest, (slot, slots) =>
    match slot.or shape.absent? with
    | none => .error (.missingField key)
    | some value => (rest.collect slots).map (value, ·)

def length : Fields → Nat
  | .nil => 0
  | .cons _ _ rest => rest.length + 1

def describe (name : String) (fields : Fields) : String :=
  "struct " ++ name ++ " with " ++ toString fields.length ++
    (if fields.length = 1 then " element" else " elements")

end Fields

end FormatGraph
