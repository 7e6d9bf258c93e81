import FormatGraph.Shape.OfJson

/-! Values of a shape from JSON text. The text is read once from left to right, so that the first
thing that is wrong with it is the one reported, with its place. -/

namespace FormatGraph

namespace Reader

variable {α : Type}

def orMismatch : Except Mismatch α → Reader α
  | .ok a => return a
  | .error m => fail (.mismatch m)

def opening (depth : Nat) (inside : Nat → Reader α) : Reader α :=
  match depth with
  | 0 => failNext .tooDeep
  | depth + 1 => do eat; inside depth

def flag : Reader Bool := do
  match ← peekSolid with
  | some 't' => do eat; letters "rue".toList; return true
  | some 'f' => do eat; letters "alse".toList; return false
  | _ => failWanting "a boolean"

def count : Reader UInt64 := do
  match ← peekSolid with
  | some '-' => do eat; orMismatch (countOfNumber (← number true))
  | some c => if isDigit c then orMismatch (countOfNumber (← number false)) else failWanting "u64"
  | none => failWanting "u64"

def text : Reader String := do
  match ← peekSolid with
  | some '"' => do eat; string
  | _ => failWanting "a string"

def optional (inner : Reader α) : Reader (Option α) := do
  match ← peekSolid with
  | some 'n' => do eat; letters "ull".toList; return none
  | _ => return some (← inner)

end Reader

open Reader

mutual

def Shape.read : (shape : Shape) → Nat → Reader shape.Carrier
  | .flag, _ => flag
  | .count, _ => count
  | .text, _ => text
  | .tokenTag, depth => (Spelled.read depth : Reader TokenTag)
  | .object, depth => do
    match ← peekSolid with
    | some '\x7b' => opening depth fun depth => objectBy (value depth)
    | _ => failWanting "a map"
  | .list item, depth => do
    match ← peekSolid with
    | some '[' => opening depth fun depth => items (item.read depth)
    | _ => failWanting "a sequence"
  | .optional inner, depth => optional (inner.read depth)
  | .record name fields, depth => do
    match ← peekSolid with
    | some '\x7b' => opening depth fun depth => do
      let slots ← members (fun slots key => fields.readMember depth key slots) fields.noSlots
      orMismatch (fields.collect slots)
    | some '[' => opening depth fun depth => do
      let record ← fields.readItems (fields.describe name) depth 0
      closeItems
      return record
    | _ => failWanting ("struct " ++ name)

/-- The rest of a member after its key: the value goes to the slot of the key, which has to be
free. -/
def Fields.readMember : (fields : Fields) → Nat → String → fields.Slots → Reader fields.Slots
  | .nil, _, _, slots => do colon; skip; return slots
  | .cons key shape rest, depth, name, (slot, slots) =>
    if name = key then
      match slot with
      | some _ => do blank; fail (.mismatch (.duplicateField key))
      | none => do colon; return (some (← shape.read depth), slots)
    else do return (slot, ← rest.readMember depth name slots)

def Fields.readItems : (fields : Fields) → (wanted : String) → Nat → Nat → Reader fields.Carrier
  | .nil, _, _, _ => return ()
  | .cons _ shape rest, wanted, depth, index => do
    if ← (if index = 0 then firstItem? else nextItem?) then do
      let v ← shape.read depth
      let vs ← rest.readItems wanted depth (index + 1)
      return (v, vs)
    else fail (.mismatch (.invalidLength index wanted))

end

def Shape.ofText (shape : Shape) (text : List Char) : Except Fault shape.Carrier :=
  ((shape.read maxDepth).whole.run text).map Prod.fst

end FormatGraph
