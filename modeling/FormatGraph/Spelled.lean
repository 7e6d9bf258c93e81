import FormatGraph.Json.Parser

/-! Closed sets of words. A word is written as a string, or as an object with the word as its only
key and `null` as the value. -/

namespace FormatGraph

class Spelled (α : Type) where
  all : List α
  spell : α → String

namespace Spelled

variable {α : Type} [Spelled α]

def ofSpelling? (word : String) : Option α :=
  (all : List α).find? fun a => spell a = word

def spellings (α : Type) [Spelled α] : List String :=
  (all : List α).map spell

def ofWord (word : String) : Except Mismatch α :=
  match ofSpelling? word with
  | some a => .ok a
  | none => .error (.unknownWord word (spellings α))

def ofJson : Json → Except Mismatch α
  | .str word => ofWord word
  | .obj [(key, value)] =>
    match ofWord key, value with
    | .ok a, .null => .ok a
    | .ok _, value => .error (.invalidType value.found "unit")
    | .error m, _ => .error m
  | .obj _ => .error (.invalidValue .object "map with a single key")
  | value => .error (.invalidType value.found "string or map")

def toJson (a : α) : Json :=
  .str (spell a)

def ofWordHere (word : String) : Reader α :=
  match ofWord word with
  | .ok a => return a
  | .error m => Reader.fail (.mismatch m)

def readUnit : Reader Unit := do
  match ← Reader.peekSolid with
  | some 'n' => do Reader.eat; Reader.letters "ull".toList
  | _ => Reader.failWanting "unit"

def readKey : Reader String := do
  match ← Reader.peekSolid with
  | none => Reader.failNext .endInObject
  | some '"' => do Reader.eat; Reader.string
  | some '\x7d' => Reader.failNext .expectedValue
  | some _ => Reader.failNext .keyNotString

def readEnd : Reader Unit := do
  match ← Reader.peekSolid with
  | none => Reader.fail .endInObject
  | some '\x7d' => Reader.eat
  | some _ => Reader.fail .expectedValue

def readObject : Reader α := do
  let a ← ofWordHere (← readKey)
  Reader.colon
  readUnit
  readEnd
  return a

def read (depth : Nat) : Reader α := do
  match ← Reader.peekSolid with
  | none => Reader.failNext .endInValue
  | some '"' => do
    Reader.eat
    ofWordHere (← Reader.string)
  | some '\x7b' => if depth = 0 then Reader.failNext .tooDeep else do Reader.eat; readObject
  | some _ => Reader.failNext .expectedValue

end Spelled

end FormatGraph
