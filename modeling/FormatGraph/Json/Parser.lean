import FormatGraph.Json.Scalar

/-! Readers of whole JSON values. Lists and objects may be nested to a limited depth, and the reader
of a list or an object takes the reader of what stands in it, so that the same brackets and commas
serve values of a known shape. A value that nobody wants is passed over at any depth. -/

namespace FormatGraph.Reader

variable {α σ : Type}

def maxDepth : Nat := 127

def firstItem? : Reader Bool := do
  match ← peekSolid with
  | none => failNext .endInList
  | some ']' => do eat; return false
  | some _ => return true

def nextItem? : Reader Bool := do
  match ← peekSolid with
  | none => failNext .endInList
  | some ']' => do eat; return false
  | some ',' => do
    eat
    match ← peekSolid with
    | none => failNext .endInValue
    | some ']' => failNext .trailingComma
    | some _ => return true
  | some _ => failNext .expectedListSeparator

def itemStep (item : Reader α) (done : List α) : Reader (List α ⊕ List α) := do
  if ← nextItem? then return .inl ((← item) :: done) else return .inr done.reverse

def items (item : Reader α) : Reader (List α) := do
  if ← firstItem? then do
    let first ← item
    iterate (itemStep item) [first]
  else return []

def closeItems : Reader Unit := do
  match ← peekSolid with
  | none => failNext .endInList
  | some ']' => eat
  | some ',' => do
    eat
    match ← peekSolid with
    | some ']' => failNext .trailingComma
    | _ => failNext .trailingCharacters
  | some _ => failNext .trailingCharacters

def firstKey? : Reader (Option String) := do
  match ← peekSolid with
  | none => failNext .endInObject
  | some '\x7d' => do eat; return none
  | some '"' => do eat; return some (← string)
  | some _ => failNext .keyNotString

def nextKey? : Reader (Option String) := do
  match ← peekSolid with
  | none => failNext .endInObject
  | some '\x7d' => do eat; return none
  | some ',' => do
    eat
    match ← peekSolid with
    | none => failNext .endInValue
    | some '"' => do eat; return some (← string)
    | some '\x7d' => failNext .trailingComma
    | some _ => failNext .keyNotString
  | some _ => failNext .expectedObjectSeparator

def colon : Reader Unit := do
  match ← peekSolid with
  | none => failNext .endInObject
  | some ':' => eat
  | some _ => failNext .expectedColon

def memberStep (member : σ → String → Reader σ) (state : σ) : Reader (σ ⊕ σ) := do
  match ← nextKey? with
  | none => return .inr state
  | some key => return .inl (← member state key)

/-- The members of an object after its opening brace. `member` reads the rest of a member after its
key. -/
def members (member : σ → String → Reader σ) (start : σ) : Reader σ := do
  match ← firstKey? with
  | none => return start
  | some key => do
    let state ← member start key
    iterate (memberStep member) state

def valueBy (list object : Reader Json) : Reader Json := do
  match ← peekSolid with
  | none => failNext .endInValue
  | some 'n' => do eat; letters "ull".toList; return .null
  | some 't' => do eat; letters "rue".toList; return .bool true
  | some 'f' => do eat; letters "alse".toList; return .bool false
  | some '-' => do eat; return .num (← number true)
  | some '"' => do eat; return .str (← string)
  | some '[' => list
  | some '\x7b' => object
  | some c => if isDigit c then return .num (← number false) else failNext .expectedValue

def objectBy (value : Reader Json) : Reader Json.Object :=
  members (fun done key => do colon; return Json.insert key (← value) done) []

def value : Nat → Reader Json
  | 0 => valueBy (failNext .tooDeep) (failNext .tooDeep)
  | depth + 1 =>
    valueBy (do eat; return .arr (← items (value depth)))
      (do eat; return .obj (← objectBy (value depth)))

inductive Bracket where
  | list
  | object
  deriving DecidableEq, Repr

/-- Passing over a value: the next value stands inside these brackets, or the last one has ended
there. -/
inductive Skipping where
  | due (brackets : List Bracket)
  | ended (brackets : List Bracket)

def skipEscape : Reader Unit := do
  match ← peek with
  | none => fail .endInString
  | some 'u' => do eat; let _ ← hexQuad
  | some c => if (shortEscape? c).isSome then eat else failNext .invalidEscape

def skipStringStep : Reader (Unit ⊕ Unit) := do
  match ← peek with
  | none => fail .endInString
  | some '"' => do eat; return .inr ()
  | some '\\' => do eat; skipEscape; return .inl ()
  | some c => if c.toNat < 0x20 then fail .controlCharacter else do eat; return .inl ()

def skipString : Reader Unit :=
  iterate (fun _ => skipStringStep) ()

def skipDigits (otherwise : Reader Unit) : Reader Unit := do
  match ← takeWhile isDigit with
  | [] => otherwise
  | _ => return ()

def skipWhole : Reader Unit := do
  match ← peek with
  | some '0' => do
    eat
    if (← peek).any isDigit then failNext .invalidNumber
  | _ => skipDigits (failNext .invalidNumber)

def skipFraction : Reader Unit := do
  if (← peek) = some '.' then do
    eat
    skipDigits (failNext .invalidNumber)

def skipExponent : Reader Unit := do
  let mark ← peek
  if mark = some 'e' || mark = some 'E' then do
    eat
    let sign ← peek
    if sign = some '+' || sign = some '-' then eat
    skipDigits (failNext .invalidNumber)

def skipNumber : Reader Unit := do
  skipWhole
  skipFraction
  skipExponent

def skipKey : Reader Unit := do
  match ← peekSolid with
  | none => failNext .endInObject
  | some '"' => do eat; skipString; colon
  | some _ => failNext .keyNotString

def skipStep : Skipping → Reader (Skipping ⊕ Unit)
  | .due brackets => do
    match ← peekSolid with
    | none => failNext .endInValue
    | some 'n' => do eat; letters "ull".toList; return .inl (.ended brackets)
    | some 't' => do eat; letters "rue".toList; return .inl (.ended brackets)
    | some 'f' => do eat; letters "alse".toList; return .inl (.ended brackets)
    | some '-' => do eat; skipNumber; return .inl (.ended brackets)
    | some '"' => do eat; skipString; return .inl (.ended brackets)
    | some '[' => do
      eat
      match ← peekSolid with
      | none => failNext .endInList
      | some ']' => do eat; return .inl (.ended brackets)
      | some _ => return .inl (.due (.list :: brackets))
    | some '\x7b' => do
      eat
      match ← peekSolid with
      | none => failNext .endInObject
      | some '\x7d' => do eat; return .inl (.ended brackets)
      | some _ => do skipKey; return .inl (.due (.object :: brackets))
    | some c =>
      if isDigit c then do skipNumber; return .inl (.ended brackets) else failNext .expectedValue
  | .ended [] => return .inr ()
  | .ended (.list :: brackets) => do
    match ← peekSolid with
    | none => failNext .endInList
    | some ',' => do eat; return .inl (.due (.list :: brackets))
    | some ']' => do eat; return .inl (.ended brackets)
    | some _ => failNext .expectedListSeparator
  | .ended (.object :: brackets) => do
    match ← peekSolid with
    | none => failNext .endInObject
    | some ',' => do eat; skipKey; return .inl (.due (.object :: brackets))
    | some '\x7d' => do eat; return .inl (.ended brackets)
    | some _ => failNext .expectedObjectSeparator

def skip : Reader Unit :=
  iterate skipStep (.due [])

/-- What stands where something else was wanted. A list or an object is left in place. -/
def foundHere : Reader Found := do
  match ← peekSolid with
  | none => failNext .endInValue
  | some '[' => return .list
  | some '\x7b' => return .object
  | some _ => return (← value 0).found

def failWanting (wanted : String) : Reader α := do
  fail (.mismatch (.invalidType (← foundHere) wanted))

end FormatGraph.Reader

namespace FormatGraph.Json

def parse (text : String) : Except Fault Json :=
  ((Reader.value Reader.maxDepth).whole.run text.toList).map Prod.fst

end FormatGraph.Json
