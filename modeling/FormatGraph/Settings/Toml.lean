import FormatGraph.Json.Basic

/-! Settings files with tables: lines of keys and values under headers in brackets. Values are
booleans, strings, numbers, lists and tables in braces. A table may not be defined twice, and a key
may not be set twice. -/

namespace FormatGraph.Toml

/-! ### Tables in the making -/

inductive Item where
  | value (value : Json)
  /-- A table; it may be implied by a longer key or header, and it may be made by dotted keys. -/
  | table (isImplied isDotted : Bool) (entries : List (String × Item))
  /-- A list of tables with headers of their own. -/
  | tables (items : List (List (String × Item)))
  deriving Inhabited

abbrev Entries := List (String × Item)

def Entries.put (key : String) (item : Item) : Entries → Entries
  | [] => [(key, item)]
  | (k, old) :: rest => if k = key then (k, item) :: rest else (k, old) :: Entries.put key item rest

def Entries.define : List String → String → Item → Entries → Option Entries
  | [], key, item, entries =>
    if (entries.lookup key).isSome then none else some (entries.put key item)
  | part :: parts, key, item, entries =>
    match entries.lookup part with
    | none => do return entries.put part (.table true true (← Entries.define parts key item []))
    | some (.table isImplied isDotted inner) =>
      if !isImplied || (parts.isEmpty && !isDotted) then none
      else do
        return entries.put part (.table isImplied isDotted (← Entries.define parts key item inner))
    | some _ => none

def Entries.change (f : Entries → Option Entries) : List String → Entries → Option Entries
  | [], entries => f entries
  | part :: parts, entries =>
    match entries.lookup part with
    | none => do return entries.put part (.table true false (← Entries.change f parts []))
    | some (.table isImplied isDotted inner) => do
      return entries.put part (.table isImplied isDotted (← Entries.change f parts inner))
    | some (.tables items) => do
      let last ← items.getLast?
      return entries.put part (.tables (items.dropLast ++ [← Entries.change f parts last]))
    | some (.value _) => none

inductive Line where
  | blank
  | header (path : List String)
  | listHeader (path : List String)
  | setting (path : List String) (value : Item)

structure Draft where
  done : Entries := []
  path : List String := []
  isListed : Bool := false
  current : Entries := []

namespace Draft

def close (draft : Draft) : Option Entries :=
  match draft.path.getLast? with
  | none => some draft.current
  | some key =>
    draft.done.change (fun entries =>
      match entries.lookup key, draft.isListed with
      | some (.tables items), true => some (entries.put key (.tables (items ++ [draft.current])))
      | none, true => some (entries.put key (.tables [draft.current]))
      | none, false => some (entries.put key (.table false false draft.current))
      | some _, _ => none) draft.path.dropLast

def reopen (path : List String) (done : Entries) : Option (Entries × Entries) := do
  let key ← path.getLast?
  let mut inner : Entries := []
  let found := lookupPath path done
  match found with
  | none => pure ()
  | some (.table true false entries) => inner := entries
  | some _ => none
  let rest ← done.change (fun entries => some (entries.filter (·.1 ≠ key))) path.dropLast
  return (inner, rest)
where
  lookupPath : List String → Entries → Option Item
    | [], _ => none
    | [key], entries => entries.lookup key
    | part :: parts, entries =>
      match entries.lookup part with
      | some (.table _ _ inner) => lookupPath parts inner
      | some (.tables items) => items.getLast?.bind (lookupPath parts)
      | _ => none

def addLine (draft : Draft) : Line → Option Draft
  | .blank => some draft
  | .header path => do
    let (current, done) ← reopen path (← draft.close)
    return { done, path, current }
  | .listHeader path => do
    let done ← draft.close
    match reopen.lookupPath path done with
    | none | some (.tables _) => return { done, path, isListed := true }
    | some _ => none
  | .setting path value => do
    let key ← path.getLast?
    return { draft with current := ← draft.current.define path.dropLast key value }

end Draft

mutual

def Item.toJson : Item → Json
  | .value v => v
  | .table _ _ entries => .obj (entriesToJson entries)
  | .tables items => .arr (tablesToJson items)

def entriesToJson : List (String × Item) → Json.Object
  | [] => []
  | (key, item) :: rest => (key, item.toJson) :: entriesToJson rest

def tablesToJson : List (List (String × Item)) → List Json
  | [] => []
  | entries :: rest => .obj (entriesToJson entries) :: tablesToJson rest

end

/-! ### Text

A piece of text is read from the front of a list of characters, and the characters after it are
handed on. -/

def isBlank (c : Char) : Bool := c = ' ' || c = '\t'

def skipBlanks (cs : List Char) : List Char := cs.dropWhile isBlank

def isControl (c : Char) : Bool := (c.toNat < 0x20 && c ≠ '\t') || c.toNat = 0x7f

def skipComment : List Char → Option (List Char)
  | '#' :: rest =>
    let comment := rest.takeWhile (· ≠ '\n')
    let body := if comment.getLast? = some '\r' then comment.dropLast else comment
    if body.any isControl then none else some (rest.dropWhile (· ≠ '\n'))
  | cs => some cs

def lineEnd (cs : List Char) : Option (List Char) := do
  match ← skipComment (skipBlanks cs) with
  | [] => some []
  | '\n' :: rest => some rest
  | '\r' :: '\n' :: rest => some rest
  | _ => none

def hexValue? (c : Char) : Option Nat :=
  if '0' ≤ c ∧ c ≤ '9' then some (c.toNat - '0'.toNat)
  else if 'a' ≤ c ∧ c ≤ 'f' then some (c.toNat - 'a'.toNat + 10)
  else if 'A' ≤ c ∧ c ≤ 'F' then some (c.toNat - 'A'.toNat + 10)
  else none

def charOfHex? (digits : List Char) : Option Char := do
  let n := (← digits.mapM hexValue?).foldl (fun n d => 16 * n + d) 0
  if n.isValidChar then some (Char.ofNat n) else none

def escape? : Char → Option Char
  | 'b' => some '\x08'
  | 't' => some '\t'
  | 'n' => some '\n'
  | 'f' => some '\x0c'
  | 'r' => some '\r'
  | '"' => some '"'
  | '\\' => some '\\'
  | _ => none

def cons (c : Char) : Option (List Char × List Char) → Option (List Char × List Char) :=
  Option.map fun (cs, rest) => (c :: cs, rest)

def basicString : List Char → Option (List Char × List Char)
  | [] => none
  | '"' :: rest => some ([], rest)
  | '\\' :: 'u' :: a :: b :: c :: d :: rest => do
    cons (← charOfHex? [a, b, c, d]) (basicString rest)
  | '\\' :: 'U' :: a :: b :: c :: d :: e :: f :: g :: h :: rest => do
    cons (← charOfHex? [a, b, c, d, e, f, g, h]) (basicString rest)
  | '\\' :: c :: rest => do cons (← escape? c) (basicString rest)
  | c :: rest => if isControl c then none else cons c (basicString rest)

def literalString : List Char → Option (List Char × List Char)
  | [] => none
  | '\'' :: rest => some ([], rest)
  | c :: rest => if isControl c then none else cons c (literalString rest)

def isBare (c : Char) : Bool := c.isAlphanum || c = '_' || c = '-'

def keyPart : List Char → Option (String × List Char)
  | '"' :: rest => (basicString rest).map fun (cs, rest) => (String.ofList cs, rest)
  | '\'' :: rest => (literalString rest).map fun (cs, rest) => (String.ofList cs, rest)
  | cs =>
    let part := cs.takeWhile isBare
    if part.isEmpty then none else some (String.ofList part, cs.dropWhile isBare)

def key : Nat → List Char → Option (List String × List Char)
  | 0, _ => none
  | fuel + 1, cs => do
    let (part, rest) ← keyPart (skipBlanks cs)
    match skipBlanks rest with
    | '.' :: rest => do
      let (parts, rest) ← key fuel rest
      return (part :: parts, rest)
    | rest => return ([part], rest)

def isDigits (isDigit : Char → Bool) : List Char → Bool
  | [] => false
  | [c] => isDigit c
  | c :: '_' :: rest => isDigit c && isDigits isDigit rest
  | c :: rest => isDigit c && isDigits isDigit rest

def isDecimal (cs : List Char) : Bool :=
  isDigits Char.isDigit cs && (cs.length = 1 || cs.head? ≠ some '0')

def unsigned : List Char → List Char
  | '+' :: cs => cs
  | '-' :: cs => cs
  | cs => cs

def isInteger : List Char → Bool
  | '0' :: 'x' :: cs => isDigits (fun c => (hexValue? c).isSome) cs
  | '0' :: 'o' :: cs => isDigits (fun c => '0' ≤ c && c ≤ '7') cs
  | '0' :: 'b' :: cs => isDigits (fun c => c = '0' || c = '1') cs
  | cs => isDecimal (unsigned cs)

def isFloat (cs : List Char) : Bool :=
  let cs := unsigned cs
  if cs = "inf".toList || cs = "nan".toList then true
  else
    let isExponent (c : Char) := c = 'e' || c = 'E'
    let mantissa := cs.takeWhile (!isExponent ·)
    let exponent := cs.dropWhile (!isExponent ·)
    let whole := mantissa.takeWhile (· ≠ '.')
    let fraction := mantissa.dropWhile (· ≠ '.')
    isDecimal whole && (fraction.isEmpty || isDigits Char.isDigit fraction.tail) &&
      (exponent.isEmpty || isDigits Char.isDigit (unsigned exponent.tail)) &&
      !(fraction.isEmpty && exponent.isEmpty)

/-- A boolean or a number. Numbers are no settings, so only their form is read. -/
def word (cs : List Char) : Option (Json × List Char) :=
  let isWord (c : Char) := isBare c || c = '+' || c = '.'
  let text := cs.takeWhile isWord
  let rest := cs.dropWhile isWord
  if text = "true".toList then some (.bool true, rest)
  else if text = "false".toList then some (.bool false, rest)
  else if isInteger text || isFloat text then some (.nat 0, rest)
  else none

def skipLines : Nat → List Char → Option (List Char)
  | 0, _ => none
  | fuel + 1, cs => do
    match ← skipComment (skipBlanks cs) with
    | '\n' :: rest => skipLines fuel rest
    | '\r' :: '\n' :: rest => skipLines fuel rest
    | cs => some cs

mutual

def value : Nat → List Char → Option (Json × List Char)
  | 0, _ => none
  | _, '"' :: rest => (basicString rest).map fun (cs, rest) => (.str (String.ofList cs), rest)
  | _, '\'' :: rest => (literalString rest).map fun (cs, rest) => (.str (String.ofList cs), rest)
  | fuel + 1, '[' :: rest => do
    let (items, rest) ← list fuel rest
    return (.arr items, rest)
  | fuel + 1, '\x7b' :: rest => do
    match skipBlanks rest with
    | '\x7d' :: rest => return (.obj [], rest)
    | rest => do
      let (entries, rest) ← inlineTable fuel [] rest
      return (.obj (entriesToJson entries), rest)
  | _, cs => word cs

def list : Nat → List Char → Option (List Json × List Char)
  | 0, _ => none
  | fuel + 1, cs => do
    match ← skipLines (cs.length + 1) cs with
    | ']' :: rest => return ([], rest)
    | cs =>
      let (item, rest) ← value fuel cs
      match ← skipLines (rest.length + 1) rest with
      | ',' :: rest => do
        let (items, rest) ← list fuel rest
        return (item :: items, rest)
      | ']' :: rest => return ([item], rest)
      | _ => none

def inlineTable : Nat → Entries → List Char → Option (Entries × List Char)
  | 0, _, _ => none
  | fuel + 1, entries, cs => do
    let (path, rest) ← key (cs.length + 1) cs
    let '=' :: rest := rest | none
    let (item, rest) ← value fuel (skipBlanks rest)
    let entries ← entries.define path.dropLast (← path.getLast?) (.value item)
    match skipBlanks rest with
    | ',' :: rest => inlineTable fuel entries rest
    | '\x7d' :: rest => return (entries, rest)
    | _ => none

end

def line (fuel : Nat) (cs : List Char) : Option (Line × List Char) := do
  match skipBlanks cs with
  | '[' :: '[' :: rest => do
    let (path, rest) ← key fuel rest
    let ']' :: ']' :: rest := rest | none
    return (.listHeader path, ← lineEnd rest)
  | '[' :: rest => do
    let (path, rest) ← key fuel rest
    let ']' :: rest := rest | none
    return (.header path, ← lineEnd rest)
  | cs =>
    match lineEnd cs with
    | some rest => return (.blank, rest)
    | none => do
      let (path, rest) ← key fuel cs
      let '=' :: rest := rest | none
      let (item, rest) ← value fuel (skipBlanks rest)
      return (.setting path (.value item), ← lineEnd rest)

def lines : Nat → Draft → List Char → Option Draft
  | 0, _, _ => none
  | _, draft, [] => some draft
  | fuel + 1, draft, cs => do
    let (line, rest) ← line (cs.length + 1) cs
    lines fuel (← draft.addLine line) rest

def parse (text : String) : Option Json := do
  let cs := text.toList
  let cs := if cs.head? = some '\ufeff' then cs.tail else cs
  let draft ← lines (cs.length + 1) {} cs
  return .obj (entriesToJson (← draft.close))

end FormatGraph.Toml
