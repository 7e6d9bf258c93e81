import FormatGraph.Json.Basic
import FormatGraph.Settings.Toml

/-! Settings files with nested mappings, by indentation or in braces. A scalar without quotes may be
a boolean; every other scalar is a string, and one that is empty is nothing. -/

namespace FormatGraph.Yaml

/-! ### Scalars -/

def plain (text : List Char) : Json :=
  match String.ofList text with
  | "" => .null
  | "true" | "True" | "TRUE" => .bool true
  | "false" | "False" | "FALSE" => .bool false
  | other => .str other

def trimRight (cs : List Char) : List Char :=
  (cs.reverse.dropWhile fun c => c = ' ' || c = '\t' || c = '\r').reverse

def indicators : List Char := ",[]\x7b\x7d#&*!|>'\"%@`\t".toList

def startsPlain : List Char → Bool
  | [] => true
  | c :: rest =>
    if c = '-' || c = '?' || c = ':' then rest.head?.any fun d => d ≠ ' ' && d ≠ '\t' && d ≠ '\n'
    else !indicators.contains c

def escape? : Char → Option Char
  | '0' => some '\x00'
  | 'a' => some '\x07'
  | 'b' => some '\x08'
  | 't' | '\t' => some '\t'
  | 'n' => some '\n'
  | 'v' => some '\x0b'
  | 'f' => some '\x0c'
  | 'r' => some '\r'
  | 'e' => some '\x1b'
  | ' ' => some ' '
  | '"' => some '"'
  | '/' => some '/'
  | '\\' => some '\\'
  | 'N' => some '\u0085'
  | '_' => some '\u00a0'
  | _ => none

def cons (c : Char) : Option (List Char × List Char) → Option (List Char × List Char) :=
  Option.map fun (cs, rest) => (c :: cs, rest)

def doubleQuoted : List Char → Option (List Char × List Char)
  | [] => none
  | '"' :: rest => some ([], rest)
  | '\\' :: 'x' :: a :: b :: rest => do cons (← Toml.charOfHex? [a, b]) (doubleQuoted rest)
  | '\\' :: 'u' :: a :: b :: c :: d :: rest => do
    cons (← Toml.charOfHex? [a, b, c, d]) (doubleQuoted rest)
  | '\\' :: c :: rest => do cons (← escape? c) (doubleQuoted rest)
  | c :: rest => if c = '\n' then none else cons c (doubleQuoted rest)

def singleQuoted : List Char → Option (List Char × List Char)
  | [] => none
  | '\'' :: '\'' :: rest => cons '\'' (singleQuoted rest)
  | '\'' :: rest => some ([], rest)
  | c :: rest => if c = '\n' then none else cons c (singleQuoted rest)

def quoted : List Char → Option (String × List Char)
  | '"' :: rest => (doubleQuoted rest).map fun (cs, rest) => (String.ofList cs, rest)
  | '\'' :: rest => (singleQuoted rest).map fun (cs, rest) => (String.ofList cs, rest)
  | _ => none

/-! ### Mappings and lists in brackets -/

def skipSpace : Bool → List Char → List Char
  | _, [] => []
  | afterBlank, c :: cs =>
    if c = ' ' || c = '\t' || c = '\n' || c = '\r' then skipSpace true cs
    else if c = '#' && afterBlank then skipComment cs
    else c :: cs
where
  skipComment : List Char → List Char
    | [] => []
    | '\n' :: cs => skipSpace true cs
    | _ :: cs => skipComment cs

def flowPlain : List Char → List Char × List Char
  | [] => ([], [])
  | c :: cs =>
    let ends :=
      c = ',' || c = '[' || c = ']' || c = '\x7b' || c = '\x7d' || c = '\n' ||
        (c = ':' && cs.head?.all fun d =>
          d = ' ' || d = '\t' || d = '\n' || d = ',' || d = '\x7d' || d = ']') ||
        (c = ' ' && cs.head? = some '#')
    if ends then ([], c :: cs) else
      let (text, rest) := flowPlain cs
      (c :: text, rest)

/-- What a mapping in braces says of a key: the key itself, as a string. -/
def flowKey (cs : List Char) : Option (String × List Char) :=
  match cs with
  | '"' :: _ | '\'' :: _ => quoted cs
  | _ =>
    if startsPlain cs then
      let (text, rest) := flowPlain cs
      some (String.ofList (trimRight text), rest)
    else none

mutual

def flow : Nat → List Char → Option (Json × List Char)
  | 0, _ => none
  | fuel + 1, cs =>
    match skipSpace true cs with
    | '\x7b' :: rest => do
      let (members, rest) ← flowMembers fuel rest
      return (.obj members, rest)
    | '[' :: rest => do
      let (items, rest) ← flowItems fuel rest
      return (.arr items, rest)
    | '"' :: rest => (quoted ('"' :: rest)).map fun (text, rest) => (.str text, rest)
    | '\'' :: rest => (quoted ('\'' :: rest)).map fun (text, rest) => (.str text, rest)
    | ',' :: rest => some (.null, ',' :: rest)
    | '\x7d' :: rest => some (.null, '\x7d' :: rest)
    | cs =>
      if startsPlain cs then
        let (text, rest) := flowPlain cs
        some (plain (trimRight text), rest)
      else none

def flowMembers : Nat → List Char → Option (Json.Object × List Char)
  | 0, _ => none
  | fuel + 1, cs =>
    match skipSpace true cs with
    | '\x7d' :: rest => some ([], rest)
    | cs => do
      let (key, rest) ← flowKey cs
      let (value, rest) ← match skipSpace true rest with
        | ':' :: rest => flow fuel rest
        | rest => some (.null, rest)
      match skipSpace true rest with
      | ',' :: rest => do
        let (members, rest) ← flowMembers fuel rest
        return ((key, value) :: members, rest)
      | '\x7d' :: rest => return ([(key, value)], rest)
      | _ => none

def flowItems : Nat → List Char → Option (List Json × List Char)
  | 0, _ => none
  | fuel + 1, cs =>
    match skipSpace true cs with
    | ']' :: rest => some ([], rest)
    | cs => do
      let (item, rest) ← flow fuel cs
      match skipSpace true rest with
      | ',' :: rest => do
        let (items, rest) ← flowItems fuel rest
        return (item :: items, rest)
      | ']' :: rest => return ([item], rest)
      | _ => none

end

/-! ### Mappings and lists by indentation -/

structure Line where
  indent : Nat
  text : List Char

def isEmptyText (cs : List Char) : Bool :=
  match trimRight cs with
  | [] | '#' :: _ => true
  | _ => false

def splitLines : List Char → List (List Char)
  | [] => [[]]
  | '\n' :: cs => [] :: splitLines cs
  | c :: cs =>
    match splitLines cs with
    | [] => [[c]]
    | line :: lines => (c :: line) :: lines

def lineOf (cs : List Char) : Line :=
  ⟨(cs.takeWhile (· = ' ')).length, cs.dropWhile (· = ' ')⟩

def linesOf (cs : List Char) : List Line :=
  ((splitLines cs).map lineOf).filter fun line =>
    !isEmptyText (line.text.dropWhile fun c => c = '\t')

/-- A scalar without quotes on a line, up to a comment, and what follows the colon after it if it is
a key. -/
def blockPlain : List Char → List Char × Option (List Char)
  | [] => ([], none)
  | c :: cs =>
    if c = ':' && cs.head?.all fun d => d = ' ' || d = '\t' || d = '\r' then ([], some cs)
    else if (c = ' ' || c = '\t') && cs.head? = some '#' then ([], none)
    else
      let (text, rest) := blockPlain cs
      (c :: text, rest)

def keyOf? (cs : List Char) : Option (String × List Char) :=
  match cs with
  | '"' :: _ | '\'' :: _ => do
    let (key, rest) ← quoted cs
    let ':' :: rest := rest.dropWhile (· = ' ') | none
    if rest.head?.all fun d => d = ' ' || d = '\t' || d = '\r' then return (key, rest) else none
  | _ => do
    if !startsPlain cs then none
    let (text, some rest) := blockPlain cs | none
    return (String.ofList (trimRight text), rest)

def isItem (cs : List Char) : Bool :=
  match cs with
  | ['-'] | '-' :: ' ' :: _ | ['-', '\r'] => true
  | _ => false

def continuation (indent : Nat) : List Line → Option (List Char × List Line)
  | [] => some ([], [])
  | line :: lines =>
    if line.indent ≤ indent then some ([], line :: lines)
    else
      match blockPlain line.text with
      | (_, some _) => none
      | (text, none) => do
        let (more, lines) ← continuation indent lines
        return (' ' :: trimRight text ++ more, lines)

/-- A value that begins on a line whose block is indented by `indent`, and the lines after it. -/
def inlineValue (indent : Nat) (cs : List Char) (lines : List Line) : Option (Json × List Line) :=
  match cs with
  | '\x7b' :: _ | '[' :: _ => do
    let following := lines.flatMap fun line => '\n' :: List.replicate line.indent ' ' ++ line.text
    let all := cs ++ following
    let (value, rest) ← flow (all.length + 1) all
    match splitLines rest with
    | [] => return (value, [])
    | last :: rest =>
      if isEmptyText (last.dropWhile (· = ' ')) then
        return (value, (rest.map lineOf).filter (!isEmptyText ·.text))
      else none
  | '"' :: _ | '\'' :: _ => do
    let (text, rest) ← quoted cs
    if isEmptyText (rest.dropWhile (· = ' ')) then return (.str text, lines) else none
  | _ =>
    if startsPlain cs then
      match blockPlain cs with
      | (_, some _) => none
      | (text, none) => do
        let (more, lines) ← continuation indent lines
        return (plain (trimRight text ++ more), lines)
    else none

mutual

/-- The block of lines that are indented by at least `least`; a mapping, a list, or one value. -/
def block : Nat → Nat → List Line → Option (Json × List Line)
  | 0, _, _ => none
  | _, _, [] => some (.null, [])
  | fuel + 1, least, line :: lines =>
    if line.indent < least then some (.null, line :: lines)
    else if isItem line.text then do
      let (items, lines) ← items fuel line.indent (line :: lines)
      return (.arr items, lines)
    else
      match keyOf? line.text with
      | some _ => do
        let (members, lines) ← members fuel line.indent (line :: lines)
        return (.obj members, lines)
      | none => inlineValue (least - 1) line.text lines

def members : Nat → Nat → List Line → Option (Json.Object × List Line)
  | 0, _, _ => none
  | _, _, [] => some ([], [])
  | fuel + 1, indent, line :: lines =>
    if line.indent < indent then some ([], line :: lines)
    else if line.indent > indent then none
    else do
      let (key, rest) ← keyOf? line.text
      let rest := rest.dropWhile fun c => c = ' ' || c = '\t'
      let (value, lines) ←
        if isEmptyText rest then
          match lines with
          | next :: _ =>
            if next.indent = indent && isItem next.text then block fuel indent lines
            else block fuel (indent + 1) lines
          | [] => some (.null, [])
        else inlineValue indent rest lines
      let (members, lines) ← members fuel indent lines
      return ((key, value) :: members, lines)

def items : Nat → Nat → List Line → Option (List Json × List Line)
  | 0, _, _ => none
  | _, _, [] => some ([], [])
  | fuel + 1, indent, line :: lines =>
    if line.indent < indent || !isItem line.text then some ([], line :: lines)
    else if line.indent > indent then none
    else do
      let rest := line.text.drop 1
      let inner := lineOf rest
      let (item, lines) ←
        if isEmptyText inner.text then block fuel (indent + 1) lines
        else block fuel (indent + 1) (⟨indent + 1 + inner.indent, inner.text⟩ :: lines)
      let (items, lines) ← items fuel indent lines
      return (item :: items, lines)

end

/-! ### Documents -/

def afterMark? (mark : List Char) (line : Line) : Option (List Char) :=
  if line.indent = 0 && mark.isPrefixOf line.text then
    match line.text.drop 3 with
    | [] => some []
    | c :: rest => if c = ' ' || c = '\t' || c = '\r' then some (c :: rest) else none
  else none

def documentLines (lines : List Line) : Option (List Line) :=
  let start := "---".toList
  let stop := "...".toList
  let lines := match lines with
    | line :: rest =>
      match afterMark? start line with
      | some text =>
        let inner := lineOf text
        if isEmptyText inner.text then rest else ⟨3 + inner.indent, inner.text⟩ :: rest
      | none => line :: rest
    | [] => []
  let body := lines.takeWhile fun line => (afterMark? stop line).isNone
  let rest := lines.drop (body.length + 1)
  if body.any (fun line => (afterMark? start line).isSome) || !rest.isEmpty then none else some body

def parse (text : String) : Option Json := do
  let cs := text.toList
  let cs := if cs.head? = some '\ufeff' then cs.tail else cs
  let lines ← documentLines (linesOf cs)
  let (value, rest) ← block (cs.length + 1) 0 lines
  if rest.isEmpty then some value else none

end FormatGraph.Yaml
