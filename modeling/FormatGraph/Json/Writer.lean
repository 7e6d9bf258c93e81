import FormatGraph.Json.Basic
import FormatGraph.Json.Double

/-! JSON texts. A value is written on one line, or with every item and member on a line of its own,
indented by two spaces for each level. -/

namespace FormatGraph.Json

def escapeChar (c : Char) : List Char :=
  match c with
  | '"' => ['\\', '"']
  | '\\' => ['\\', '\\']
  | '\n' => ['\\', 'n']
  | '\r' => ['\\', 'r']
  | '\t' => ['\\', 't']
  | '\x08' => ['\\', 'b']
  | '\x0c' => ['\\', 'f']
  | c =>
    if c.toNat < 0x20 then
      ['\\', 'u', '0', '0', Nat.digitChar (c.toNat / 16), Nat.digitChar (c.toNat % 16)]
    else [c]

def stringChars (s : String) : List Char :=
  '"' :: s.toList.flatMap escapeChar ++ ['"']

def intChars : Int → List Char
  | .ofNat n => Nat.toDigits 10 n
  | .negSucc n => '-' :: Nat.toDigits 10 (n + 1)

def numberChars : Number → List Char
  | .int i => intChars i
  | .double bits => Double.chars bits

/-- How a JSON text is laid out: on one line, or over lines, here at the given level. -/
inductive Layout where
  | oneLine
  | indented (level : Nat)
  deriving DecidableEq, Repr

namespace Layout

def inner : Layout → Layout
  | .oneLine => .oneLine
  | .indented level => .indented (level + 1)

def breakChars : Layout → List Char
  | .oneLine => []
  | .indented level => '\n' :: List.replicate (2 * level) ' '

def colonChars : Layout → List Char
  | .oneLine => [':']
  | .indented _ => [':', ' ']

end Layout

mutual

def chars (layout : Layout) : Json → List Char
  | .null => "null".toList
  | .bool true => "true".toList
  | .bool false => "false".toList
  | .num n => numberChars n
  | .str s => stringChars s
  | .arr [] => "[]".toList
  | .arr (item :: items) =>
    '[' :: layout.inner.breakChars ++ item.chars layout.inner ++ itemsChars layout.inner items ++
      layout.breakChars ++ [']']
  | .obj [] => "\x7b\x7d".toList
  | .obj ((key, value) :: members) =>
    '\x7b' :: layout.inner.breakChars ++ stringChars key ++ layout.colonChars ++
      value.chars layout.inner ++ membersChars layout.inner members ++ layout.breakChars ++ ['\x7d']

def itemsChars (layout : Layout) : List Json → List Char
  | [] => []
  | item :: items => ',' :: layout.breakChars ++ item.chars layout ++ itemsChars layout items

def membersChars (layout : Layout) : List (String × Json) → List Char
  | [] => []
  | (key, value) :: members =>
    ',' :: layout.breakChars ++ stringChars key ++ layout.colonChars ++ value.chars layout ++
      membersChars layout members

end

def compress (value : Json) : String :=
  String.ofList (value.chars .oneLine)

def pretty (value : Json) : String :=
  String.ofList (value.chars (.indented 0))

end FormatGraph.Json
