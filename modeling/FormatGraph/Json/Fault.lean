import FormatGraph.Json.Double
import FormatGraph.Text.Quoted
import FormatGraph.Json.Basic

/-! What can be wrong with a JSON document. A `Mismatch` is a value of another shape than the wanted
one, a `Cause` is that or a text that is no JSON, and a `Fault` is a cause with its place in the
text. -/

namespace FormatGraph

inductive Found where
  | null
  | bool (value : Bool)
  | num (value : Number)
  | str (value : String)
  | list
  | object
  deriving DecidableEq, Repr

inductive Mismatch where
  | invalidType (found : Found) (wanted : String)
  | invalidValue (found : Found) (wanted : String)
  | invalidLength (length : Nat) (wanted : String)
  | unknownWord (word : String) (known : List String)
  | missingField (key : String)
  | duplicateField (key : String)
  deriving DecidableEq, Repr

inductive Cause where
  | endInValue
  | endInString
  | endInList
  | endInObject
  | expectedColon
  | expectedListSeparator
  | expectedObjectSeparator
  | expectedLetter
  | expectedValue
  | invalidEscape
  | invalidNumber
  | numberOutOfRange
  | controlCharacter
  | loneSurrogate
  | endOfEscape
  | keyNotString
  | trailingComma
  | trailingCharacters
  | tooDeep
  | mismatch (cause : Mismatch)
  deriving DecidableEq, Repr

/-- A cause, and the number of bytes of the text that follow its place. -/
structure Fault where
  cause : Cause
  left : Nat
  deriving DecidableEq, Repr

namespace Json

def found : Json → Found
  | .null => .null
  | .bool b => .bool b
  | .num n => .num n
  | .str s => .str s
  | .arr _ => .list
  | .obj _ => .object

end Json

namespace Found

def message : Found → String
  | .null => "null"
  | .bool true => "boolean `true`"
  | .bool false => "boolean `false`"
  | .num (.int i) => "integer `" ++ toString i ++ "`"
  | .num (.double bits) => "floating point `" ++ String.ofList (Double.chars bits) ++ "`"
  | .str s => "string " ++ Text.quote s
  | .list => "sequence"
  | .object => "map"

end Found

namespace Mismatch

def wordList : List String → String
  | [] => "there are no variants"
  | [a] => "expected `" ++ a ++ "`"
  | [a, b] => "expected `" ++ a ++ "` or `" ++ b ++ "`"
  | words => "expected one of " ++ ", ".intercalate (words.map fun w => "`" ++ w ++ "`")

def message : Mismatch → String
  | .invalidType found wanted => "invalid type: " ++ found.message ++ ", expected " ++ wanted
  | .invalidValue found wanted => "invalid value: " ++ found.message ++ ", expected " ++ wanted
  | .invalidLength length wanted => "invalid length " ++ toString length ++ ", expected " ++ wanted
  | .unknownWord word known => "unknown variant `" ++ word ++ "`, " ++ wordList known
  | .missingField key => "missing field `" ++ key ++ "`"
  | .duplicateField key => "duplicate field `" ++ key ++ "`"

end Mismatch

namespace Cause

def message : Cause → String
  | .endInValue => "EOF while parsing a value"
  | .endInString => "EOF while parsing a string"
  | .endInList => "EOF while parsing a list"
  | .endInObject => "EOF while parsing an object"
  | .expectedColon => "expected `:`"
  | .expectedListSeparator => "expected `,` or `]`"
  | .expectedObjectSeparator => "expected `,` or `\x7d`"
  | .expectedLetter => "expected ident"
  | .expectedValue => "expected value"
  | .invalidEscape => "invalid escape"
  | .invalidNumber => "invalid number"
  | .numberOutOfRange => "number out of range"
  | .controlCharacter => "control character (\\u0000-\\u001F) found while parsing a string"
  | .loneSurrogate => "lone leading surrogate in hex escape"
  | .endOfEscape => "unexpected end of hex escape"
  | .keyNotString => "key must be a string"
  | .trailingComma => "trailing comma"
  | .trailingCharacters => "trailing characters"
  | .tooDeep => "recursion limit exceeded"
  | .mismatch m => m.message

end Cause

end FormatGraph
