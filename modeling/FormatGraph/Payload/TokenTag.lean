import FormatGraph.Spelled

/-! Classes of tokens, as the front end names them. -/

namespace FormatGraph

inductive TokenTag where
  | indent | space | line | punct | intLiteral | boolLiteral | strLiteral | regexLiteral
  | charLiteral | keyword | ident | comment | error | unknown
  deriving DecidableEq, Repr

instance : Spelled TokenTag where
  all := [
    .indent, .space, .line, .punct, .intLiteral, .boolLiteral, .strLiteral, .regexLiteral,
    .charLiteral, .keyword, .ident, .comment, .error, .unknown]
  spell
    | .indent => "indent"
    | .space => "space"
    | .line => "line"
    | .punct => "punct"
    | .intLiteral => "int_literal"
    | .boolLiteral => "bool_literal"
    | .strLiteral => "str_literal"
    | .regexLiteral => "regex_literal"
    | .charLiteral => "char_literal"
    | .keyword => "keyword"
    | .ident => "ident"
    | .comment => "comment"
    | .error => "error"
    | .unknown => "unknown"

end FormatGraph
