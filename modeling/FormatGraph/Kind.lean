import FormatGraph.Spelled

/-! Kinds of nodes. Most kinds belong to a category, literals being expressions and members being
statements. A tag names a kind or a category; only kinds have nodes. -/

namespace FormatGraph

inductive Category where
  | expr | stmt | type | literal | member
  deriving DecidableEq, Repr

inductive Kind where
  | program | comment | commentGroup | fieldArgument | binary | unary | cond | ident | call | ifExpr
  | memberAccess | paren | index | matchExpr | range | identity | tmpVar | importExpr | cast
  | available | specifyOrder | explicitError | ioOperation | orCond | badExpr | loop | indentBlock
  | scopedStatement | matchBranch | unionCandidate | returnStmt | breakStmt | continueStmt | assert
  | implicitYield | metadata | intType | floatType | identType | intLiteralType | strLiteralType
  | regexLiteralType | voidType | boolType | arrayType | functionType | structType | structUnionType
  | unionType | rangeType | enumType | metaType | optionalType | genericType | intLiteral
  | boolLiteral | strLiteral | regexLiteral | charLiteral | typeLiteral | specialLiteral | field
  | format | state | enum | enumMember | function
  deriving DecidableEq, Repr

inductive Tag where
  | kind (k : Kind)
  | category (c : Category)
  deriving DecidableEq, Repr

namespace Category

def name : Category → String
  | .expr => "Expr"
  | .stmt => "Stmt"
  | .type => "Type"
  | .literal => "Literal"
  | .member => "Member"

def spelling : Category → String
  | .expr => "expr"
  | .stmt => "stmt"
  | .type => "type"
  | .literal => "literal"
  | .member => "member"

def parent? : Category → Option Category
  | .literal => some .expr
  | .member => some .stmt
  | .expr | .stmt | .type => none

def within (c d : Category) : Bool :=
  c = d || c.parent? = some d

end Category

namespace Kind

def name : Kind → String
  | .program => "Program"
  | .comment => "Comment"
  | .commentGroup => "CommentGroup"
  | .fieldArgument => "FieldArgument"
  | .binary => "Binary"
  | .unary => "Unary"
  | .cond => "Cond"
  | .ident => "Ident"
  | .call => "Call"
  | .ifExpr => "If"
  | .memberAccess => "MemberAccess"
  | .paren => "Paren"
  | .index => "Index"
  | .matchExpr => "Match"
  | .range => "Range"
  | .identity => "Identity"
  | .tmpVar => "TmpVar"
  | .importExpr => "Import"
  | .cast => "Cast"
  | .available => "Available"
  | .specifyOrder => "SpecifyOrder"
  | .explicitError => "ExplicitError"
  | .ioOperation => "IoOperation"
  | .orCond => "OrCond"
  | .badExpr => "BadExpr"
  | .loop => "Loop"
  | .indentBlock => "IndentBlock"
  | .scopedStatement => "ScopedStatement"
  | .matchBranch => "MatchBranch"
  | .unionCandidate => "UnionCandidate"
  | .returnStmt => "Return"
  | .breakStmt => "Break"
  | .continueStmt => "Continue"
  | .assert => "Assert"
  | .implicitYield => "ImplicitYield"
  | .metadata => "Metadata"
  | .intType => "IntType"
  | .floatType => "FloatType"
  | .identType => "IdentType"
  | .intLiteralType => "IntLiteralType"
  | .strLiteralType => "StrLiteralType"
  | .regexLiteralType => "RegexLiteralType"
  | .voidType => "VoidType"
  | .boolType => "BoolType"
  | .arrayType => "ArrayType"
  | .functionType => "FunctionType"
  | .structType => "StructType"
  | .structUnionType => "StructUnionType"
  | .unionType => "UnionType"
  | .rangeType => "RangeType"
  | .enumType => "EnumType"
  | .metaType => "MetaType"
  | .optionalType => "OptionalType"
  | .genericType => "GenericType"
  | .intLiteral => "IntLiteral"
  | .boolLiteral => "BoolLiteral"
  | .strLiteral => "StrLiteral"
  | .regexLiteral => "RegexLiteral"
  | .charLiteral => "CharLiteral"
  | .typeLiteral => "TypeLiteral"
  | .specialLiteral => "SpecialLiteral"
  | .field => "Field"
  | .format => "Format"
  | .state => "State"
  | .enum => "Enum"
  | .enumMember => "EnumMember"
  | .function => "Function"

def spelling : Kind → String
  | .program => "program"
  | .comment => "comment"
  | .commentGroup => "comment_group"
  | .fieldArgument => "field_argument"
  | .binary => "binary"
  | .unary => "unary"
  | .cond => "cond"
  | .ident => "ident"
  | .call => "call"
  | .ifExpr => "if"
  | .memberAccess => "member_access"
  | .paren => "paren"
  | .index => "index"
  | .matchExpr => "match"
  | .range => "range"
  | .identity => "identity"
  | .tmpVar => "tmp_var"
  | .importExpr => "import"
  | .cast => "cast"
  | .available => "available"
  | .specifyOrder => "specify_order"
  | .explicitError => "explicit_error"
  | .ioOperation => "io_operation"
  | .orCond => "or_cond"
  | .badExpr => "bad_expr"
  | .loop => "loop"
  | .indentBlock => "indent_block"
  | .scopedStatement => "scoped_statement"
  | .matchBranch => "match_branch"
  | .unionCandidate => "union_candidate"
  | .returnStmt => "return"
  | .breakStmt => "break"
  | .continueStmt => "continue"
  | .assert => "assert"
  | .implicitYield => "implicit_yield"
  | .metadata => "metadata"
  | .intType => "int_type"
  | .floatType => "float_type"
  | .identType => "ident_type"
  | .intLiteralType => "int_literal_type"
  | .strLiteralType => "str_literal_type"
  | .regexLiteralType => "regex_literal_type"
  | .voidType => "void_type"
  | .boolType => "bool_type"
  | .arrayType => "array_type"
  | .functionType => "function_type"
  | .structType => "struct_type"
  | .structUnionType => "struct_union_type"
  | .unionType => "union_type"
  | .rangeType => "range_type"
  | .enumType => "enum_type"
  | .metaType => "meta_type"
  | .optionalType => "optional_type"
  | .genericType => "generic_type"
  | .intLiteral => "int_literal"
  | .boolLiteral => "bool_literal"
  | .strLiteral => "str_literal"
  | .regexLiteral => "regex_literal"
  | .charLiteral => "char_literal"
  | .typeLiteral => "type_literal"
  | .specialLiteral => "special_literal"
  | .field => "field"
  | .format => "format"
  | .state => "state"
  | .enum => "enum"
  | .enumMember => "enum_member"
  | .function => "function"

def category? : Kind → Option Category
  | .program | .comment | .commentGroup | .fieldArgument =>
    none
  | .binary | .unary | .cond | .ident | .call | .ifExpr | .memberAccess | .paren | .index
  | .matchExpr | .range | .identity | .tmpVar | .importExpr | .cast | .available | .specifyOrder
  | .explicitError | .ioOperation | .orCond | .badExpr =>
    some .expr
  | .intLiteral | .boolLiteral | .strLiteral | .regexLiteral | .charLiteral | .typeLiteral
  | .specialLiteral =>
    some .literal
  | .loop | .indentBlock | .scopedStatement | .matchBranch | .unionCandidate | .returnStmt
  | .breakStmt | .continueStmt | .assert | .implicitYield | .metadata =>
    some .stmt
  | .field | .format | .state | .enum | .enumMember | .function =>
    some .member
  | .intType | .floatType | .identType | .intLiteralType | .strLiteralType | .regexLiteralType
  | .voidType | .boolType | .arrayType | .functionType | .structType | .structUnionType | .unionType
  | .rangeType | .enumType | .metaType | .optionalType | .genericType =>
    some .type

end Kind

namespace Tag

def name : Tag → String
  | .kind k => k.name
  | .category c => c.name

def spelling : Tag → String
  | .kind k => k.spelling
  | .category c => c.spelling

def list : List Tag := [
  .kind .program, .kind .comment, .kind .commentGroup, .kind .fieldArgument, .category .expr,
  .kind .binary, .kind .unary, .kind .cond, .kind .ident, .kind .call, .kind .ifExpr,
  .kind .memberAccess, .kind .paren, .kind .index, .kind .matchExpr, .kind .range, .kind .identity,
  .kind .tmpVar, .kind .importExpr, .kind .cast, .kind .available, .kind .specifyOrder,
  .kind .explicitError, .kind .ioOperation, .kind .orCond, .kind .badExpr, .category .stmt,
  .kind .loop, .kind .indentBlock, .kind .scopedStatement, .kind .matchBranch,
  .kind .unionCandidate, .kind .returnStmt, .kind .breakStmt, .kind .continueStmt, .kind .assert,
  .kind .implicitYield, .kind .metadata, .category .type, .kind .intType, .kind .floatType,
  .kind .identType, .kind .intLiteralType, .kind .strLiteralType, .kind .regexLiteralType,
  .kind .voidType, .kind .boolType, .kind .arrayType, .kind .functionType, .kind .structType,
  .kind .structUnionType, .kind .unionType, .kind .rangeType, .kind .enumType, .kind .metaType,
  .kind .optionalType, .kind .genericType, .category .literal, .kind .intLiteral,
  .kind .boolLiteral, .kind .strLiteral, .kind .regexLiteral, .kind .charLiteral,
  .kind .typeLiteral, .kind .specialLiteral, .category .member, .kind .field, .kind .format,
  .kind .state, .kind .enum, .kind .enumMember, .kind .function]

instance : Spelled Tag where
  all := list
  spell := spelling

def ofSpelling? (s : String) : Option Tag :=
  Spelled.ofSpelling? s

def category? : Tag → Option Category
  | .kind k => k.category?
  | .category c => some c

def isIn (t : Tag) (c : Category) : Bool :=
  t.category?.any (·.within c)

def kind? : Tag → Option Kind
  | .kind k => some k
  | .category _ => none

end Tag

namespace Kind

/-- The kind that a payload names; categories are no kinds. -/
def ofSpelling? (s : String) : Option Kind :=
  (Tag.ofSpelling? s).bind Tag.kind?

def isIn (k : Kind) (c : Category) : Bool :=
  (Tag.kind k).isIn c

end Kind

inductive Expect where
  | node
  | category (c : Category)
  | tag (t : Tag)
  deriving DecidableEq, Repr

namespace Expect

def name : Expect → String
  | .node => "Node"
  | .category c => c.name
  | .tag t => t.name

def kind (k : Kind) : Expect := .tag (.kind k)

end Expect

def Tag.satisfies (t : Tag) : Expect → Bool
  | .node => true
  | .category c => t.isIn c
  | .tag u => t = u

def Kind.satisfies (k : Kind) (expect : Expect) : Bool :=
  (Tag.kind k).satisfies expect

end FormatGraph
