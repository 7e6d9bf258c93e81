import FormatGraph.Kind
import FormatGraph.Vocabulary

/-! The fields of each kind of node, in the order in which they are read. A reference is to a child,
or it is a link to somewhere else in the graph; the children of a node are those of its fields in
their order. -/

namespace FormatGraph

inductive Role where
  | child
  | link
  deriving DecidableEq, Repr

inductive FieldType where
  | ref (role : Role) (expect : Expect)
  | refs (role : Role) (expect : Expect)
  | scope
  | flag
  | count
  | optCount
  | text
  | loc
  | word (v : Vocabulary)
  | traits
  deriving DecidableEq, Repr

structure Field where
  key : String
  type : FieldType
  deriving DecidableEq, Repr

namespace Schema

def child (key : String) (expect : Expect) : Field := ⟨key, .ref .child expect⟩
def children (key : String) (expect : Expect) : Field := ⟨key, .refs .child expect⟩
def link (key : String) (expect : Expect) : Field := ⟨key, .ref .link expect⟩
def links (key : String) (expect : Expect) : Field := ⟨key, .refs .link expect⟩
def scope (key : String) : Field := ⟨key, .scope⟩
def flag (key : String) : Field := ⟨key, .flag⟩
def count (key : String) : Field := ⟨key, .count⟩
def optCount (key : String) : Field := ⟨key, .optCount⟩
def text (key : String) : Field := ⟨key, .text⟩
def place (key : String) : Field := ⟨key, .loc⟩
def word (key : String) (v : Vocabulary) : Field := ⟨key, .word v⟩
def traits (key : String) : Field := ⟨key, .traits⟩

def anExpr : Expect := .category .expr
def aType : Expect := .category .type
def aMember : Expect := .category .member

def expression (fields : List Field) : List Field :=
  child "expr_type" aType :: word "constant_level" .constantLevel :: fields

def typeLike (fields : List Field) : List Field :=
  flag "is_explicit" :: flag "non_dynamic_allocation" :: word "bit_alignment" .bitAlignment ::
    optCount "bit_size" :: fields

def declaration (fields : List Field) : List Field :=
  link "belong" aMember :: link "belong_struct" (.kind .structType) ::
    child "ident" (.kind .ident) :: fields

end Schema

open Schema in
def Kind.schema : Kind → List Field
  | .program => [
    child "struct_type" (.kind .structType), children "elements" .node, scope "global_scope",
    links "metadata" (.kind .metadata), link "endian" (.kind .specifyOrder)]
  | .comment => [text "comment"]
  | .commentGroup => [children "comments" (.kind .comment)]
  | .fieldArgument => [
    child "raw_arguments" anExpr, place "end_loc", links "collected_arguments" anExpr,
    children "arguments" anExpr, children "assigns" (.kind .binary), child "alignment" anExpr,
    optCount "alignment_value", child "sub_byte_length" anExpr, child "sub_byte_begin" anExpr,
    child "peek" anExpr, optCount "peek_value", child "type_map" (.kind .typeLiteral),
    children "metadata" (.kind .metadata)]
  | .binary => expression [word "op" .binaryOp, child "left" anExpr, child "right" anExpr]
  | .unary => expression [word "op" .unaryOp, child "expr" anExpr]
  | .cond => expression [
    child "cond" anExpr, child "then" anExpr, place "els_loc", child "els" anExpr]
  | .ident => expression [text "ident", word "usage" .identUsage, link "base" .node, scope "scope"]
  | .call => expression [
    child "callee" anExpr, child "raw_arguments" anExpr, children "arguments" anExpr,
    place "end_loc"]
  | .ifExpr => expression [
    child "struct_union_type" (.kind .structUnionType), scope "cond_scope",
    child "cond" (.kind .identity), child "then" (.kind .indentBlock), child "els" .node]
  | .memberAccess => expression [
    child "target" anExpr, child "member" (.kind .ident), link "base" (.kind .ident)]
  | .paren => expression [child "expr" anExpr, place "end_loc"]
  | .index => expression [child "expr" anExpr, child "index" anExpr, place "end_loc"]
  | .matchExpr => expression [
    child "struct_union_type" (.kind .structUnionType), scope "cond_scope",
    child "cond" (.kind .identity), children "branch" (.kind .matchBranch), flag "trial_match"]
  | .range => expression [word "op" .binaryOp, child "start" anExpr, child "end" anExpr]
  | .identity => expression [child "expr" anExpr]
  | .tmpVar => expression [count "tmp_var"]
  | .importExpr => expression [
    text "path", child "base" (.kind .call), child "import_desc" (.kind .program)]
  | .cast => expression [child "base" (.kind .call), children "arguments" anExpr]
  | .available => expression [child "base" (.kind .call), child "target" anExpr]
  | .specifyOrder => expression [
    child "base" (.kind .binary), word "order_type" .orderType, child "order" anExpr,
    optCount "order_value"]
  | .explicitError => expression [child "base" (.kind .call), child "message" (.kind .strLiteral)]
  | .ioOperation => expression [
    child "base" anExpr, word "method" .ioMethod, children "arguments" anExpr]
  | .orCond => expression [child "base" (.kind .binary), children "conds" anExpr]
  | .badExpr => expression [text "content", child "bad_expr" anExpr]
  | .loop => [
    scope "cond_scope", child "init" anExpr, child "cond" anExpr, child "step" anExpr,
    child "body" (.kind .indentBlock)]
  | .indentBlock => [
    child "struct_type" (.kind .structType), children "elements" .node, scope "scope",
    links "metadata" (.kind .metadata), child "type_map" (.kind .typeLiteral),
    traits "block_traits"]
  | .scopedStatement => [
    child "struct_type" (.kind .structType), child "statement" .node, scope "scope"]
  | .matchBranch => [
    link "belong" (.kind .matchExpr), child "cond" (.kind .identity), place "sym_loc",
    child "then" .node]
  | .unionCandidate => [link "cond" anExpr, link "field" (.kind .field)]
  | .returnStmt => [child "expr" anExpr, link "related_function" (.kind .function)]
  | .breakStmt => [link "related_loop" (.kind .loop)]
  | .continueStmt => [link "related_loop" (.kind .loop)]
  | .assert => [child "cond" (.kind .binary), flag "is_io_related"]
  | .implicitYield => [child "expr" anExpr]
  | .metadata => [child "base" anExpr, text "name", children "values" anExpr]
  | .intType => typeLike [word "endian" .endian, flag "is_signed", flag "is_common_supported"]
  | .floatType => typeLike [word "endian" .endian, flag "is_common_supported"]
  | .identType => typeLike [
    child "import_ref" (.kind .memberAccess), child "ident" (.kind .ident), link "base" aType]
  | .intLiteralType => typeLike [link "base" (.kind .intLiteral)]
  | .strLiteralType => typeLike [
    link "base" (.kind .strLiteral), child "strong_ref" (.kind .strLiteral)]
  | .regexLiteralType => typeLike [
    link "base" (.kind .regexLiteral), child "strong_ref" (.kind .regexLiteral)]
  | .voidType => typeLike []
  | .boolType => typeLike []
  | .arrayType => typeLike [
    place "end_loc", child "element_type" aType, child "length" anExpr, optCount "length_value",
    flag "is_bytes"]
  | .functionType => typeLike [child "return_type" aType, children "parameters" aType]
  | .structType => typeLike [
    children "fields" aMember, link "base" .node, flag "recursive", count "fixed_header_size",
    count "fixed_tail_size"]
  | .structUnionType => typeLike [
    child "cond" anExpr, children "conds" anExpr, children "structs" (.kind .structType),
    link "base" anExpr, links "union_fields" (.kind .field), flag "exhaustive"]
  | .unionType => typeLike [
    link "cond" anExpr, children "candidates" (.kind .unionCandidate),
    link "base_type" (.kind .structUnionType), child "common_type" aType,
    children "member_candidates" (.kind .field)]
  | .rangeType => typeLike [child "base_type" aType, link "range" (.kind .range)]
  | .enumType => typeLike [link "base" (.kind .enum)]
  | .metaType => typeLike []
  | .optionalType => typeLike [child "base_type" aType]
  | .genericType => typeLike [link "belong" aMember]
  | .intLiteral => expression [text "value"]
  | .boolLiteral => expression [flag "value"]
  | .strLiteral => expression [text "value", count "length"]
  | .regexLiteral => expression [text "value"]
  | .charLiteral => expression [text "value", count "code"]
  | .typeLiteral => expression [child "type_literal" aType, place "end_loc"]
  | .specialLiteral => expression [word "kind" .specialLiteralKind]
  | .field => declaration [
    place "colon_loc", flag "is_state_variable", child "field_type" aType,
    child "arguments" (.kind .fieldArgument), optCount "offset_bit", count "offset_recent",
    optCount "tail_offset_bit", count "tail_offset_recent", word "bit_alignment" .bitAlignment,
    word "eventual_bit_alignment" .bitAlignment, word "follow" .follow,
    word "eventual_follow" .follow, link "next" (.kind .field)]
  | .format => declaration [
    child "body" (.kind .indentBlock), link "encode_fn" (.kind .function),
    link "decode_fn" (.kind .function), links "cast_fns" (.kind .function),
    links "depends" (.kind .identType), links "state_variables" (.kind .field)]
  | .state => declaration [child "body" (.kind .indentBlock)]
  | .enum => declaration [
    scope "scope", place "colon_loc", child "base_type" aType,
    children "members" (.kind .enumMember), child "enum_type" (.kind .enumType)]
  | .enumMember => declaration [
    child "raw_expr" anExpr, child "value" anExpr, child "str_literal" (.kind .strLiteral)]
  | .function => declaration [
    children "parameters" (.kind .field), child "return_type" aType,
    child "body" (.kind .indentBlock), child "func_type" (.kind .functionType), flag "is_cast"]

end FormatGraph
