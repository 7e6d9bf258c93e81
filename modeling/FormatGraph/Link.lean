import FormatGraph.Draft
import FormatGraph.Payload.RawGraph

/-! From flat lists to a graph. All nodes are known by their kinds before any field is read, so
references may go forward as well as back. Fields are read in the order of nodes and schemas and
scopes after them, and the first error decides. -/

namespace FormatGraph

structure LinkContext where
  kinds : Array Kind
  scopeCount : Nat
  /-- A field whose key is not there is an error, and not the same as `null`. -/
  strict : Bool

inductive Flaw where
  | mismatch
  | dangling (target : UInt64) (size : Nat)
  deriving DecidableEq, Repr

def Flaw.at (site : Site) : Flaw → LinkError
  | .mismatch => .mismatch site
  | .dangling target size => .dangling site target size

namespace LinkContext

def nodeId (ctx : LinkContext) (expect : Expect) (target : UInt64) : Except Flaw NodeId :=
  match ctx.kinds[target.toNat]? with
  | none => .error (.dangling target ctx.kinds.size)
  | some kind => if kind.satisfies expect then .ok (.ofIndex target.toNat) else .error .mismatch

def scopeId (ctx : LinkContext) (target : UInt64) : Except Flaw ScopeId :=
  if target.toNat < ctx.scopeCount then .ok (.ofIndex target.toNat)
  else .error (.dangling target ctx.scopeCount)

def count (value : Json) : Except Flaw UInt64 :=
  match value.word? with
  | some n => .ok n
  | none => .error .mismatch

def ofJson (ctx : LinkContext) : (type : FieldType) → Json → Except Flaw type.Carrier
  | .ref _ expect, value => do return some (← ctx.nodeId expect (← count value))
  | .refs _ expect, .arr values => values.mapM fun value => do ctx.nodeId expect (← count value)
  | .refs _ _, _ => .error .mismatch
  | .scope, value => do return some (← ctx.scopeId (← count value))
  | .flag, .bool b => .ok b
  | .flag, _ => .error .mismatch
  | .count, value => count value
  | .optCount, value => do return some (← count value)
  | .text, .str s => .ok s
  | .text, _ => .error .mismatch
  | .loc, value => (Shaped.ofJson value : Except Mismatch Loc).mapError fun _ => .mismatch
  | .word v, value => (Spelled.ofJson value : Except Mismatch v.Word).mapError fun _ => .mismatch
  | .traits, value => do return BlockTraits.mk (← count value)

def field (ctx : LinkContext) (kind : Kind) (index : Nat) (body : Json.Object) (field : Field) :
    Except LinkError field.type.Carrier :=
  let site : Site := ⟨.node kind, field.key, index⟩
  match body.lookup field.key with
  | none => if ctx.strict then .error (.missingField site) else .ok field.type.blank
  | some .null => .ok field.type.blank
  | some value => (ctx.ofJson field.type value).mapError (Flaw.at site)

def node (ctx : LinkContext) (kind : Kind) (index : Nat) (raw : RawNode) :
    Except LinkError Node := do
  return ⟨raw.loc, kind, ← Record.readM (ctx.field kind index raw.body) kind.schema⟩

def scope (ctx : LinkContext) (index : Nat) (raw : RawScope) : Except LinkError Scope := do
  let site (key : String) : Site := ⟨.scope, key, index⟩
  let scopeLink (key : String) (target : UInt64) :=
    (ctx.scopeId target).mapError (Flaw.at (site key))
  let nodeLink (key : String) (expect : Expect) (target : UInt64) :=
    (ctx.nodeId expect target).mapError (Flaw.at (site key))
  return {
    prev := ← raw.prev.mapM (scopeLink "prev")
    next := ← raw.next.mapM (scopeLink "next")
    branch := ← raw.branch.mapM (scopeLink "branch")
    idents := ← raw.idents.mapM (nodeLink "ident" (.kind .ident))
    owner := ← raw.owner.mapM (nodeLink "owner" .node)
    isBranchRoot := raw.isBranchRoot }

def nodes (ctx : LinkContext) (raws : List RawNode) : Except LinkError (List Node) :=
  (ctx.kinds.toList.zip raws).zipIdx.mapM fun ((kind, raw), index) => ctx.node kind index raw

def scopes (ctx : LinkContext) (raws : List RawScope) : Except LinkError (List Scope) :=
  raws.zipIdx.mapM fun (raw, index) => ctx.scope index raw

end LinkContext

def RawNode.kind (index : Nat) (raw : RawNode) : Except LinkError Kind :=
  match Kind.ofSpelling? raw.tag with
  | some kind => .ok kind
  | none => .error (.unknownTag raw.tag index)

namespace RawGraph

def kinds (raw : RawGraph) : Except LinkError (List Kind) :=
  raw.nodes.zipIdx.mapM fun (node, index) => node.kind index

def context (raw : RawGraph) (strict : Bool) (kinds : List Kind) : LinkContext :=
  ⟨kinds.toArray, raw.scopes.length, strict⟩

def link (strict : Bool) (raw : RawGraph) : Except LinkError Graph :=
  if raw.nodes.isEmpty then .error .missingRoot
  else do
    let ctx := raw.context strict (← raw.kinds)
    let nodes ← ctx.nodes raw.nodes
    let scopes ← ctx.scopes raw.scopes
    Draft.finish ⟨nodes.toArray, scopes.toArray⟩

end RawGraph

end FormatGraph
