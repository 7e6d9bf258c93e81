import FormatGraph.Record

/-! Nodes. -/

namespace FormatGraph

structure Node where
  loc : Loc
  kind : Kind
  fields : Record kind.schema

namespace Node

def blank (kind : Kind) : Node := ⟨{}, kind, .blank kind.schema⟩

instance : Inhabited Node := ⟨blank .comment⟩

def children (node : Node) : List NodeId := node.fields.children

/-- Hand the children to `visit` in walk order for as long as it answers `true`; the answer is
whether it always did. -/
def visitChildren {m : Type → Type} [Monad m] (node : Node) (visit : NodeId → m Bool) : m Bool :=
  node.fields.visitChildren visit

def ref? (node : Node) (key : String) : Option NodeId :=
  match node.fields.get? key with
  | some ⟨.ref _ _, id⟩ => id
  | _ => none

def refs (node : Node) (key : String) : List NodeId :=
  match node.fields.get? key with
  | some ⟨.refs _ _, ids⟩ => ids
  | _ => []

def text (node : Node) (key : String) : String :=
  match node.fields.get? key with
  | some ⟨.text, text⟩ => text
  | _ => ""

def word (node : Node) (key : String) : String :=
  match node.fields.get? key with
  | some ⟨.word v, word⟩ => (inferInstance : Spelled v.Word).spell word
  | _ => ""

end Node

end FormatGraph
