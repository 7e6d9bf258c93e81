/-! Handles. A node or scope is named by its position in its graph, as a word of 32 bits. -/

namespace FormatGraph

inductive HandleKind where
  | node | scope

structure Handle (kind : HandleKind) where
  val : UInt32
  deriving DecidableEq, Repr, Inhabited

abbrev NodeId := Handle .node

abbrev ScopeId := Handle .scope

namespace Handle

variable {kind : HandleKind}

def index (id : Handle kind) : Nat := id.val.toNat

def ofIndex (index : Nat) : Handle kind := ⟨UInt32.ofNat index⟩

def text (id : NodeId) : String := "#" ++ toString id.index

theorem index_ofIndex {index : Nat} (h : index < UInt32.size) :
    (ofIndex index : Handle kind).index = index :=
  UInt32.toNat_ofNat_of_lt' h

theorem eq_of_index_eq {a b : Handle kind} (h : a.index = b.index) : a = b := by
  cases a
  cases b
  exact congrArg mk (UInt32.toNat_inj.1 h)

end Handle

end FormatGraph
