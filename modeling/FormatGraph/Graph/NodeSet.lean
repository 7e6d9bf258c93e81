import FormatGraph.Handle

/-! Sets of nodes of one graph, as a mark for each position. -/

namespace FormatGraph

structure NodeSet where
  marks : Array Bool
  deriving DecidableEq, Repr

namespace NodeSet

def empty (size : Nat) : NodeSet := ⟨Array.replicate size false⟩

def contains (set : NodeSet) (id : NodeId) : Bool := set.marks.getD id.index false

def insert (set : NodeSet) (id : NodeId) : NodeSet := ⟨set.marks.setIfInBounds id.index true⟩

end NodeSet

end FormatGraph
