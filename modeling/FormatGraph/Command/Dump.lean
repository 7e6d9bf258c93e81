import FormatGraph.Graph.Walk
import FormatGraph.Report.Basic

/-! Showing the nodes of a graph as a tree. -/

namespace FormatGraph

structure DumpEntry where
  id : NodeId
  depth : Nat
  kind : Kind
  loc : Loc
  name? : Option String
  deriving DecidableEq, Repr

namespace DumpEntry

def toJson (entry : DumpEntry) : Json :=
  .obj ([("id", .nat entry.id.index), ("depth", .nat entry.depth), ("kind", .str entry.kind.name),
    ("loc", Shaped.toJson entry.loc)] ++ entry.name?.toList.map fun name => ("ident", .str name))

def cells (entry : DumpEntry) : List String :=
  [entry.id.text, toString entry.depth, entry.kind.name, entry.loc.text, entry.name?.getD ""]

def line (entry : DumpEntry) : String :=
  String.ofList (List.replicate (2 * entry.depth) ' ') ++ entry.kind.name ++ " " ++
    entry.id.text ++ " @" ++ entry.loc.text ++ entry.name?.elim "" fun name => " `" ++ name ++ "`"

end DumpEntry

structure Dump where
  depth : Nat := 0
  entries : Array DumpEntry := #[]

namespace Dump

/-- Record each node; nodes at the greatest depth are not descended into. -/
def visitor (graph : Graph) (maxDepth? : Option Nat) : Visitor Dump where
  enter id node dump :=
    let entry : DumpEntry := ⟨id, dump.depth, node.kind, node.loc, graph.nameOf? id⟩
    (if maxDepth?.any (· ≤ dump.depth) then .skip else .descend,
      ⟨dump.depth + 1, dump.entries.push entry⟩)
  leave _ _ dump := { dump with depth := dump.depth - 1 }

def entriesOf (graph : Graph) (maxDepth? : Option Nat) : Except QueryError (List DumpEntry) := do
  let (_, dump) ← graph.walk (visitor graph maxDepth?) Graph.root {}
  return dump.entries.toList

def report (style : Report) (entries : List DumpEntry) : String :=
  match style.format with
  | .json => style.object (.arr (entries.map DumpEntry.toJson))
  | .table => style.table ⟨["id", "depth", "kind", "loc", "ident"], entries.map DumpEntry.cells⟩
  | .text => Report.lines (entries.map DumpEntry.line)

end Dump

end FormatGraph
