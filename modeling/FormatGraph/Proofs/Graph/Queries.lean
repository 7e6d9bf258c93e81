import FormatGraph.Graph.Metadata
import FormatGraph.Proofs.Graph.Census
import FormatGraph.Proofs.Graph.Chain
import FormatGraph.Proofs.Graph.Formats
import FormatGraph.Proofs.Link.Assembly

/-! Questions about a graph that always have an answer. A finished draft is closed, which is enough
for all that go along children and scopes. Those about bases and owners follow other links, which a
linked graph keeps within itself and a draft need not. -/

namespace FormatGraph

namespace Graph

variable {graph : Graph}

/-- What is answered where children and scope links stay within the graph. Each answer names nodes
and scopes of the graph only. The name of a node is not here because it asks for no node that has to
exist. -/
structure AnswersQueries (graph : Graph) : Prop where
  program : Returns graph.program fun node => node.kind = .program
  kindOf : ∀ id, graph.HasNode id → Returns (graph.kindOf id) fun _ => True
  children : ∀ id, graph.HasNode id →
    Returns (graph.children id) fun ids => ∀ child ∈ ids, graph.HasNode child
  findCycle : ∀ id, graph.HasNode id →
    Returns (graph.findCycle id) fun found => ∀ node ∈ found, graph.HasNode node
  histogram : Returns graph.histogram fun _ => True
  membersAmong : ∀ ids, (∀ id ∈ ids, graph.HasNode id) →
    Returns (graph.membersAmong ids) fun members => ∀ id ∈ members, graph.HasNode id
  metadata : Returns graph.metadata fun settings =>
    ∀ setting ∈ settings, ∀ value ∈ setting.values, graph.HasNode value
  scopeChain : ∀ id, graph.HasScope id →
    Returns (graph.scopeChain id) fun ids => ∀ scope ∈ ids, graph.HasScope scope
  branches : ∀ id, graph.HasScope id →
    Returns (graph.branches id) fun ids => ∀ scope ∈ ids, graph.HasScope scope
  lookupIdent : ∀ id name, graph.HasScope id →
    Returns (graph.lookupIdent id name) fun found => ∀ node ∈ found, graph.HasNode node
  walk : ∀ id, graph.HasNode id → graph.findCycle id = .ok none →
    ∀ (σ : Type) (visitor : Visitor σ) (I : σ → Prop), visitor.Keeps graph I → ∀ state, I state →
      Returns (graph.walk visitor id state) fun r => I r.2
  preorder : ∀ id, graph.HasNode id → graph.findCycle id = .ok none →
    Returns (graph.preorder id) fun ids => ∀ id ∈ ids, graph.HasNode id
  postorder : ∀ id, graph.HasNode id → graph.findCycle id = .ok none →
    Returns (graph.postorder id) fun ids => ∀ id ∈ ids, graph.HasNode id
  isAnyRange : ∀ id, graph.HasNode id → graph.findCycle id = .ok none →
    Returns (graph.isAnyRange id) fun _ => True
  configPath? : ∀ id, graph.HasNode id → graph.findCycle id = .ok none →
    Returns (graph.configPath? id) fun _ => True
  formatsInOrder : graph.findCycle root = .ok none →
    Returns graph.formatsInOrder fun ids => ∀ id ∈ ids, graph.HasNode id

/-- What is answered only where all links stay within the graph. -/
structure AnswersLinkQueries (graph : Graph) : Prop where
  baseOf : ∀ id, graph.HasNode id → Returns (graph.baseOf id) fun r => graph.HasNode r.1
  isOnNamedStruct : ∀ id, graph.HasNode id → Returns (graph.isOnNamedStruct id) fun _ => True

theorem membersAmong_returns {ids : List NodeId} (h : ∀ id ∈ ids, graph.HasNode id) :
    Returns (graph.membersAmong ids) fun members => ∀ id ∈ members, graph.HasNode id := by
  have hfilter := Returns.filterM (f := fun id => return (← graph.kindOf id).isIn .member)
    fun id hid => (kindOf_returns (h id hid)).bind fun _ _ => .pure trivial
  exact hfilter.mono fun members hmembers id hid => h id (hmembers hid)

section closed
variable (hclosed : graph.Closed)
include hclosed

theorem program_returns :
    Returns graph.program fun node => graph.node? root = some node ∧ node.kind = .program := by
  obtain ⟨program, hprogram, hkind⟩ := hclosed.root
  refine (node_returns (hasNode_root hclosed)).bind fun node hnode => ?_
  cases hprogram.symm.trans hnode
  rw [if_pos hkind]
  exact .pure ⟨hnode, hkind⟩

theorem settingOf_returns {node : Node} {id : NodeId} (hnode : graph.ofKind? .metadata id = some node) :
    Returns (graph.settingOf node) fun setting => ∀ value ∈ setting.values, graph.HasNode value := by
  obtain ⟨hnode, hkind⟩ := node?_of_ofKind? hnode
  have hchild (child : NodeId) (h : child ∈ node.children) : graph.HasNode child :=
    hclosed.hasNode_of_child ⟨node, hnode, h⟩
  have hbase : ∀ field ∈ node.kind.schema, field.key = "base" → field.type.isChild = true := by
    rw [hkind]
    decide
  have hvalues : ∀ field ∈ node.kind.schema, field.key = "values" → field.type.isChild = true := by
    rw [hkind]
    decide
  have hrefs (value : NodeId) (h : value ∈ node.refs "values") : graph.HasNode value :=
    hchild value (Node.mem_children_of_mem_refs hvalues h)
  unfold settingOf
  cases hb : node.ref? "base" with
  | none => exact .pure hrefs
  | some base =>
    have hhas := hchild base (Node.mem_children_of_ref? hbase hb)
    exact (kindOf_returns hhas).bind fun _ _ => .pure hrefs

theorem metadata_returns : Returns graph.metadata fun settings =>
    ∀ setting ∈ settings, ∀ value ∈ setting.values, graph.HasNode value := by
  refine (program_returns hclosed).bind fun program _ => Returns.mapM fun node hnode => ?_
  obtain ⟨id, -, hid⟩ := List.mem_filterMap.1 hnode
  exact settingOf_returns hclosed hid

theorem Closed.answersQueries : graph.AnswersQueries where
  program := (program_returns hclosed).mono fun _ h => h.2
  kindOf _ := kindOf_returns
  children _ hid := (children_returns hid).mono fun _ hids child hchild =>
    hclosed.hasNode_of_child ((hids child).1 hchild)
  findCycle _ hid := (findCycle_returns hclosed hid).mono fun _ hanswer node hnode =>
    hclosed.hasNode_of_reaches hid (hanswer.2 node hnode).1
  histogram := histogram_returns hclosed
  membersAmong _ := membersAmong_returns
  metadata := metadata_returns hclosed
  scopeChain _ := scopeChain_returns hclosed
  branches _ := branches_returns hclosed
  lookupIdent _ name h := lookupIdent_returns hclosed h name
  walk _ hid hcycle _ _ _ hkeeps _ := walk_returns hclosed hid hcycle hkeeps
  preorder _ := preorder_returns hclosed
  postorder _ := postorder_returns hclosed
  isAnyRange _ hid hcycle :=
    isAnyRangeWithin_returns hclosed hid (descendsWithin_of_findCycle hclosed hid hcycle)
  configPath? _ hid hcycle :=
    configPathWithin?_returns hclosed hid (descendsWithin_of_findCycle hclosed hid hcycle)
  formatsInOrder := formatsInOrder_returns hclosed

end closed

theorem Linked.answersLinkQueries (hlinked : graph.Linked) : graph.AnswersLinkQueries :=
  ⟨fun _ hid => baseOf_returns hlinked hid, fun _ _ => isOnNamedStruct_returns hlinked⟩

end Graph

/-- A draft that can be finished although the links of an identifier and of a field lead nowhere. -/
def Draft.loose : Draft where
  nodes := #[
    .blank .program,
    ⟨{}, .ident, .cons (FieldType.blank _) (.cons (FieldType.blank _) (.cons (FieldType.blank _)
      (.cons (FieldType.blank _) (.cons (some ⟨9⟩ : Option NodeId) (.blank _)))))⟩,
    ⟨{}, .field, .cons (some ⟨9⟩ : Option NodeId) (.blank _)⟩]

/-- Every question about a linked graph has an answer within it, and so has every question about a
finished draft but those that follow links other than children. -/
theorem queries_answered :
    (∀ (draft : Draft) (graph : Graph), draft.finish = .ok graph → graph.AnswersQueries) ∧
      (∀ (raw : RawGraph) (strict : Bool) (graph : Graph), raw.Addressable →
        raw.link strict = .ok graph → graph.AnswersQueries ∧ graph.AnswersLinkQueries) ∧
      ∃ graph, Draft.loose.finish = .ok graph ∧
        graph.HasNode ⟨1⟩ ∧ graph.baseOf ⟨1⟩ = .error (.noNode ⟨9⟩) ∧
        graph.HasNode ⟨2⟩ ∧ graph.isOnNamedStruct ⟨2⟩ = .error (.noNode ⟨9⟩) := by
  refine ⟨fun draft graph h => ?_, fun raw strict graph hraw h => ?_, ?_⟩
  · exact (Draft.finish_eq_ok_iff.1 h).2.answersQueries
  · obtain ⟨kinds, nodes, scopes, hparts, rfl, hclosed⟩ := RawGraph.exists_parts_of_link_eq_ok h
    exact ⟨hclosed.answersQueries, (hparts.linked hraw).answersLinkQueries⟩
  · exact ⟨⟨Draft.loose.nodes, Draft.loose.scopes⟩, rfl, by decide, rfl, by decide, rfl⟩

def RawGraph.parenthesized : RawGraph where
  nodes := [
    ⟨"program", {}, [("elements", .arr [.nat 2, .nat 1])]⟩,
    ⟨"range", {}, []⟩,
    ⟨"paren", {}, [("expr", .nat 1)]⟩]
  scopes := []

theorem queries_answered_parenthesized : ∃ graph, RawGraph.parenthesized.link false = .ok graph ∧
    graph.findCycle Graph.root = .ok none ∧
      (Returns (graph.preorder Graph.root) fun ids => ∀ id ∈ ids, graph.HasNode id) ∧
      Returns (graph.baseOf Graph.root) fun r => graph.HasNode r.1 := by
  obtain ⟨graph, h, hcycle, hroot⟩ : ∃ graph, RawGraph.parenthesized.link false = .ok graph ∧
      graph.findCycle Graph.root = .ok none ∧ graph.HasNode Graph.root := ⟨_, rfl, rfl, by decide⟩
  have hanswers := queries_answered.2.1 RawGraph.parenthesized false graph ⟨by decide, by decide⟩ h
  exact ⟨graph, h, hcycle, hanswers.1.preorder Graph.root hroot hcycle, hanswers.2.baseOf Graph.root hroot⟩

end FormatGraph
