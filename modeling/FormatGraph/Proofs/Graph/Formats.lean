import FormatGraph.Graph.Formats
import FormatGraph.Proofs.Graph.Postorder
import FormatGraph.Proofs.Graph.Search

/-! The order of formats. It holds the formats below the root and those they depend on, each of them
once. A format stands after one that it depends on, unless that one leads back to it. -/

namespace FormatGraph

open Relation

theorem NodeSet.size_empty (size : Nat) : (empty size).marks.size = size := Array.size_replicate

theorem NodeSet.contains_foldl_insert {set : NodeSet} {ids : List NodeId}
    (h : ∀ id ∈ ids, id.index < set.marks.size) {other : NodeId} :
    (ids.foldl insert set).contains other = true ↔ set.contains other = true ∨ other ∈ ids := by
  induction ids generalizing set with
  | nil => simp
  | cons id ids ih =>
    obtain ⟨hid, hids⟩ := List.forall_mem_cons.1 h
    have hsize : (set.insert id).marks.size = set.marks.size := Array.size_setIfInBounds
    rw [List.foldl_cons, ih (hsize ▸ hids), contains_insert_iff hid, List.mem_cons]
    tauto

namespace Graph

variable {graph : Graph}

/-- A format depends on another through a type identifier whose type is the structure of that
one. -/
def DependsOn (graph : Graph) (format other : NodeId) : Prop :=
  ∃ node entry ident type struct, graph.ofKind? .format format = some node ∧
    entry ∈ node.refs "depends" ∧ graph.ofKind? .identType entry = some ident ∧
    ident.ref? "base" = some type ∧ graph.ofKind? .structType type = some struct ∧
    struct.ref? "base" = some other ∧ (graph.ofKind? .format other).isSome

def FormatBelow (graph : Graph) (id : NodeId) : Prop :=
  (graph.ofKind? .format id).isSome ∧ ReflTransGen graph.Child root id

def Requires (graph : Graph) (format other : NodeId) : Prop :=
  graph.FormatBelow format ∧ graph.DependsOn format other

theorem dependedFormat?_eq_some_iff {entry other : NodeId} :
    graph.dependedFormat? entry = some other ↔
      ∃ ident type struct, graph.ofKind? .identType entry = some ident ∧
        ident.ref? "base" = some type ∧ graph.ofKind? .structType type = some struct ∧
        struct.ref? "base" = some other ∧ (graph.ofKind? .format other).isSome := by
  simp only [dependedFormat?, Option.bind_eq_bind, Option.bind_eq_some_iff]
  constructor
  · rintro ⟨ident, hident, type, htype, struct, hstruct, format, hformat, node, hnode, ⟨⟩⟩
    have hsome := Option.isSome_iff_exists.2 ⟨node, hnode⟩
    exact ⟨ident, type, struct, hident, htype, hstruct, hformat, hsome⟩
  · rintro ⟨ident, type, struct, hident, htype, hstruct, hformat, hsome⟩
    obtain ⟨node, hnode⟩ := Option.isSome_iff_exists.1 hsome
    exact ⟨ident, hident, type, htype, struct, hstruct, other, hformat, node, hnode, rfl⟩

theorem mem_dependencies_iff {format other : NodeId} :
    other ∈ graph.dependencies format ↔ graph.DependsOn format other := by
  unfold dependencies DependsOn
  cases graph.ofKind? .format format with
  | none => simp
  | some node => simp [List.mem_filterMap, dependedFormat?_eq_some_iff]

theorem DependsOn.isSome {format other : NodeId} (h : graph.DependsOn format other) :
    (graph.ofKind? .format other).isSome := by
  obtain ⟨_, _, _, _, _, -, -, -, -, -, -, h⟩ := h
  exact h

theorem formats_length_lt (hclosed : graph.Closed) {ids : List NodeId} (hnodup : ids.Nodup)
    (hids : ∀ id ∈ ids, (graph.ofKind? .format id).isSome) : ids.length < graph.nodes.size := by
  obtain ⟨program, hprogram, hkind⟩ := hclosed.root
  have hroot : root ∉ ids := by
    intro hmem
    obtain ⟨node, hnode⟩ := Option.isSome_iff_exists.1 (hids root hmem)
    obtain ⟨hnode, hformat⟩ := Option.filter_eq_some_iff.1 hnode
    cases hprogram.symm.trans hnode
    simp [hkind] at hformat
  exact Handle.length_le (List.nodup_cons.2 ⟨hroot, hnodup⟩)
    (List.forall_mem_cons.2 ⟨hasNode_root hclosed, fun id hid => hasNode_of_ofKind? (hids id hid)⟩)

/-- The formats below the root and those they depend on, each of them once, and in order. -/
structure DependencyOrder (graph : Graph) (ids : List NodeId) : Prop where
  nodup : ids.Nodup
  mem_iff : ∀ id, id ∈ ids ↔
    graph.FormatBelow id ∨ ∃ format, graph.FormatBelow format ∧ graph.DependsOn format id
  before : ∀ format other, graph.FormatBelow format → graph.DependsOn format other →
    ¬ ReflTransGen graph.Requires other format → [other, format].Sublist ids

theorem DependencyOrder.isSome {ids : List NodeId} (h : graph.DependencyOrder ids) :
    ∀ id ∈ ids, (graph.ofKind? .format id).isSome := by
  intro id hid
  rcases (h.mem_iff id).1 hid with hbelow | ⟨format, -, hdepends⟩
  · exact hbelow.1
  · exact hdepends.isSome

theorem dependencyOrder_of_finds {next : NodeId → Except QueryError (List NodeId)}
    {roots ids : List NodeId} (hroots : ∀ id, id ∈ roots ↔ graph.FormatBelow id)
    (hnext : ∀ format other, Search.Leads next format other ↔ graph.Requires format other)
    (h : Search.Finds next roots ids) : graph.DependencyOrder ids := by
  have hleads : Search.Leads next = graph.Requires := by
    funext format other
    exact propext (hnext format other)
  obtain ⟨hnodup, hmem, hbefore⟩ := h
  rw [hleads] at hmem hbefore
  have hmem' (id : NodeId) : id ∈ ids ↔
      graph.FormatBelow id ∨ ∃ format, graph.FormatBelow format ∧ graph.DependsOn format id := by
    rw [hmem]
    constructor
    · rintro ⟨start, hstart, hreaches⟩
      cases hreaches with
      | refl => exact .inl ((hroots id).1 hstart)
      | tail _ hrequires => exact .inr ⟨_, hrequires⟩
    · rintro (hbelow | ⟨format, hbelow, hdepends⟩)
      · exact ⟨id, (hroots id).2 hbelow, .refl⟩
      · exact ⟨format, (hroots format).2 hbelow, .single ⟨hbelow, hdepends⟩⟩
  refine ⟨hnodup, hmem', fun format other hbelow hdepends hback => ?_⟩
  have hformat : format ∈ ids := (hmem' format).2 (.inl hbelow)
  exact (hbefore format hformat other ⟨hbelow, hdepends⟩).resolve_left hback

theorem contains_formats_iff {formats : List NodeId}
    (hformats : ∀ id, id ∈ formats ↔ graph.FormatBelow id) (format : NodeId) :
    (formats.foldl NodeSet.insert (.empty graph.nodes.size)).contains format = true ↔
      graph.FormatBelow format := by
  rw [NodeSet.contains_foldl_insert, NodeSet.contains_empty, hformats]
  · simp
  · intro id hid
    rw [NodeSet.size_empty]
    exact hasNode_of_ofKind? ((hformats id).1 hid).1

theorem mem_dependenciesAmong {formats : List NodeId}
    (hformats : ∀ id, id ∈ formats ↔ graph.FormatBelow id) {format other : NodeId} :
    other ∈ graph.dependenciesAmong (formats.foldl NodeSet.insert (.empty graph.nodes.size))
      format ↔ graph.Requires format other := by
  have hbelow := contains_formats_iff hformats format
  unfold dependenciesAmong
  split
  next hcontains =>
    rw [mem_dependencies_iff]
    exact (and_iff_right (hbelow.1 hcontains)).symm
  next hcontains =>
    exact iff_of_false nofun fun hrequires => hcontains (hbelow.2 hrequires.1)

section acyclic
variable (hclosed : graph.Closed) (hcycle : graph.findCycle root = .ok none)
include hclosed hcycle

theorem reportedFormats_returns :
    Returns graph.reportedFormats fun ids => ∀ id, id ∈ ids ↔ graph.FormatBelow id := by
  refine (postorder_reaches hclosed (hasNode_root hclosed) hcycle).bind fun ids hids => ?_
  refine .pure fun id => ?_
  rw [List.mem_filter, hids, and_comm]
  rfl

theorem formatsWithin_returns {depth : Nat} (hdepth : graph.nodes.size ≤ depth) :
    Returns (graph.formatsWithin depth) graph.DependencyOrder := by
  have hlimit (ids : List NodeId) (hnodup : ids.Nodup)
      (hids : ∀ id ∈ ids, (graph.ofKind? .format id).isSome) : ids.length ≤ graph.nodes.size - 1 :=
    Nat.le_sub_one_of_lt (formats_length_lt hclosed hnodup hids)
  have hpos : 0 < graph.nodes.size := hasNode_root hclosed
  refine (reportedFormats_returns hclosed hcycle).bind fun formats hformats => ?_
  refine (Search.run_returns (fun format _ => .pure fun other hother => ?_)
    (fun id hid => hasNode_of_ofKind? hid) hlimit (fun id hid => ?_) (by omega)).mono
    fun ids hfinds => dependencyOrder_of_finds (fun id => ?_) (fun format other => ?_) hfinds
  · exact ((mem_dependenciesAmong hformats).1 hother).2.isSome
  · exact ((hformats id).1 (List.mem_mergeSort.1 hid)).1
  · rw [List.mem_mergeSort, hformats]
  · rw [← mem_dependenciesAmong hformats]
    constructor
    · rintro ⟨_, ⟨⟩, hother⟩
      exact hother
    · exact fun hother => ⟨_, rfl, hother⟩

end acyclic

theorem formatsWithin_agrees {depth depth' : Nat} (h : depth ≤ depth') :
    AgreesUnless (· = .tooDeep) (graph.formatsWithin depth) (graph.formatsWithin depth') :=
  (AgreesUnless.refl graph.reportedFormats).bind fun _ _ => Search.run_agrees h _

theorem formatsInOrder_returns (hclosed : graph.Closed) (hcycle : graph.findCycle root = .ok none) :
    Returns graph.formatsInOrder fun ids => ∀ id ∈ ids, graph.HasNode id :=
  (formatsWithin_returns hclosed hcycle (Nat.le_succ _)).mono fun _ horder id hid =>
    hasNode_of_ofKind? (horder.isSome id hid)

end Graph

end FormatGraph
