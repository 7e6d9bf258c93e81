import FormatGraph.Proofs.Draft
import FormatGraph.Proofs.Link.Parts

/-! From linked parts to the graph. Every handle in a linked part is within the graph, so of all that
is checked at the end only the root can still be wrong. -/

namespace FormatGraph

namespace LinkContext

variable {ctx : LinkContext}

theorem Refers.lt {expect : Expect} {json : Json} {id : NodeId} (h : ctx.Refers expect json id) :
    id.index < ctx.kinds.size := by
  obtain ⟨-, kind, hkind, -⟩ := h
  exact (Array.getElem?_eq_some_iff.1 hkind).1

theorem Holds.handles_lt {type : FieldType} {json : Json} {value : type.Carrier}
    (h : ctx.Holds type json value) : ∀ id ∈ type.handles value, id.index < ctx.kinds.size := by
  cases type with
  | ref role expect =>
    obtain ⟨id, rfl, hid⟩ := h
    intro id' hid'
    cases List.mem_singleton.1 hid'
    exact hid.lt
  | refs role expect =>
    obtain ⟨items, -, hitems⟩ := h
    intro id hid
    obtain ⟨item, -, hitem⟩ := exists_left_of_forall₂ hitems hid
    exact hitem.lt
  | _ => nofun

theorem Reads.handles_lt {type : FieldType} {found : Option Json} {value : type.Carrier}
    (h : ctx.Reads type found value) : ∀ id ∈ type.handles value, id.index < ctx.kinds.size := by
  have hblank (hvalue : value = type.blank) :
      ∀ id ∈ type.handles value, id.index < ctx.kinds.size := by
    subst hvalue
    cases type <;> nofun
  cases found with
  | none => exact hblank h
  | some json =>
    by_cases hjson : json = .null
    · subst hjson
      exact hblank h
    · exact ((reads_some hjson).1 h).handles_lt

theorem NodeFrom.handles_lt {raw : RawNode} {node : Node} (h : ctx.NodeFrom raw node)
    {key : String} {type : FieldType} {value : type.Carrier}
    (hget : node.fields.get? key = some ⟨type, value⟩) :
    ∀ id ∈ type.handles value, id.index < ctx.kinds.size := by
  obtain ⟨entry, hentry, rfl, hfound⟩ := Record.exists_mem_toList_of_get? hget
  have hfield : entry.1 ∈ node.kind.schema :=
    Record.map_fst_toList node.fields ▸ List.mem_map_of_mem hentry
  obtain ⟨value', hget', hreads⟩ := h.fields entry.1 hfield
  cases hget.symm.trans hget'
  exact hreads.handles_lt

theorem NodeFrom.child_lt {raw : RawNode} {node : Node} (h : ctx.NodeFrom raw node) :
    ∀ child ∈ node.children, child.index < ctx.kinds.size := by
  intro child hchild
  obtain ⟨entry, hentry, hmem⟩ := Record.mem_children_iff.1 hchild
  have hget := Record.get?_of_mem_toList node.kind.schema_keys_nodup hentry
  exact h.handles_lt hget child (FieldType.children_subset_handles _ _ hmem)

theorem ScopeFrom.links_within {raw : RawScope} {scope : Scope} (h : ctx.ScopeFrom raw scope)
    {graph : Graph} (hnodes : graph.nodes.size = ctx.kinds.size)
    (hscopes : graph.scopes.size = ctx.scopeCount) :
    ∀ link ∈ Draft.linksOf scope, graph.HasTarget link.2 := by
  have hscope {target? : Option UInt64} {id? : Option ScopeId}
      (hrel : Option.Rel ctx.NamesScope target? id?) : ∀ id ∈ id?.toList, graph.HasScope id := by
    cases hrel with
    | none => nofun
    | some hname =>
      rw [Option.toList_some, List.forall_mem_singleton, Graph.HasScope, hscopes]
      exact hname.2
  have howner {target? : Option UInt64} {id? : Option NodeId}
      (hrel : Option.Rel (ctx.NamesNode .node) target? id?) :
      ∀ id ∈ id?.toList, graph.HasNode id := by
    cases hrel with
    | none => nofun
    | some hname =>
      rw [Option.toList_some, List.forall_mem_singleton, Graph.HasNode, hnodes]
      exact Refers.lt hname
  have hidents : ∀ id ∈ scope.idents, graph.HasNode id := by
    intro id hid
    obtain ⟨target, -, hname⟩ := exists_left_of_forall₂ h.idents hid
    rw [Graph.HasNode, hnodes]
    exact Refers.lt hname
  simp only [Draft.linksOf, List.forall_mem_append, List.forall_mem_map]
  exact ⟨⟨⟨⟨hscope h.prev, hscope h.next⟩, hscope h.branch⟩, hidents⟩, howner h.owner⟩

end LinkContext

def Graph.context (graph : Graph) (strict : Bool) : LinkContext :=
  ⟨graph.nodes.map Node.kind, graph.scopes.size, strict⟩

namespace RawGraph

structure Addressable (raw : RawGraph) : Prop where
  nodes : raw.nodes.length ≤ UInt32.size
  scopes : raw.scopes.length ≤ UInt32.size

structure Parts (raw : RawGraph) (strict : Bool) (kinds : List Kind) (nodes : List Node)
    (scopes : List Scope) : Prop where
  kinds_eq : raw.kinds = .ok kinds
  nodes_eq : (raw.context strict kinds).nodes raw.nodes = .ok nodes
  scopes_eq : (raw.context strict kinds).scopes raw.scopes = .ok scopes

variable {raw : RawGraph} {strict : Bool} {kinds : List Kind}

theorem Tagged.addressable (htags : raw.Tagged kinds) (hraw : raw.Addressable) :
    (raw.context strict kinds).Addressable := by
  refine ⟨?_, hraw.scopes⟩
  rw [context, List.size_toArray, ← htags.length_eq]
  exact hraw.nodes

theorem link_of_nodes_eq_nil (h : raw.nodes = []) : raw.link strict = .error .missingRoot := by
  rw [link, h, List.isEmpty_nil, if_pos rfl]

theorem link_of_nodes_ne_nil (h : raw.nodes ≠ []) :
    raw.link strict = raw.kinds >>= fun kinds =>
      (raw.context strict kinds).nodes raw.nodes >>= fun nodes =>
        (raw.context strict kinds).scopes raw.scopes >>= fun scopes =>
          Draft.finish ⟨nodes.toArray, scopes.toArray⟩ := by
  rw [link, if_neg (by simpa using h)]

theorem exists_parts_of_link_eq_ok {graph : Graph} (h : raw.link strict = .ok graph) :
    ∃ kinds nodes scopes, raw.Parts strict kinds nodes scopes ∧
      graph = ⟨nodes.toArray, scopes.toArray⟩ ∧ graph.Closed := by
  have hne : raw.nodes ≠ [] := by
    intro hnil
    rw [link_of_nodes_eq_nil hnil] at h
    cases h
  rw [link_of_nodes_ne_nil hne] at h
  obtain ⟨kinds, hkinds, h⟩ := bind_eq_ok_iff.1 h
  obtain ⟨nodes, hnodes, h⟩ := bind_eq_ok_iff.1 h
  obtain ⟨scopes, hscopes, h⟩ := bind_eq_ok_iff.1 h
  obtain ⟨hgraph, hclosed⟩ := Draft.finish_eq_ok_iff.1 h
  exact ⟨kinds, nodes, scopes, ⟨hkinds, hnodes, hscopes⟩, hgraph, hclosed⟩

namespace Parts
variable {nodes : List Node} {scopes : List Scope}

theorem tagged (h : raw.Parts strict kinds nodes scopes) : raw.Tagged kinds :=
  kinds_eq_ok_iff.1 h.kinds_eq

theorem link_eq_finish (h : raw.Parts strict kinds nodes scopes) (hnil : raw.nodes ≠ []) :
    raw.link strict = Draft.finish ⟨nodes.toArray, scopes.toArray⟩ := by
  rw [link_of_nodes_ne_nil hnil, h.kinds_eq]
  change (raw.context strict kinds).nodes raw.nodes >>= _ = _
  rw [h.nodes_eq]
  change (raw.context strict kinds).scopes raw.scopes >>= _ = _
  rw [h.scopes_eq]
  rfl

section addressable
variable (h : raw.Parts strict kinds nodes scopes) (hraw : raw.Addressable)
include h hraw

theorem nodesFrom :
    List.Forall₂ (raw.context strict kinds).NodeFrom raw.nodes nodes ∧ nodes.map Node.kind = kinds :=
  LinkContext.nodesFrom_of_nodes_eq_ok (h.tagged.addressable hraw) h.tagged h.nodes_eq

theorem scopesFrom : List.Forall₂ (raw.context strict kinds).ScopeFrom raw.scopes scopes :=
  LinkContext.scopesFrom_of_scopes_eq_ok (h.tagged.addressable hraw) h.scopes_eq

theorem context_eq :
    Graph.context ⟨nodes.toArray, scopes.toArray⟩ strict = raw.context strict kinds := by
  rw [Graph.context, context, (h.scopesFrom hraw).length_eq, List.size_toArray,
    List.map_toArray, (h.nodesFrom hraw).2]

theorem closed_iff :
    Graph.Closed ⟨nodes.toArray, scopes.toArray⟩ ↔ kinds.head? = some .program := by
  obtain ⟨hnodesFrom, hkinds⟩ := h.nodesFrom hraw
  have hscopesFrom := h.scopesFrom hraw
  have hsize : nodes.length = kinds.length := by rw [← hkinds, List.length_map]
  have hroot : (∃ program, nodes.toArray[0]? = some program ∧ program.kind = .program) ↔
      kinds.head? = some .program := by
    rw [← hkinds, List.head?_map, List.getElem?_toArray, ← List.head?_eq_getElem?,
      Option.map_eq_some_iff]
  -- Children and scope links were within the graph when they were read.
  refine ⟨fun hclosed => hroot.1 hclosed.root, fun hhead => ⟨hroot.2 hhead, ?_, ?_⟩⟩
  · intro node hnode child hchild
    obtain ⟨rawNode, -, hfrom⟩ := exists_left_of_forall₂ hnodesFrom (List.mem_toArray.1 hnode)
    have hlt := hfrom.child_lt child hchild
    rwa [context, List.size_toArray, ← hsize] at hlt
  · intro scope hscope
    obtain ⟨rawScope, -, hfrom⟩ := exists_left_of_forall₂ hscopesFrom (List.mem_toArray.1 hscope)
    refine hfrom.links_within ?_ ?_
    · rw [context, List.size_toArray, List.size_toArray, hsize]
    · rw [context, List.size_toArray, hscopesFrom.length_eq]

theorem linked : Graph.Linked ⟨nodes.toArray, scopes.toArray⟩ := by
  obtain ⟨hnodesFrom, hkinds⟩ := h.nodesFrom hraw
  intro node hnode key type value hget id hid
  obtain ⟨rawNode, -, hfrom⟩ := exists_left_of_forall₂ hnodesFrom (List.mem_toArray.1 hnode)
  have hlt := hfrom.handles_lt hget id hid
  rwa [context, List.size_toArray, ← hkinds, List.length_map] at hlt

theorem finish_eq_missingRoot (hroot : kinds.head? ≠ some .program) :
    Draft.finish ⟨nodes.toArray, scopes.toArray⟩ = .error .missingRoot := by
  have hprogram : Draft.hasProgram ⟨nodes.toArray, scopes.toArray⟩ ≠ true := by
    intro hprogram
    obtain ⟨program, hzero, hkind⟩ := Draft.hasProgram_iff.1 hprogram
    rw [List.getElem?_toArray, ← List.head?_eq_getElem?] at hzero
    apply hroot
    rw [← (h.nodesFrom hraw).2, List.head?_map, hzero, Option.map_some, hkind]
  rw [Draft.finish, if_neg hprogram]

theorem finish_eq_ok (hroot : kinds.head? = some .program) :
    Draft.finish ⟨nodes.toArray, scopes.toArray⟩ = .ok ⟨nodes.toArray, scopes.toArray⟩ :=
  Draft.finish_eq_ok_iff.2 ⟨rfl, (h.closed_iff hraw).2 hroot⟩

end addressable

end Parts

end RawGraph

end FormatGraph
