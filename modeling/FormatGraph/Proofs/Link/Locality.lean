import FormatGraph.Proofs.Link.Outcome

/-! Linking is local. What stands in the body of a node decides over that node and no other, and
where it keeps the graph from being linked, that node is blamed. -/

namespace FormatGraph

namespace LinkContext

variable {ctx : LinkContext}

theorem mem_fieldReads {raws : List RawNode} {read : FieldRead} :
    read ∈ ctx.fieldReads raws ↔ ∃ raw, ctx.kinds[read.index]? = some read.kind ∧
      raws[read.index]? = some raw ∧ read.body = raw.body ∧ read.field ∈ read.kind.schema := by
  have hzip (kind : Kind) (raw : RawNode) (index : Nat) :
      ((kind, raw), index) ∈ (ctx.kinds.toList.zip raws).zipIdx ↔
        ctx.kinds[index]? = some kind ∧ raws[index]? = some raw := by
    rw [List.mem_zipIdx_iff_getElem?, List.getElem?_zip_eq_some, Array.getElem?_toList]
  unfold fieldReads
  constructor
  · intro h
    obtain ⟨⟨⟨kind, raw⟩, index⟩, hnode, hread⟩ := List.mem_flatMap.1 h
    obtain ⟨field, hfield, rfl⟩ := List.mem_map.1 hread
    obtain ⟨hkind, hraw⟩ := (hzip kind raw index).1 hnode
    exact ⟨raw, hkind, hraw, rfl, hfield⟩
  · obtain ⟨kind, index, body, field⟩ := read
    rintro ⟨raw, hkind, hraw, rfl, hfield⟩
    exact List.mem_flatMap.2 ⟨((kind, raw), index), (hzip kind raw index).2 ⟨hkind, hraw⟩,
      List.mem_map.2 ⟨field, hfield, rfl⟩⟩

theorem FieldFault.eq_at_site {read : FieldRead} {error : LinkError}
    (h : ctx.FieldFault read error) :
    error = .mismatch read.site ∨ (∃ target size, error = .dangling read.site target size) ∨
      error = .missingField read.site := by
  cases h with
  | missing => exact .inr (.inr rfl)
  | @flawed _ flaw =>
    cases flaw with
    | mismatch => exact .inl rfl
    | dangling target size => exact .inr (.inl ⟨target, size, rfl⟩)

theorem getElem?_of_nodes_eq_ok {raws : List RawNode} {nodes : List Node}
    (h : ctx.nodes raws = .ok nodes) (index : Nat) :
    nodes[index]? = (ctx.kinds[index]?).bind fun kind => raws[index]?.bind fun raw =>
      (ctx.node kind index raw).toOption := by
  rw [getElem?_of_mapM_eq_ok h, List.getElem?_zipIdx, List.zip, List.getElem?_zipWith,
    Array.getElem?_toList]
  cases ctx.kinds[index]? with
  | none => rfl
  | some kind =>
    cases raws[index]? with
    | none => rfl
    | some raw => simp

end LinkContext

namespace RawGraph

structure DifferAt (index : Nat) (raw raw' : RawGraph) : Prop where
  tags : raw.nodes.map RawNode.tag = raw'.nodes.map RawNode.tag
  locs : raw.nodes.map RawNode.loc = raw'.nodes.map RawNode.loc
  bodies : ∀ other, other ≠ index →
    raw.nodes[other]?.map RawNode.body = raw'.nodes[other]?.map RawNode.body
  scopes : raw.scopes = raw'.scopes

def Blames (raw : RawGraph) (index : Nat) (error : LinkError) : Prop :=
  ∃ node kind, raw.nodes[index]? = some node ∧ kind.spelling = node.tag ∧
    ∃ field ∈ kind.schema,
      error = .mismatch ⟨.node kind, field.key, index⟩ ∨
      (∃ target size, error = .dangling ⟨.node kind, field.key, index⟩ target size) ∨
      error = .missingField ⟨.node kind, field.key, index⟩

variable {raw raw' : RawGraph} {index : Nat} {strict : Bool} {kinds : List Kind}

namespace DifferAt

theorem symm (h : DifferAt index raw raw') : DifferAt index raw' raw :=
  ⟨h.tags.symm, h.locs.symm, fun other hother => (h.bodies other hother).symm, h.scopes.symm⟩

theorem node_eq (h : DifferAt index raw raw') {other : Nat} (hother : other ≠ index) :
    raw.nodes[other]? = raw'.nodes[other]? := by
  have htag := congrArg (·[other]?) h.tags
  have hloc := congrArg (·[other]?) h.locs
  have hbody := h.bodies other hother
  simp only [List.getElem?_map] at htag hloc
  revert htag hloc hbody
  cases raw.nodes[other]? with
  | none => cases raw'.nodes[other]? <;> simp
  | some node =>
    cases raw'.nodes[other]? with
    | none => simp
    | some node' =>
      obtain ⟨tag, loc, body⟩ := node
      obtain ⟨tag', loc', body'⟩ := node'
      simp +contextual

theorem kinds_eq (h : DifferAt index raw raw') : raw.kinds = raw'.kinds := kinds_eq_of_tags_eq h.tags

theorem context_eq (h : DifferAt index raw raw') : raw.context strict kinds = raw'.context strict kinds := by
  rw [context, context, h.scopes]

theorem addressable (h : DifferAt index raw raw') (hraw : raw.Addressable) : raw'.Addressable := by
  have hlength := congrArg List.length h.tags
  rw [List.length_map, List.length_map] at hlength
  exact ⟨hlength ▸ hraw.nodes, h.scopes ▸ hraw.scopes⟩

end DifferAt

theorem Tagged.kind_at (htags : raw.Tagged kinds) {node : RawNode} {kind : Kind}
    (hnode : raw.nodes[index]? = some node) (hkind : kinds[index]? = some kind) :
    kind.spelling = node.tag := by
  obtain ⟨hlt, rfl⟩ := List.getElem?_eq_some_iff.1 hnode
  obtain ⟨hlt', rfl⟩ := List.getElem?_eq_some_iff.1 hkind
  exact List.Forall₂.get htags hlt hlt'

theorem Tagged.unique (htags : raw.Tagged kinds) {kinds' : List Kind} (htags' : raw.Tagged kinds') :
    kinds = kinds' :=
  Except.ok.inj ((kinds_eq_ok_iff.2 htags).symm.trans (kinds_eq_ok_iff.2 htags'))

theorem DifferAt.agree (h : DifferAt index raw raw') {graph graph' : Graph}
    (hlink : raw.link strict = .ok graph) (hlink' : raw'.link strict = .ok graph') :
    graph.scopes = graph'.scopes ∧
      ∀ other, other ≠ index → graph.nodes[other]? = graph'.nodes[other]? := by
  obtain ⟨kinds, nodes, scopes, hparts, rfl, -⟩ := exists_parts_of_link_eq_ok hlink
  obtain ⟨kinds', nodes', scopes', hparts', rfl, -⟩ := exists_parts_of_link_eq_ok hlink'
  -- Both are linked in one context, because it is made from tags and the number of scopes.
  have hkinds : kinds = kinds' := by
    have heq := hparts.kinds_eq.symm.trans (h.kinds_eq.trans hparts'.kinds_eq)
    exact Except.ok.inj heq
  subst hkinds
  have hnodes := hparts.nodes_eq
  have hscopes := hparts.scopes_eq
  rw [h.context_eq] at hnodes hscopes
  rw [h.scopes] at hscopes
  constructor
  · cases hscopes.symm.trans hparts'.scopes_eq
    rfl
  · intro other hother
    rw [List.getElem?_toArray, List.getElem?_toArray, LinkContext.getElem?_of_nodes_eq_ok hnodes,
      LinkContext.getElem?_of_nodes_eq_ok hparts'.nodes_eq, h.node_eq hother]

theorem DifferAt.blames (h : DifferAt index raw raw') (hraw : raw.Addressable) {graph : Graph}
    {error : LinkError} (hlink : raw.link strict = .ok graph)
    (hlink' : raw'.link strict = .error error) : raw'.Blames index error := by
  obtain ⟨kinds, htags, hfields, hlinks, hroot⟩ := (exists_link_eq_ok_iff hraw).1 ⟨graph, hlink⟩
  have htags' : raw'.Tagged kinds := by
    rw [← kinds_eq_ok_iff, ← h.kinds_eq]
    exact kinds_eq_ok_iff.2 htags
  -- The other list has the same kinds, so whatever is wrong with it has to be in a field.
  cases fault_of_link_eq_error (h.addressable hraw) hlink' with
  | noNodes hnil =>
    rw [Tagged, hnil, List.forall₂_nil_left_iff] at htags'
    rw [htags'] at hroot
    cases hroot
  | tag hfirst =>
    have hkinds := (kinds_failsAt raw' error).2 hfirst
    cases hkinds.symm.trans (kinds_eq_ok_iff.2 htags')
  | field htags'' hfirst =>
    cases htags'.unique htags''
    obtain ⟨read, hread, hfault⟩ := hfirst.exists_mem
    obtain ⟨node, hkind, hnode, hbody, hfield⟩ := LinkContext.mem_fieldReads.1 hread
    have hindex : read.index = index := by
      by_contra hother
      -- A field of another node is read from the same body in both lists.
      rw [← h.context_eq] at hfault hkind
      have hmem : read ∈ (raw.context strict kinds).fieldReads raw.nodes :=
        LinkContext.mem_fieldReads.2 ⟨node, hkind, (h.node_eq hother).trans hnode, hbody, hfield⟩
      exact hfields read hmem error hfault
    subst hindex
    have hspelling : read.kind.spelling = node.tag := by
      refine htags'.kind_at hnode ?_
      simpa [context] using hkind
    exact ⟨node, read.kind, hnode, hspelling, read.field, hfield, hfault.eq_at_site⟩
  | scope _ htags'' _ hfirst =>
    cases htags'.unique htags''
    obtain ⟨link, hlink, hfault⟩ := hfirst.exists_mem
    rw [← h.context_eq] at hfault
    rw [scopeLinks, ← h.scopes] at hlink
    exact absurd hfault (hlinks link hlink error)
  | root htags'' _ _ hroot' =>
    cases htags'.unique htags''
    exact absurd hroot hroot'

/-- Lists that differ in the body of one node are linked to graphs that differ in that node only. If
only one of them can be linked, it is a field of that node that keeps the other from it. -/
theorem link_locality {raw raw' : RawGraph} {index : Nat} (h : DifferAt index raw raw')
    (hraw : raw.Addressable) (strict : Bool) :
    (∀ graph graph', raw.link strict = .ok graph → raw'.link strict = .ok graph' →
      graph.scopes = graph'.scopes ∧
        ∀ other, other ≠ index → graph.nodes[other]? = graph'.nodes[other]?) ∧
      (∀ graph error, raw.link strict = .ok graph → raw'.link strict = .error error →
        raw'.Blames index error) ∧
      ∀ graph error, raw'.link strict = .ok graph → raw.link strict = .error error →
        raw.Blames index error := by
  refine ⟨fun _ _ => h.agree, fun _ _ => h.blames hraw, fun _ _ => ?_⟩
  exact h.symm.blames (h.addressable hraw)

def named (base : Json) : RawGraph where
  nodes := [
    ⟨"program", {}, [("elements", .arr [.nat 1, .nat 2])]⟩,
    ⟨"ident", {}, [("base", base), ("ident", .str "x")]⟩,
    ⟨"ident", {}, [("base", .nat 1), ("ident", .str "y")]⟩]
  scopes := [{ idents := [1, 2], owner := some 0 }]

theorem link_locality_named :
    (∃ graph graph', (named .null).link false = .ok graph ∧ (named (.nat 2)).link false = .ok graph' ∧
      graph.nodes[2]? = graph'.nodes[2]?) ∧
      ∃ error, (named (.nat 7)).link false = .error error ∧ (named (.nat 7)).Blames 1 error := by
  have hdiffer (base base' : Json) : DifferAt 1 (named base) (named base') := by
    refine ⟨rfl, rfl, fun other hother => ?_, rfl⟩
    match other, hother with
    | 0, _ | 2, _ => rfl
    | n + 3, _ => rfl
  obtain ⟨graph, h⟩ : ∃ graph, (named .null).link false = .ok graph := ⟨_, rfl⟩
  have haddress : (named .null).Addressable := ⟨by decide, by decide⟩
  constructor
  · obtain ⟨graph', h'⟩ : ∃ graph, (named (.nat 2)).link false = .ok graph := ⟨_, rfl⟩
    have hlocal := link_locality (hdiffer .null (.nat 2)) haddress false
    exact ⟨graph, graph', h, h', (hlocal.1 graph graph' h h').2 2 (by decide)⟩
  · obtain ⟨error, h'⟩ : ∃ error, (named (.nat 7)).link false = .error error := ⟨_, rfl⟩
    have hlocal := link_locality (hdiffer .null (.nat 7)) haddress false
    exact ⟨error, h', hlocal.2.1 graph error h h'⟩

end RawGraph

end FormatGraph
