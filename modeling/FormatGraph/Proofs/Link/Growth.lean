import FormatGraph.Proofs.Link.Locality
import FormatGraph.Proofs.Link.Strictness

/-! Lists that grow. References are checked against all nodes and scopes that there are, so more of
them can make a reference good but not bad. What was linked before is linked to the same, and if
linking fails now, it does so at a node or scope that was added. -/

namespace FormatGraph

namespace LinkError

def AtNode (error : LinkError) (index : Nat) : Prop :=
  (∃ tag, error = .unknownTag tag index) ∨ ∃ kind key, error.site? = some ⟨.node kind, key, index⟩

def AtScope (error : LinkError) (index : Nat) : Prop :=
  ∃ key, error.site? = some ⟨.scope, key, index⟩

end LinkError

abbrev Extends {ε α : Type} (result result' : Except ε α) : Prop :=
  AgreesUnless (fun _ => True) result result'

namespace AgreesUnless

variable {ε ε' α : Type} {x y : Except ε α}

theorem extends_of_ok (h : ∀ a, x = .ok a → y = .ok a) : Extends x y := by
  cases x with
  | ok a => exact .inr (h a rfl).symm
  | error error => exact .inl ⟨error, trivial, rfl⟩

theorem extends_mapError (h : Extends x y) (g : ε → ε') :
    Extends (x.mapError g) (y.mapError g) := by
  refine extends_of_ok fun a ha => ?_
  have hx : x = .ok a := mapError_eq_ok_iff.1 ha
  exact mapError_eq_ok_iff.2 (h.eq_ok hx)

theorem extends_toOption (h : Extends x y) {a : α} (ha : x.toOption = some a) :
    y.toOption = some a := by
  cases x with
  | ok b =>
    rw [h.eq_ok rfl]
    exact ha
  | error error => cases ha

theorem optionMapM {P : ε → Prop} {β : Type} {f g : β → Except ε α}
    (h : ∀ b, AgreesUnless P (f b) (g b)) (b? : Option β) :
    AgreesUnless P (b?.mapM f) (b?.mapM g) := by
  cases b? with
  | none => exact refl _
  | some b =>
    change AgreesUnless P (some <$> f b) (some <$> g b)
    rw [← bind_pure_comp, ← bind_pure_comp]
    exact (h b).bind fun _ _ => refl _

end AgreesUnless

def ScopeLink.index : ScopeLink → Nat
  | .scope index _ _ | .node index _ _ _ => index

theorem RawScope.index_of_mem_links {raw : RawScope} {index : Nat} {link : ScopeLink}
    (h : link ∈ raw.links index) : link.index = index := by
  simp only [RawScope.links, List.mem_append, List.mem_map] at h
  rcases h with ⟨_, _, rfl⟩ | ⟨_, _, rfl⟩ | ⟨_, _, rfl⟩ | ⟨_, _, rfl⟩ | ⟨_, _, rfl⟩ <;> rfl

namespace LinkContext

theorem LinkFault.atScope {ctx : LinkContext} {link : ScopeLink} {error : LinkError}
    (h : ctx.LinkFault link error) : error.AtScope link.index := by
  cases h with
  | @scope index key => exact ⟨key, rfl⟩
  | @node index key _ _ flaw => exact ⟨key, by cases flaw <;> rfl⟩

theorem getElem?_of_scopes_eq_ok {ctx : LinkContext} {raws : List RawScope} {scopes : List Scope}
    (h : ctx.scopes raws = .ok scopes) (index : Nat) :
    scopes[index]? = raws[index]?.bind fun raw => (ctx.scope index raw).toOption := by
  rw [getElem?_of_mapM_eq_ok h, List.getElem?_zipIdx]
  cases raws[index]? with
  | none => rfl
  | some raw => simp

structure Grows (ctx ctx' : LinkContext) : Prop where
  kinds : ctx.kinds.toList <+: ctx'.kinds.toList
  scopes : ctx.scopeCount ≤ ctx'.scopeCount
  strict : ctx.strict = ctx'.strict

namespace Grows

variable {ctx ctx' : LinkContext} (h : ctx.Grows ctx')
include h

theorem kind_at {index : Nat} {kind : Kind} (hkind : ctx.kinds[index]? = some kind) :
    ctx'.kinds[index]? = some kind := by
  obtain ⟨added, hadded⟩ := h.kinds
  rw [← Array.getElem?_toList] at hkind ⊢
  rw [← hadded, List.getElem?_append_left (List.getElem?_eq_some_iff.1 hkind).1, hkind]

theorem nodeId (expect : Expect) (target : UInt64) :
    Extends (ctx.nodeId expect target) (ctx'.nodeId expect target) := by
  refine AgreesUnless.extends_of_ok fun id hid => ?_
  unfold LinkContext.nodeId at hid ⊢
  cases hkind : ctx.kinds[target.toNat]? with
  | none =>
    rw [hkind] at hid
    cases hid
  | some kind =>
    rw [hkind] at hid
    rw [h.kind_at hkind]
    exact hid

theorem scopeId (target : UInt64) : Extends (ctx.scopeId target) (ctx'.scopeId target) := by
  unfold LinkContext.scopeId
  split_ifs with hlt hlt'
  · exact .refl _
  · exact absurd (Nat.lt_of_lt_of_le hlt h.scopes) hlt'
  all_goals exact .inl ⟨_, trivial, rfl⟩

theorem ofJson (type : FieldType) (json : Json) :
    Extends (ctx.ofJson type json) (ctx'.ofJson type json) := by
  have hreference (expect : Expect) (json : Json) :
      Extends (ctx.reference expect json) (ctx'.reference expect json) :=
    (AgreesUnless.refl _).bind fun target _ => h.nodeId expect target
  cases type with
  | ref role expect =>
    rw [ofJson_ref, ofJson_ref, ← bind_pure_comp, ← bind_pure_comp]
    exact (hreference expect json).bind fun _ _ => .refl _
  | refs role expect =>
    cases json with
    | arr items =>
      rw [ofJson_refs, ofJson_refs]
      exact .mapM (List.forall₂_same.2 fun item _ => hreference expect item)
    | _ => exact .refl _
  | scope =>
    have hscope : Extends (LinkContext.count json >>= ctx.scopeId)
        (LinkContext.count json >>= ctx'.scopeId) :=
      (AgreesUnless.refl _).bind fun target _ => h.scopeId target
    rw [ofJson_scope, ofJson_scope, ← bind_pure_comp, ← bind_pure_comp]
    exact hscope.bind fun _ _ => .refl _
  | flag | text => cases json <;> exact .refl _
  | _ => exact .refl _

theorem field (kind : Kind) (index : Nat) (body : Json.Object) (field : Field) :
    Extends (ctx.field kind index body field) (ctx'.field kind index body field) := by
  cases hfound : body.lookup field.key with
  | none =>
    rw [field_of_lookup_none hfound, field_of_lookup_none hfound, h.strict]
    exact .refl _
  | some json =>
    by_cases hjson : json = .null
    · subst hjson
      rw [field_of_lookup_null hfound, field_of_lookup_null hfound]
      exact .refl _
    · rw [field_of_lookup_some hfound hjson, field_of_lookup_some hfound hjson]
      exact (h.ofJson field.type json).extends_mapError _

theorem node (kind : Kind) (index : Nat) (raw : RawNode) :
    Extends (ctx.node kind index raw) (ctx'.node kind index raw) :=
  (AgreesUnless.readM fun field _ => h.field kind index raw.body field).bind fun _ _ => .refl _

theorem scope (index : Nat) (raw : RawScope) :
    Extends (ctx.scope index raw) (ctx'.scope index raw) := by
  have hscope (key : String) (target : UInt64) :=
    (h.scopeId target).extends_mapError (Flaw.at ⟨.scope, key, index⟩)
  have hnode (key : String) (expect : Expect) (target : UInt64) :=
    (h.nodeId expect target).extends_mapError (Flaw.at ⟨.scope, key, index⟩)
  unfold LinkContext.scope
  refine (AgreesUnless.optionMapM (hscope "prev") raw.prev).bind fun _ _ => ?_
  refine (AgreesUnless.optionMapM (hscope "next") raw.next).bind fun _ _ => ?_
  refine (AgreesUnless.optionMapM (hscope "branch") raw.branch).bind fun _ _ => ?_
  refine (AgreesUnless.mapM (List.forall₂_same.2 fun target _ =>
    hnode "ident" (.kind .ident) target)).bind fun _ _ => ?_
  exact (AgreesUnless.optionMapM (hnode "owner" .node) raw.owner).bind fun _ _ => .refl _

theorem not_fieldFault (hctx : ctx.Addressable) (hctx' : ctx'.Addressable) {read : FieldRead}
    (hread : ∀ error, ¬ ctx.FieldFault read error) (error : LinkError) :
    ¬ ctx'.FieldFault read error := by
  have hbefore : FailsAt (ctx.field read.kind read.index read.body read.field) ctx.FieldFault
      [read] := field_failsAt hctx read.body read.field
  have hafter : FailsAt (ctx'.field read.kind read.index read.body read.field) ctx'.FieldFault
      [read] := field_failsAt hctx' read.body read.field
  obtain ⟨value, hvalue⟩ := hbefore.exists_ok_iff.2 (List.forall_mem_singleton.2 hread)
  have hvalue' := (h.field read.kind read.index read.body read.field).eq_ok hvalue
  exact hafter.exists_ok_iff.1 ⟨value, hvalue'⟩ read List.mem_cons_self error

theorem not_linkFault {index : Nat} {raw : RawScope}
    (hlinks : ∀ link ∈ raw.links index, ∀ error, ¬ ctx.LinkFault link error) :
    ∀ link ∈ raw.links index, ∀ error, ¬ ctx'.LinkFault link error := by
  obtain ⟨scope, hscope⟩ := (scope_failsAt index raw).exists_ok_iff.2 hlinks
  have hscope' := (h.scope index raw).eq_ok hscope
  exact (scope_failsAt index raw).exists_ok_iff.1 ⟨scope, hscope'⟩

theorem nodes_prefix {raws added : List RawNode} {nodes nodes' : List Node}
    (hnodes : ctx.nodes raws = .ok nodes) (hnodes' : ctx'.nodes (raws ++ added) = .ok nodes') :
    nodes <+: nodes' := by
  refine List.prefix_iff_getElem?.2 fun index hlt => ?_
  have hnode : nodes[index]? = some nodes[index] := List.getElem?_eq_getElem hlt
  rw [getElem?_of_nodes_eq_ok hnodes] at hnode
  obtain ⟨kind, hkind, hnode⟩ := Option.bind_eq_some_iff.1 hnode
  obtain ⟨raw, hraw, hnode⟩ := Option.bind_eq_some_iff.1 hnode
  have hraw' : (raws ++ added)[index]? = some raw := by
    rw [List.getElem?_append_left (List.getElem?_eq_some_iff.1 hraw).1, hraw]
  rw [getElem?_of_nodes_eq_ok hnodes', h.kind_at hkind, Option.bind_some, hraw', Option.bind_some]
  exact (h.node kind index raw).extends_toOption hnode

theorem scopes_prefix {raws added : List RawScope} {scopes scopes' : List Scope}
    (hscopes : ctx.scopes raws = .ok scopes)
    (hscopes' : ctx'.scopes (raws ++ added) = .ok scopes') : scopes <+: scopes' := by
  refine List.prefix_iff_getElem?.2 fun index hlt => ?_
  have hscope : scopes[index]? = some scopes[index] := List.getElem?_eq_getElem hlt
  rw [getElem?_of_scopes_eq_ok hscopes] at hscope
  obtain ⟨raw, hraw, hscope⟩ := Option.bind_eq_some_iff.1 hscope
  have hraw' : (raws ++ added)[index]? = some raw := by
    rw [List.getElem?_append_left (List.getElem?_eq_some_iff.1 hraw).1, hraw]
  rw [getElem?_of_scopes_eq_ok hscopes', hraw', Option.bind_some]
  exact (h.scope index raw).extends_toOption hscope

end Grows

end LinkContext

namespace RawGraph

def append (raw : RawGraph) (nodes : List RawNode) (scopes : List RawScope) : RawGraph :=
  ⟨raw.nodes ++ nodes, raw.scopes ++ scopes⟩

variable {raw : RawGraph} {nodes : List RawNode} {scopes : List RawScope} {strict : Bool}
  {kinds kinds' : List Kind} {error : LinkError}

theorem Addressable.of_append (h : (raw.append nodes scopes).Addressable) : raw.Addressable := by
  refine ⟨?_, ?_⟩
  · refine Nat.le_trans ?_ h.nodes
    exact (List.prefix_append raw.nodes nodes).length_le
  · refine Nat.le_trans ?_ h.scopes
    exact (List.prefix_append raw.scopes scopes).length_le

theorem Tagged.prefix_of_append (h : raw.Tagged kinds)
    (h' : (raw.append nodes scopes).Tagged kinds') : kinds <+: kinds' := by
  have htake : raw.Tagged (kinds'.take raw.nodes.length) := by
    have hsplit := List.forall₂_take_append kinds' raw.nodes nodes h'.flip
    exact hsplit.flip
  rw [h.unique htake]
  exact List.take_prefix _ _

theorem grows_append (h : raw.Tagged kinds) (h' : (raw.append nodes scopes).Tagged kinds') :
    (raw.context strict kinds).Grows ((raw.append nodes scopes).context strict kinds') := by
  refine ⟨h.prefix_of_append h', ?_, rfl⟩
  exact (List.prefix_append raw.scopes scopes).length_le

theorem node_of_append {index : Nat} {node : RawNode} (hlt : index < raw.nodes.length)
    (hnode : (raw.append nodes scopes).nodes[index]? = some node) :
    raw.nodes[index]? = some node := by
  rwa [append, List.getElem?_append_left hlt] at hnode

theorem mem_scopeLinks {link : ScopeLink} (h : link ∈ raw.scopeLinks) :
    ∃ scope, raw.scopes[link.index]? = some scope ∧ link ∈ scope.links link.index := by
  obtain ⟨⟨scope, index⟩, hscope, hlink⟩ := List.mem_flatMap.1 h
  have hindex : link.index = index := RawScope.index_of_mem_links hlink
  subst hindex
  exact ⟨scope, List.mem_zipIdx_iff_getElem?.1 hscope, hlink⟩

section faults
variable (htags : raw.Tagged kinds) (htags' : (raw.append nodes scopes).Tagged kinds')

include htags in
theorem length_le_of_tagFault {item : RawNode × Nat}
    (hitem : item ∈ (raw.append nodes scopes).nodes.zipIdx) (hfault : TagFault item error) :
    raw.nodes.length ≤ item.2 := by
  by_contra hlt
  have hlt : item.2 < raw.nodes.length := Nat.lt_of_not_le hlt
  have hnode := node_of_append hlt (List.mem_zipIdx_iff_getElem?.1 hitem)
  have hkind : kinds[item.2]? = some _ := List.getElem?_eq_getElem (htags.length_eq ▸ hlt)
  cases hfault with
  | unknown hunknown => exact hunknown _ (htags.kind_at hnode hkind)

include htags htags'

theorem length_le_of_fieldFault (hraw : (raw.append nodes scopes).Addressable)
    (hfields : raw.FieldsRead strict kinds) {read : FieldRead}
    (hread : read ∈ ((raw.append nodes scopes).context strict kinds').fieldReads
      (raw.append nodes scopes).nodes)
    (hfault : ((raw.append nodes scopes).context strict kinds').FieldFault read error) :
    raw.nodes.length ≤ read.index := by
  by_contra hlt
  have hlt : read.index < raw.nodes.length := Nat.lt_of_not_le hlt
  have hgrows : (raw.context strict kinds).Grows ((raw.append nodes scopes).context strict kinds') :=
    grows_append htags htags'
  obtain ⟨node, hkind', hnode', hbody, hfield⟩ := LinkContext.mem_fieldReads.1 hread
  have hnode := node_of_append hlt hnode'
  have hkind : (raw.context strict kinds).kinds[read.index]? = some read.kind := by
    have hsize : read.index < (raw.context strict kinds).kinds.size := by
      rwa [context, List.size_toArray, ← htags.length_eq]
    have hsome := Array.getElem?_eq_getElem hsize
    exact hsome.trans ((hgrows.kind_at hsome).symm.trans hkind')
  have hmem := LinkContext.mem_fieldReads.2 ⟨node, hkind, hnode, hbody, hfield⟩
  exact hgrows.not_fieldFault (htags.addressable hraw.of_append) (htags'.addressable hraw)
    (hfields read hmem) error hfault

theorem length_le_of_linkFault (hlinks : raw.LinksLead strict kinds) {link : ScopeLink}
    (hlink : link ∈ (raw.append nodes scopes).scopeLinks)
    (hfault : ((raw.append nodes scopes).context strict kinds').LinkFault link error) :
    raw.scopes.length ≤ link.index := by
  by_contra hlt
  have hlt : link.index < raw.scopes.length := Nat.lt_of_not_le hlt
  obtain ⟨scope, hscope', hmem⟩ := mem_scopeLinks hlink
  have hscope : raw.scopes[link.index]? = some scope := by
    rwa [append, List.getElem?_append_left hlt] at hscope'
  have hall : ∀ other ∈ scope.links link.index, ∀ error,
      ¬ (raw.context strict kinds).LinkFault other error := fun other hother =>
    hlinks other (List.mem_flatMap.2
      ⟨(scope, link.index), List.mem_zipIdx_iff_getElem?.2 hscope, hother⟩)
  exact (grows_append htags htags').not_linkFault hall link hmem error hfault

end faults

theorem link_append_agrees (hraw : raw.Addressable) {graph graph' : Graph}
    (h : raw.link strict = .ok graph) (h' : (raw.append nodes scopes).link strict = .ok graph') :
    graph'.nodes.toList.take raw.nodes.length = graph.nodes.toList ∧
      graph'.scopes.toList.take raw.scopes.length = graph.scopes.toList := by
  obtain ⟨kinds, linked, linkedScopes, hparts, rfl, -⟩ := exists_parts_of_link_eq_ok h
  obtain ⟨kinds', linked', linkedScopes', hparts', rfl, -⟩ := exists_parts_of_link_eq_ok h'
  have hgrows : (raw.context strict kinds).Grows ((raw.append nodes scopes).context strict kinds') :=
    grows_append hparts.tagged hparts'.tagged
  have hnodes := hgrows.nodes_prefix hparts.nodes_eq hparts'.nodes_eq
  have hscopes := hgrows.scopes_prefix hparts.scopes_eq hparts'.scopes_eq
  rw [(hparts.nodesFrom hraw).1.length_eq, (hparts.scopesFrom hraw).length_eq]
  exact ⟨(List.prefix_iff_eq_take.1 hnodes).symm, (List.prefix_iff_eq_take.1 hscopes).symm⟩

theorem link_append_fault (hraw : (raw.append nodes scopes).Addressable) {graph : Graph}
    (h : raw.link strict = .ok graph) (h' : (raw.append nodes scopes).link strict = .error error) :
    (∃ index, raw.nodes.length ≤ index ∧ error.AtNode index) ∨
      ∃ index, raw.scopes.length ≤ index ∧ error.AtScope index := by
  obtain ⟨kinds, htags, hfields, hlinks, hroot⟩ :=
    (exists_link_eq_ok_iff hraw.of_append).1 ⟨graph, h⟩
  cases fault_of_link_eq_error hraw h' with
  | noNodes hnil =>
    rw [Tagged, (List.append_eq_nil_iff.1 hnil).1, List.forall₂_nil_left_iff] at htags
    rw [htags] at hroot
    cases hroot
  | tag hfirst =>
    obtain ⟨item, hitem, hfault⟩ := hfirst.exists_mem
    refine .inl ⟨item.2, length_le_of_tagFault htags hitem hfault, .inl ?_⟩
    cases hfault
    exact ⟨_, rfl⟩
  | field htags' hfirst =>
    obtain ⟨read, hread, hfault⟩ := hfirst.exists_mem
    have hindex := length_le_of_fieldFault htags htags' hraw hfields hread hfault
    exact .inl ⟨read.index, hindex, .inr ⟨read.kind, read.field.key, hfault.site?_eq⟩⟩
  | scope _ htags' _ hfirst =>
    obtain ⟨link, hlink, hfault⟩ := hfirst.exists_mem
    refine .inr ⟨link.index, length_le_of_linkFault htags htags' hlinks hlink hfault, ?_⟩
    exact hfault.atScope
  | root htags' _ _ hroot' =>
    -- The first node is still the first.
    obtain ⟨added, rfl⟩ := htags.prefix_of_append htags'
    apply absurd _ hroot'
    rw [List.head?_append, hroot, Option.some_or]

/-- If lists can be linked, then whatever is added to their ends leaves the graph as it is, up to
what is added; and if they cannot be linked any more, then one of the nodes or scopes that were
added is wrong. -/
theorem link_append {raw : RawGraph} {nodes : List RawNode} {scopes : List RawScope} {strict : Bool}
    {graph : Graph} (hraw : (raw.append nodes scopes).Addressable) (h : raw.link strict = .ok graph) :
    (∀ graph', (raw.append nodes scopes).link strict = .ok graph' →
      graph'.nodes.toList.take raw.nodes.length = graph.nodes.toList ∧
        graph'.scopes.toList.take raw.scopes.length = graph.scopes.toList) ∧
      ∀ error, (raw.append nodes scopes).link strict = .error error →
        error ≠ .missingRoot ∧
          ((∃ index, raw.nodes.length ≤ index ∧ error.AtNode index) ∨
            ∃ index, raw.scopes.length ≤ index ∧ error.AtScope index) := by
  refine ⟨fun graph' => link_append_agrees hraw.of_append h, fun error h' => ?_⟩
  have hfault := link_append_fault hraw h h'
  refine ⟨?_, hfault⟩
  rintro rfl
  rcases hfault with ⟨_, -, ⟨_, herror⟩ | ⟨_, _, hsite⟩⟩ | ⟨_, -, _, hsite⟩
  · cases herror
  · cases hsite
  · cases hsite

def rooted : RawGraph where
  nodes := [
    ⟨"program", {}, [("elements", .arr [.nat 1]), ("global_scope", .nat 0)]⟩,
    ⟨"ident", {}, [("base", .nat 0), ("ident", .str "x")]⟩]
  scopes := [{ idents := [1], owner := some 0 }]

def declaring (ident : UInt64) : RawGraph :=
  rooted.append [⟨"ident", {}, [("base", .nat 1), ("scope", .nat 1)]⟩]
    [{ prev := some 0, idents := [ident] }]

theorem link_append_rooted : ∃ graph, rooted.link false = .ok graph ∧
    (∃ graph', (declaring 2).link false = .ok graph' ∧ graph'.nodes.size = 3 ∧
      graph'.nodes.toList.take 2 = graph.nodes.toList) ∧
    ∃ error, (declaring 3).link false = .error error ∧
      ((∃ index, 2 ≤ index ∧ error.AtNode index) ∨ ∃ index, 1 ≤ index ∧ error.AtScope index) := by
  obtain ⟨graph, h⟩ : ∃ graph, rooted.link false = .ok graph := ⟨_, rfl⟩
  refine ⟨graph, h, ?_, ?_⟩
  · obtain ⟨graph', h', hsize⟩ : ∃ graph', (declaring 2).link false = .ok graph' ∧
        graph'.nodes.size = 3 := ⟨_, rfl, rfl⟩
    have hraw : (declaring 2).Addressable := ⟨by decide, by decide⟩
    exact ⟨graph', h', hsize, ((link_append hraw h).1 graph' h').1⟩
  · obtain ⟨error, h'⟩ : ∃ error, (declaring 3).link false = .error error := ⟨_, rfl⟩
    have hraw : (declaring 3).Addressable := ⟨by decide, by decide⟩
    exact ⟨error, h', ((link_append hraw h).2 error h').2⟩

end RawGraph

end FormatGraph
