import FormatGraph.Graph.Base
import FormatGraph.Graph.Member
import FormatGraph.Graph.ScopeChain
import FormatGraph.Proofs.Graph.Search
import Mathlib.Data.List.Chain

/-! Links that are followed one after another: from scope to scope, and from an identifier to the one
that defines it. What was seen is remembered, so the steps come to an end, and they stay within a
graph whose links do. -/

namespace FormatGraph.Graph

variable {graph : Graph}

section scopes
variable {id : ScopeId} {scope : Scope}

theorem scope_returns (h : graph.HasScope id) : Returns (graph.scope id) (· ∈ graph.scopes) := by
  have hscope : graph.scope? id = some graph.scopes[id.index] := Array.getElem?_eq_getElem h
  rw [Graph.scope, hscope]
  exact .pure (Array.getElem_mem h)

theorem Closed.scopeLinks (hclosed : graph.Closed) (hscope : scope ∈ graph.scopes) :
    (∀ id ∈ scope.prev, graph.HasScope id) ∧ (∀ id ∈ scope.branch, graph.HasScope id) ∧
      ∀ id ∈ scope.idents, graph.HasNode id := by
  have hlinks := hclosed.links scope hscope
  simp only [Draft.linksOf, List.forall_mem_append, List.forall_mem_map] at hlinks
  obtain ⟨⟨⟨⟨hprev, -⟩, hbranch⟩, hidents⟩, -⟩ := hlinks
  exact ⟨fun id hid => hprev id (Option.mem_toList.2 hid),
    fun id hid => hbranch id (Option.mem_toList.2 hid), hidents⟩

theorem chainFrom_returns {next : Scope → Option ScopeId}
    (hnext : ∀ scope ∈ graph.scopes, ∀ id ∈ next scope, graph.HasScope id) {depth : Nat}
    {seen : List ScopeId} (hnodup : (id :: seen).Nodup) (hseen : ∀ s ∈ id :: seen, graph.HasScope s)
    (hdepth : graph.scopes.size ≤ depth + seen.length) :
    Returns (graph.chainFrom next depth seen id) fun ids => ∀ s ∈ ids, graph.HasScope s := by
  have hid := hseen id List.mem_cons_self
  induction depth generalizing id seen with
  | zero =>
    -- What was seen would be more scopes than there are.
    have hlength := Handle.length_le hnodup hseen
    rw [List.length_cons] at hlength
    omega
  | succ depth ih =>
    unfold chainFrom
    refine (scope_returns hid).bind fun scope hscope => ?_
    cases hfollowing : next scope with
    | none => exact .pure (List.forall_mem_singleton.2 hid)
    | some following =>
      dsimp only
      split_ifs with hagain
      · exact .pure (List.forall_mem_singleton.2 hid)
      · have hscopes := List.forall_mem_cons.2 ⟨hnext scope hscope following hfollowing, hseen⟩
        refine (ih (List.nodup_cons.2 ⟨hagain, hnodup⟩) hscopes ?_ (hscopes _ List.mem_cons_self)).bind
          fun ids hids => .pure (List.forall_mem_cons.2 ⟨hid, hids⟩)
        rw [List.length_cons]
        omega

theorem scope?_of_scope_eq_ok (h : graph.scope id = .ok scope) : graph.scope? id = some scope := by
  unfold Graph.scope at h
  split at h
  next found hfound =>
    cases h
    exact hfound
  next => cases h

theorem hasScope_of_scope? (h : graph.scope? id = some scope) : graph.HasScope id :=
  (Array.getElem?_eq_some_iff.1 h).1

def Follows (graph : Graph) (next : Scope → Option ScopeId) (id following : ScopeId) : Prop :=
  ∃ scope, graph.scope? id = some scope ∧ next scope = some following

theorem Follows.unique {next : Scope → Option ScopeId} {following following' : ScopeId}
    (h : graph.Follows next id following) (h' : graph.Follows next id following') :
    following = following' := by
  obtain ⟨scope, hscope, hnext⟩ := h
  obtain ⟨scope', hscope', hnext'⟩ := h'
  obtain rfl : scope = scope' := Option.some.inj (hscope.symm.trans hscope')
  exact Option.some.inj (hnext.symm.trans hnext')

/-- The scopes from `id` on, where those in `seen` are left out. No link leads out of them but to
one that was seen. -/
structure Chained (graph : Graph) (next : Scope → Option ScopeId) (seen : List ScopeId)
    (id : ScopeId) (ids : List ScopeId) : Prop where
  starts : ids.head? = some id
  follows : ids.IsChain (graph.Follows next)
  nodup : ids.Nodup
  fresh : ∀ s ∈ ids, s ∉ seen
  closed : ∀ s ∈ ids, ∀ following, graph.Follows next s following →
    following ∈ ids ∨ following ∈ seen

section chained
variable {next : Scope → Option ScopeId} {seen ids : List ScopeId} {following : ScopeId}

theorem Chained.last (hid : id ∉ seen)
    (hend : ∀ following, graph.Follows next id following → following ∈ id :: seen) :
    graph.Chained next seen id [id] where
  starts := rfl
  follows := List.isChain_singleton id
  nodup := List.nodup_singleton id
  fresh := List.forall_mem_singleton.2 hid
  closed := List.forall_mem_singleton.2 fun following hfollows => by
    rcases List.mem_cons.1 (hend following hfollows) with rfl | hseen
    · exact .inl List.mem_cons_self
    · exact .inr hseen

theorem Chained.cons (h : graph.Chained next (id :: seen) following ids) (hid : id ∉ seen)
    (hfollows : graph.Follows next id following) : graph.Chained next seen id (id :: ids) := by
  have hmem : following ∈ ids := List.mem_of_mem_head? h.starts
  have hfresh : id ∉ ids := fun hmem => h.fresh id hmem List.mem_cons_self
  refine ⟨rfl, ?_, List.nodup_cons.2 ⟨hfresh, h.nodup⟩, ?_, ?_⟩
  · refine List.isChain_cons.2 ⟨fun head hhead => ?_, h.follows⟩
    obtain rfl : following = head := Option.some.inj (h.starts.symm.trans hhead)
    exact hfollows
  · refine List.forall_mem_cons.2 ⟨hid, fun s hs hseen => ?_⟩
    exact h.fresh s hs (List.mem_cons_of_mem id hseen)
  · refine List.forall_mem_cons.2 ⟨fun other hother => ?_, fun s hs other hother => ?_⟩
    · rw [hother.unique hfollows]
      exact .inl (List.mem_cons_of_mem id hmem)
    · rcases h.closed s hs other hother with hids | hseen
      · exact .inl (List.mem_cons_of_mem id hids)
      · rcases List.mem_cons.1 hseen with rfl | hseen
        · exact .inl List.mem_cons_self
        · exact .inr hseen

theorem chainFrom_chained {depth : Nat} (h : graph.chainFrom next depth seen id = .ok ids)
    (hid : id ∉ seen) : graph.Chained next seen id ids := by
  induction depth generalizing id seen ids with
  | zero => cases h
  | succ depth ih =>
    unfold chainFrom at h
    obtain ⟨scope, hscope, h⟩ := bind_eq_ok_iff.1 h
    have hscope := scope?_of_scope_eq_ok hscope
    have hnext (other : ScopeId) (hother : graph.Follows next id other) : next scope = some other := by
      obtain ⟨scope', hscope', hother⟩ := hother
      cases hscope.symm.trans hscope'
      exact hother
    cases hfollowing : next scope with
    | none =>
      rw [hfollowing] at h
      cases h
      refine .last hid fun other hother => ?_
      cases hfollowing.symm.trans (hnext other hother)
    | some following =>
      rw [hfollowing] at h
      dsimp only at h
      split_ifs at h with hagain
      · cases h
        refine .last hid fun other hother => ?_
        obtain rfl : following = other :=
          Option.some.inj (hfollowing.symm.trans (hnext other hother))
        exact hagain
      · obtain ⟨rest, hrest, h⟩ := bind_eq_ok_iff.1 h
        cases h
        exact (ih hrest hagain).cons hid ⟨scope, hscope, hfollowing⟩

theorem Chained.mem_of_reaches (h : graph.Chained next [] id ids) {s : ScopeId}
    (hreaches : Relation.ReflTransGen (graph.Follows next) id s) : s ∈ ids := by
  induction hreaches with
  | refl => exact List.mem_of_mem_head? h.starts
  | tail _ hfollows ih => exact (h.closed _ ih _ hfollows).resolve_right List.not_mem_nil

end chained

theorem chain_returns {next : Scope → Option ScopeId}
    (hnext : ∀ scope ∈ graph.scopes, ∀ id ∈ next scope, graph.HasScope id) (h : graph.HasScope id) :
    Returns (graph.chainFrom next (graph.scopes.size + 1) [] id)
      fun ids => ∀ s ∈ ids, graph.HasScope s :=
  chainFrom_returns hnext (List.nodup_singleton id) (List.forall_mem_singleton.2 h) (Nat.le_succ _)

theorem scopeChain_returns (hclosed : graph.Closed) (h : graph.HasScope id) :
    Returns (graph.scopeChain id) fun ids => ∀ s ∈ ids, graph.HasScope s :=
  chain_returns (fun _ hscope => (hclosed.scopeLinks hscope).1) h

theorem branches_returns (hclosed : graph.Closed) (h : graph.HasScope id) :
    Returns (graph.branches id) fun ids => ∀ s ∈ ids, graph.HasScope s :=
  (chain_returns (fun _ hscope => (hclosed.scopeLinks hscope).2.1) h).bind fun _ hids =>
    .pure fun s hs => hids s (List.mem_of_mem_tail hs)

theorem lookupIdent_returns (hclosed : graph.Closed) (h : graph.HasScope id) (name : String) :
    Returns (graph.lookupIdent id name) fun found => ∀ node ∈ found, graph.HasNode node := by
  refine (scopeChain_returns hclosed h).bind fun ids hids => Returns.findSomeM? fun s hs => ?_
  refine (scope_returns (hids s hs)).bind fun scope hscope => .pure fun node hnode => ?_
  have hmem : node ∈ scope.idents := List.mem_reverse.1 (List.mem_of_find?_eq_some hnode)
  exact (hclosed.scopeLinks hscope).2.2 node hmem

end scopes

theorem Linked.hasNode_of_ref? (h : graph.Linked) {node : Node} (hnode : node ∈ graph.nodes)
    {key : String} {id : NodeId} (hid : node.ref? key = some id) : graph.HasNode id := by
  obtain ⟨type, value, hget, hmem⟩ := Node.exists_get?_of_ref? hid
  exact h node hnode key type value hget id hmem

theorem node?_of_ofKind? {kind : Kind} {id : NodeId} {node : Node}
    (h : graph.ofKind? kind id = some node) : graph.node? id = some node ∧ node.kind = kind := by
  obtain ⟨hnode, hkind⟩ := Option.filter_eq_some_iff.1 h
  exact ⟨hnode, of_decide_eq_true hkind⟩

section bases
variable (hlinked : graph.Linked) {id : NodeId}
include hlinked

theorem baseStep_returns :
    Returns (graph.baseStep id) fun step? => ∀ step ∈ step?, graph.HasNode step.1 := by
  unfold baseStep
  split
  · exact .pure nofun
  next base hbase =>
    obtain ⟨ident, hident, href⟩ := Option.bind_eq_some_iff.1 hbase
    have hmem := mem_nodes_of_node? (node?_of_ofKind? hident).1
    have hhas := hlinked.hasNode_of_ref? hmem href
    refine (node_returns hhas).bind fun node hnode => ?_
    split
    · refine .pure fun step hstep => ?_
      cases hstep
      exact hhas
    · refine .pure fun step hstep => ?_
      obtain ⟨next, hnext, rfl⟩ := Option.map_eq_some_iff.1 hstep
      exact hlinked.hasNode_of_ref? (mem_nodes_of_node? hnode) hnext
    · exact .pure nofun

theorem baseFrom_returns {depth : Nat} {seen : List NodeId} {viaMember : Bool}
    (hid : graph.HasNode id) (hnodup : seen.Nodup) (hseen : ∀ node ∈ seen, graph.HasNode node)
    (hdepth : graph.nodes.size < depth + seen.length) :
    Returns (graph.baseFrom depth seen id viaMember) fun r => graph.HasNode r.1 := by
  induction depth generalizing seen id viaMember with
  | zero =>
    -- Only what was seen counts here, because `id` itself may be one that comes again.
    have hlength := Handle.length_le hnodup hseen
    omega
  | succ depth ih =>
    unfold baseFrom
    split_ifs with hagain
    · exact .pure hid
    refine (baseStep_returns hlinked).bind fun step? hstep => ?_
    cases step? with
    | none => exact .pure hid
    | some step =>
      refine ih (hstep step rfl) (List.nodup_cons.2 ⟨hagain, hnodup⟩)
        (List.forall_mem_cons.2 ⟨hid, hseen⟩) ?_
      rw [List.length_cons]
      omega

theorem baseOf_returns (hid : graph.HasNode id) :
    Returns (graph.baseOf id) fun r => graph.HasNode r.1 :=
  baseFrom_returns hlinked hid List.nodup_nil nofun (Nat.lt_succ_of_lt (Nat.lt_succ_self _))

theorem isOnNamedStruct_returns : Returns (graph.isOnNamedStruct id) fun _ => True := by
  unfold isOnNamedStruct
  split
  · exact .pure trivial
  next field hfield =>
    have hmem := mem_nodes_of_node? (node?_of_ofKind? hfield).1
    split
    · exact .pure trivial
    next owner howner =>
      exact (node_returns (hlinked.hasNode_of_ref? hmem howner)).bind fun _ _ => .pure trivial

end bases

end FormatGraph.Graph
