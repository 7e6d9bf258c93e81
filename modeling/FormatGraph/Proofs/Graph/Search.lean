import FormatGraph.Graph.Search
import FormatGraph.Proofs.Graph.Walk

/-! Searches. A search whose steps always have an answer has one too. It goes no deeper than there
are nodes, because it enters each of them once, and it finds exactly the nodes that its roots lead
to. A node stands after those it leads to, except where they lead back to it. -/

namespace FormatGraph

open Relation

namespace Search

variable {next : NodeId → Except QueryError (List NodeId)} {P : NodeId → Prop} {size limit : Nat}

def Leads (next : NodeId → Except QueryError (List NodeId)) (id other : NodeId) : Prop :=
  ∃ ids, next id = .ok ids ∧ other ∈ ids

/-- What holds between visits, while the nodes on `path` are entered and not finished. A finished
node stands after the nodes it leads to, unless they lead back to it. -/
structure Trace (next : NodeId → Except QueryError (List NodeId)) (size : Nat) (path : List NodeId)
    (search : Search) : Prop where
  size : search.entered.marks.size = size
  entered : ∀ id, search.entered.contains id = true ↔ id ∈ path ++ search.order.toList
  nodup : (path ++ search.order.toList).Nodup
  before : ∀ id ∈ search.order.toList, ∀ other, Leads next id other →
    other ∈ path ++ search.order.toList ∧
      (ReflTransGen (Leads next) other id ∨ [other, id].Sublist search.order.toList)

/-- What visits of the targets do to a search: it goes on from where it was, and finds the targets
and nodes they lead to. -/
structure Visited (next : NodeId → Except QueryError (List NodeId)) (size : Nat)
    (path targets : List NodeId) (search search' : Search) : Prop where
  trace : Trace next size path search'
  order : search.order.toList <+: search'.order.toList
  entered : ∀ id ∈ targets, id ∈ path ++ search'.order.toList
  found : ∀ id ∈ search'.order.toList,
    id ∈ search.order.toList ∨ ∃ target ∈ targets, ReflTransGen (Leads next) target id

variable {path targets : List NodeId} {search search' search'' : Search} {id : NodeId}

theorem trace_empty (next : NodeId → Except QueryError (List NodeId)) (size : Nat) :
    Trace next size [] { entered := .empty size } where
  size := by simp [NodeSet.empty]
  entered id := by simp [NodeSet.contains_empty]
  nodup := List.nodup_nil
  before := nofun

theorem Trace.enter (h : Trace next size path search) (hid : id.index < size)
    (hfresh : ¬ search.entered.contains id = true) :
    Trace next size (id :: path) { search with entered := search.entered.insert id } where
  size := by simpa [NodeSet.insert] using h.size
  entered other := by
    rw [NodeSet.contains_insert_iff (h.size ▸ hid), List.cons_append, List.mem_cons]
    exact or_congr_right (h.entered other)
  nodup := List.nodup_cons.2 ⟨fun hmem => hfresh ((h.entered id).2 hmem), h.nodup⟩
  before other hother target hleads :=
    (h.before other hother target hleads).imp_left (List.mem_cons_of_mem id)

theorem Trace.finish (h : Trace next size (id :: path) search)
    (hleads : ∀ other, Leads next id other →
      other ∈ id :: path ∧ ReflTransGen (Leads next) other id ∨ other ∈ search.order.toList) :
    Trace next size path { search with order := search.order.push id } := by
  have hperm : (path ++ (search.order.push id).toList).Perm (id :: path ++ search.order.toList) := by
    rw [Array.toList_push, ← List.append_assoc]
    exact List.perm_append_singleton id _
  refine ⟨h.size, fun other => ?_, hperm.nodup_iff.2 h.nodup, fun other hother target htarget => ?_⟩
  · rw [hperm.mem_iff]
    exact h.entered other
  rw [hperm.mem_iff]
  rw [Array.toList_push, List.mem_append, List.mem_singleton] at hother
  rcases hother with hother | rfl
  · refine (h.before other hother target htarget).imp_right (.imp_right fun hsublist => ?_)
    rw [Array.toList_push]
    exact hsublist.trans (List.sublist_append_left _ _)
  · rcases hleads target htarget with ⟨hmem, hback⟩ | hmem
    · exact ⟨List.mem_append_left _ hmem, .inl hback⟩
    · refine ⟨List.mem_append_right _ hmem, .inr ?_⟩
      rw [Array.toList_push]
      exact (List.singleton_sublist.2 hmem).append (List.Sublist.refl [other])

namespace Visited

theorem nil (h : Trace next size path search) : Visited next size path [] search search :=
  ⟨h, List.prefix_refl _, nofun, fun _ hid => .inl hid⟩

theorem append {targets' : List NodeId} (h : Visited next size path targets search search')
    (h' : Visited next size path targets' search' search'') :
    Visited next size path (targets ++ targets') search search'' where
  trace := h'.trace
  order := h.order.trans h'.order
  entered id hid := by
    rcases List.mem_append.1 hid with hid | hid
    · have hmem := h.entered id hid
      rw [List.mem_append] at hmem ⊢
      exact hmem.imp_right fun hmem => h'.order.subset hmem
    · exact h'.entered id hid
  found id hid := by
    rcases h'.found id hid with hid | ⟨target, htarget, hreaches⟩
    · refine (h.found id hid).imp_right ?_
      rintro ⟨target, htarget, hreaches⟩
      exact ⟨target, List.mem_append_left _ htarget, hreaches⟩
    · exact .inr ⟨target, List.mem_append_right _ htarget, hreaches⟩

theorem finish {marked : NodeSet} (hnext : next id = .ok targets)
    (hpath : ∀ node ∈ path, ReflTransGen (Leads next) node id)
    (h : Visited next size (id :: path) targets { search with entered := marked } search') :
    Visited next size path [id] search { search' with order := search'.order.push id } where
  trace := by
    refine h.trace.finish fun other hleads => ?_
    obtain ⟨ids, hids, hother⟩ := hleads
    cases hnext.symm.trans hids
    have hentered := h.entered other hother
    rw [List.cons_append, List.mem_cons, List.mem_append] at hentered
    rcases hentered with rfl | hentered | hentered
    · exact .inl ⟨List.mem_cons_self, .refl⟩
    · exact .inl ⟨List.mem_cons_of_mem _ hentered, hpath other hentered⟩
    · exact .inr hentered
  order := by
    rw [Array.toList_push]
    exact h.order.trans (List.prefix_append _ _)
  entered other hother := by
    rw [List.mem_singleton] at hother
    simp [hother]
  found other hother := by
    rw [Array.toList_push, List.mem_append, List.mem_singleton] at hother
    rcases hother with hother | rfl
    · refine (h.found other hother).imp_right ?_
      rintro ⟨target, htarget, hreaches⟩
      exact ⟨id, List.mem_singleton_self id, .head ⟨targets, hnext, htarget⟩ hreaches⟩
    · exact .inr ⟨other, List.mem_singleton_self other, .refl⟩

end Visited

theorem foldlM_visit_returns {depth : Nat}
    (h : ∀ id ∈ targets, ∀ search, Trace next size path search →
      Returns (visit next depth search id) (Visited next size path [id] search))
    (hsearch : Trace next size path search) :
    Returns (targets.foldlM (visit next depth) search) (Visited next size path targets search) := by
  induction targets generalizing search with
  | nil => exact .pure (.nil hsearch)
  | cons id targets ih =>
    rw [List.foldlM_cons]
    refine (h id List.mem_cons_self search hsearch).bind fun mid hmid => ?_
    have hrest := ih (fun id hid => h id (List.mem_cons_of_mem _ hid)) hmid.trace
    exact hrest.mono fun _ hlast => hmid.append hlast

/-- The nodes that the roots lead to, each of them once. A node stands after the nodes it leads to,
unless they lead back to it. -/
structure Finds (next : NodeId → Except QueryError (List NodeId)) (roots ids : List NodeId) :
    Prop where
  nodup : ids.Nodup
  mem_iff : ∀ id, id ∈ ids ↔ ∃ root ∈ roots, ReflTransGen (Leads next) root id
  before : ∀ id ∈ ids, ∀ other, Leads next id other →
    ReflTransGen (Leads next) other id ∨ [other, id].Sublist ids

theorem Visited.finds {roots : List NodeId}
    (h : Visited next size [] roots { entered := .empty size } search) :
    Finds next roots search.order.toList where
  nodup := h.trace.nodup
  mem_iff id := by
    constructor
    · exact fun hid => (h.found id hid).resolve_left nofun
    · rintro ⟨root, hroot, hreaches⟩
      induction hreaches with
      | refl => exact h.entered root hroot
      | tail _ hleads ih => exact (h.trace.before _ ih _ hleads).1
  before id hid other hleads := (h.trace.before id hid other hleads).2

section bounded
variable (hnext : ∀ id, P id → Returns (next id) fun ids => ∀ id ∈ ids, P id)
  (hwithin : ∀ id, P id → id.index < size)
  (hlimit : ∀ ids : List NodeId, ids.Nodup → (∀ id ∈ ids, P id) → ids.length ≤ limit)
include hnext

theorem Finds.forall_mem {roots ids : List NodeId} (h : Finds next roots ids)
    (hroots : ∀ id ∈ roots, P id) : ∀ id ∈ ids, P id := by
  intro id hid
  obtain ⟨root, hroot, hreaches⟩ := (h.mem_iff id).1 hid
  clear hid
  induction hreaches with
  | refl => exact hroots root hroot
  | tail _ hleads ih =>
    obtain ⟨nexts, hnexts, hmem⟩ := hleads
    obtain ⟨nexts', hnexts', hP⟩ := hnext _ ih
    cases hnexts.symm.trans hnexts'
    exact hP _ hmem

include hwithin hlimit

theorem visit_returns {depth : Nat} (hpath : ∀ id ∈ path, P id)
    (hdepth : limit < depth + path.length) (hsearch : Trace next size path search) (hid : P id)
    (hreaches : ∀ node ∈ path, ReflTransGen (Leads next) node id) :
    Returns (visit next depth search id) (Visited next size path [id] search) := by
  induction depth generalizing path search id with
  | zero =>
    -- The nodes that are being visited would be more than there are.
    have hlength := hlimit path hsearch.nodup.of_append_left hpath
    omega
  | succ depth ih =>
    unfold visit
    by_cases hentered : search.entered.contains id = true
    · rw [if_pos hentered]
      refine .pure ⟨hsearch, List.prefix_refl _, ?_, fun _ hid => .inl hid⟩
      exact List.forall_mem_singleton.2 ((hsearch.entered id).1 hentered)
    · rw [if_neg hentered]
      have hdepth' : limit < depth + (id :: path).length := by
        rw [List.length_cons]
        omega
      obtain ⟨ids, hids, hP⟩ := hnext id hid
      refine Returns.bind (P := fun r => r = ids) ⟨ids, hids, rfl⟩ fun r hr => ?_
      rw [hr]
      have hpath' : ∀ node ∈ id :: path, P node := List.forall_mem_cons.2 ⟨hid, hpath⟩
      have hreaches' (other : NodeId) (hother : other ∈ ids) :
          ∀ node ∈ id :: path, ReflTransGen (Leads next) node other := by
        have hleads : Leads next id other := ⟨ids, hids, hother⟩
        refine List.forall_mem_cons.2 ⟨.single hleads, fun node hnode => ?_⟩
        exact (hreaches node hnode).tail hleads
      have hvisits := foldlM_visit_returns
        (fun other hother search hsearch =>
          ih hpath' hdepth' hsearch (hP other hother) (hreaches' other hother))
        (hsearch.enter (hwithin id hid) hentered)
      exact hvisits.bind fun _ hvisited => .pure (hvisited.finish hids hreaches)

theorem foldlM_roots_returns {roots : List NodeId} (hroots : ∀ id ∈ roots, P id) {depth : Nat}
    (hdepth : limit < depth) (hsearch : Trace next size [] search) :
    Returns (roots.foldlM (visit next depth) search) (Visited next size [] roots search) := by
  refine foldlM_visit_returns (fun id hid search hsearch => ?_) hsearch
  exact visit_returns hnext hwithin hlimit nofun hdepth hsearch (hroots id hid) nofun

theorem run_returns {roots : List NodeId} (hroots : ∀ id ∈ roots, P id) {depth : Nat}
    (hdepth : limit < depth) : Returns (run size depth next roots) (Finds next roots) := by
  have hvisits := foldlM_roots_returns hnext hwithin hlimit hroots hdepth (trace_empty next size)
  exact hvisits.bind fun _ hvisited => .pure hvisited.finds

theorem run_append_returns {early late : List NodeId} (hroots : ∀ id ∈ early ++ late, P id)
    {depth : Nat} (hdepth : limit < depth) :
    Returns (run size depth next (early ++ late)) fun ids =>
      ∃ found, Finds next early found ∧ found <+: ids := by
  obtain ⟨hearly, hlate⟩ := List.forall_mem_append.1 hroots
  have hfirst := foldlM_roots_returns hnext hwithin hlimit hearly hdepth (trace_empty next size)
  have hvisits : Returns ((early ++ late).foldlM (visit next depth) { entered := .empty size })
      fun search => ∃ found, Finds next early found ∧ found <+: search.order.toList := by
    rw [List.foldlM_append]
    refine hfirst.bind fun mid hmid => ?_
    have hrest := foldlM_roots_returns hnext hwithin hlimit hlate hdepth hmid.trace
    exact hrest.mono fun last hlast => ⟨mid.order.toList, hmid.finds, hlast.order⟩
  exact hvisits.bind fun _ hfound => .pure hfound

end bounded

theorem visit_agrees {depth depth' : Nat} (h : depth ≤ depth') (search : Search) (id : NodeId) :
    AgreesUnless (· = .tooDeep) (visit next depth search id) (visit next depth' search id) := by
  induction depth generalizing depth' search id with
  | zero => exact .inl ⟨_, rfl, rfl⟩
  | succ depth ih =>
    obtain ⟨depth', rfl⟩ : ∃ n, depth' = n + 1 := ⟨depth' - 1, by omega⟩
    unfold visit
    by_cases hentered : search.entered.contains id = true
    · rw [if_pos hentered, if_pos hentered]
      exact .refl _
    · rw [if_neg hentered, if_neg hentered]
      refine (AgreesUnless.refl (next id)).bind fun ids _ => ?_
      refine (AgreesUnless.foldlM (fun search id _ => ?_) _).bind fun _ _ => .refl _
      exact ih (Nat.le_of_succ_le_succ h) search id

theorem run_agrees {depth depth' : Nat} (h : depth ≤ depth') (roots : List NodeId) :
    AgreesUnless (· = .tooDeep) (run size depth next roots) (run size depth' next roots) :=
  (AgreesUnless.foldlM (fun search id _ => visit_agrees h search id) _).bind fun _ _ => .refl _

end Search

namespace Graph

variable {graph : Graph}

theorem kindOf_returns {id : NodeId} (h : graph.HasNode id) :
    Returns (graph.kindOf id) fun _ => True :=
  (node_returns h).bind fun _ _ => .pure trivial

theorem hasNode_of_ofKind? {kind : Kind} {id : NodeId} (h : (graph.ofKind? kind id).isSome) :
    graph.HasNode id := by
  obtain ⟨node, hnode⟩ := Option.isSome_iff_exists.1 h
  exact hasNode_of_node? (Option.filter_eq_some_iff.1 hnode).1

section reachable
variable (hclosed : graph.Closed)
include hclosed

theorem hasNode_of_mem_children {id : NodeId} (hid : graph.HasNode id) :
    Returns (graph.children id) fun ids => ∀ child ∈ ids, graph.HasNode child :=
  (children_returns hid).mono fun _ hids child hchild =>
    hclosed.hasNode_of_child ((hids child).1 hchild)

theorem reachable_finds {depth : Nat} (hdepth : graph.nodes.size < depth) :
    Returns (Search.run graph.nodes.size depth graph.children [root])
      (Search.Finds graph.children [root]) := by
  have hroot : ∀ id ∈ [root], graph.HasNode id := List.forall_mem_singleton.2 (hasNode_root hclosed)
  exact Search.run_returns (fun _ => hasNode_of_mem_children hclosed) (fun _ hid => hid)
    (fun _ => Handle.length_le) hroot hdepth

theorem hasNode_of_finds {ids : List NodeId} (h : Search.Finds graph.children [root] ids) :
    ∀ id ∈ ids, graph.HasNode id :=
  h.forall_mem (fun _ => hasNode_of_mem_children hclosed)
    (List.forall_mem_singleton.2 (hasNode_root hclosed))

end reachable

end Graph

end FormatGraph
