import FormatGraph.Proofs.Graph.Chain
import FormatGraph.Proofs.Graph.Ends

/-! Chains of scopes. The scopes before a scope and those that branch off it are listed by the links
that lead to them, each of them once and none left out. The list ends where there is no link, or
where the link leads to a scope that it has; so it is no longer than there are scopes. -/

namespace FormatGraph.Graph

open Relation

variable {graph : Graph} {next : Scope → Option ScopeId} {id : ScopeId} {ids : List ScopeId}

structure LinkChain (graph : Graph) (next : Scope → Option ScopeId) (id : ScopeId)
    (ids : List ScopeId) : Prop where
  starts : ids.head? = some id
  nodup : ids.Nodup
  follows : ids.IsChain (graph.Follows next)
  mem_iff : ∀ s, s ∈ ids ↔ ReflTransGen (graph.Follows next) id s
  ends : ∀ last ∈ ids.getLast?, ∀ following, graph.Follows next last following → following ∈ ids
  length_le : ids.length ≤ graph.scopes.size

structure LinkTail (graph : Graph) (next : Scope → Option ScopeId) (id : ScopeId)
    (ids : List ScopeId) : Prop where
  starts : ∀ scope, graph.scope? id = some scope → ids.head? = (next scope).filter (· ≠ id)
  nodup : ids.Nodup
  follows : ids.IsChain (graph.Follows next)
  not_mem : id ∉ ids
  mem_iff : ∀ s, s ∈ ids ↔ s ≠ id ∧ TransGen (graph.Follows next) id s

theorem Chained.reaches (h : graph.Chained next [] id ids) {s : ScopeId} (hs : s ∈ ids) :
    ReflTransGen (graph.Follows next) id s := by
  have hhead (hne : ids ≠ []) : ReflTransGen (graph.Follows next) id (ids.head hne) := by
    have hid : ids.head hne = id :=
      Option.some.inj ((List.head?_eq_some_head hne).symm.trans h.starts)
    rw [hid]
  exact List.IsChain.induction _ ids h.follows (fun _ _ hstep hreaches => hreaches.tail hstep) hhead
    s hs

theorem Chained.linkChain (h : graph.Chained next [] id ids) (hids : ∀ s ∈ ids, graph.HasScope s) :
    graph.LinkChain next id ids where
  starts := h.starts
  nodup := h.nodup
  follows := h.follows
  mem_iff s := ⟨h.reaches, h.mem_of_reaches⟩
  ends last hlast following hfollows := by
    have hclosed := h.closed last (List.mem_of_getLast? hlast) following hfollows
    exact hclosed.resolve_right List.not_mem_nil
  length_le := Handle.length_le h.nodup hids

theorem LinkChain.head?_tail (h : graph.LinkChain next id ids) {scope : Scope}
    (hscope : graph.scope? id = some scope) : ids.tail.head? = (next scope).filter (· ≠ id) := by
  obtain ⟨rest, rfl⟩ : ∃ rest, ids = id :: rest := List.head?_eq_some_iff.1 h.starts
  have hfresh : id ∉ rest := (List.nodup_cons.1 h.nodup).1
  cases rest with
  | cons second rest =>
    have hfollows : graph.Follows next id second := (List.isChain_cons_cons.1 h.follows).1
    obtain ⟨scope', hscope', hnext⟩ := hfollows
    cases hscope.symm.trans hscope'
    have hne : second ≠ id := fun heq => hfresh (heq ▸ List.mem_cons_self)
    rw [hnext, Option.filter_some, if_pos (decide_eq_true hne)]
    rfl
  | nil =>
    -- The scope is the only one, so its link leads nowhere else.
    have hback : ∀ following ∈ next scope, following = id := by
      intro following hfollowing
      have hmem := h.ends id rfl following ⟨scope, hscope, hfollowing⟩
      exact List.mem_singleton.1 hmem
    cases hnext : next scope with
    | none => rfl
    | some following =>
      have heq : following = id := hback following hnext
      rw [heq, Option.filter_some, if_neg (by simp)]
      rfl

theorem LinkChain.tail (h : graph.LinkChain next id ids) : graph.LinkTail next id ids.tail := by
  have hstarts (scope : Scope) (hscope : graph.scope? id = some scope) :
      ids.tail.head? = (next scope).filter (· ≠ id) := h.head?_tail hscope
  obtain ⟨rest, rfl⟩ : ∃ rest, ids = id :: rest := List.head?_eq_some_iff.1 h.starts
  obtain ⟨hfresh, hnodup⟩ := List.nodup_cons.1 h.nodup
  refine ⟨hstarts, hnodup, h.follows.tail, hfresh, fun s => ?_⟩
  have hmem : s ∈ id :: rest ↔ s = id ∨ TransGen (graph.Follows next) id s := by
    rw [h.mem_iff, reflTransGen_iff_eq_or_transGen]
  constructor
  · intro hs
    have hne : s ≠ id := fun heq => hfresh (heq ▸ hs)
    exact ⟨hne, (hmem.1 (List.mem_cons_of_mem id hs)).resolve_left hne⟩
  · rintro ⟨hne, hreaches⟩
    exact (List.mem_cons.1 (hmem.2 (.inr hreaches))).resolve_left hne

theorem chainFrom_agrees {depth depth' : Nat} {seen : List ScopeId} (h : depth ≤ depth') :
    AgreesUnless (· = .tooDeep) (graph.chainFrom next depth seen id)
      (graph.chainFrom next depth' seen id) := by
  induction depth generalizing depth' seen id with
  | zero => exact .inl ⟨_, rfl, rfl⟩
  | succ depth ih =>
    obtain ⟨depth', rfl⟩ : ∃ n, depth' = n + 1 := ⟨depth' - 1, by omega⟩
    unfold chainFrom
    refine (AgreesUnless.refl _).bind fun scope _ => ?_
    cases next scope with
    | none => exact .refl _
    | some following =>
      dsimp only
      split_ifs
      · exact .refl _
      · exact (ih (Nat.le_of_succ_le_succ h)).bind fun _ _ => .refl _

def branchesWithin (graph : Graph) (id : ScopeId) (depth : Nat) :
    Except QueryError (List ScopeId) :=
  return (← graph.chainFrom Scope.branch depth [] id).tail

section closed
variable (hnext : ∀ scope ∈ graph.scopes, ∀ id ∈ next scope, graph.HasScope id)
  (hid : graph.HasScope id)
include hnext hid

theorem chainFrom_linkChain {depth : Nat} (hdepth : graph.scopes.size ≤ depth) :
    Returns (graph.chainFrom next depth [] id) (graph.LinkChain next id) := by
  have hscopes : ∀ s ∈ [id], graph.HasScope s := List.forall_mem_singleton.2 hid
  obtain ⟨ids, hids, hwithin⟩ := chainFrom_returns hnext (List.nodup_singleton id) hscopes hdepth
  have hchained : graph.Chained next [] id ids := chainFrom_chained hids List.not_mem_nil
  exact ⟨ids, hids, hchained.linkChain hwithin⟩

theorem chainFrom_endsWithin {depth : Nat} (hdepth : graph.scopes.size ≤ depth) :
    EndsWithin graph.scopes.size (fun depth => graph.chainFrom next depth [] id)
      (graph.chainFrom next depth [] id) :=
  .of_agrees (fun _ _ => chainFrom_agrees) (chainFrom_linkChain hnext hid (Nat.le_refl _)) hdepth

end closed

/-- From every scope of a graph, whatever loops its links form. The scopes that are gone through are
never more than there are, so a bound on their number that is not smaller changes nothing. -/
theorem scopeChain_branches_exact (h : graph.Assembled) (hid : graph.HasScope id) :
    EndsWithin graph.scopes.size (fun depth => graph.chainFrom Scope.prev depth [] id)
        (graph.scopeChain id) ∧
      Returns (graph.scopeChain id) (graph.LinkChain Scope.prev id) ∧
      EndsWithin graph.scopes.size (graph.branchesWithin id) (graph.branches id) ∧
      Returns (graph.branches id) (graph.LinkTail Scope.branch id) := by
  have hprev : ∀ scope ∈ graph.scopes, ∀ id ∈ scope.prev, graph.HasScope id :=
    fun _ hscope => (h.closed.scopeLinks hscope).1
  have hbranch : ∀ scope ∈ graph.scopes, ∀ id ∈ scope.branch, graph.HasScope id :=
    fun _ hscope => (h.closed.scopeLinks hscope).2.1
  have hlimit : graph.scopes.size ≤ graph.scopes.size + 1 := Nat.le_succ _
  have hbranches (depth : Nat) (hdepth : graph.scopes.size ≤ depth) :
      Returns (graph.branchesWithin id depth) (graph.LinkTail Scope.branch id) :=
    (chainFrom_linkChain hbranch hid hdepth).bind fun _ hchain => .pure hchain.tail
  have hagrees (depth depth' : Nat) (hle : depth ≤ depth') : AgreesUnless (· = .tooDeep)
      (graph.branchesWithin id depth) (graph.branchesWithin id depth') :=
    (chainFrom_agrees hle).bind fun _ _ => .refl _
  exact ⟨chainFrom_endsWithin hprev hid hlimit, chainFrom_linkChain hprev hid hlimit,
    .of_agrees hagrees (hbranches _ (Nat.le_refl _)) hlimit, hbranches _ hlimit⟩

end FormatGraph.Graph

namespace FormatGraph

/-- The first scope comes after the second, which is on a loop with the third. By branches, the
first leads to the third and back, and the second leads to itself. -/
def RawGraph.looping : RawGraph where
  nodes := [⟨"program", {}, [("global_scope", .nat 0)]⟩]
  scopes := [
    { prev := some 1, branch := some 2 },
    { prev := some 2, branch := some 1 },
    { prev := some 1, branch := some 0 }]

theorem Graph.scopeChain_branches_exact_looping :
    ∃ graph, RawGraph.looping.link false = .ok graph ∧
      (graph.scopeChain ⟨0⟩ = .ok [⟨0⟩, ⟨1⟩, ⟨2⟩] ∧
        graph.LinkChain Scope.prev ⟨0⟩ [⟨0⟩, ⟨1⟩, ⟨2⟩]) ∧
      (graph.branches ⟨0⟩ = .ok [⟨2⟩] ∧ graph.LinkTail Scope.branch ⟨0⟩ [⟨2⟩]) ∧
      graph.branches ⟨1⟩ = .ok [] ∧ graph.LinkTail Scope.branch ⟨1⟩ [] := by
  obtain ⟨graph, h, hfirst, hsecond, hchain, hbranches, hnone⟩ :
      ∃ graph, RawGraph.looping.link false = .ok graph ∧ graph.HasScope ⟨0⟩ ∧ graph.HasScope ⟨1⟩ ∧
        graph.scopeChain ⟨0⟩ = .ok [⟨0⟩, ⟨1⟩, ⟨2⟩] ∧ graph.branches ⟨0⟩ = .ok [⟨2⟩] ∧
        graph.branches ⟨1⟩ = .ok [] :=
    ⟨_, rfl, by decide, by decide, rfl, rfl, rfl⟩
  obtain ⟨-, ⟨chain, hchain', hlinks⟩, -, ⟨tail, htail, hbranched⟩⟩ :=
    scopeChain_branches_exact (.raw h) hfirst
  obtain ⟨-, -, -, ⟨tail', htail', hbranched'⟩⟩ := scopeChain_branches_exact (.raw h) hsecond
  obtain rfl : [⟨0⟩, ⟨1⟩, ⟨2⟩] = chain := Except.ok.inj (hchain.symm.trans hchain')
  obtain rfl : [⟨2⟩] = tail := Except.ok.inj (hbranches.symm.trans htail)
  obtain rfl : [] = tail' := Except.ok.inj (hnone.symm.trans htail')
  exact ⟨graph, h, ⟨hchain, hlinks⟩, ⟨hbranches, hbranched⟩, hnone, hbranched'⟩

end FormatGraph
