import FormatGraph.Proofs.Graph.Chain
import FormatGraph.Proofs.Graph.Ends

/-! Shadowing. The declaration of a name that is visible from a scope is the last one in it, or else
the one that is visible from the scope before it. Where scopes come again, the chain that is searched
ends early, but what it leaves out was searched before. -/

namespace FormatGraph.Graph

open Relation

variable {graph : Graph} {id : ScopeId} {name : String}

def Spells (graph : Graph) (id : NodeId) (name : String) : Prop :=
  ∃ node, graph.node? id = some node ∧ node.kind = .ident ∧ node.text "ident" = name

def LastSpelled (graph : Graph) (name : String) (ids : List NodeId) (id : NodeId) : Prop :=
  ∃ before after, ids = before ++ id :: after ∧ graph.Spells id name ∧
    ∀ other ∈ after, ¬ graph.Spells other name

section declarations
variable {scope : Scope} {node : NodeId}

theorem spelledName?_eq_some_iff : graph.spelledName? node = some name ↔ graph.Spells node name := by
  unfold spelledName? ofKind? Spells
  rw [Option.map_eq_some_iff]
  simp only [Option.filter_eq_some_iff, decide_eq_true_eq, and_assoc]

theorem declaration?_eq_some_iff : graph.declaration? name scope = some node ↔
    graph.LastSpelled name scope.idents node := by
  unfold declaration? LastSpelled
  simp only [List.find?_eq_some_iff_append, decide_eq_true_eq, spelledName?_eq_some_iff,
    Bool.not_eq_true', decide_eq_false_iff_not]
  constructor
  · rintro ⟨hspells, after, before, hidents, hafter⟩
    refine ⟨before.reverse, after.reverse, ?_, hspells, fun other hother => ?_⟩
    · rw [List.reverse_eq_iff] at hidents
      rw [hidents, List.reverse_append, List.reverse_cons, List.append_assoc]
      rfl
    · exact hafter other (List.mem_reverse.1 hother)
  · rintro ⟨before, after, hidents, hspells, hafter⟩
    refine ⟨hspells, after.reverse, before.reverse, ?_, fun other hother => ?_⟩
    · rw [hidents, List.reverse_append, List.reverse_cons, List.append_assoc]
      rfl
    · exact hafter other (List.mem_reverse.1 hother)

theorem declaration?_eq_none_iff : graph.declaration? name scope = none ↔
    ∀ node ∈ scope.idents, ¬ graph.Spells node name := by
  unfold declaration?
  simp only [List.find?_eq_none, List.mem_reverse, decide_eq_true_eq, spelledName?_eq_some_iff]

end declarations

def declared? (graph : Graph) (name : String) (id : ScopeId) : Option NodeId :=
  (graph.scope? id).bind (graph.declaration? name)

theorem declared?_eq {scope : Scope} (hscope : graph.scope? id = some scope) :
    graph.declared? name id = graph.declaration? name scope := by
  rw [declared?, hscope]
  rfl

/-- The node is the declaration of the name that is nearest to the scope. -/
inductive Visible (graph : Graph) (name : String) : ScopeId → NodeId → Prop where
  | here {id : ScopeId} {node : NodeId} : graph.declared? name id = some node →
      Visible graph name id node
  | before {id prev : ScopeId} {node : NodeId} : graph.declared? name id = none →
      graph.Follows Scope.prev id prev → Visible graph name prev node → Visible graph name id node

section visible
variable {node node' : NodeId} {prev : ScopeId}

theorem visible_iff_of_declared (h : graph.declared? name id = some node) :
    graph.Visible name id node' ↔ node = node' := by
  constructor
  · intro hvisible
    cases hvisible with
    | here h' => exact Option.some.inj (h.symm.trans h')
    | before hnone => cases h.symm.trans hnone
  · rintro rfl
    exact .here h

theorem visible_iff_of_follows (h : graph.declared? name id = none)
    (hprev : graph.Follows Scope.prev id prev) :
    graph.Visible name id node ↔ graph.Visible name prev node := by
  constructor
  · intro hvisible
    cases hvisible with
    | here h' => cases h.symm.trans h'
    | before _ hprev' hvisible =>
      rw [hprev.unique hprev']
      exact hvisible
  · exact .before h hprev

theorem not_visible_of_forall_not_follows (h : graph.declared? name id = none)
    (hprev : ∀ prev, ¬ graph.Follows Scope.prev id prev) : ¬ graph.Visible name id node := by
  intro hvisible
  cases hvisible with
  | here h' => cases h.symm.trans h'
  | before _ hprev' => exact hprev _ hprev'

theorem Visible.unique (h : graph.Visible name id node) (h' : graph.Visible name id node') :
    node = node' := by
  induction h with
  | here hdeclared => exact (visible_iff_of_declared hdeclared).1 h'
  | before hnone hprev _ ih => exact ih ((visible_iff_of_follows hnone hprev).1 h')

theorem Visible.exists_declared (h : graph.Visible name id node) :
    ∃ s, ReflTransGen (graph.Follows Scope.prev) id s ∧ graph.declared? name s = some node := by
  induction h with
  | here hdeclared => exact ⟨_, .refl, hdeclared⟩
  | before _ hprev _ ih =>
    obtain ⟨s, hreaches, hdeclared⟩ := ih
    exact ⟨s, .head hprev hreaches, hdeclared⟩

theorem exists_visible_of_declared {s : ScopeId}
    (hreaches : ReflTransGen (graph.Follows Scope.prev) id s)
    (h : graph.declared? name s = some node) : ∃ node, graph.Visible name id node := by
  induction hreaches using ReflTransGen.head_induction_on with
  | refl => exact ⟨node, .here h⟩
  | @head id prev hprev _ ih =>
    cases hdeclared : graph.declared? name id with
    | some node => exact ⟨node, .here hdeclared⟩
    | none =>
      obtain ⟨node, hvisible⟩ := ih
      exact ⟨node, .before hdeclared hprev hvisible⟩

theorem forall_not_visible_iff : (∀ node, ¬ graph.Visible name id node) ↔
    ∀ s before, ReflTransGen (graph.Follows Scope.prev) id s → graph.scope? s = some before →
      ∀ node ∈ before.idents, ¬ graph.Spells node name := by
  constructor
  · intro hnot s before hreaches hbefore
    rw [← declaration?_eq_none_iff, ← declared?_eq hbefore, Option.eq_none_iff_forall_ne_some]
    intro node hdeclared
    obtain ⟨found, hvisible⟩ := exists_visible_of_declared hreaches hdeclared
    exact hnot found hvisible
  · intro hnone node hvisible
    obtain ⟨s, hreaches, hdeclared⟩ := hvisible.exists_declared
    obtain ⟨before, hbefore, hdeclaration⟩ := Option.bind_eq_some_iff.1 hdeclared
    cases (declaration?_eq_none_iff.2 (hnone s before hreaches hbefore)).symm.trans hdeclaration

theorem visible_of_findSome? {ids : List ScopeId}
    (hchain : (id :: ids).IsChain (graph.Follows Scope.prev))
    (h : (id :: ids).findSome? (graph.declared? name) = some node) : graph.Visible name id node := by
  induction ids generalizing id with
  | nil =>
    rw [List.findSome?_singleton] at h
    exact .here h
  | cons prev ids ih =>
    obtain ⟨hprev, hchain⟩ := List.isChain_cons_cons.1 hchain
    rw [List.findSome?_cons] at h
    split at h
    next hdeclared =>
      cases h
      exact .here hdeclared
    next hnone => exact .before hnone hprev (ih hchain h)

/-- The chain may end early, but a scope that it leaves out is one that it has. -/
theorem Chained.findSome?_eq_some_iff {ids : List ScopeId}
    (h : graph.Chained Scope.prev [] id ids) :
    ids.findSome? (graph.declared? name) = some node ↔ graph.Visible name id node := by
  obtain ⟨rest, rfl⟩ : ∃ rest, ids = id :: rest := List.head?_eq_some_iff.1 h.starts
  have hvisible (node : NodeId) (hfound : (id :: rest).findSome? (graph.declared? name) = some node) :
      graph.Visible name id node := visible_of_findSome? h.follows hfound
  refine ⟨hvisible node, fun hnode => ?_⟩
  obtain ⟨s, hreaches, hdeclared⟩ := hnode.exists_declared
  have hmem : s ∈ id :: rest := h.mem_of_reaches hreaches
  cases hfound : (id :: rest).findSome? (graph.declared? name) with
  | none => cases (List.findSome?_eq_none_iff.1 hfound s hmem).symm.trans hdeclared
  | some found => rw [(hvisible found hfound).unique hnode]

end visible

theorem lookupIdent_eq {ids : List ScopeId} (h : graph.scopeChain id = .ok ids)
    (hids : ∀ s ∈ ids, graph.HasScope s) :
    graph.lookupIdent id name = .ok (ids.findSome? (graph.declared? name)) := by
  unfold lookupIdent
  rw [h]
  refine findSomeM?_eq_ok fun s hs => ?_
  obtain ⟨scope, hscope, -⟩ := scope_returns (hids s hs)
  rw [hscope, declared?_eq (scope?_of_scope_eq_ok hscope)]
  rfl

section closed
variable (hclosed : graph.Closed)
include hclosed

theorem lookupIdent_visible (hid : graph.HasScope id) (name : String) :
    ∃ found, graph.lookupIdent id name = .ok found ∧
      ∀ node, found = some node ↔ graph.Visible name id node := by
  obtain ⟨ids, hchain, hids⟩ := scopeChain_returns hclosed hid
  have hchained : graph.Chained Scope.prev [] id ids := chainFrom_chained hchain List.not_mem_nil
  exact ⟨_, lookupIdent_eq hchain hids, fun node => hchained.findSome?_eq_some_iff⟩

theorem lookupIdent_eq_none_iff (hid : graph.HasScope id) :
    graph.lookupIdent id name = .ok none ↔ ∀ node, ¬ graph.Visible name id node := by
  obtain ⟨found, hfound, hvisible⟩ := lookupIdent_visible hclosed hid name
  rw [hfound, Except.ok.injEq, Option.eq_none_iff_forall_ne_some]
  exact forall_congr' fun node => not_congr (hvisible node)

variable {scope : Scope} (hscope : graph.scope? id = some scope)
include hscope

theorem lookupIdent_of_lastSpelled {node : NodeId}
    (hlast : graph.LastSpelled name scope.idents node) :
    graph.lookupIdent id name = .ok (some node) := by
  have hdeclared : graph.declared? name id = some node :=
    (declared?_eq hscope).trans (declaration?_eq_some_iff.2 hlast)
  obtain ⟨found, hfound, hvisible⟩ := lookupIdent_visible hclosed (hasScope_of_scope? hscope) name
  rw [hfound, (hvisible node).2 (.here hdeclared)]

variable (hnone : ∀ node ∈ scope.idents, ¬ graph.Spells node name)
include hnone

theorem lookupIdent_of_prev {prev : ScopeId} (hprev : scope.prev = some prev) :
    graph.lookupIdent id name = graph.lookupIdent prev name := by
  have hdeclared : graph.declared? name id = none :=
    (declared?_eq hscope).trans (declaration?_eq_none_iff.2 hnone)
  have hhas : graph.HasScope prev :=
    (hclosed.scopeLinks (Array.mem_of_getElem? hscope)).1 prev hprev
  obtain ⟨found, hfound, hvisible⟩ := lookupIdent_visible hclosed (hasScope_of_scope? hscope) name
  obtain ⟨found', hfound', hvisible'⟩ := lookupIdent_visible hclosed hhas name
  rw [hfound, hfound', Except.ok.injEq]
  refine Option.ext fun node => ?_
  rw [hvisible, hvisible']
  exact visible_iff_of_follows hdeclared ⟨scope, hscope, hprev⟩

theorem lookupIdent_of_no_prev (hprev : scope.prev = none) :
    graph.lookupIdent id name = .ok none := by
  have hdeclared : graph.declared? name id = none :=
    (declared?_eq hscope).trans (declaration?_eq_none_iff.2 hnone)
  refine (lookupIdent_eq_none_iff hclosed (hasScope_of_scope? hscope)).2 fun node => ?_
  refine not_visible_of_forall_not_follows hdeclared fun prev hfollows => ?_
  obtain ⟨scope', hscope', hprev'⟩ := hfollows
  cases hscope.symm.trans hscope'
  cases hprev.symm.trans hprev'

end closed

/-- From every scope of a graph, whatever circles the scopes before it go in. -/
theorem lookupIdent_shadows (h : graph.Assembled) {scope : Scope}
    (hscope : graph.scope? id = some scope) (name : String) :
    (∃ found, graph.lookupIdent id name = .ok found) ∧
      (∀ node, graph.LastSpelled name scope.idents node →
        graph.lookupIdent id name = .ok (some node)) ∧
      ((∀ node ∈ scope.idents, ¬ graph.Spells node name) →
        graph.lookupIdent id name = match scope.prev with
          | some prev => graph.lookupIdent prev name
          | none => .ok none) ∧
      (graph.lookupIdent id name = .ok none ↔
        ∀ s before, ReflTransGen (graph.Follows Scope.prev) id s → graph.scope? s = some before →
          ∀ node ∈ before.idents, ¬ graph.Spells node name) := by
  have hclosed := h.closed
  have hid := hasScope_of_scope? hscope
  refine ⟨?_, fun node hnode => lookupIdent_of_lastSpelled hclosed hscope hnode, fun hnone => ?_, ?_⟩
  · obtain ⟨found, hfound, -⟩ := lookupIdent_visible hclosed hid name
    exact ⟨found, hfound⟩
  · cases hprev : scope.prev with
    | none => exact lookupIdent_of_no_prev hclosed hscope hnone hprev
    | some prev => exact lookupIdent_of_prev hclosed hscope hnone hprev
  · rw [lookupIdent_eq_none_iff hclosed hid, forall_not_visible_iff]

end FormatGraph.Graph

namespace FormatGraph

/-- The first scope comes after the second, and the second and the third each come after the other.
The second declares a name twice. -/
def RawGraph.circling : RawGraph where
  nodes := [
    ⟨"program", {}, [("elements", .arr [.nat 1, .nat 2, .nat 3]), ("global_scope", .nat 0)]⟩,
    ⟨"ident", {}, [("ident", .str "x")]⟩,
    ⟨"ident", {}, [("ident", .str "x")]⟩,
    ⟨"ident", {}, [("ident", .str "y")]⟩]
  scopes := [
    { prev := some 1 },
    { prev := some 2, idents := [1, 2] },
    { prev := some 1, idents := [3] }]

theorem Graph.lookupIdent_shadows_circling :
    ∃ graph, RawGraph.circling.link false = .ok graph ∧
      graph.Follows Scope.prev ⟨1⟩ ⟨2⟩ ∧ graph.Follows Scope.prev ⟨2⟩ ⟨1⟩ ∧
      graph.lookupIdent ⟨0⟩ "x" = graph.lookupIdent ⟨1⟩ "x" ∧
      graph.lookupIdent ⟨2⟩ "x" = graph.lookupIdent ⟨1⟩ "x" ∧
      graph.lookupIdent ⟨1⟩ "x" = .ok (some ⟨2⟩) := by
  obtain ⟨graph, h, hfirst, hsecond, hthird, hx, hy⟩ : ∃ graph,
      RawGraph.circling.link false = .ok graph ∧
      graph.scope? ⟨0⟩ = some { prev := some ⟨1⟩ } ∧
      graph.scope? ⟨1⟩ = some { prev := some ⟨2⟩, idents := [⟨1⟩, ⟨2⟩] } ∧
      graph.scope? ⟨2⟩ = some { prev := some ⟨1⟩, idents := [⟨3⟩] } ∧
      graph.spelledName? ⟨2⟩ = some "x" ∧ graph.spelledName? ⟨3⟩ = some "y" :=
    ⟨_, rfl, rfl, rfl, rfl, rfl, rfl⟩
  have hassembled : graph.Assembled := .raw h
  have hlast : graph.LastSpelled "x" [⟨1⟩, ⟨2⟩] ⟨2⟩ :=
    ⟨[⟨1⟩], [], rfl, spelledName?_eq_some_iff.1 hx, nofun⟩
  have hnone : ∀ node ∈ [(⟨3⟩ : NodeId)], ¬ graph.Spells node "x" := by
    refine List.forall_mem_singleton.2 fun hspells => ?_
    have hname := hy.symm.trans (spelledName?_eq_some_iff.2 hspells)
    exact absurd hname (by decide)
  obtain ⟨-, -, hfirst', -⟩ := lookupIdent_shadows hassembled hfirst "x"
  obtain ⟨-, hsecond', -, -⟩ := lookupIdent_shadows hassembled hsecond "x"
  obtain ⟨-, -, hthird', -⟩ := lookupIdent_shadows hassembled hthird "x"
  exact ⟨graph, h, ⟨_, hsecond, rfl⟩, ⟨_, hthird, rfl⟩, hfirst' nofun, hthird' hnone,
    hsecond' ⟨2⟩ hlast⟩

end FormatGraph
