import FormatGraph.Graph.Cycle
import FormatGraph.Graph.Walk
import FormatGraph.Proofs.Graph.Descent
import Mathlib.Algebra.BigOperators.Intervals

/-! The search for a cycle. The nodes in progress are those on the stack, which is a path of children
down from the first node. Below the nodes that are done there is no cycle. Every step takes one child
from those that are left or one node from those that have not been left, so the search ends. -/

namespace FormatGraph

open Relation

namespace Graph

def OnCycleBelow (graph : Graph) (id node : NodeId) : Prop :=
  ReflTransGen graph.Child id node ∧ TransGen graph.Child node node

def CycleAnswer (graph : Graph) (id : NodeId) (found : Option NodeId) : Prop :=
  (found = none → graph.Acyclic id) ∧ ∀ node ∈ found, graph.OnCycleBelow id node

end Graph

namespace CycleSearch

variable {graph : Graph} {first id child : NodeId} {search after : CycleSearch}

/-! ### Steps -/

inductive Steps (graph : Graph) (search : CycleSearch) : CycleSearch ⊕ Option NodeId → Prop where
  | ends (hstack : search.stack = []) : Steps graph search (.inr none)
  | leaves {id : NodeId} {rest : List Frame} (hstack : search.stack = ⟨id, []⟩ :: rest) :
      Steps graph search (.inl ⟨search.marks.setIfInBounds id.index .done, rest⟩)
  | passes {id child : NodeId} {children : List NodeId} {rest : List Frame}
      (hstack : search.stack = ⟨id, child :: children⟩ :: rest)
      (hmark : search.marks[child.index]? = some .done) :
      Steps graph search (.inl ⟨search.marks, ⟨id, children⟩ :: rest⟩)
  | enters {id child : NodeId} {children below : List NodeId} {rest : List Frame}
      (hstack : search.stack = ⟨id, child :: children⟩ :: rest)
      (hmark : search.marks[child.index]? = some .unvisited)
      (hbelow : graph.children child = .ok below) :
      Steps graph search (.inl ⟨search.marks.setIfInBounds child.index .inProgress,
        ⟨child, below⟩ :: ⟨id, children⟩ :: rest⟩)
  | finds {id child : NodeId} {children : List NodeId} {rest : List Frame}
      (hstack : search.stack = ⟨id, child :: children⟩ :: rest)
      (hmark : search.marks[child.index]? = some .inProgress) :
      Steps graph search (.inr (some child))

theorem steps_of_step {result : CycleSearch ⊕ Option NodeId}
    (h : search.step graph = .ok result) : Steps graph search result := by
  obtain ⟨marks, stack⟩ := search
  unfold step at h
  match stack with
  | [] =>
    cases h
    exact .ends rfl
  | ⟨id, []⟩ :: rest =>
    cases h
    exact .leaves rfl
  | ⟨id, child :: children⟩ :: rest =>
    dsimp only at h
    cases hmark : marks[child.index]? with
    | none =>
      rw [hmark] at h
      cases h
    | some mark =>
      rw [hmark] at h
      cases mark with
      | inProgress =>
        cases h
        exact .finds rfl hmark
      | done =>
        cases h
        exact .passes rfl hmark
      | unvisited =>
        obtain ⟨entered, henter, hresult⟩ := bind_eq_ok_iff.1 h
        obtain ⟨below, hbelow, hentered⟩ := bind_eq_ok_iff.1 henter
        cases hentered
        cases hresult
        exact .enters rfl hmark hbelow

/-! ### The stack -/

def path (search : CycleSearch) : List NodeId := search.stack.map Frame.id

def IsDone (search : CycleSearch) (id : NodeId) : Prop :=
  search.marks[id.index]? = some .done

/-- The frames go down from the first node to the node above them, if there is one. The children of
a frame that are not left are done, or the node above. -/
inductive Stacked (graph : Graph) (first : NodeId) (isDone : NodeId → Prop) :
    List Frame → Option NodeId → Prop where
  | nil {above : Option NodeId} (hfirst : ∀ id ∈ above, id = first) :
      Stacked graph first isDone [] above
  | cons {frame : Frame} {rest : List Frame} {above : Option NodeId}
      (left : ∀ child ∈ frame.children, graph.Child frame.id child)
      (habove : ∀ id ∈ above, graph.Child frame.id id)
      (explored : ∀ child, graph.Child frame.id child →
        child ∈ frame.children ∨ isDone child ∨ child ∈ above)
      (below : Stacked graph first isDone rest (some frame.id)) :
      Stacked graph first isDone (frame :: rest) above

namespace Stacked

variable {isDone isDone' : NodeId → Prop} {frame : Frame} {rest : List Frame}
  {above : Option NodeId}

theorem reaches (h : Stacked graph first isDone rest (some id)) :
    ReflTransGen graph.Child first id := by
  induction rest generalizing id with
  | nil =>
    cases h with
    | nil hfirst =>
      cases hfirst id rfl
      exact .refl
  | cons frame rest ih =>
    cases h with
    | cons left habove explored below => exact (ih below).tail (habove id rfl)

theorem trail (h : Stacked graph first isDone rest (some id)) (hclosed : graph.Closed)
    (hfirst : graph.HasNode first) (hnodup : (id :: rest.map Frame.id).Nodup) :
    graph.Trail (rest.map Frame.id) id := by
  induction rest generalizing id with
  | nil => exact .start (hclosed.hasNode_of_reaches hfirst h.reaches)
  | cons frame rest ih =>
    obtain ⟨hfresh, hnodup⟩ := List.nodup_cons.1 hnodup
    cases h with
    | cons left habove explored below =>
      exact (ih below hnodup).step hclosed (habove id rfl) hfresh

theorem chain (h : Stacked graph first isDone rest above) :
    List.IsChain (fun node parent => graph.Child parent node) (rest.map Frame.id) := by
  induction h with
  | nil => exact .nil
  | @cons frame rest above left habove explored below ih =>
    cases below with
    | nil => exact .singleton _
    | cons left' habove' => exact .cons_cons (habove' frame.id rfl) ih

theorem mono (h : Stacked graph first isDone rest above) (hdone : ∀ id, isDone id → isDone' id) :
    Stacked graph first isDone' rest above := by
  induction h with
  | nil hfirst => exact .nil hfirst
  | cons left habove explored below ih =>
    refine .cons left habove (fun child hchild => ?_) ih
    exact (explored child hchild).imp_right (.imp_left (hdone child))

theorem leave (h : Stacked graph first isDone rest (some id)) (hid : isDone id) :
    Stacked graph first isDone rest none := by
  cases h with
  | nil hfirst => exact .nil nofun
  | cons left habove explored below =>
    refine .cons left nofun (fun child hchild => ?_) below
    rcases explored child hchild with hleft | hdone | habove
    · exact .inl hleft
    · exact .inr (.inl hdone)
    · cases habove
      exact .inr (.inl hid)

theorem pass {children : List NodeId}
    (h : Stacked graph first isDone (⟨id, child :: children⟩ :: rest) none) (hchild : isDone child) :
    Stacked graph first isDone (⟨id, children⟩ :: rest) none := by
  cases h with
  | cons left habove explored below =>
    refine .cons (fun other hother => left other (List.mem_cons_of_mem _ hother)) nofun
      (fun other hother => ?_) below
    rcases explored other hother with hleft | hrest
    · rcases List.mem_cons.1 hleft with rfl | hleft
      · exact .inr (.inl hchild)
      · exact .inl hleft
    · exact .inr hrest

theorem enter {children below : List NodeId}
    (h : Stacked graph first isDone (⟨id, child :: children⟩ :: rest) none)
    (hbelow : ∀ other, other ∈ below ↔ graph.Child child other) :
    Stacked graph first isDone (⟨child, below⟩ :: ⟨id, children⟩ :: rest) none := by
  cases h with
  | cons left habove explored hrest =>
    refine .cons (fun other => (hbelow other).1) nofun (fun other hother => ?_) ?_
    · exact .inl ((hbelow other).2 hother)
    · refine .cons (fun other hother => left other (List.mem_cons_of_mem _ hother)) ?_
        (fun other hother => ?_) hrest
      · rintro _ ⟨⟩
        exact left child List.mem_cons_self
      · rcases explored other hother with hleft | hdone | habove
        · rcases List.mem_cons.1 hleft with rfl | hleft
          · exact .inr (.inr rfl)
          · exact .inl hleft
        · exact .inr (.inl hdone)
        · cases habove

end Stacked

/-! ### What the search knows -/

section marks
variable {marks : Array Mark} {mark : Mark}

theorem lt_of_mark (h : marks[id.index]? = some mark) : id.index < marks.size :=
  (Array.getElem?_eq_some_iff.1 h).1

theorem mark_self (h : id.index < marks.size) (mark : Mark) :
    (marks.setIfInBounds id.index mark)[id.index]? = some mark :=
  Array.getElem?_setIfInBounds_self_of_lt h

theorem mark_of_ne (h : child ≠ id) (mark : Mark) :
    (marks.setIfInBounds id.index mark)[child.index]? = marks[child.index]? :=
  Array.getElem?_setIfInBounds_ne fun heq => h (Handle.eq_of_index_eq heq.symm)

end marks

/-- What holds between two steps of a search from the first node. -/
structure Tracks (graph : Graph) (first : NodeId) (search : CycleSearch) : Prop where
  size : search.marks.size = graph.nodes.size
  stacked : Stacked graph first search.IsDone search.stack none
  nodup : search.path.Nodup
  inProgress : ∀ node : NodeId,
    search.marks[node.index]? = some .inProgress ↔ node ∈ search.path
  settled : ∀ node, search.IsDone node → ∀ child, graph.Child node child → search.IsDone child
  acyclic : ∀ node, search.IsDone node → graph.Acyclic node
  finished : search.stack = [] → search.IsDone first

namespace Tracks

variable {marks : Array Mark} {children below : List NodeId} {rest : List Frame}

theorem leave (h : Tracks graph first ⟨marks, ⟨id, []⟩ :: rest⟩) :
    Tracks graph first ⟨marks.setIfInBounds id.index .done, rest⟩ := by
  have hlt : id.index < marks.size := lt_of_mark ((h.inProgress id).2 List.mem_cons_self)
  obtain ⟨hfresh, hnodup⟩ := List.nodup_cons.1 h.nodup
  cases h.stacked with
  | cons left habove explored hrest =>
    -- No child is left and no node is above, so all children are done.
    have hsettled (child : NodeId) (hchild : graph.Child id child) :
        marks[child.index]? = some .done := by
      rcases explored child hchild with hleft | hdone | habove
      · cases hleft
      · exact hdone
      · cases habove
    have hacyclic : graph.Acyclic id :=
      Graph.acyclic_of_children fun child hchild => h.acyclic child (hsettled child hchild)
    have hdone (node : NodeId) :
        IsDone ⟨marks.setIfInBounds id.index .done, rest⟩ node ↔
          node = id ∨ marks[node.index]? = some .done := by
      by_cases hnode : node = id
      · subst hnode
        exact iff_of_true (mark_self hlt .done) (.inl rfl)
      · rw [or_iff_right hnode, ← mark_of_ne hnode .done]
        rfl
    refine ⟨?_, ?_, hnodup, fun node => ?_, fun node hnode child hchild => ?_, fun node hnode => ?_,
      fun hempty => ?_⟩
    · rw [← h.size]
      exact Array.size_setIfInBounds
    · have hmono := hrest.mono fun node hnode => (hdone node).2 (.inr hnode)
      exact hmono.leave ((hdone id).2 (.inl rfl))
    · by_cases hnode : node = id
      · subst hnode
        refine iff_of_false (fun hmark => ?_) hfresh
        cases hmark.symm.trans (mark_self hlt .done)
      · dsimp only
        rw [mark_of_ne hnode]
        exact (h.inProgress node).trans (List.mem_cons.trans (or_iff_right hnode))
    · rcases (hdone node).1 hnode with rfl | hnode
      · exact (hdone child).2 (.inr (hsettled child hchild))
      · exact (hdone child).2 (.inr (h.settled node hnode child hchild))
    · rcases (hdone node).1 hnode with rfl | hnode
      · exact hacyclic
      · exact h.acyclic node hnode
    · subst hempty
      cases hrest with
      | nil hfirst => exact (hdone first).2 (.inl (hfirst id rfl).symm)

theorem pass (h : Tracks graph first ⟨marks, ⟨id, child :: children⟩ :: rest⟩)
    (hchild : marks[child.index]? = some .done) :
    Tracks graph first ⟨marks, ⟨id, children⟩ :: rest⟩ :=
  ⟨h.size, h.stacked.pass hchild, h.nodup, h.inProgress, h.settled, h.acyclic, nofun⟩

theorem enter (h : Tracks graph first ⟨marks, ⟨id, child :: children⟩ :: rest⟩)
    (hchild : marks[child.index]? = some .unvisited)
    (hbelow : ∀ other, other ∈ below ↔ graph.Child child other) :
    Tracks graph first ⟨marks.setIfInBounds child.index .inProgress,
      ⟨child, below⟩ :: ⟨id, children⟩ :: rest⟩ := by
  have hlt := lt_of_mark hchild
  have hfresh : child ∉ id :: rest.map Frame.id := by
    intro hmem
    cases hchild.symm.trans ((h.inProgress child).2 hmem)
  -- The child was not done before, and is not done now.
  have hdone (node : NodeId) :
      (marks.setIfInBounds child.index .inProgress)[node.index]? = some .done ↔
        marks[node.index]? = some .done := by
    by_cases hnode : node = child
    · subst hnode
      rw [mark_self hlt, hchild]
      exact iff_of_false nofun nofun
    · rw [mark_of_ne hnode]
  refine ⟨?_, ?_, List.nodup_cons.2 ⟨hfresh, h.nodup⟩, fun node => ?_,
    fun node hnode child hchild =>
      (hdone child).2 (h.settled node ((hdone node).1 hnode) child hchild),
    fun node hnode => h.acyclic node ((hdone node).1 hnode), nofun⟩
  · rw [← h.size]
    exact Array.size_setIfInBounds
  · exact (h.stacked.enter hbelow).mono fun node => (hdone node).2
  · by_cases hnode : node = child
    · subst hnode
      exact iff_of_true (mark_self hlt .inProgress) List.mem_cons_self
    · dsimp only
      rw [mark_of_ne hnode]
      exact (h.inProgress node).trans (List.mem_cons.trans (or_iff_right hnode)).symm

theorem next (h : Tracks graph first search) (hstep : Steps graph search (.inl after)) :
    Tracks graph first after := by
  obtain ⟨marks, stack⟩ := search
  cases hstep with
  | leaves hstack =>
    cases hstack
    exact h.leave
  | passes hstack hmark =>
    cases hstack
    exact h.pass hmark
  | enters hstack hmark hbelow =>
    cases hstack
    exact h.enter hmark (Graph.mem_children_iff hbelow)

theorem answer (h : Tracks graph first search) (hclosed : graph.Closed)
    (hfirst : graph.HasNode first) {found : Option NodeId}
    (hstep : Steps graph search (.inr found)) : graph.CycleAnswer first found := by
  obtain ⟨marks, stack⟩ := search
  cases hstep with
  | ends hstack => exact ⟨fun _ => h.acyclic first (h.finished hstack), nofun⟩
  | @finds id child children rest hstack hmark =>
    cases hstack
    refine ⟨nofun, ?_⟩
    rintro _ ⟨⟩
    cases h.stacked with
    | cons left habove explored below =>
      have hchild : graph.Child id child := left child List.mem_cons_self
      have htrail := below.trail hclosed hfirst h.nodup
      -- The child is above the node on the stack, which leads down to it.
      exact ⟨below.reaches.tail hchild, htrail.cycle hchild ((h.inProgress child).1 hmark)⟩

theorem step_returns (h : Tracks graph first search) (hclosed : graph.Closed) :
    Returns (search.step graph) (Steps graph search) := by
  obtain ⟨result, hresult⟩ : ∃ result, search.step graph = .ok result := by
    obtain ⟨marks, stack⟩ := search
    unfold step
    match stack with
    | [] => exact ⟨_, rfl⟩
    | ⟨id, []⟩ :: rest => exact ⟨_, rfl⟩
    | ⟨id, child :: children⟩ :: rest =>
      cases h.stacked with
      | cons left habove explored below =>
        have hchild := hclosed.hasNode_of_child (left child List.mem_cons_self)
        obtain ⟨mark, hmark⟩ : ∃ mark, marks[child.index]? = some mark :=
          ⟨_, Array.getElem?_eq_getElem (h.size ▸ hchild)⟩
        obtain ⟨below, hbelow, -⟩ := Graph.children_returns hchild
        dsimp only
        rw [hmark]
        cases mark with
        | inProgress => exact ⟨_, rfl⟩
        | done => exact ⟨_, rfl⟩
        | unvisited =>
          dsimp only
          rw [CycleSearch.enter, hbelow]
          exact ⟨_, rfl⟩
  exact ⟨result, hresult, steps_of_step hresult⟩

end Tracks

/-! ### How long it takes -/

def weight (graph : Graph) (index : Nat) : Nat :=
  (graph.nodes[index]?).elim 0 fun node => node.children.length + 1

def unvisited (marks : Array Mark) : Finset Nat :=
  {index ∈ Finset.range marks.size | marks[index]? = some .unvisited}

/-- The number of steps until the stack is empty. -/
def remaining (graph : Graph) (search : CycleSearch) : Nat :=
  (search.stack.map fun frame => frame.children.length + 1).sum +
    ∑ index ∈ unvisited search.marks, weight graph index

section remaining
variable {marks : Array Mark} {mark : Mark}

theorem mem_unvisited {index : Nat} :
    index ∈ unvisited marks ↔ marks[index]? = some .unvisited := by
  rw [unvisited, Finset.mem_filter, Finset.mem_range]
  exact and_iff_right_of_imp fun h => (Array.getElem?_eq_some_iff.1 h).1

theorem unvisited_setIfInBounds (index : Nat) (hmark : mark ≠ .unvisited) :
    unvisited (marks.setIfInBounds index mark) = (unvisited marks).erase index := by
  ext other
  rw [Finset.mem_erase, mem_unvisited, mem_unvisited]
  by_cases hother : other = index
  · subst hother
    refine iff_of_false (fun h => ?_) fun h => h.1 rfl
    rw [Array.getElem?_setIfInBounds_self] at h
    split_ifs at h with hlt
    cases h
    exact hmark rfl
  · rw [Array.getElem?_setIfInBounds_ne (Ne.symm hother), and_iff_right hother]

theorem weight_eq {children : List NodeId} (h : graph.children id = .ok children) :
    weight graph id.index = children.length + 1 := by
  obtain ⟨node, hnode, rfl⟩ := Graph.children_eq_ok_iff.1 h
  have hget : graph.nodes[id.index]? = some node := hnode
  rw [weight, hget, Option.elim_some]

theorem Tracks.remaining_next (h : Tracks graph first search)
    (hstep : Steps graph search (.inl after)) :
    after.remaining graph + 1 = search.remaining graph := by
  obtain ⟨marks, stack⟩ := search
  cases hstep with
  | @leaves id rest hstack =>
    cases hstack
    have hvisited : id.index ∉ unvisited marks := by
      intro hmem
      cases (mem_unvisited.1 hmem).symm.trans ((h.inProgress id).2 List.mem_cons_self)
    have hsame : unvisited (marks.setIfInBounds id.index .done) = unvisited marks := by
      rw [unvisited_setIfInBounds _ (by decide), Finset.erase_eq_of_notMem hvisited]
    simp only [remaining, hsame, List.map_cons, List.sum_cons, List.length_nil]
    omega
  | passes hstack hmark =>
    cases hstack
    simp only [remaining, List.map_cons, List.sum_cons, List.length_cons]
    omega
  | @enters id child children below rest hstack hmark hbelow =>
    cases hstack
    -- What the child takes is moved from the nodes that are not visited to the stack.
    have hsum := Finset.add_sum_erase _ (weight graph) (mem_unvisited.2 hmark)
    have hvisited : Mark.inProgress ≠ .unvisited := by decide
    rw [weight_eq hbelow, ← unvisited_setIfInBounds _ hvisited] at hsum
    simp only [remaining, ← hsum, List.map_cons, List.sum_cons, List.length_cons]
    omega

end remaining

theorem searchLimit_eq (graph : Graph) :
    graph.searchLimit = ∑ index ∈ Finset.range graph.nodes.size, weight graph index + 1 := by
  have hfold (nodes : List Node) (steps : Nat) :
      nodes.foldl (fun steps node => steps + (node.children.length + 1)) steps =
        ∑ index ∈ Finset.range nodes.length,
          (nodes[index]?).elim 0 (fun node => node.children.length + 1) + steps := by
    induction nodes generalizing steps with
    | nil => simp
    | cons node nodes ih =>
      rw [List.foldl_cons, ih, List.length_cons, Finset.sum_range_succ']
      simp only [List.getElem?_cons_succ, List.getElem?_cons_zero, Option.elim_some]
      omega
  rw [Graph.searchLimit, hfold, Array.length_toList]
  simp only [Array.getElem?_toList, weight]

section start
variable {children : List NodeId}

/-- The marks in the beginning, when no node is visited but the first. -/
def firstMarks (graph : Graph) (first : NodeId) : Array Mark :=
  (Array.replicate graph.nodes.size .unvisited).setIfInBounds first.index .inProgress

theorem size_firstMarks (graph : Graph) (first : NodeId) :
    (firstMarks graph first).size = graph.nodes.size := by
  rw [firstMarks, Array.size_setIfInBounds, Array.size_replicate]

theorem firstMarks_self (hfirst : graph.HasNode first) :
    (firstMarks graph first)[first.index]? = some .inProgress := by
  refine mark_self ?_ .inProgress
  rw [Array.size_replicate]
  exact hfirst

theorem firstMarks_of_ne (hid : id ≠ first) {mark : Mark}
    (h : (firstMarks graph first)[id.index]? = some mark) : mark = .unvisited := by
  rw [firstMarks, mark_of_ne hid, Array.getElem?_replicate] at h
  split_ifs at h
  exact (Option.some.inj h).symm

theorem firstMarks_ne_done (hfirst : graph.HasNode first) (id : NodeId) :
    (firstMarks graph first)[id.index]? ≠ some .done := by
  intro h
  by_cases hid : id = first
  · subst hid
    cases h.symm.trans (firstMarks_self hfirst)
  · cases firstMarks_of_ne hid h

theorem tracks_start (hfirst : graph.HasNode first)
    (hchildren : graph.children first = .ok children) :
    Tracks graph first ⟨firstMarks graph first, [⟨first, children⟩]⟩ := by
  have hmem := Graph.mem_children_iff hchildren
  refine ⟨size_firstMarks graph first,
    .cons (fun child => (hmem child).1) nofun (fun child hchild => ?_) (.nil ?_),
    List.nodup_singleton first, fun node => ?_,
    fun node hnode => absurd hnode (firstMarks_ne_done hfirst node),
    fun node hnode => absurd hnode (firstMarks_ne_done hfirst node), nofun⟩
  · exact .inl ((hmem child).2 hchild)
  · rintro _ ⟨⟩
    rfl
  · by_cases hnode : node = first
    · subst hnode
      exact iff_of_true (firstMarks_self hfirst) List.mem_cons_self
    · refine iff_of_false (fun h => ?_) fun h => hnode (List.mem_singleton.1 h)
      cases firstMarks_of_ne hnode h

theorem remaining_start (hfirst : graph.HasNode first)
    (hchildren : graph.children first = .ok children) :
    remaining graph ⟨firstMarks graph first, [⟨first, children⟩]⟩ + 1 = graph.searchLimit := by
  have hall : unvisited (.replicate graph.nodes.size .unvisited) =
      Finset.range graph.nodes.size := by
    ext index
    rw [mem_unvisited, Array.getElem?_replicate, Finset.mem_range]
    split_ifs with hlt
    · exact iff_of_true rfl hlt
    · exact iff_of_false nofun hlt
  have hsum := Finset.add_sum_erase _ (weight graph) (Finset.mem_range.2 hfirst)
  rw [weight_eq hchildren] at hsum
  rw [remaining, firstMarks, unvisited_setIfInBounds _ (by decide), hall, searchLimit_eq, ← hsum]
  simp only [List.map_cons, List.map_nil, List.sum_cons, List.sum_nil]
  omega

theorem start_returns (hfirst : graph.HasNode first) :
    Returns (start graph first) fun search =>
      Tracks graph first search ∧ search.remaining graph < graph.searchLimit := by
  obtain ⟨children, hchildren, -⟩ := Graph.children_returns hfirst
  have hremaining := Nat.lt_of_succ_le (remaining_start hfirst hchildren).le
  rw [start, enter, hchildren]
  exact .pure ⟨tracks_start hfirst hchildren, hremaining⟩

end start

theorem run_returns (hclosed : graph.Closed) (hfirst : graph.HasNode first) {steps : Nat}
    (h : Tracks graph first search) (hsteps : search.remaining graph < steps) :
    Returns (search.run graph steps) (graph.CycleAnswer first) := by
  induction steps generalizing search with
  | zero => exact absurd hsteps (Nat.not_lt_zero _)
  | succ steps ih =>
    refine (h.step_returns hclosed).bind fun result hresult => ?_
    cases result with
    | inr found => exact .pure (h.answer hclosed hfirst hresult)
    | inl after =>
      have hnext := h.remaining_next hresult
      exact ih (h.next hresult) (by omega)

end CycleSearch

namespace Graph

variable {graph : Graph} {id : NodeId}

theorem findCycle_returns (hclosed : graph.Closed) (hid : graph.HasNode id) :
    Returns (graph.findCycle id) (graph.CycleAnswer id) :=
  (CycleSearch.start_returns hid).bind fun _ hsearch =>
    CycleSearch.run_returns hclosed hid hsearch.1 hsearch.2

theorem acyclic_of_findCycle (hclosed : graph.Closed) (hid : graph.HasNode id)
    (h : graph.findCycle id = .ok none) : graph.Acyclic id := by
  obtain ⟨found, hfound, hanswer⟩ := findCycle_returns hclosed hid
  cases h.symm.trans hfound
  exact hanswer.1 rfl

theorem findCycle_eq_ok_none (hclosed : graph.Closed) (hid : graph.HasNode id)
    (h : graph.Acyclic id) : graph.findCycle id = .ok none := by
  obtain ⟨found, hfound, hanswer⟩ := findCycle_returns hclosed hid
  cases found with
  | none => exact hfound
  | some node =>
    obtain ⟨hreaches, hcycle⟩ := hanswer.2 node rfl
    exact absurd hcycle (h node hreaches)

theorem descendsWithin_of_findCycle (hclosed : graph.Closed) (hid : graph.HasNode id)
    (h : graph.findCycle id = .ok none) : graph.DescendsWithin graph.depthLimit id :=
  (acyclic_of_findCycle hclosed hid h).descendsWithin hclosed (.start hid) (Nat.le_succ _)

end Graph

end FormatGraph
