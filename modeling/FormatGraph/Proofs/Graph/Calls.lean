import FormatGraph.Proofs.Graph.Ends
import FormatGraph.Proofs.Graph.Trace

/-! The calls that a walk makes to its visitor, whatever the visitor is. They are those of the trace
of the node that it starts from, without what is skipped and up to the first stop. A walk that goes
on as long as a callback answers `true` calls it on the nodes in preorder, up to the first that it
refuses. -/

namespace FormatGraph

open Event

variable {σ τ : Type}

def Graph.nodeD (graph : Graph) (id : NodeId) : Node := (graph.node? id).getD default

theorem Graph.nodeD_of_node? {graph : Graph} {id : NodeId} {node : Node}
    (h : graph.node? id = some node) : graph.nodeD id = node := by
  rw [nodeD, h]
  rfl

namespace Visitor

def after (visitor : Visitor σ) (graph : Graph) (state : σ) : Call → σ
  | .enter id => (visitor.enter id (graph.nodeD id) state).2
  | .leave id => visitor.leave id (graph.nodeD id) state

def replay (visitor : Visitor σ) (graph : Graph) (state : σ) (made : List Call) : σ :=
  made.foldl (visitor.after graph) state

def answer (visitor : Visitor σ) (graph : Graph) (state : σ) (made : List Call) (id : NodeId) :
    Step :=
  (visitor.enter id (graph.nodeD id) (visitor.replay graph state made)).1

def logged (visitor : Visitor σ) : Visitor (σ × List Call) where
  enter id node state :=
    let answer := visitor.enter id node state.1
    (answer.1, answer.2, state.2 ++ [.enter id])
  leave id node state := (visitor.leave id node state.1, state.2 ++ [.leave id])

def recording (answer : List Call → NodeId → Step) : Visitor (List Call) where
  enter id _ made := (answer made id, made ++ [.enter id])
  leave id _ made := made ++ [.leave id]

structure Mirrors (visitor : Visitor σ) (graph : Graph) (f : σ → τ) (visitor' : Visitor τ) :
    Prop where
  enter : ∀ id node state, graph.node? id = some node →
    visitor'.enter id node (f state) = Prod.map (fun step => step) f (visitor.enter id node state)
  leave : ∀ id node state, graph.node? id = some node →
    visitor'.leave id node (f state) = f (visitor.leave id node state)

theorem logged_mirrors (visitor : Visitor σ) (graph : Graph) :
    visitor.logged.Mirrors graph Prod.fst visitor :=
  ⟨fun _ _ _ _ => rfl, fun _ _ _ _ => rfl⟩

theorem recording_mirrors (visitor : Visitor σ) (graph : Graph) (state : σ) :
    (recording (visitor.answer graph state)).Mirrors graph
      (fun made => (visitor.replay graph state made, made)) visitor.logged := by
  have hreplay (made : List Call) (call : Call) : visitor.replay graph state (made ++ [call]) =
      visitor.after graph (visitor.replay graph state made) call :=
    List.foldl_concat _ _ _ _
  constructor
  · intro id node made hnode
    have hanswer : visitor.enter id node (visitor.replay graph state made) =
        (visitor.answer graph state made id, visitor.replay graph state (made ++ [.enter id])) := by
      rw [hreplay, after, answer, Graph.nodeD_of_node? hnode]
    simp only [logged, recording, hanswer]
    rfl
  · intro id node made hnode
    have hleave : visitor.leave id node (visitor.replay graph state made) =
        visitor.replay graph state (made ++ [.leave id]) := by
      rw [hreplay, after, Graph.nodeD_of_node? hnode]
    simp only [logged, recording, hleave]

end Visitor

namespace Graph

variable {graph : Graph} {id : NodeId} {depth : Nat}

theorem node?_of_liftM {state state' : σ} {node : Node}
    (h : (liftM (graph.node id) : StateT σ (Except QueryError) Node) state = .ok (node, state')) :
    graph.node? id = some node := by
  cases hnode : graph.node? id with
  | none =>
    rw [Graph.node, hnode] at h
    cases h
  | some found =>
    rw [Graph.node, hnode] at h
    cases h
    rfl

theorem walkWithin_mirrored {visitor : Visitor σ} {visitor' : Visitor τ} {f : σ → τ}
    (h : visitor.Mirrors graph f visitor') (state : σ) :
    Mirrored f (graph.walkWithin visitor depth id state)
      (graph.walkWithin visitor' depth id (f state)) := by
  induction depth generalizing id state with
  | zero => rfl
  | succ depth ih =>
    unfold walkWithin
    have hread : Mirrored f ((liftM (graph.node id) : StateT σ (Except QueryError) Node) state)
        ((liftM (graph.node id) : StateT τ (Except QueryError) Node) (f state)) := by
      cases graph.node id <;> rfl
    refine hread.bindState fun node before hbefore => ?_
    have hnode : graph.node? id = some node := node?_of_liftM hbefore
    have henter : Mirrored f
        ((modifyGet (visitor.enter id node) : StateT σ (Except QueryError) Step) before)
        ((modifyGet (visitor'.enter id node) : StateT τ (Except QueryError) Step) (f before)) :=
      congrArg Except.ok (h.enter id node before hnode)
    have hleave (left : σ) : Mirrored f
        ((modify (visitor.leave id node) : StateT σ (Except QueryError) PUnit) left)
        ((modify (visitor'.leave id node) : StateT τ (Except QueryError) PUnit) (f left)) :=
      congrArg (fun state => Except.ok (PUnit.unit, state)) (h.leave id node left hnode)
    refine henter.bindState fun step entered _ => ?_
    cases step with
    | stop => exact .pure f false entered
    | skip => exact (hleave entered).bindState fun _ left _ => .pure f true left
    | descend =>
      simp only [Node.visitChildren_eq_allM]
      refine (Mirrored.allStateM (fun child _ => ih) entered).bindState fun finished left _ => ?_
      cases finished with
      | true => exact (hleave left).bindState fun _ left _ => .pure f true left
      | false => exact .pure f false left

section recording
variable {answer : List Call → NodeId → Step}

/-- What a walk over some events does: it makes the calls of those that take place, and leaves open
the places above a stop. -/
def Walked (answer : List Call → NodeId → Step) (made : List Call) (above : List (List Nat))
    (events : List Event) (result : Bool × List Call) : Prop :=
  ∃ kept, Prunes answer made events kept result.1 ∧ Nests above kept result.1 ∧
    result.2 = made ++ calls kept

theorem allM_recording_returns {ids : List NodeId} {place : List Nat}
    (h : ∀ id ∈ ids, ∀ place made, Returns (graph.walkWithin (.recording answer) depth id made)
      (Walked answer made place.tails.tail (graph.traceWithin depth place id)))
    (position : Nat) (made : List Call) :
    Returns (ids.allM (graph.walkWithin (.recording answer) depth) made)
      (Walked answer made place.tails (siblings (graph.traceWithin depth) place position ids)) := by
  induction ids generalizing position made with
  | nil => exact .pure ⟨[], .done, .nil, (List.append_nil made).symm⟩
  | cons id ids ih =>
    have hfirst := h id List.mem_cons_self (position :: place) made
    have hapart : ∀ event ∈ graph.traceWithin depth (position :: place) id,
        ∀ other ∈ siblings (graph.traceWithin depth) place (position + 1) ids,
          ¬ other.Inside event.place := fun _ hevent _ hother => siblings_apart hevent hother
    refine hfirst.bindState fun finished made' => ?_
    rintro ⟨kept, hprunes, hnests, rfl⟩
    cases finished with
    | false => exact .pure ⟨kept, hprunes.append_of_stop hapart, hnests, rfl⟩
    | true =>
      have hrest := ih (fun id hid => h id (List.mem_cons_of_mem _ hid)) (position + 1)
        (made ++ calls kept)
      refine hrest.mono ?_
      rintro ⟨finished, made'⟩ ⟨kept', hprunes', hnests', hmade⟩
      refine ⟨kept ++ kept', hprunes.append hprunes' hapart, hnests.append hnests', ?_⟩
      rw [hmade, calls_append, List.append_assoc]

theorem walkWithin_recording_returns (hclosed : graph.Closed) (hid : graph.HasNode id)
    (hdescends : graph.DescendsWithin depth id) (place : List Nat) (made : List Call) :
    Returns (graph.walkWithin (.recording answer) depth id made)
      (Walked answer made place.tails.tail (graph.traceWithin depth place id)) := by
  induction depth generalizing id place made with
  | zero => cases hdescends
  | succ depth ih =>
    unfold walkWithin
    refine ((node_returns hid).liftState made).bindState fun node before => ?_
    rintro ⟨hnode, rfl⟩
    have hchildren : graph.childList id = node.children := by rw [childList, hnode]
    have hinside : ∀ event ∈ siblings (graph.traceWithin depth) place 0 node.children,
        event.Inside place := fun _ => inside_of_mem_siblings
    rw [traceWithin, hchildren]
    refine Returns.bindState (P := fun r => r = (answer before id, before ++ [.enter id]))
      ⟨_, rfl, rfl⟩ fun step entered => ?_
    rintro ⟨⟩
    cases hstep : answer before id with
    | stop => exact .pure ⟨_, .stop hstep, .stop place id, rfl⟩
    | skip => exact .pure ⟨_, .skipNode hinside hstep, .leave .nil, List.append_assoc before _ _⟩
    | descend =>
      have hwalk : Returns (node.visitChildren (graph.walkWithin (.recording answer) depth)
          (before ++ [.enter id])) (Walked answer (before ++ [.enter id]) place.tails
            (siblings (graph.traceWithin depth) place 0 node.children)) := by
        rw [Node.visitChildren_eq_allM]
        refine allM_recording_returns (fun child hchild place made => ?_) 0 _
        have hstep : graph.Child id child := ⟨node, hnode, hchild⟩
        exact ih (hclosed.hasNode_of_child hstep) (hdescends child hstep) place made
      refine hwalk.bindState fun finished left => ?_
      rintro ⟨kept, hprunes, hnests, rfl⟩
      cases finished with
      | true =>
        refine .pure ⟨_, .leaveNode hinside hstep hprunes, hnests.leave, ?_⟩
        change before ++ [.enter id] ++ calls kept ++ [.leave id] = _
        rw [calls_cons, calls_append, List.append_assoc, List.append_assoc]
        rfl
      | false =>
        exact .pure ⟨_, .stopInNode hinside hstep hprunes, hnests.enter, List.append_assoc before _ _⟩

end recording

/-- What a walk from a node comes to: which events of the trace take place, what the visitor is left
with, and which places are left open. -/
structure WalkTrace (graph : Graph) (visitor : Visitor σ) (id : NodeId) (state : σ)
    (kept : List Event) (finished : Bool) : Prop where
  prunes : Prunes (visitor.answer graph state) [] (graph.trace id) kept finished
  walk : graph.walk visitor id state = .ok (finished, visitor.replay graph state (calls kept))
  logged : graph.walk visitor.logged id (state, []) =
    .ok (finished, visitor.replay graph state (calls kept), calls kept)
  finished_iff : finished = true ↔ NeverStops (visitor.answer graph state) [] (calls kept)
  closed : finished = true → unmatched [] kept = some []
  cut : finished = false → ∃ before place stopped path, kept = before ++ [⟨place, .enter stopped⟩] ∧
    visitor.answer graph state (calls before) stopped = .stop ∧
    unmatched [] kept = some path ∧ path.map Prod.fst = place.tails ∧
    ∀ entry ∈ path, graph.descendant? id entry.1 = some entry.2

section acyclic
variable (hclosed : graph.Closed) (hid : graph.HasNode id) (hacyclic : graph.Acyclic id)
include hclosed hid hacyclic

theorem descendsWithin_of_acyclic : graph.DescendsWithin graph.nodes.size id :=
  hacyclic.descendsWithin hclosed (.start hid) (Nat.le_refl _)

theorem trace_eq {depth : Nat} (h : graph.nodes.size ≤ depth) :
    graph.traceWithin depth [] id = graph.trace id :=
  traceWithin_eq (descendsWithin_of_acyclic hclosed hid hacyclic) h []

theorem exists_walkTrace (visitor : Visitor σ) (state : σ) :
    ∃ kept finished, graph.WalkTrace visitor id state kept finished := by
  have hlimit : graph.nodes.size ≤ graph.depthLimit := Nat.le_succ _
  have hdescends : graph.DescendsWithin graph.depthLimit id :=
    hacyclic.descendsWithin hclosed (.start hid) hlimit
  have hrecorded : Returns (graph.walk (.recording (visitor.answer graph state)) id [])
      (Walked (visitor.answer graph state) [] [] (graph.trace id)) := by
    rw [← trace_eq hclosed hid hacyclic hlimit]
    exact walkWithin_recording_returns hclosed hid hdescends [] []
  obtain ⟨⟨finished, made⟩, hwalk, kept, hprunes, hnests, hmade⟩ := hrecorded
  cases hmade
  have hlogged : graph.walk visitor.logged id (state, []) =
      .ok (finished, visitor.replay graph state (calls kept), calls kept) :=
    (walkWithin_mirrored (visitor.recording_mirrors graph state) []).eq_ok hwalk
  refine ⟨kept, finished, hprunes, ?_, hlogged, hprunes.finished_iff, ?_, ?_⟩
  · exact (walkWithin_mirrored (visitor.logged_mirrors graph) (state, [])).eq_ok hlogged
  · rintro rfl
    obtain ⟨hunmatched⟩ := hnests
    exact hunmatched []
  · rintro rfl
    obtain ⟨before, place, stopped, rfl, hstop, -⟩ := hprunes.exists_stop
    obtain _ | ⟨last, path, hlast, hunmatched, hplaces⟩ := hnests
    have hpath := hunmatched []
    rw [List.append_nil] at hpath hplaces
    rw [List.getLast?_concat] at hlast
    cases hlast
    refine ⟨before, place, stopped, path, rfl, hstop, hpath, hplaces, fun entry hentry => ?_⟩
    -- An open place was entered, and what was entered is in the trace.
    have hentered := (enter_mem_of_unmatched hpath entry hentry).resolve_left nofun
    exact descendant?_of_mem_traceWithin rfl (hprunes.subset hentered)

end acyclic

def called (graph : Graph) (visit : NodeId → Node → σ → Bool × σ) (state : σ) (ids : List NodeId) : σ :=
  ids.foldl (fun state id => (visit id (graph.nodeD id) state).2) state

def goesOn (graph : Graph) (visit : NodeId → Node → σ → Bool × σ) (state : σ) (before : List NodeId)
    (id : NodeId) : Bool :=
  (visit id (graph.nodeD id) (graph.called visit state before)).1

/-- A callback is called on all of some nodes, or on those up to the first that it refuses. -/
inductive CallsPrefix (graph : Graph) (visit : NodeId → Node → σ → Bool × σ) (state : σ)
    (ids : List NodeId) : List NodeId → Bool → Prop where
  | all : (∀ before last, before ++ [last] <+: ids → graph.goesOn visit state before last = true) →
      CallsPrefix graph visit state ids ids true
  | refused {before last} : before ++ [last] <+: ids → graph.goesOn visit state before last = false →
      (∀ before' last', before' ++ [last'] <+: before →
        graph.goesOn visit state before' last' = true) →
      CallsPrefix graph visit state ids (before ++ [last]) false

def loggedVisit (visit : NodeId → Node → σ → Bool × σ) (id : NodeId) (node : Node)
    (state : σ × List NodeId) : Bool × σ × List NodeId :=
  let answer := visit id node state.1
  (answer.1, answer.2, state.2 ++ [id])

end Graph

def Visitor.asking (visit : NodeId → Node → σ → Bool × σ) : Visitor σ where
  enter id node state :=
    let answer := visit id node state
    (if answer.1 then .descend else .stop, answer.2)

def Call.entered? : Call → Option NodeId
  | .enter id => some id
  | .leave _ => none

def entered (made : List Call) : List NodeId := made.filterMap Call.entered?

theorem entered_append (xs ys : List Call) : entered (xs ++ ys) = entered xs ++ entered ys :=
  List.filterMap_append

theorem exists_append_of_entered {made : List Call} {before : List NodeId} {last : NodeId}
    (h : before ++ [last] <+: entered made) :
    ∃ xs ys, made = xs ++ .enter last :: ys ∧ entered xs = before := by
  obtain ⟨rest, hrest⟩ := h
  rw [entered, eq_comm, List.append_assoc, List.filterMap_eq_append_iff] at hrest
  obtain ⟨xs, rest', rfl, rfl, hrest⟩ := hrest
  obtain ⟨left, call, ys, rfl, hleft, hcall, -⟩ := List.filterMap_eq_cons_iff.1 hrest
  have hnone : entered left = [] := List.filterMap_eq_nil_iff.2 hleft
  refine ⟨xs ++ left, ys, ?_, ?_⟩
  · cases call with
    | enter id =>
      cases hcall
      rw [List.append_assoc]
    | leave id => cases hcall
  · rw [entered_append, hnone, List.append_nil]
    rfl

namespace Graph

variable {graph : Graph} {id : NodeId} {visit : NodeId → Node → σ → Bool × σ} {state : σ}

theorem walkWhile_eq (graph : Graph) (visit : NodeId → Node → σ → Bool × σ) (id : NodeId)
    (state : σ) : graph.walkWhile visit id state = graph.walk (.asking visit) id state := rfl

theorem replay_asking (made : List Call) :
    (Visitor.asking visit).replay graph state made = graph.called visit state (entered made) := by
  induction made generalizing state with
  | nil => rfl
  | cons call made ih =>
    cases call with
    | enter id => exact ih
    | leave id => exact ih

theorem answer_asking (made : List Call) (id : NodeId) :
    (Visitor.asking visit).answer graph state made id =
      if graph.goesOn visit state (entered made) id then .descend else .stop := by
  rw [Visitor.answer, replay_asking]
  rfl

theorem goesOn_of_answer_ne_stop {made : List Call}
    (h : (Visitor.asking visit).answer graph state made id ≠ .stop) :
    graph.goesOn visit state (entered made) id = true := by
  rw [answer_asking] at h
  by_contra hrefused
  exact h (if_neg hrefused)

theorem called_loggedVisit (state : σ) (log ids : List NodeId) :
    graph.called (loggedVisit visit) (state, log) ids =
      (graph.called visit state ids, log ++ ids) := by
  induction ids generalizing state log with
  | nil => simp [called]
  | cons id ids ih =>
    have hrest := ih (visit id (graph.nodeD id) state).2 (log ++ [id])
    rw [List.append_assoc] at hrest
    exact hrest

theorem goesOn_loggedVisit (before : List NodeId) (id : NodeId) :
    graph.goesOn (loggedVisit visit) (state, []) before id = graph.goesOn visit state before id := by
  rw [goesOn, called_loggedVisit]
  rfl

theorem CallsPrefix.of_loggedVisit {ids called : List NodeId} {finished : Bool}
    (h : graph.CallsPrefix (loggedVisit visit) (state, []) ids called finished) :
    graph.CallsPrefix visit state ids called finished := by
  cases h with
  | all h => exact .all fun before last hcut => goesOn_loggedVisit before last ▸ h before last hcut
  | refused hcut hrefused hbefore =>
    rw [goesOn_loggedVisit] at hrefused
    refine .refused hcut hrefused fun before' last' hcut' => ?_
    exact goesOn_loggedVisit before' last' ▸ hbefore before' last' hcut'

theorem asking_loggedVisit_mirrors (graph : Graph) (visit : NodeId → Node → σ → Bool × σ) :
    (Visitor.asking (loggedVisit visit)).Mirrors graph Prod.fst (.asking visit) :=
  ⟨fun _ _ _ _ => rfl, fun _ _ _ _ => rfl⟩

section acyclic
variable (hclosed : graph.Closed) (hid : graph.HasNode id) (hacyclic : graph.Acyclic id)
include hclosed hid hacyclic

theorem exists_callsPrefix (visit : NodeId → Node → σ → Bool × σ) (state : σ) :
    ∃ called finished,
      graph.CallsPrefix visit state (entered (calls (graph.trace id))) called finished ∧
        graph.walkWhile visit id state = .ok (finished, graph.called visit state called) := by
  obtain ⟨kept, finished, htrace⟩ := exists_walkTrace hclosed hid hacyclic (.asking visit) state
  have hnoskip (made : List Call) (id : NodeId) :
      (Visitor.asking visit).answer graph state made id ≠ .skip := by
    rw [answer_asking]
    split_ifs <;> nofun
  obtain ⟨hcut, hwhole⟩ := htrace.prunes.isPrefix hnoskip
  refine ⟨entered (calls kept), finished, ?_, ?_⟩
  · cases finished with
    | true =>
      have hnever := htrace.finished_iff.1 rfl
      rw [hwhole rfl] at hnever ⊢
      refine .all fun before last hlast => ?_
      obtain ⟨xs, ys, hcalls, rfl⟩ := exists_append_of_entered hlast
      exact goesOn_of_answer_ne_stop (hnever xs last ys hcalls)
    | false =>
      obtain ⟨before, place, last, rfl, hstop, hnever⟩ := htrace.prunes.exists_stop
      have hcalled : entered (calls (before ++ [⟨place, .enter last⟩])) =
          entered (calls before) ++ [last] := by
        rw [calls_append, entered_append]
        rfl
      rw [hcalled]
      refine .refused ?_ ?_ fun before' last' hlast => ?_
      · rw [← hcalled]
        exact (hcut.map call).filterMap Call.entered?
      · rw [List.nil_append, answer_asking] at hstop
        by_contra hgoesOn
        rw [if_pos (Bool.not_eq_false _ ▸ hgoesOn)] at hstop
        cases hstop
      · obtain ⟨xs, ys, hcalls, rfl⟩ := exists_append_of_entered hlast
        exact goesOn_of_answer_ne_stop (hnever xs last' ys hcalls)
  · rw [walkWhile_eq, htrace.walk, replay_asking]

theorem preorder_eq : graph.preorder id = .ok (entered (calls (graph.trace id))) := by
  obtain ⟨ids, finished, hcut, hwalk⟩ := exists_callsPrefix hclosed hid hacyclic
    (fun id _ (ids : Array NodeId) => (true, ids.push id)) #[]
  have hpushed (ids : List NodeId) (before : Array NodeId) :
      (graph.called (fun id _ (ids : Array NodeId) => (true, ids.push id)) before ids).toList =
        before.toList ++ ids := by
    induction ids generalizing before with
    | nil => exact (List.append_nil _).symm
    | cons id ids ih =>
      rw [called, List.foldl_cons]
      refine (ih _).trans ?_
      rw [Array.toList_push, List.append_assoc]
      rfl
  cases hcut with
  | all =>
    rw [preorder, hwalk]
    exact congrArg Except.ok (hpushed _ #[])
  | refused _ hrefused => cases hrefused

end acyclic

/-- A walk that starts above no cycle makes the calls of the trace of its start, for every visitor
and every callback. -/
theorem walk_traced (h : graph.Assembled) (hid : graph.HasNode id) (hacyclic : graph.Acyclic id) :
    (∀ depth, graph.nodes.size ≤ depth → graph.traceWithin depth [] id = graph.trace id) ∧
      (∀ (σ : Type) (visitor : Visitor σ) (state : σ),
        ∃ kept finished, graph.WalkTrace visitor id state kept finished) ∧
      ∃ ids, graph.preorder id = .ok ids ∧
        ∀ (σ : Type) (visit : NodeId → Node → σ → Bool × σ) (state : σ), ∃ called finished,
          graph.CallsPrefix visit state ids called finished ∧
            graph.walkWhile visit id state = .ok (finished, graph.called visit state called) ∧
            graph.walkWhile (loggedVisit visit) id (state, []) =
              .ok (finished, graph.called visit state called, called) := by
  refine ⟨fun depth => trace_eq h.closed hid hacyclic, fun σ visitor state => ?_, _,
    preorder_eq h.closed hid hacyclic, fun σ visit state => ?_⟩
  · exact exists_walkTrace h.closed hid hacyclic visitor state
  · obtain ⟨called, finished, hcut, hwalk⟩ :=
      exists_callsPrefix h.closed hid hacyclic (loggedVisit visit) (state, [])
    rw [called_loggedVisit, List.nil_append] at hwalk
    refine ⟨called, finished, hcut.of_loggedVisit, ?_, hwalk⟩
    exact (walkWithin_mirrored (asking_loggedVisit_mirrors graph visit) (state, [])).eq_ok hwalk

end Graph

def RawGraph.relisted : RawGraph where
  nodes := [
    ⟨"program", {}, [("elements", .arr [.nat 1, .nat 1, .nat 2])]⟩,
    ⟨"paren", {}, [("expr", .nat 3)]⟩,
    ⟨"paren", {}, [("expr", .nat 3)]⟩,
    ⟨"range", {}, []⟩]
  scopes := []

def Visitor.fourth : Visitor Nat where
  enter id _ count := (if count = 4 then .stop else if id = ⟨1⟩ then .skip else .descend, count + 1)

/-- The walk ends in the range below the second expression, which stays open with all above it. -/
theorem Graph.walk_traced_relisted :
    ∃ graph, RawGraph.relisted.link false = .ok graph ∧ graph.Acyclic root ∧
      (∃ kept, graph.WalkTrace .fourth root 0 kept false ∧ calls kept =
        [.enter ⟨0⟩, .enter ⟨1⟩, .leave ⟨1⟩, .enter ⟨1⟩, .leave ⟨1⟩, .enter ⟨2⟩, .enter ⟨3⟩]) ∧
      ∃ ids, graph.preorder root = .ok ids ∧
        graph.CallsPrefix (fun _ _ count => (count ≠ 2, count + 1)) 0 ids [⟨0⟩, ⟨1⟩, ⟨3⟩] false := by
  obtain ⟨graph, h, hroot, hcycle, hlogged, hvisited⟩ :
      ∃ graph, RawGraph.relisted.link false = .ok graph ∧ graph.HasNode root ∧
        graph.findCycle root = .ok none ∧
        graph.walk Visitor.fourth.logged root (0, []) = .ok (false, 5,
          [.enter ⟨0⟩, .enter ⟨1⟩, .leave ⟨1⟩, .enter ⟨1⟩, .leave ⟨1⟩, .enter ⟨2⟩, .enter ⟨3⟩]) ∧
        graph.walkWhile (loggedVisit fun _ _ count => (count ≠ 2, count + 1)) root (0, []) =
          .ok (false, 3, [⟨0⟩, ⟨1⟩, ⟨3⟩]) :=
    ⟨_, rfl, by decide, rfl, rfl, rfl⟩
  have hassembled : graph.Assembled := .raw h
  have hacyclic : graph.Acyclic root := acyclic_of_findCycle hassembled.closed hroot hcycle
  obtain ⟨-, htraces, ids, hids, hprefixes⟩ := walk_traced hassembled hroot hacyclic
  refine ⟨graph, h, hacyclic, ?_, ids, hids, ?_⟩
  · obtain ⟨kept, finished, htrace⟩ := htraces Nat .fourth 0
    have hsame := hlogged.symm.trans htrace.logged
    rw [Except.ok.injEq, Prod.mk.injEq, Prod.mk.injEq] at hsame
    obtain ⟨rfl, -, hcalls⟩ := hsame
    exact ⟨kept, htrace, hcalls.symm⟩
  · obtain ⟨called, finished, hcut, -, hcalled⟩ :=
      hprefixes Nat (fun _ _ count => (count ≠ 2, count + 1)) 0
    have hsame := hvisited.symm.trans hcalled
    rw [Except.ok.injEq, Prod.mk.injEq, Prod.mk.injEq] at hsame
    obtain ⟨rfl, -, rfl⟩ := hsame
    exact hcut

end FormatGraph
