import FormatGraph.Proofs.Graph.Postorder

/-! Traces. A node is unfolded into a tree: below it are its children, and below them theirs, each in
its own place. The trace of a node is the order in which a walk that is never turned back enters and
leaves the places of that tree. What takes place under a visitor that skips and stops is told from
the trace alone. -/

namespace FormatGraph

inductive Call where
  | enter (id : NodeId)
  | leave (id : NodeId)
  deriving DecidableEq, Repr

namespace Call

def node : Call → NodeId
  | .enter id | .leave id => id

def step (answer : List Call → NodeId → Step) (made : List Call) : Call → Step
  | .enter id => answer made id
  | .leave _ => .descend

end Call

/-- A call at a place of an unfolded node: the positions of the children that lead there, the last
one first. -/
structure Event where
  place : List Nat
  call : Call
  deriving DecidableEq, Repr

namespace Event

def Inside (event : Event) (place : List Nat) : Prop := place <:+ event.place ∧ event.place ≠ place

instance (event : Event) (place : List Nat) : Decidable (event.Inside place) :=
  inferInstanceAs (Decidable (_ ∧ _))

def outside (place : List Nat) (events : List Event) : List Event :=
  events.filter fun event => ¬ event.Inside place

def calls (events : List Event) : List Call := events.map call

/-- The places that are entered and not left, the last one first, with those of `stack` before them.
A place that is left has to be the last one entered. -/
def unmatched : List (List Nat × NodeId) → List Event → Option (List (List Nat × NodeId))
  | stack, [] => some stack
  | stack, ⟨place, .enter id⟩ :: rest => unmatched ((place, id) :: stack) rest
  | stack, ⟨place, .leave id⟩ :: rest =>
    if stack.head? = some (place, id) then unmatched stack.tail rest else none

end Event

open Event

def NeverStops (answer : List Call → NodeId → Step) (made calls : List Call) : Prop :=
  ∀ before id after, calls = before ++ .enter id :: after → answer (made ++ before) id ≠ .stop

/-- The events of a trace that take place, and whether the trace comes to its end. Events strictly
inside a node that is skipped are left out, and nothing comes after a stop. Answers may depend on
the calls that were made before. -/
inductive Prunes (answer : List Call → NodeId → Step) :
    List Call → List Event → List Event → Bool → Prop where
  | done {made} : Prunes answer made [] [] true
  | stop {made event rest} : event.call.step answer made = .stop →
      Prunes answer made (event :: rest) [event] false
  | skip {made event rest kept finished} : event.call.step answer made = .skip →
      Prunes answer (made ++ [event.call]) (outside event.place rest) kept finished →
      Prunes answer made (event :: rest) (event :: kept) finished
  | descend {made event rest kept finished} : event.call.step answer made = .descend →
      Prunes answer (made ++ [event.call]) rest kept finished →
      Prunes answer made (event :: rest) (event :: kept) finished

namespace Event

variable {place : List Nat} {id : NodeId} {events xs ys : List Event}

theorem outside_append_of_apart (h : ∀ event ∈ ys, ¬ event.Inside place) :
    outside place (xs ++ ys) = outside place xs ++ ys := by
  have hkept : outside place ys = ys :=
    List.filter_eq_self.2 fun event hevent => decide_eq_true (h event hevent)
  rw [outside, List.filter_append]
  exact congrArg (outside place xs ++ ·) hkept

theorem outside_eq_nil (h : ∀ event ∈ events, event.Inside place) : outside place events = [] :=
  List.filter_eq_nil_iff.2 fun event hevent houtside => of_decide_eq_true houtside (h event hevent)

theorem Inside.not_inside {event : Event} (h : event.Inside place) (call : Call) :
    ¬ Inside ⟨place, call⟩ event.place := by
  rintro ⟨habove, -⟩
  exact h.2 (habove.eq_of_length_le h.1.length_le)

theorem not_inside_self (event : Event) : ¬ event.Inside event.place := fun h => h.2 rfl

theorem calls_cons (event : Event) (events : List Event) :
    calls (event :: events) = event.call :: calls events := rfl

theorem calls_append (xs ys : List Event) : calls (xs ++ ys) = calls xs ++ calls ys :=
  List.map_append

theorem unmatched_append {stack : List (List Nat × NodeId)} :
    unmatched stack (xs ++ ys) = (unmatched stack xs).bind fun left => unmatched left ys := by
  fun_induction unmatched stack xs with
  | case1 stack => rfl
  | case2 stack place id rest ih => exact ih
  | case3 stack place id rest hhead ih =>
    rw [List.cons_append, unmatched, if_pos hhead]
    exact ih
  | case4 stack place id rest hhead =>
    rw [List.cons_append, unmatched, if_neg hhead]
    rfl

theorem enter_mem_of_unmatched {stack left : List (List Nat × NodeId)}
    (h : unmatched stack events = some left) :
    ∀ entry ∈ left, entry ∈ stack ∨ ⟨entry.1, .enter entry.2⟩ ∈ events := by
  intro entry hentry
  fun_induction unmatched stack events with
  | case1 stack =>
    cases h
    exact .inl hentry
  | case2 stack place id rest ih =>
    rcases ih h with hmem | hmem
    · rcases List.mem_cons.1 hmem with rfl | hmem
      · exact .inr List.mem_cons_self
      · exact .inl hmem
    · exact .inr (List.mem_cons_of_mem _ hmem)
  | case3 stack place id rest hhead ih =>
    exact (ih h).imp List.mem_of_mem_tail (List.mem_cons_of_mem _)
  | case4 => cases h

end Event

theorem neverStops_nil {answer : List Call → NodeId → Step} {made : List Call} :
    NeverStops answer made [] := by
  intro before id after hcalls
  simp at hcalls

theorem neverStops_cons {answer : List Call → NodeId → Step} {made calls : List Call} {call : Call} :
    NeverStops answer made (call :: calls) ↔
      call.step answer made ≠ .stop ∧ NeverStops answer (made ++ [call]) calls := by
  constructor
  · intro h
    refine ⟨?_, fun before id after hcalls => ?_⟩
    · cases call with
      | enter id => exact List.append_nil made ▸ h [] id calls rfl
      | leave id => nofun
    · have hlater := h (call :: before) id after (by rw [hcalls, List.cons_append])
      rwa [List.append_cons] at hlater
  · rintro ⟨hcall, hcalls⟩ before id after heq
    cases before with
    | nil =>
      cases heq
      exact (List.append_nil made).symm ▸ hcall
    | cons call' before =>
      cases heq
      rw [List.append_cons]
      exact hcalls before id after rfl

namespace Prunes

variable {answer : List Call → NodeId → Step} {made : List Call} {finished : Bool}
  {events kept kept' xs ys : List Event}

theorem subset (h : Prunes answer made events kept finished) : kept ⊆ events := by
  induction h with
  | done => exact List.Subset.refl _
  | stop => exact List.cons_subset_cons _ (List.nil_subset _)
  | skip _ _ ih => exact List.cons_subset_cons _ (List.Subset.trans ih (List.filter_subset_self _))
  | descend _ _ ih => exact List.cons_subset_cons _ ih

theorem unique {finished' : Bool} (h : Prunes answer made events kept finished)
    (h' : Prunes answer made events kept' finished') : kept = kept' ∧ finished = finished' := by
  induction h generalizing kept' with
  | done =>
    cases h'
    exact ⟨rfl, rfl⟩
  | stop hstep =>
    cases h' with
    | stop => exact ⟨rfl, rfl⟩
    | skip hstep' => cases hstep.symm.trans hstep'
    | descend hstep' => cases hstep.symm.trans hstep'
  | skip hstep _ ih =>
    cases h' with
    | stop hstep' => cases hstep.symm.trans hstep'
    | skip _ hrest =>
      obtain ⟨rfl, rfl⟩ := ih hrest
      exact ⟨rfl, rfl⟩
    | descend hstep' => cases hstep.symm.trans hstep'
  | descend hstep _ ih =>
    cases h' with
    | stop hstep' => cases hstep.symm.trans hstep'
    | skip hstep' => cases hstep.symm.trans hstep'
    | descend _ hrest =>
      obtain ⟨rfl, rfl⟩ := ih hrest
      exact ⟨rfl, rfl⟩

theorem append (h : Prunes answer made xs kept true)
    (h' : Prunes answer (made ++ calls kept) ys kept' finished)
    (hapart : ∀ event ∈ xs, ∀ other ∈ ys, ¬ other.Inside event.place) :
    Prunes answer made (xs ++ ys) (kept ++ kept') finished := by
  generalize hdone : true = done at h
  induction h with
  | done => simpa [calls] using h'
  | stop => cases hdone
  | @skip made event rest kept _ hstep _ ih =>
    obtain ⟨hevent, hrest⟩ := List.forall_mem_cons.1 hapart
    have hinner := ih (by simpa [calls] using h')
      (fun other hother => hrest other (List.mem_of_mem_filter hother)) hdone
    exact .skip hstep (outside_append_of_apart hevent ▸ hinner)
  | @descend made event rest kept _ hstep _ ih =>
    have hrest := (List.forall_mem_cons.1 hapart).2
    exact .descend hstep (ih (by simpa [calls] using h') hrest hdone)

theorem append_of_stop (h : Prunes answer made xs kept false)
    (hapart : ∀ event ∈ xs, ∀ other ∈ ys, ¬ other.Inside event.place) :
    Prunes answer made (xs ++ ys) kept false := by
  generalize hdone : false = done at h
  induction h with
  | done => cases hdone
  | stop hstep => exact .stop hstep
  | @skip made event rest kept _ hstep _ ih =>
    obtain ⟨hevent, hrest⟩ := List.forall_mem_cons.1 hapart
    have hinner := ih (fun other hother => hrest other (List.mem_of_mem_filter hother)) hdone
    exact .skip hstep (outside_append_of_apart hevent ▸ hinner)
  | @descend made event rest kept _ hstep _ ih =>
    exact .descend hstep (ih (List.forall_mem_cons.1 hapart).2 hdone)

section node
variable {place : List Nat} {id : NodeId} (hinside : ∀ event ∈ events, event.Inside place)
include hinside

theorem skipNode (h : answer made id = .skip) :
    Prunes answer made (⟨place, .enter id⟩ :: (events ++ [⟨place, .leave id⟩]))
      [⟨place, .enter id⟩, ⟨place, .leave id⟩] true := by
  have hleave : ∀ event ∈ [(⟨place, .leave id⟩ : Event)], ¬ event.Inside place :=
    List.forall_mem_singleton.2 (not_inside_self _)
  have hrest : outside place (events ++ [⟨place, .leave id⟩]) = [⟨place, .leave id⟩] := by
    rw [outside_append_of_apart hleave, outside_eq_nil hinside, List.nil_append]
  refine .skip h ?_
  rw [hrest]
  exact .descend rfl .done

theorem leaveNode (h : answer made id = .descend)
    (hevents : Prunes answer (made ++ [.enter id]) events kept true) :
    Prunes answer made (⟨place, .enter id⟩ :: (events ++ [⟨place, .leave id⟩]))
      (⟨place, .enter id⟩ :: (kept ++ [⟨place, .leave id⟩])) true := by
  refine .descend h (hevents.append (.descend rfl .done) fun event hevent => ?_)
  exact List.forall_mem_singleton.2 ((hinside event hevent).not_inside _)

theorem stopInNode (h : answer made id = .descend)
    (hevents : Prunes answer (made ++ [.enter id]) events kept false) :
    Prunes answer made (⟨place, .enter id⟩ :: (events ++ [⟨place, .leave id⟩]))
      (⟨place, .enter id⟩ :: kept) false := by
  refine .descend h (hevents.append_of_stop fun event hevent => ?_)
  exact List.forall_mem_singleton.2 ((hinside event hevent).not_inside _)

end node

theorem finished_iff (h : Prunes answer made events kept finished) :
    finished = true ↔ NeverStops answer made (calls kept) := by
  induction h with
  | done => exact iff_of_true rfl neverStops_nil
  | stop hstep => exact iff_of_false nofun fun hnever => (neverStops_cons.1 hnever).1 hstep
  | skip hstep _ ih =>
    rw [ih, calls_cons, neverStops_cons, hstep]
    exact (and_iff_right nofun).symm
  | descend hstep _ ih =>
    rw [ih, calls_cons, neverStops_cons, hstep]
    exact (and_iff_right nofun).symm

theorem exists_stop (h : Prunes answer made events kept false) :
    ∃ before place id, kept = before ++ [⟨place, .enter id⟩] ∧
      answer (made ++ calls before) id = .stop ∧ NeverStops answer made (calls before) := by
  generalize hcut : false = finished at h
  induction h with
  | done => cases hcut
  | @stop made event rest hstep =>
    obtain ⟨place, call⟩ := event
    cases call with
    | enter id => exact ⟨[], place, id, rfl, (List.append_nil made).symm ▸ hstep, neverStops_nil⟩
    | leave id => cases hstep
  | @skip made event rest kept finished hstep _ ih | @descend made event rest kept finished hstep _ ih =>
    obtain ⟨before, place, id, rfl, hstop, hnever⟩ := ih hcut
    refine ⟨event :: before, place, id, rfl, ?_, neverStops_cons.2 ⟨?_, hnever⟩⟩
    · rwa [calls_cons, List.append_cons]
    · rw [hstep]
      nofun

theorem isPrefix (h : Prunes answer made events kept finished)
    (hanswer : ∀ made id, answer made id ≠ .skip) :
    kept <+: events ∧ (finished = true → kept = events) := by
  induction h with
  | done => exact ⟨List.prefix_refl _, fun _ => rfl⟩
  | stop => exact ⟨List.cons_prefix_cons.2 ⟨rfl, List.nil_prefix⟩, nofun⟩
  | @skip made event rest kept finished hstep _ _ =>
    obtain ⟨place, call⟩ := event
    cases call with
    | enter id => exact absurd hstep (hanswer made id)
    | leave id => cases hstep
  | descend _ _ ih =>
    refine ⟨List.cons_prefix_cons.2 ⟨rfl, ih.1⟩, fun hfinished => ?_⟩
    rw [ih.2 hfinished]

end Prunes

/-- Whether the places that are entered are left again. After a stop the last place stays open, with
all that are above it; those in `above` were entered before. -/
inductive Nests (above : List (List Nat)) (kept : List Event) : Bool → Prop where
  | closed : (∀ stack, unmatched stack kept = some stack) → Nests above kept true
  | cut (last : Event) (path : List (List Nat × NodeId)) : kept.getLast? = some last →
      (∀ stack, unmatched stack kept = some (path ++ stack)) →
      path.map Prod.fst ++ above = last.place.tails → Nests above kept false

namespace Nests

variable {above : List (List Nat)} {place : List Nat} {id : NodeId} {kept kept' : List Event}
  {finished : Bool}

theorem nil : Nests above [] true := .closed fun _ => rfl

theorem append (h : Nests above kept true) (h' : Nests above kept' finished) :
    Nests above (kept ++ kept') finished := by
  obtain ⟨hkept⟩ := h
  have happend (stack : List (List Nat × NodeId)) :
      unmatched stack (kept ++ kept') = unmatched stack kept' := by
    rw [unmatched_append, hkept]
    rfl
  cases h' with
  | closed hclosed => exact .closed fun stack => (happend stack).trans (hclosed stack)
  | cut last path hlast hpath hplaces =>
    refine .cut last path ?_ (fun stack => (happend stack).trans (hpath stack)) hplaces
    rw [List.getLast?_append, hlast]
    rfl

theorem tails_eq (place : List Nat) : place.tails = place :: place.tails.tail := by
  cases place <;> rfl

theorem stop (place : List Nat) (id : NodeId) : Nests place.tails.tail [⟨place, .enter id⟩] false :=
  .cut _ [(place, id)] rfl (fun _ => rfl) (tails_eq place).symm

theorem leave (h : Nests place.tails kept true) :
    Nests above (⟨place, .enter id⟩ :: (kept ++ [⟨place, .leave id⟩])) true := by
  obtain ⟨hkept⟩ := h
  refine .closed fun stack => ?_
  rw [unmatched, unmatched_append, hkept]
  exact if_pos rfl

theorem enter (h : Nests place.tails kept false) :
    Nests place.tails.tail (⟨place, .enter id⟩ :: kept) false := by
  obtain _ | ⟨last, path, hlast, hpath, hplaces⟩ := h
  refine .cut last (path ++ [(place, id)]) ?_ (fun stack => ?_) ?_
  · rw [List.getLast?_cons, hlast]
    rfl
  · rw [unmatched, hpath, List.append_assoc]
    rfl
  · rw [List.map_append, List.append_assoc, ← hplaces, tails_eq place]
    rfl

end Nests

def siblings (trace : List Nat → NodeId → List Event) (place : List Nat) :
    Nat → List NodeId → List Event
  | _, [] => []
  | position, id :: ids => trace (position :: place) id ++ siblings trace place (position + 1) ids

namespace Graph

def traceWithin (graph : Graph) : Nat → List Nat → NodeId → List Event
  | 0, _, _ => []
  | depth + 1, place, id =>
    ⟨place, .enter id⟩ ::
      (siblings (graph.traceWithin depth) place 0 (graph.childList id) ++ [⟨place, .leave id⟩])

def trace (graph : Graph) (id : NodeId) : List Event := graph.traceWithin graph.nodes.size [] id

def descendant? (graph : Graph) (id : NodeId) : List Nat → Option NodeId
  | [] => some id
  | position :: place =>
    (graph.descendant? id place).bind fun parent => (graph.childList parent)[position]?

variable {graph : Graph} {id start : NodeId} {ids : List NodeId} {depth depth' position : Nat}
  {place : List Nat} {event : Event}

theorem siblings_congr {trace trace' : List Nat → NodeId → List Event}
    (h : ∀ id ∈ ids, ∀ place, trace place id = trace' place id) :
    siblings trace place position ids = siblings trace' place position ids := by
  induction ids generalizing position with
  | nil => rfl
  | cons id ids ih =>
    obtain ⟨hid, hids⟩ := List.forall_mem_cons.1 h
    rw [siblings, siblings, hid, ih hids]

theorem exists_of_mem_siblings {trace : List Nat → NodeId → List Event}
    (h : event ∈ siblings trace place position ids) :
    ∃ index id, ids[index]? = some id ∧ event ∈ trace ((position + index) :: place) id := by
  induction ids generalizing position with
  | nil => cases h
  | cons id ids ih =>
    rcases List.mem_append.1 h with h | h
    · exact ⟨0, id, rfl, h⟩
    · obtain ⟨index, id, hid, hevent⟩ := ih h
      refine ⟨index + 1, id, hid, ?_⟩
      rwa [Nat.add_assoc, Nat.add_comm 1] at hevent

theorem mem_siblings {trace : List Nat → NodeId → List Event} {index : Nat}
    (hid : ids[index]? = some id) (h : event ∈ trace ((position + index) :: place) id) :
    event ∈ siblings trace place position ids := by
  induction ids generalizing position index with
  | nil => cases hid
  | cons first ids ih =>
    cases index with
    | zero =>
      cases hid
      exact List.mem_append_left _ h
    | succ index =>
      have hrest : event ∈ trace ((position + 1 + index) :: place) id := by
        rwa [Nat.add_assoc, Nat.add_comm 1]
      exact List.mem_append_right _ (ih hid hrest)

theorem suffix_of_mem_traceWithin (h : event ∈ graph.traceWithin depth place id) :
    place <:+ event.place := by
  induction depth generalizing place id with
  | zero => cases h
  | succ depth ih =>
    rw [traceWithin, List.mem_cons, List.mem_append, List.mem_singleton] at h
    rcases h with rfl | h | rfl
    · exact List.suffix_refl _
    · obtain ⟨index, child, -, hevent⟩ := exists_of_mem_siblings h
      exact (List.suffix_cons _ _).trans (ih hevent)
    · exact List.suffix_refl _

theorem exists_position_of_mem_siblings
    (h : event ∈ siblings (graph.traceWithin depth) place position ids) :
    ∃ index, ((position + index) :: place) <:+ event.place := by
  obtain ⟨index, id, -, hevent⟩ := exists_of_mem_siblings h
  exact ⟨index, suffix_of_mem_traceWithin hevent⟩

theorem inside_of_mem_siblings (h : event ∈ siblings (graph.traceWithin depth) place position ids) :
    event.Inside place := by
  obtain ⟨index, hsuffix⟩ := exists_position_of_mem_siblings h
  refine ⟨(List.suffix_cons _ _).trans hsuffix, fun heq => ?_⟩
  have hlength := hsuffix.length_le
  rw [heq, List.length_cons] at hlength
  omega

theorem siblings_not_suffix {other : Event}
    (h : event ∈ graph.traceWithin depth (position :: place) id)
    (hother : other ∈ siblings (graph.traceWithin depth) place (position + 1) ids) :
    ¬ event.place <:+ other.place := by
  intro hsuffix
  obtain ⟨index, hindex⟩ := exists_position_of_mem_siblings hother
  have hposition := (suffix_of_mem_traceWithin h).trans hsuffix
  have heq := (List.suffix_of_suffix_length_le hposition hindex (Nat.le_refl _)).eq_of_length rfl
  injection heq with heq
  omega

theorem siblings_apart {other : Event}
    (h : event ∈ graph.traceWithin depth (position :: place) id)
    (hother : other ∈ siblings (graph.traceWithin depth) place (position + 1) ids) :
    ¬ other.Inside event.place :=
  fun hinside => siblings_not_suffix h hother hinside.1

theorem traceWithin_eq (hdescends : graph.DescendsWithin depth id) (h : depth ≤ depth')
    (place : List Nat) : graph.traceWithin depth' place id = graph.traceWithin depth place id := by
  induction depth generalizing depth' place id with
  | zero => cases hdescends
  | succ depth ih =>
    obtain ⟨depth', rfl⟩ : ∃ n, depth' = n + 1 := ⟨depth' - 1, by omega⟩
    have hchildren : siblings (graph.traceWithin depth') place 0 (graph.childList id) =
        siblings (graph.traceWithin depth) place 0 (graph.childList id) := by
      refine siblings_congr fun child hchild place => ?_
      exact ih (hdescends child (mem_childList.1 hchild)) (Nat.le_of_succ_le_succ h) place
    rw [traceWithin, traceWithin, hchildren]

theorem descendant?_of_mem_traceWithin (hplace : graph.descendant? start place = some id)
    (h : event ∈ graph.traceWithin depth place id) :
    graph.descendant? start event.place = some event.call.node := by
  induction depth generalizing place id with
  | zero => cases h
  | succ depth ih =>
    rw [traceWithin, List.mem_cons, List.mem_append, List.mem_singleton] at h
    rcases h with rfl | h | rfl
    · exact hplace
    · obtain ⟨index, child, hchild, hevent⟩ := exists_of_mem_siblings h
      refine ih ?_ hevent
      rw [descendant?, hplace, Nat.zero_add]
      exact hchild
    · exact hplace

end Graph

end FormatGraph
