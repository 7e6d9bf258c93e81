import FormatGraph.Command.Dump
import FormatGraph.Proofs.Graph.Paths

/-! Dumps. The depth of a dump goes up and down with the places that the walk is at, so an entry has
the depth of its place, and the depth is the same again when a place is left. A dump down to some
depth is the whole dump without the entries that are deeper. -/

namespace FormatGraph.Dump

open Event FormatGraph.Graph

def entryAt (graph : Graph) (visit : List Nat × NodeId) : DumpEntry :=
  ⟨visit.2, visit.1.length, (graph.nodeD visit.2).kind, (graph.nodeD visit.2).loc,
    graph.nameOf? visit.2⟩

def admits (limit? : Option Nat) (depth : Nat) : Bool := limit?.all (depth ≤ ·)

def shallow (limit? : Option Nat) (events : List Event) : List Event :=
  events.filter fun event => admits limit? event.place.length

/-- Events that lead from one depth to another. A place is entered at its own depth, and left from
the next one. -/
inductive Levelled : Nat → List Event → Nat → Prop where
  | nil (level : Nat) : Levelled level [] level
  | enter {place : List Nat} {id : NodeId} {rest : List Event} {level : Nat} :
      Levelled (place.length + 1) rest level →
      Levelled place.length (⟨place, .enter id⟩ :: rest) level
  | leave {place : List Nat} {id : NodeId} {rest : List Event} {level : Nat} :
      Levelled place.length rest level →
      Levelled (place.length + 1) (⟨place, .leave id⟩ :: rest) level

variable {graph : Graph} {limit? : Option Nat} {id : NodeId} {ids : List NodeId} {place : List Nat}
  {depth position level level' level'' : Nat} {events xs ys : List Event} {dump : Dump}
  {made : List Call}

namespace Levelled

theorem append (h : Levelled level xs level') (h' : Levelled level' ys level'') :
    Levelled level (xs ++ ys) level'' := by
  induction h with
  | nil => exact h'
  | enter _ ih => exact .enter (ih h')
  | leave _ ih => exact .leave (ih h')

theorem exists_of_append (h : Levelled level (xs ++ ys) level'') :
    ∃ level', Levelled level xs level' ∧ Levelled level' ys level'' := by
  induction xs generalizing level with
  | nil => exact ⟨level, .nil level, h⟩
  | cons event xs ih =>
    cases h with
    | enter hrest =>
      obtain ⟨level', hxs, hys⟩ := ih hrest
      exact ⟨level', .enter hxs, hys⟩
    | leave hrest =>
      obtain ⟨level', hxs, hys⟩ := ih hrest
      exact ⟨level', .leave hxs, hys⟩

theorem replay (h : Levelled level events level') (hdump : dump.depth = level) :
    ((visitor graph limit?).replay graph dump (calls events)).depth = level' ∧
      ((visitor graph limit?).replay graph dump (calls events)).entries.toList =
        dump.entries.toList ++ (visits events).map (entryAt graph) := by
  induction h generalizing dump with
  | nil => exact ⟨hdump, (List.append_nil _).symm⟩
  | @enter place id rest level _ ih =>
    have hnext : (visitor graph limit?).after graph dump (.enter id) =
        ⟨place.length + 1, dump.entries.push (entryAt graph (place, id))⟩ := by
      rw [entryAt, ← hdump]
      rfl
    obtain ⟨hdepth, hentries⟩ := ih (congrArg Dump.depth hnext)
    refine ⟨hdepth, hentries.trans ?_⟩
    rw [hnext, Array.toList_push, List.append_assoc]
    rfl
  | @leave place id rest level _ ih =>
    have hnext : ((visitor graph limit?).after graph dump (.leave id)).depth = place.length :=
      congrArg (· - 1) hdump
    exact ih hnext

end Levelled

section shallow

theorem shallow_append (xs ys : List Event) :
    shallow limit? (xs ++ ys) = shallow limit? xs ++ shallow limit? ys :=
  List.filter_append _ _

theorem shallow_cons {event : Event} (h : admits limit? event.place.length = true) :
    shallow limit? (event :: events) = event :: shallow limit? events :=
  List.filter_cons_of_pos h

theorem shallow_none (events : List Event) : shallow none events = events :=
  List.filter_eq_self.2 fun _ _ => rfl

theorem shallow_eq_nil (hdepth : admits limit? depth = false)
    (h : ∀ event ∈ events, depth ≤ event.place.length) : shallow limit? events = [] := by
  refine List.filter_eq_nil_iff.2 fun event hevent => ?_
  have hle := h event hevent
  cases limit? with
  | none => cases hdepth
  | some limit =>
    simp only [admits, Option.all_some, decide_eq_false_iff_not, decide_eq_true_eq] at hdepth ⊢
    omega

theorem visits_shallow (events : List Event) :
    visits (shallow limit? events) =
      (visits events).filter fun visit => admits limit? visit.1.length := by
  have hvisit (event : Event) : (if admits limit? event.place.length then event.visit? else none) =
      event.visit?.filter fun visit => admits limit? visit.1.length := by
    obtain ⟨place, call⟩ := event
    cases call with
    | enter id => rfl
    | leave id => exact ite_self none
  rw [visits, shallow, List.filterMap_filter, visits, List.filter_filterMap]
  exact List.filterMap_congr fun event _ => hvisit event

theorem shallow_siblings_eq_nil (h : admits limit? (place.length + 1) = false) :
    shallow limit? (siblings (graph.traceWithin depth) place position ids) = [] := by
  refine shallow_eq_nil h fun event hevent => ?_
  obtain ⟨index, hsuffix⟩ := exists_position_of_mem_siblings hevent
  exact hsuffix.length_le

theorem shallow_traceWithin_eq_nil (h : admits limit? place.length = false) :
    shallow limit? (graph.traceWithin depth place id) = [] :=
  shallow_eq_nil h fun _ hevent => (suffix_of_mem_traceWithin hevent).length_le

theorem shallow_traceWithin_succ (h : admits limit? place.length = true) :
    shallow limit? (graph.traceWithin (depth + 1) place id) = ⟨place, .enter id⟩ ::
      (shallow limit? (siblings (graph.traceWithin depth) place 0 (graph.childList id)) ++
        [⟨place, .leave id⟩]) := by
  have hleave : shallow limit? [⟨place, .leave id⟩] = [⟨place, .leave id⟩] := shallow_cons h
  rw [traceWithin, shallow_cons h, shallow_append, hleave]

theorem levelled_siblings (h : ∀ id place,
      Levelled place.length (shallow limit? (graph.traceWithin depth place id)) place.length) :
    Levelled (place.length + 1)
      (shallow limit? (siblings (graph.traceWithin depth) place position ids))
      (place.length + 1) := by
  induction ids generalizing position with
  | nil => exact .nil _
  | cons id ids ih =>
    rw [siblings, shallow_append]
    exact (h id (position :: place)).append ih

theorem levelled_traceWithin (limit? : Option Nat) (depth : Nat) (place : List Nat) (id : NodeId) :
    Levelled place.length (shallow limit? (graph.traceWithin depth place id)) place.length := by
  induction depth generalizing place id with
  | zero => exact .nil _
  | succ depth ih =>
    cases hadmits : admits limit? place.length with
    | false =>
      rw [shallow_traceWithin_eq_nil hadmits]
      exact .nil _
    | true =>
      rw [shallow_traceWithin_succ hadmits]
      exact .enter ((levelled_siblings fun id place => ih place id).append (.leave (.nil _)))

end shallow

section prunes

theorem answer_eq (hdepth : ((visitor graph limit?).replay graph dump made).depth = depth) :
    (visitor graph limit?).answer graph dump made id =
      if admits limit? (depth + 1) then .descend else .skip := by
  rw [← hdepth]
  cases limit? with
  | none => rfl
  | some limit =>
    change (if decide (limit ≤ _) = true then Step.skip else .descend) =
      if decide (_ + 1 ≤ limit) = true then .descend else .skip
    grind

theorem prunes_siblings
    (h : ∀ id place made, ((visitor graph limit?).replay graph dump made).depth = place.length →
      admits limit? place.length = true → Prunes ((visitor graph limit?).answer graph dump) made
        (graph.traceWithin depth place id) (shallow limit? (graph.traceWithin depth place id)) true)
    (hdepth : ((visitor graph limit?).replay graph dump made).depth = place.length + 1)
    (hadmits : admits limit? (place.length + 1) = true) :
    Prunes ((visitor graph limit?).answer graph dump) made
      (siblings (graph.traceWithin depth) place position ids)
      (shallow limit? (siblings (graph.traceWithin depth) place position ids)) true := by
  induction ids generalizing position made with
  | nil => exact .done
  | cons id ids ih =>
    have hfirst := h id (position :: place) made hdepth hadmits
    -- The first sibling is left at the depth that it is entered at.
    have hnext : ((visitor graph limit?).replay graph dump
        (made ++ calls (shallow limit? (graph.traceWithin depth (position :: place) id)))).depth =
          place.length + 1 := by
      rw [Visitor.replay, List.foldl_append]
      exact ((levelled_traceWithin limit? depth (position :: place) id).replay hdepth).1
    rw [siblings, shallow_append]
    exact hfirst.append (ih hnext) fun _ hevent _ hother => siblings_apart hevent hother

theorem prunes_traceWithin (depth : Nat)
    (hdepth : ((visitor graph limit?).replay graph dump made).depth = place.length)
    (hadmits : admits limit? place.length = true) :
    Prunes ((visitor graph limit?).answer graph dump) made (graph.traceWithin depth place id)
      (shallow limit? (graph.traceWithin depth place id)) true := by
  induction depth generalizing place id made with
  | zero => exact .done
  | succ depth ih =>
    have hinside : ∀ event ∈ siblings (graph.traceWithin depth) place 0 (graph.childList id),
        event.Inside place := fun _ => inside_of_mem_siblings
    have hanswer : (visitor graph limit?).answer graph dump made id =
        if admits limit? (place.length + 1) then .descend else .skip := answer_eq hdepth
    rw [shallow_traceWithin_succ hadmits, traceWithin]
    cases hbelow : admits limit? (place.length + 1) with
    | false =>
      rw [hbelow] at hanswer
      rw [shallow_siblings_eq_nil hbelow]
      exact .skipNode hinside hanswer
    | true =>
      rw [hbelow] at hanswer
      have hentered : ((visitor graph limit?).replay graph dump (made ++ [.enter id])).depth =
          place.length + 1 := by
        rw [Visitor.replay, List.foldl_concat]
        exact congrArg (· + 1) hdepth
      refine .leaveNode hinside hanswer (prunes_siblings ?_ hentered hbelow)
      exact fun id place made => ih

end prunes

/-- How a dump is made by the events of a walk: each entry at the depth of its place, which is a
path down from the root, and with a depth that can be taken back whenever a node is left. -/
structure Makes (graph : Graph) (limit? : Option Nat) (kept : List Event) (dump : Dump) : Prop where
  traced : graph.WalkTrace (visitor graph limit?) root {} kept true
  walk : graph.walk (visitor graph limit?) root {} = .ok (true, dump)
  entries : dump.entries.toList = (visits kept).map (entryAt graph)
  descendant : ∀ visit ∈ visits kept, graph.descendant? root visit.1 = some visit.2
  leave : ∀ before place id after, kept = before ++ ⟨place, .leave id⟩ :: after →
    1 ≤ ((visitor graph limit?).replay graph {} (calls before)).depth
  depth : dump.depth = 0

section acyclic
variable (hclosed : graph.Closed) (hacyclic : graph.Acyclic root)
include hclosed hacyclic

theorem walkTrace_shallow (limit? : Option Nat) :
    graph.WalkTrace (visitor graph limit?) root {} (shallow limit? (graph.trace root)) true := by
  obtain ⟨kept, finished, htrace⟩ :=
    exists_walkTrace hclosed (hasNode_root hclosed) hacyclic (visitor graph limit?) {}
  have hadmits : admits limit? 0 = true := by
    cases limit? with
    | none => rfl
    | some limit => exact decide_eq_true (Nat.zero_le limit)
  have hprunes : Prunes ((visitor graph limit?).answer graph {}) [] (graph.trace root)
      (shallow limit? (graph.trace root)) true := prunes_traceWithin graph.nodes.size rfl hadmits
  obtain ⟨rfl, rfl⟩ := htrace.prunes.unique hprunes
  exact htrace

theorem makes_shallow (limit? : Option Nat) :
    ∃ dump, Makes graph limit? (shallow limit? (graph.trace root)) dump := by
  have htrace := walkTrace_shallow hclosed hacyclic limit?
  have hlevelled : Levelled 0 (shallow limit? (graph.trace root)) 0 :=
    levelled_traceWithin limit? graph.nodes.size [] root
  refine ⟨_, htrace, htrace.walk, (hlevelled.replay rfl).2, fun visit hvisit => ?_,
    fun before place id after h => ?_, (hlevelled.replay rfl).1⟩
  · exact descendant?_of_mem_traceWithin rfl (htrace.prunes.subset (mem_visits_iff.1 hvisit))
  · -- A place is left from the depth after its own, which is not zero.
    rw [h] at hlevelled
    obtain ⟨level, hbefore, hafter⟩ := hlevelled.exists_of_append
    rw [(hbefore.replay rfl).1]
    cases hafter
    exact Nat.le_add_left 1 _

end acyclic

theorem entriesOf_eq {kept : List Event} (h : Makes graph limit? kept dump) :
    entriesOf graph limit? = .ok ((visits kept).map (entryAt graph)) := by
  rw [entriesOf, h.walk, ← h.entries]
  rfl

/-- A dump down to some depth has the entries of the whole dump that are not deeper, and the whole
dump lists the nodes in preorder. -/
theorem entriesOf_filter (h : graph.Assembled) (hacyclic : graph.Acyclic root) :
    (∃ full, entriesOf graph none = .ok full ∧ graph.preorder root = .ok (full.map DumpEntry.id) ∧
      ∀ limit, entriesOf graph (some limit) = .ok (full.filter (·.depth ≤ limit))) ∧
    ∀ limit?, ∃ kept dump, Makes graph limit? kept dump ∧
      entriesOf graph limit? = .ok dump.entries.toList := by
  have hmakes := makes_shallow h.closed hacyclic
  refine ⟨⟨(visits (graph.trace root)).map (entryAt graph), ?_, ?_, fun limit => ?_⟩,
    fun limit? => ?_⟩
  · obtain ⟨dump, hdump⟩ := hmakes none
    rw [entriesOf_eq hdump, shallow_none]
  · rw [preorder_eq h.closed (hasNode_root h.closed) hacyclic, entered_calls, List.map_map]
    rfl
  · obtain ⟨dump, hdump⟩ := hmakes (some limit)
    rw [entriesOf_eq hdump, visits_shallow, List.filter_map]
    rfl
  · obtain ⟨dump, hdump⟩ := hmakes limit?
    exact ⟨_, dump, hdump, (entriesOf_eq hdump).trans (congrArg _ hdump.entries.symm)⟩

theorem entriesOf_filter_relisted :
    ∃ graph, RawGraph.relisted.link false = .ok graph ∧ graph.Acyclic root ∧
      (entriesOf graph none).map (·.map fun entry => (entry.id, entry.depth)) =
        .ok [(⟨0⟩, 0), (⟨1⟩, 1), (⟨3⟩, 2), (⟨1⟩, 1), (⟨3⟩, 2), (⟨2⟩, 1), (⟨3⟩, 2)] ∧
      (∃ full, entriesOf graph none = .ok full ∧
        entriesOf graph (some 1) = .ok (full.filter (·.depth ≤ 1))) ∧
      (entriesOf graph (some 1)).map (·.map DumpEntry.id) = .ok [⟨0⟩, ⟨1⟩, ⟨1⟩, ⟨2⟩] ∧
      ∃ kept dump, Makes graph (some 1) kept dump ∧ dump.entries.size = 4 := by
  obtain ⟨graph, h, hcycle, hfull, hlimited⟩ :
      ∃ graph, RawGraph.relisted.link false = .ok graph ∧ graph.findCycle root = .ok none ∧
        (entriesOf graph none).map (·.map fun entry => (entry.id, entry.depth)) =
          .ok [(⟨0⟩, 0), (⟨1⟩, 1), (⟨3⟩, 2), (⟨1⟩, 1), (⟨3⟩, 2), (⟨2⟩, 1), (⟨3⟩, 2)] ∧
        (entriesOf graph (some 1)).map (·.map DumpEntry.id) = .ok [⟨0⟩, ⟨1⟩, ⟨1⟩, ⟨2⟩] :=
    ⟨_, rfl, rfl, by decide +kernel, rfl⟩
  have hassembled : graph.Assembled := .raw h
  have hacyclic : graph.Acyclic root :=
    acyclic_of_findCycle hassembled.closed (hasNode_root hassembled.closed) hcycle
  obtain ⟨⟨full, hnone, -, hsome⟩, hmakes⟩ := entriesOf_filter hassembled hacyclic
  obtain ⟨kept, dump, hdump, hentries⟩ := hmakes (some 1)
  refine ⟨graph, h, hacyclic, hfull, ⟨full, hnone, hsome 1⟩, hlimited, kept, dump, hdump, ?_⟩
  rw [hentries] at hlimited
  have hids : dump.entries.toList.map DumpEntry.id = [⟨0⟩, ⟨1⟩, ⟨1⟩, ⟨2⟩] := Except.ok.inj hlimited
  simpa using congrArg List.length hids

end FormatGraph.Dump
