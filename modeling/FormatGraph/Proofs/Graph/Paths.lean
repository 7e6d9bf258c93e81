import FormatGraph.Proofs.Graph.Calls
import FormatGraph.Proofs.Graph.Histogram

/-! Paths to a node. A walk from a node visits each place below it once, and the places are the
paths from that node down, told apart by the positions of the children that they take. So a node is
entered, and left, as many times as there are paths to it. -/

namespace FormatGraph

open Relation

namespace Event

def visit? : Event → Option (List Nat × NodeId)
  | ⟨place, .enter id⟩ => some (place, id)
  | ⟨_, .leave _⟩ => none

def visits (events : List Event) : List (List Nat × NodeId) := events.filterMap visit?

variable {events : List Event} {place : List Nat} {id : NodeId}

theorem visit?_eq_some_iff {event : Event} :
    event.visit? = some (place, id) ↔ event = ⟨place, .enter id⟩ := by
  obtain ⟨place', call⟩ := event
  cases call with
  | enter id' => simp [visit?]
  | leave id' => simp [visit?]

theorem mem_visits_iff : (place, id) ∈ visits events ↔ ⟨place, .enter id⟩ ∈ events := by
  simp only [visits, List.mem_filterMap, visit?_eq_some_iff, exists_eq_right]

theorem visits_append (xs ys : List Event) : visits (xs ++ ys) = visits xs ++ visits ys :=
  List.filterMap_append

theorem entered_calls (events : List Event) :
    entered (calls events) = (visits events).map Prod.snd := by
  induction events with
  | nil => rfl
  | cons event events ih =>
    obtain ⟨place, call⟩ := event
    cases call with
    | enter id => exact congrArg (id :: ·) ih
    | leave id => exact ih

end Event

open Event

namespace Graph

variable {graph : Graph} {id node child start : NodeId} {ids : List NodeId} {depth depth' : Nat}
  {place : List Nat}

/-- The paths from a node to another, as positions of the children that they take. -/
def paths (graph : Graph) (id node : NodeId) : Set (List Nat) :=
  {place | graph.descendant? id place = some node}

theorem visits_traceWithin_succ (depth : Nat) (place : List Nat) (id : NodeId) :
    visits (graph.traceWithin (depth + 1) place id) = (place, id) ::
      visits (siblings (graph.traceWithin depth) place 0 (graph.childList id)) := by
  have hleave : visits [⟨place, .leave id⟩] = [] := rfl
  have henter (events : List Event) : visits (⟨place, .enter id⟩ :: events) =
      (place, id) :: visits events := rfl
  rw [traceWithin, henter, visits_append, hleave, List.append_nil]

section places

theorem nodup_visits_siblings {position : Nat}
    (h : ∀ id ∈ ids, ∀ place, ((visits (graph.traceWithin depth place id)).map Prod.fst).Nodup) :
    ((visits (siblings (graph.traceWithin depth) place position ids)).map Prod.fst).Nodup := by
  induction ids generalizing position with
  | nil => exact List.nodup_nil
  | cons id ids ih =>
    obtain ⟨hid, hids⟩ := List.forall_mem_cons.1 h
    rw [siblings, visits_append, List.map_append]
    refine List.Nodup.append (hid _) (ih hids) fun other hfirst hrest => ?_
    obtain ⟨visit, hvisit, hother⟩ := List.mem_map.1 hfirst
    obtain ⟨visit', hvisit', hother'⟩ := List.mem_map.1 hrest
    have hsame : visit.1 = visit'.1 := hother.trans hother'.symm
    have hapart := siblings_not_suffix (mem_visits_iff.1 hvisit) (mem_visits_iff.1 hvisit')
    exact hapart (hsame ▸ List.suffix_refl visit.1)

theorem nodup_visits (depth : Nat) (place : List Nat) (id : NodeId) :
    ((visits (graph.traceWithin depth place id)).map Prod.fst).Nodup := by
  induction depth generalizing place id with
  | zero => exact List.nodup_nil
  | succ depth ih =>
    rw [visits_traceWithin_succ, List.map_cons]
    refine List.nodup_cons.2 ⟨fun hmem => ?_, nodup_visits_siblings fun id _ place => ih place id⟩
    obtain ⟨⟨other, node⟩, hvisit, rfl⟩ := List.mem_map.1 hmem
    exact (inside_of_mem_siblings (mem_visits_iff.1 hvisit)).2 rfl

theorem visit_self (hdescends : graph.DescendsWithin depth id) (place : List Nat) :
    (place, id) ∈ visits (graph.traceWithin depth place id) := by
  cases depth with
  | zero => cases hdescends
  | succ depth =>
    rw [visits_traceWithin_succ]
    exact List.mem_cons_self

theorem visit_child (hdescends : graph.DescendsWithin depth id) {other : List Nat} {position : Nat}
    (h : (other, node) ∈ visits (graph.traceWithin depth place id))
    (hchild : (graph.childList node)[position]? = some child) :
    (position :: other, child) ∈ visits (graph.traceWithin depth place id) := by
  induction depth generalizing id place with
  | zero => cases hdescends
  | succ depth ih =>
    rw [visits_traceWithin_succ] at h ⊢
    refine List.mem_cons_of_mem _ (mem_visits_iff.2 ?_)
    have hdescends' {id' : NodeId} {index : Nat} (hid' : (graph.childList id)[index]? = some id') :
        graph.DescendsWithin depth id' :=
      hdescends id' (mem_childList.1 (List.mem_of_getElem? hid'))
    rcases List.mem_cons.1 h with heq | h
    · cases heq
      have hself := mem_visits_iff.1 (visit_self (hdescends' hchild) (position :: other))
      exact mem_siblings hchild ((Nat.zero_add position).symm ▸ hself)
    · obtain ⟨index, sibling, hsibling, hevent⟩ := exists_of_mem_siblings (mem_visits_iff.1 h)
      have hbelow := ih (hdescends' hsibling) (mem_visits_iff.2 hevent)
      exact mem_siblings hsibling (mem_visits_iff.1 hbelow)

theorem mem_visits_traceWithin_iff (hdescends : graph.DescendsWithin depth id) :
    (place, node) ∈ visits (graph.traceWithin depth [] id) ↔ place ∈ graph.paths id node := by
  constructor
  · intro h
    exact descendant?_of_mem_traceWithin rfl (mem_visits_iff.1 h)
  · intro h
    induction place generalizing node with
    | nil =>
      cases h
      exact visit_self hdescends []
    | cons position place ih =>
      obtain ⟨parent, hparent, hchild⟩ := Option.bind_eq_some_iff.1 h
      exact visit_child hdescends (ih hparent) hchild

theorem finite_paths (hdescends : graph.DescendsWithin depth id) (node : NodeId) :
    (graph.paths id node).Finite := by
  refine (List.finite_toSet ((visits (graph.traceWithin depth [] id)).map Prod.fst)).subset ?_
  intro place hplace
  exact List.mem_map.2 ⟨(place, node), (mem_visits_traceWithin_iff hdescends).2 hplace, rfl⟩

theorem count_visits (hdescends : graph.DescendsWithin depth id) (node : NodeId) :
    ((visits (graph.traceWithin depth [] id)).map Prod.snd).count node =
      (graph.paths id node).ncard := by
  have hmem (place : List Nat) : place ∈ graph.paths id node ↔
      place ∈ (visits (graph.traceWithin depth [] id)).map Prod.fst ∧
        decide (graph.descendant? id place = some node) = true := by
    rw [decide_eq_true_eq]
    refine ⟨fun hplace => ⟨?_, hplace⟩, fun hplace => hplace.2⟩
    exact List.mem_map.2 ⟨(place, node), (mem_visits_traceWithin_iff hdescends).2 hplace, rfl⟩
  rw [ncard_eq_countP (nodup_visits depth [] id) hmem, List.count_eq_countP, List.countP_map,
    List.countP_map]
  refine List.countP_congr fun visit hvisit => ?_
  have hplace : graph.descendant? id visit.1 = some visit.2 :=
    (mem_visits_traceWithin_iff hdescends).1 hvisit
  simp [hplace]

end places

section orders

def preorderWithin (graph : Graph) : Nat → NodeId → List NodeId
  | 0, _ => []
  | depth + 1, id => id :: (graph.childList id).flatMap (graph.preorderWithin depth)

theorem map_visits_siblings {position : Nat}
    (h : ∀ id place, (visits (graph.traceWithin depth place id)).map Prod.snd =
      graph.preorderWithin depth id) :
    (visits (siblings (graph.traceWithin depth) place position ids)).map Prod.snd =
      ids.flatMap (graph.preorderWithin depth) := by
  induction ids generalizing position with
  | nil => rfl
  | cons id ids ih => rw [siblings, visits_append, List.map_append, h, ih, List.flatMap_cons]

theorem map_visits (depth : Nat) (place : List Nat) (id : NodeId) :
    (visits (graph.traceWithin depth place id)).map Prod.snd = graph.preorderWithin depth id := by
  induction depth generalizing place id with
  | zero => rfl
  | succ depth ih =>
    rw [visits_traceWithin_succ, List.map_cons, map_visits_siblings fun id place => ih place id]
    rfl

theorem postorderWithin_perm (depth : Nat) (id : NodeId) :
    (graph.postorderWithin depth id).Perm (graph.preorderWithin depth id) := by
  induction depth generalizing id with
  | zero => exact .refl _
  | succ depth ih =>
    have hchildren : ((graph.childList id).flatMap (graph.postorderWithin depth)).Perm
        ((graph.childList id).flatMap (graph.preorderWithin depth)) :=
      List.Perm.flatMap_left _ fun child _ => ih child
    exact (List.perm_append_singleton id _).trans (hchildren.cons id)

theorem postorderWithin_eq (hdescends : graph.DescendsWithin depth id) (h : depth ≤ depth') :
    graph.postorderWithin depth' id = graph.postorderWithin depth id := by
  induction depth generalizing depth' id with
  | zero => cases hdescends
  | succ depth ih =>
    obtain ⟨depth', rfl⟩ : ∃ n, depth' = n + 1 := ⟨depth' - 1, by omega⟩
    have hchildren : (graph.childList id).flatMap (graph.postorderWithin depth') =
        (graph.childList id).flatMap (graph.postorderWithin depth) := by
      refine List.flatMap_congr fun child hchild => ?_
      exact ih (hdescends child (mem_childList.1 hchild)) (Nat.le_of_succ_le_succ h)
    rw [postorderWithin, postorderWithin, hchildren]

theorem exists_of_flatMap_eq_append {f : NodeId → List NodeId} {before after : List NodeId}
    (h : ids.flatMap f = before ++ node :: after) :
    ∃ id ∈ ids, ∃ front before' after', f id = before' ++ node :: after' ∧
      before = front ++ before' := by
  induction ids generalizing before with
  | nil => simp at h
  | cons id ids ih =>
    rw [List.flatMap_cons, List.append_eq_append_iff] at h
    rcases h with ⟨rest, rfl, h⟩ | ⟨rest, hid, h⟩
    · obtain ⟨other, hother, front, before', after', hpart, rfl⟩ := ih h
      exact ⟨other, List.mem_cons_of_mem _ hother, f id ++ front, before', after', hpart,
        (List.append_assoc _ _ _).symm⟩
    · cases rest with
      | nil =>
        have hrest : ids.flatMap f = [] ++ node :: after := h.symm
        obtain ⟨other, hother, front, before', after', hpart, hnil⟩ := ih hrest
        refine ⟨other, List.mem_cons_of_mem _ hother, before ++ front, before', after', hpart, ?_⟩
        rw [List.append_assoc, ← hnil, List.append_nil]
      | cons first rest =>
        cases h
        exact ⟨id, List.mem_cons_self, [], before, rest, hid, rfl⟩

theorem postorderWithin_split (hdescends : graph.DescendsWithin depth id) (hdepth : depth ≤ depth')
    {before after : List NodeId} (h : graph.postorderWithin depth id = before ++ node :: after) :
    ReflTransGen graph.Child id node ∧
      ∃ front, before = front ++ (graph.childList node).flatMap (graph.postorderWithin depth') := by
  induction depth generalizing id before after with
  | zero => cases hdescends
  | succ depth ih =>
    have hbelow (child : NodeId) (hchild : child ∈ graph.childList id) :
        graph.DescendsWithin depth child := hdescends child (mem_childList.1 hchild)
    rw [postorderWithin] at h
    rcases List.eq_nil_or_concat after with rfl | ⟨rest, last, rfl⟩
    · obtain ⟨hchildren, hlast⟩ := List.append_inj' h rfl
      obtain rfl : id = node := List.singleton_inj.1 hlast
      refine ⟨.refl, [], ?_⟩
      rw [← hchildren, List.nil_append]
      exact List.flatMap_congr fun child hchild =>
        (postorderWithin_eq (hbelow child hchild) (Nat.le_of_succ_le hdepth)).symm
    · rw [List.concat_eq_append, ← List.cons_append, ← List.append_assoc] at h
      have hchildren := (List.append_inj' h rfl).1
      obtain ⟨child, hchild, front, before', after', hpart, rfl⟩ :=
        exists_of_flatMap_eq_append hchildren
      obtain ⟨hreaches, front', rfl⟩ := ih (hbelow child hchild) (Nat.le_of_succ_le hdepth) hpart
      have hreaches' := ReflTransGen.head (mem_childList.1 hchild) hreaches
      exact ⟨hreaches', front ++ front', (List.append_assoc _ _ _).symm⟩

end orders

/-- What the two orders of the nodes below a node have to do with the paths to them. In postorder a
node comes directly after what is below its children. -/
structure OrdersPaths (graph : Graph) (id : NodeId) (entered left : List NodeId) : Prop where
  finite : ∀ node, (graph.paths id node).Finite
  count : ∀ node, entered.count node = (graph.paths id node).ncard
  perm : left.Perm entered
  mem_iff : ∀ node, node ∈ entered ↔ ReflTransGen graph.Child id node
  after_children : ∀ before node after, left = before ++ node :: after →
    ∃ children below front, graph.children node = .ok children ∧
      List.Forall₂ (fun child ids => graph.postorder child = .ok ids) children below ∧
      before = front ++ below.flatten

section acyclic
variable (hclosed : graph.Closed) (hid : graph.HasNode id) (hacyclic : graph.Acyclic id)
include hclosed hid hacyclic

theorem preorder_eq_preorderWithin :
    graph.preorder id = .ok (graph.preorderWithin graph.nodes.size id) := by
  rw [preorder_eq hclosed hid hacyclic, entered_calls, trace, map_visits]

theorem postorder_eq_postorderWithin :
    graph.postorder id = .ok (graph.postorderWithin graph.nodes.size id) := by
  have hdescends := descendsWithin_of_acyclic hclosed hid hacyclic
  have hlimit : graph.nodes.size ≤ graph.depthLimit := Nat.le_succ _
  have hdescends' : graph.DescendsWithin graph.depthLimit id :=
    hacyclic.descendsWithin hclosed (.start hid) hlimit
  obtain ⟨r, hwalk, -, hleft⟩ := walkWithin_leaving_returns hclosed hid hdescends' #[]
  rw [postorder, walk, hwalk, ← postorderWithin_eq hdescends hlimit]
  exact congrArg Except.ok hleft

theorem children_of_reaches (hreaches : ReflTransGen graph.Child id node) :
    graph.children node = .ok (graph.childList node) ∧ ∀ child ∈ graph.childList node,
      graph.postorder child = .ok (graph.postorderWithin graph.nodes.size child) := by
  have hnode : graph.HasNode node := hclosed.hasNode_of_reaches hid hreaches
  refine ⟨?_, fun child hchild => ?_⟩
  · obtain ⟨found, hfound⟩ := node?_of_hasNode hnode
    rw [children, Graph.node, childList, hfound]
    rfl
  · have hstep : graph.Child node child := mem_childList.1 hchild
    refine postorder_eq_postorderWithin hclosed (hclosed.hasNode_of_child hstep) ?_
    exact fun other hother => hacyclic other ((hreaches.tail hstep).trans hother)

theorem ordersPaths : graph.OrdersPaths id (graph.preorderWithin graph.nodes.size id)
    (graph.postorderWithin graph.nodes.size id) := by
  have hdescends := descendsWithin_of_acyclic hclosed hid hacyclic
  have hperm := graph.postorderWithin_perm graph.nodes.size id
  refine ⟨finite_paths hdescends, fun node => ?_, hperm, fun node => ?_,
    fun before node after h => ?_⟩
  · rw [← map_visits graph.nodes.size [] id]
    exact count_visits hdescends node
  · rw [← hperm.mem_iff]
    exact mem_postorderWithin hdescends
  · obtain ⟨hreaches, front, hbefore⟩ := postorderWithin_split hdescends (Nat.le_refl _) h
    obtain ⟨hchildren, hbelow⟩ := children_of_reaches hclosed hid hacyclic hreaches
    refine ⟨graph.childList node,
      (graph.childList node).map (graph.postorderWithin graph.nodes.size), front, hchildren, ?_, ?_⟩
    · rw [List.forall₂_map_right_iff, List.forall₂_same]
      exact hbelow
    · rw [← List.flatMap_def]
      exact hbefore

end acyclic

/-- From a node above no cycle, both orders list each node once for every path to it. -/
theorem preorder_postorder_paths (h : graph.Assembled) (hid : graph.HasNode id)
    (hacyclic : graph.Acyclic id) :
    ∃ entered left, graph.preorder id = .ok entered ∧ graph.postorder id = .ok left ∧
      graph.OrdersPaths id entered left :=
  ⟨_, _, preorder_eq_preorderWithin h.closed hid hacyclic,
    postorder_eq_postorderWithin h.closed hid hacyclic, ordersPaths h.closed hid hacyclic⟩

theorem preorder_postorder_paths_relisted :
    ∃ graph, RawGraph.relisted.link false = .ok graph ∧ graph.Acyclic root ∧
      graph.preorder root = .ok [⟨0⟩, ⟨1⟩, ⟨3⟩, ⟨1⟩, ⟨3⟩, ⟨2⟩, ⟨3⟩] ∧
      graph.postorder root = .ok [⟨3⟩, ⟨1⟩, ⟨3⟩, ⟨1⟩, ⟨3⟩, ⟨2⟩, ⟨0⟩] ∧
      (graph.paths root ⟨3⟩).ncard = 3 ∧ (graph.paths root ⟨1⟩).ncard = 2 := by
  obtain ⟨graph, h, hroot, hcycle, hentered, hleft⟩ :
      ∃ graph, RawGraph.relisted.link false = .ok graph ∧ graph.HasNode root ∧
        graph.findCycle root = .ok none ∧
        graph.preorder root = .ok [⟨0⟩, ⟨1⟩, ⟨3⟩, ⟨1⟩, ⟨3⟩, ⟨2⟩, ⟨3⟩] ∧
        graph.postorder root = .ok [⟨3⟩, ⟨1⟩, ⟨3⟩, ⟨1⟩, ⟨3⟩, ⟨2⟩, ⟨0⟩] :=
    ⟨_, rfl, by decide, rfl, rfl, rfl⟩
  have hassembled : graph.Assembled := .raw h
  have hacyclic : graph.Acyclic root := acyclic_of_findCycle hassembled.closed hroot hcycle
  obtain ⟨entered, left, hentered', hleft', horders⟩ :=
    preorder_postorder_paths hassembled hroot hacyclic
  obtain rfl : _ = entered := Except.ok.inj (hentered.symm.trans hentered')
  exact ⟨graph, h, hacyclic, hentered, hleft, (horders.count ⟨3⟩).symm, (horders.count ⟨1⟩).symm⟩

end Graph

end FormatGraph
