import FormatGraph.Proofs.Graph.Chain
import FormatGraph.Proofs.Graph.Ends
import FormatGraph.Proofs.Link.Handles

/-! Resolution of identifiers to their bases. A node has at most one step to take, so from each node
there is one chain of steps. It ends, or from some node on it goes round a loop. The first node of the
loop is the first that comes twice, and it is its own base. -/

namespace FormatGraph.Graph

variable {graph : Graph} {id next : NodeId}

def IsIdent (graph : Graph) (id : NodeId) : Prop :=
  ∃ node, graph.node? id = some node ∧ node.kind = .ident

inductive BaseStep (graph : Graph) (id : NodeId) : Bool → NodeId → Prop where
  | ident {node target : Node} {base : NodeId} : graph.node? id = some node → node.kind = .ident →
      node.ref? "base" = some base → graph.node? base = some target → target.kind = .ident →
      BaseStep graph id false base
  | member {node target : Node} {base next : NodeId} : graph.node? id = some node →
      node.kind = .ident → node.ref? "base" = some base → graph.node? base = some target →
      target.kind = .memberAccess → target.ref? "base" = some next → BaseStep graph id true next

/-- The steps lead from one node to the other. Each is marked with whether it is through a member
access. -/
def Along (graph : Graph) : List Bool → NodeId → NodeId → Prop
  | [], id, last => id = last
  | through :: steps, id, last => ∃ next, graph.BaseStep id through next ∧ graph.Along steps next last

def Comes (graph : Graph) (id : NodeId) (n : Nat) (last : NodeId) : Prop :=
  ∃ steps, steps.length = n ∧ graph.Along steps id last

/-- Where the steps lead to, and what steps are taken. They are all that there are, or they end at
the first node that comes again. Then no node that comes before it comes twice. -/
inductive Resolves (graph : Graph) (id : NodeId) (steps : List Bool) (last : NodeId) : Prop where
  | ends : graph.Along steps id last → (∀ through next, ¬ graph.BaseStep last through next) →
      Resolves graph id steps last
  | circles {m : Nat} : (∀ n, ∃ node, graph.Comes id n node) → graph.Along steps id last →
      m < steps.length → graph.Comes id m last →
      (∀ i j node, i < j → graph.Comes id i node → graph.Comes id j node →
        m ≤ i ∧ steps.length ≤ j) →
      Resolves graph id steps last

section step
variable {node target : Node} {base : NodeId} {through through' : Bool} {next' : NodeId}

theorem baseStep_iff (hnode : graph.node? id = some node) (hkind : node.kind = .ident)
    (hbase : node.ref? "base" = some base) (htarget : graph.node? base = some target) :
    graph.BaseStep id through next ↔ target.kind = .ident ∧ through = false ∧ next = base ∨
      target.kind = .memberAccess ∧ through = true ∧ target.ref? "base" = some next := by
  constructor
  · intro h
    cases h with
    | ident hnode' _ hbase' htarget' hident =>
      cases hnode.symm.trans hnode'
      cases hbase.symm.trans hbase'
      cases htarget.symm.trans htarget'
      exact .inl ⟨hident, rfl, rfl⟩
    | member hnode' _ hbase' htarget' hmember hnext =>
      cases hnode.symm.trans hnode'
      cases hbase.symm.trans hbase'
      cases htarget.symm.trans htarget'
      exact .inr ⟨hmember, rfl, hnext⟩
  · rintro (⟨hident, rfl, rfl⟩ | ⟨hmember, rfl, hnext⟩)
    · exact .ident hnode hkind hbase htarget hident
    · exact .member hnode hkind hbase htarget hmember hnext

theorem BaseStep.unique (h : graph.BaseStep id through next)
    (h' : graph.BaseStep id through' next') : through = through' ∧ next = next' := by
  cases h with
  | ident hnode hkind hbase htarget hident =>
    rcases (baseStep_iff hnode hkind hbase htarget).1 h' with ⟨-, rfl, rfl⟩ | ⟨hmember, -, -⟩
    · exact ⟨rfl, rfl⟩
    · cases hident.symm.trans hmember
  | member hnode hkind hbase htarget hmember hnext =>
    rcases (baseStep_iff hnode hkind hbase htarget).1 h' with ⟨hident, -, -⟩ | ⟨-, rfl, hnext'⟩
    · cases hmember.symm.trans hident
    · exact ⟨rfl, Option.some.inj (hnext.symm.trans hnext')⟩

theorem BaseStep.exists_base (h : graph.BaseStep id through next) :
    ∃ base, (graph.ofKind? .ident id).bind (·.ref? "base") = some base := by
  have hofKind {node : Node} (hnode : graph.node? id = some node) (hkind : node.kind = .ident) :
      graph.ofKind? .ident id = some node :=
    Option.filter_eq_some_iff.2 ⟨hnode, decide_eq_true hkind⟩
  cases h with
  | ident hnode hkind hbase => exact ⟨_, by rw [hofKind hnode hkind]; exact hbase⟩
  | member hnode hkind hbase => exact ⟨_, by rw [hofKind hnode hkind]; exact hbase⟩

def stepThrough (base : NodeId) (target : Node) : Option (NodeId × Bool) :=
  match target.kind with
  | .ident => some (base, false)
  | .memberAccess => (target.ref? "base").map (·, true)
  | _ => none

theorem stepThrough_eq_some_iff : stepThrough base target = some (next, through) ↔
    target.kind = .ident ∧ through = false ∧ next = base ∨
      target.kind = .memberAccess ∧ through = true ∧ target.ref? "base" = some next := by
  unfold stepThrough
  split
  next hident =>
    rw [hident, Option.some.injEq, Prod.mk.injEq]
    constructor
    · rintro ⟨rfl, rfl⟩
      exact .inl ⟨rfl, rfl, rfl⟩
    · rintro (⟨-, rfl, rfl⟩ | ⟨hmember, -⟩)
      · exact ⟨rfl, rfl⟩
      · cases hmember
  next hmember =>
    rw [hmember, Option.map_eq_some_iff]
    constructor
    · rintro ⟨next, hnext, hpair⟩
      cases hpair
      exact .inr ⟨rfl, rfl, hnext⟩
    · rintro (⟨hident, -⟩ | ⟨-, rfl, hnext⟩)
      · cases hident
      · exact ⟨next, hnext, rfl⟩
  next hident hmember =>
    refine ⟨nofun, ?_⟩
    rintro (⟨hkind, -⟩ | ⟨hkind, -⟩)
    · exact absurd hkind hident
    · exact absurd hkind hmember

theorem baseStep_of_base (hbase : (graph.ofKind? .ident id).bind (·.ref? "base") = some base)
    (htarget : graph.node base = .ok target) :
    graph.baseStep id = .ok (stepThrough base target) := by
  unfold baseStep stepThrough
  rw [hbase]
  dsimp only
  rw [htarget]
  dsimp only [bind, Except.bind]
  cases target.kind <;> rfl

theorem baseStep_eq_ok (hlinked : graph.Linked) (id : NodeId) :
    ∃ step?, graph.baseStep id = .ok step? ∧
      ∀ next through, step? = some (next, through) ↔ graph.BaseStep id through next := by
  cases hbase : (graph.ofKind? .ident id).bind (·.ref? "base") with
  | none =>
    refine ⟨none, ?_, fun next through => ⟨nofun, fun hstep => ?_⟩⟩
    · rw [baseStep, hbase]
      rfl
    · obtain ⟨base, hbase'⟩ := hstep.exists_base
      cases hbase.symm.trans hbase'
  | some base =>
    obtain ⟨node, hofKind, href⟩ := Option.bind_eq_some_iff.1 hbase
    obtain ⟨hnode, hkind⟩ := node?_of_ofKind? hofKind
    have hhas := hlinked.hasNode_of_ref? (mem_nodes_of_node? hnode) href
    obtain ⟨target, heq, htarget⟩ := node_returns hhas
    refine ⟨stepThrough base target, baseStep_of_base hbase heq, fun next through => ?_⟩
    rw [stepThrough_eq_some_iff, baseStep_iff hnode hkind href htarget]

end step

section chains
variable {x y z : NodeId} {u w : List Bool} {m n : Nat}

theorem along_append :
    graph.Along (u ++ w) x y ↔ ∃ z, graph.Along u x z ∧ graph.Along w z y := by
  induction u generalizing x with
  | nil =>
    rw [List.nil_append]
    constructor
    · intro h
      exact ⟨x, rfl, h⟩
    · rintro ⟨z, rfl, h⟩
      exact h
  | cons through u ih =>
    rw [List.cons_append]
    constructor
    · rintro ⟨next, hstep, h⟩
      obtain ⟨z, hz, hy⟩ := ih.1 h
      exact ⟨z, ⟨next, hstep, hz⟩, hy⟩
    · rintro ⟨z, ⟨next, hstep, hz⟩, hy⟩
      exact ⟨next, hstep, ih.2 ⟨z, hz, hy⟩⟩

theorem along_singleton {through : Bool} : graph.Along [through] x y ↔ graph.BaseStep x through y := by
  constructor
  · rintro ⟨next, hstep, rfl⟩
    exact hstep
  · intro hstep
    exact ⟨y, hstep, rfl⟩

theorem Along.unique (h : graph.Along u x y) (h' : graph.Along w x z) (hlength : u.length = w.length) :
    u = w ∧ y = z := by
  induction u generalizing x w with
  | nil =>
    obtain rfl : w = [] := List.eq_nil_of_length_eq_zero hlength.symm
    exact ⟨rfl, h.symm.trans h'⟩
  | cons through u ih =>
    cases w with
    | nil => cases hlength
    | cons through' w =>
      obtain ⟨next, hstep, h⟩ := h
      obtain ⟨next', hstep', h'⟩ := h'
      obtain ⟨rfl, rfl⟩ := hstep.unique hstep'
      obtain ⟨rfl, rfl⟩ := ih h h' (Nat.succ.inj hlength)
      exact ⟨rfl, rfl⟩

theorem Along.comes (h : graph.Along u x y) : graph.Comes x u.length y := ⟨u, rfl, h⟩

theorem comes_zero : graph.Comes x 0 y ↔ x = y := by
  constructor
  · rintro ⟨steps, hlength, h⟩
    obtain rfl := List.eq_nil_of_length_eq_zero hlength
    exact h
  · rintro rfl
    exact ⟨[], rfl, rfl⟩

theorem Comes.unique (h : graph.Comes x n y) (h' : graph.Comes x n z) : y = z := by
  obtain ⟨u, rfl, hu⟩ := h
  obtain ⟨w, hlength, hw⟩ := h'
  exact (hu.unique hw hlength.symm).2

theorem comes_add : graph.Comes x (m + n) y ↔ ∃ z, graph.Comes x m z ∧ graph.Comes z n y := by
  constructor
  · rintro ⟨steps, hlength, h⟩
    rw [← List.take_append_drop m steps] at h
    obtain ⟨z, hz, hy⟩ := along_append.1 h
    refine ⟨z, ⟨_, ?_, hz⟩, ⟨_, ?_, hy⟩⟩
    · rw [List.length_take]
      omega
    · rw [List.length_drop]
      omega
  · rintro ⟨z, ⟨u, rfl, hu⟩, w, rfl, hw⟩
    exact ⟨u ++ w, List.length_append, along_append.2 ⟨z, hu, hw⟩⟩

theorem Comes.add_iff (h : graph.Comes x m z) : graph.Comes x (m + n) y ↔ graph.Comes z n y := by
  rw [comes_add]
  constructor
  · rintro ⟨z', hz', hy⟩
    rw [h.unique hz']
    exact hy
  · intro hy
    exact ⟨z, h, hy⟩

theorem comes_succ : graph.Comes x (n + 1) y ↔
    ∃ z through, graph.Comes x n z ∧ graph.BaseStep z through y := by
  rw [comes_add]
  constructor
  · rintro ⟨z, hz, steps, hlength, h⟩
    obtain ⟨through, rfl⟩ := List.length_eq_one_iff.1 hlength
    exact ⟨z, through, hz, along_singleton.1 h⟩
  · rintro ⟨z, through, hz, hstep⟩
    exact ⟨z, hz, [through], rfl, along_singleton.2 hstep⟩

end chains

section loop
variable {x y z : NodeId} {m n : Nat} (hlt : m < n) (hm : graph.Comes x m z)
  (hn : graph.Comes x n z)
include hlt hm hn

theorem comes_forever (k : Nat) : ∃ node, graph.Comes x k node := by
  induction k using Nat.strong_induction_on with
  | h k ih =>
    by_cases hk : k ≤ n
    · obtain ⟨d, rfl⟩ := Nat.exists_eq_add_of_le hk
      obtain ⟨node, hnode, -⟩ := comes_add.1 hn
      exact ⟨node, hnode⟩
    · obtain ⟨d, rfl⟩ := Nat.exists_eq_add_of_le (Nat.le_of_not_le hk)
      obtain ⟨node, hnode⟩ := ih (m + d) (Nat.add_lt_add_right hlt d)
      exact ⟨node, hn.add_iff.2 (hm.add_iff.1 hnode)⟩

theorem exists_comes_on_loop {j : Nat} (hj : m ≤ j) (h : graph.Comes x j y) :
    ∃ i, m ≤ i ∧ i < n ∧ graph.Comes x i y := by
  induction j using Nat.strong_induction_on with
  | h j ih =>
    by_cases hjn : j < n
    · exact ⟨j, hj, hjn, h⟩
    · obtain ⟨d, rfl⟩ := Nat.exists_eq_add_of_le (Nat.le_of_not_lt hjn)
      have hback : graph.Comes x (m + d) y := hm.add_iff.2 (hn.add_iff.1 h)
      exact ih (m + d) (Nat.add_lt_add_right hlt d) (Nat.le_add_right m d) hback

end loop

/-- How far the steps from `id` have been followed: to `last`, which is not looked at yet. The nodes
before it are all different. -/
structure Followed (graph : Graph) (id : NodeId) (steps : List Bool) (seen : List NodeId)
    (viaMember : Bool) (last : NodeId) : Prop where
  along : graph.Along steps id last
  viaMember_iff : viaMember = true ↔ true ∈ steps
  mem_seen_iff : ∀ node, node ∈ seen ↔ ∃ i, i < steps.length ∧ graph.Comes id i node
  apart : ∀ i j node, i < j → j < steps.length → graph.Comes id i node → ¬ graph.Comes id j node

namespace Followed
variable {x last : NodeId} {steps : List Bool} {seen : List NodeId} {viaMember : Bool}

theorem start (graph : Graph) (id : NodeId) : graph.Followed id [] [] false id where
  along := rfl
  viaMember_iff := ⟨nofun, nofun⟩
  mem_seen_iff _ := ⟨nofun, fun ⟨_, hlt, _⟩ => absurd hlt (Nat.not_lt_zero _)⟩
  apart _ j _ _ hj := absurd hj (Nat.not_lt_zero j)

theorem step (h : graph.Followed x steps seen viaMember last) (hfresh : last ∉ seen) {through : Bool}
    (hstep : graph.BaseStep last through next) :
    graph.Followed x (steps ++ [through]) (last :: seen) (viaMember || through) next := by
  have hlast : graph.Comes x steps.length last := h.along.comes
  have hlength : (steps ++ [through]).length = steps.length + 1 := List.length_append
  refine ⟨along_append.2 ⟨last, h.along, along_singleton.2 hstep⟩, ?_, fun node => ?_, ?_⟩
  · rw [Bool.or_eq_true, h.viaMember_iff, List.mem_append, List.mem_singleton, eq_comm (b := true)]
  · rw [List.mem_cons, h.mem_seen_iff, hlength]
    constructor
    · rintro (rfl | ⟨i, hi, hnode⟩)
      · exact ⟨steps.length, Nat.lt_succ_self _, hlast⟩
      · exact ⟨i, Nat.lt_succ_of_lt hi, hnode⟩
    · rintro ⟨i, hi, hnode⟩
      rcases Nat.lt_succ_iff_lt_or_eq.1 hi with hi | rfl
      · exact .inr ⟨i, hi, hnode⟩
      · exact .inl (hnode.unique hlast)
  · intro i j node hij hj hi hcomes
    rw [hlength] at hj
    rcases Nat.lt_succ_iff_lt_or_eq.1 hj with hj | rfl
    · exact h.apart i j node hij hj hi hcomes
    · rw [hcomes.unique hlast] at hi
      exact hfresh ((h.mem_seen_iff last).2 ⟨i, hij, hi⟩)

theorem circles (h : graph.Followed x steps seen viaMember last) (hseen : last ∈ seen) :
    graph.Resolves x steps last := by
  obtain ⟨m, hlt, hm⟩ := (h.mem_seen_iff last).1 hseen
  have hn : graph.Comes x steps.length last := h.along.comes
  refine .circles (comes_forever hlt hm hn) h.along hlt hm fun i j node hij hi hj => ?_
  have hlate : steps.length ≤ j := by
    by_contra hj'
    exact h.apart i j node hij (Nat.lt_of_not_le hj') hi hj
  refine ⟨?_, hlate⟩
  by_contra hi'
  -- A node before the loop would come on its first round too.
  obtain ⟨k, hmk, hkn, hk⟩ := exists_comes_on_loop hlt hm hn (Nat.le_trans hlt.le hlate) hj
  exact h.apart i k node (Nat.lt_of_lt_of_le (Nat.lt_of_not_le hi') hmk) hkn hi hk

end Followed

section resolution
variable {x last : NodeId} {steps : List Bool}

theorem Resolves.along (h : graph.Resolves x steps last) : graph.Along steps x last := by
  cases h with
  | ends halong _ => exact halong
  | circles _ halong _ _ _ => exact halong

theorem baseFrom_resolves (hlinked : graph.Linked) {depth : Nat} {seen : List NodeId}
    {viaMember : Bool} {r : NodeId × Bool} (h : graph.baseFrom depth seen last viaMember = .ok r)
    (hfollowed : graph.Followed x steps seen viaMember last) :
    ∃ steps, graph.Resolves x steps r.1 ∧ (r.2 = true ↔ true ∈ steps) := by
  induction depth generalizing seen last viaMember steps with
  | zero => cases h
  | succ depth ih =>
    unfold baseFrom at h
    split_ifs at h with hseen
    · cases h
      exact ⟨steps, hfollowed.circles hseen, hfollowed.viaMember_iff⟩
    · obtain ⟨step?, hstep?, hsteps⟩ := baseStep_eq_ok hlinked last
      rw [hstep?] at h
      cases step? with
      | none =>
        cases h
        refine ⟨steps, .ends hfollowed.along fun through next hstep => ?_, hfollowed.viaMember_iff⟩
        cases (hsteps next through).2 hstep
      | some step =>
        obtain ⟨next, through⟩ := step
        exact ih h (hfollowed.step hseen ((hsteps next through).1 rfl))

theorem Resolves.again {steps' : List Bool} {last' : NodeId} (h : graph.Resolves x steps last)
    (h' : graph.Resolves last steps' last') : last' = last := by
  cases h with
  | ends _ hlast =>
    cases steps' with
    | nil => exact h'.along.symm
    | cons through steps' =>
      obtain ⟨next, hstep, -⟩ := h'.along
      exact absurd hstep (hlast through next)
  | circles _ halong hlt hm _ =>
    -- The chain from `last` goes round the loop, and is back after one round.
    obtain ⟨d, hd⟩ := Nat.exists_eq_add_of_lt hlt
    have hround : graph.Comes last (d + 1) last := by
      rw [← hm.add_iff, ← Nat.add_assoc, ← hd]
      exact halong.comes
    cases h' with
    | ends halong' hlast' =>
      obtain ⟨node, hnode⟩ := comes_forever (Nat.succ_pos d) (comes_zero.2 rfl) hround
        (steps'.length + 1)
      obtain ⟨z, through, hz, hstep⟩ := comes_succ.1 hnode
      rw [hz.unique halong'.comes] at hstep
      exact absurd hstep (hlast' through node)
    | @circles m' _ _ _ hm' hfirst' =>
      have hzero : m' ≤ 0 := (hfirst' 0 (d + 1) last (Nat.succ_pos d) (comes_zero.2 rfl) hround).1
      obtain rfl : m' = 0 := Nat.le_zero.1 hzero
      exact (comes_zero.1 hm').symm

theorem baseFrom_agrees {depth depth' : Nat} (h : depth ≤ depth') (seen : List NodeId)
    (id : NodeId) (viaMember : Bool) :
    AgreesUnless (· = .tooDeep) (graph.baseFrom depth seen id viaMember)
      (graph.baseFrom depth' seen id viaMember) := by
  induction depth generalizing depth' seen id viaMember with
  | zero => exact .inl ⟨_, rfl, rfl⟩
  | succ depth ih =>
    obtain ⟨depth', rfl⟩ : ∃ n, depth' = n + 1 := ⟨depth' - 1, by omega⟩
    unfold baseFrom
    split_ifs
    · exact .refl _
    · refine (AgreesUnless.refl _).bind fun step? _ => ?_
      cases step? with
      | none => exact .refl _
      | some step => exact ih (Nat.le_of_succ_le_succ h) _ _ _

end resolution

section linked
variable {raw : RawGraph} {strict : Bool} (h : raw.link strict = .ok graph)
include h

theorem isIdent_of_memberBase (hsize : raw.nodes.length ≤ UInt32.size) {node : Node}
    (hnode : node ∈ graph.nodes) (hkind : node.kind = .memberAccess)
    (hbase : node.ref? "base" = some id) : graph.IsIdent id := by
  obtain ⟨type, value, hget, hid⟩ := Node.exists_get?_of_ref? hbase
  obtain ⟨expect, target, hexpect, htarget, hsat⟩ :=
    RawGraph.satisfies_of_link_eq_ok h hsize hnode hget hid
  have hasks : ∀ field ∈ node.kind.schema, field.key = "base" →
      field.type.expect? = some (.kind .ident) := by
    rw [hkind]
    decide
  have hident : expect = .kind .ident :=
    Option.some.inj (hexpect.symm.trans (node.expect?_of_get? hasks hget))
  rw [hident] at hsat
  exact ⟨target, htarget, Tag.kind.inj (of_decide_eq_true hsat)⟩

theorem BaseStep.isIdent (hsize : raw.nodes.length ≤ UInt32.size) {through : Bool}
    (hstep : graph.BaseStep id through next) : graph.IsIdent next := by
  cases hstep with
  | ident _ _ _ htarget hident => exact ⟨_, htarget, hident⟩
  | member _ _ _ htarget hmember hnext =>
    exact isIdent_of_memberBase h hsize (mem_nodes_of_node? htarget) hmember hnext

theorem Along.isIdent (hsize : raw.nodes.length ≤ UInt32.size) {steps : List Bool} {last : NodeId}
    (halong : graph.Along steps id last) (hident : graph.IsIdent id) : graph.IsIdent last := by
  induction steps generalizing id with
  | nil =>
    obtain rfl : id = last := halong
    exact hident
  | cons through steps ih =>
    obtain ⟨next, hstep, halong⟩ := halong
    exact ih halong (hstep.isIdent h hsize)

/-- In every graph that was linked, whatever loops its bases form, a node has a base, to which steps
lead that are all there are or end where the first node comes again. That base is its own base, and it
is an identifier if the node is, unless there are more nodes than handles. -/
theorem baseOf_resolves (hid : graph.HasNode id) :
    EndsWithin (graph.nodes.size + 1) (fun depth => graph.baseFrom depth [] id false)
        (graph.baseOf id) ∧
      Returns (graph.baseOf id) fun r =>
        (∃ steps, graph.Resolves id steps r.1 ∧ (r.2 = true ↔ true ∈ steps)) ∧
        (∃ viaMember, graph.baseOf r.1 = .ok (r.1, viaMember)) ∧
        (raw.nodes.length ≤ UInt32.size → graph.IsIdent id → graph.IsIdent r.1) := by
  have hlinked : graph.Linked := RawGraph.linked_of_link_eq_ok h
  constructor
  · have hreturns : Returns (graph.baseFrom (graph.nodes.size + 1) [] id false)
        fun r => graph.HasNode r.1 :=
      baseFrom_returns hlinked hid List.nodup_nil nofun (Nat.lt_succ_self _)
    exact .of_agrees (fun _ _ hle => baseFrom_agrees hle [] id false) hreturns (Nat.le_succ _)
  · obtain ⟨r, hr, hlast⟩ := baseOf_returns hlinked hid
    obtain ⟨steps, hresolves, hvia⟩ := baseFrom_resolves hlinked hr (.start graph id)
    refine ⟨r, hr, ⟨steps, hresolves, hvia⟩, ?_, fun hsize hident => ?_⟩
    · obtain ⟨r', hr', -⟩ := baseOf_returns hlinked hlast
      obtain ⟨steps', hresolves', -⟩ := baseFrom_resolves hlinked hr' (.start graph r.1)
      have hsame : r'.1 = r.1 := hresolves.again hresolves'
      exact ⟨r'.2, by rw [hr', ← hsame]⟩
    · exact hresolves.along.isIdent h hsize hident

end linked

end FormatGraph.Graph

namespace FormatGraph

/-- The first identifier leads to the second. From there a member access leads to the third, and that
leads back. -/
def RawGraph.winding : RawGraph where
  nodes := [
    ⟨"program", {}, [("elements", .arr [.nat 1, .nat 2, .nat 3, .nat 4])]⟩,
    ⟨"ident", {}, [("ident", .str "x"), ("base", .nat 2)]⟩,
    ⟨"ident", {}, [("ident", .str "y"), ("base", .nat 3)]⟩,
    ⟨"member_access", {}, [("base", .nat 4)]⟩,
    ⟨"ident", {}, [("ident", .str "z"), ("base", .nat 2)]⟩]
  scopes := []

theorem Graph.baseOf_resolves_winding :
    ∃ graph, RawGraph.winding.link false = .ok graph ∧ graph.IsIdent ⟨1⟩ ∧
      graph.baseOf ⟨1⟩ = .ok (⟨2⟩, true) ∧
      (∃ steps, graph.Resolves ⟨1⟩ steps ⟨2⟩ ∧ true ∈ steps) ∧
      (∃ viaMember, graph.baseOf ⟨2⟩ = .ok (⟨2⟩, viaMember)) ∧ graph.IsIdent ⟨2⟩ := by
  obtain ⟨graph, h, hid, hident, hbase⟩ : ∃ graph, RawGraph.winding.link false = .ok graph ∧
      graph.HasNode ⟨1⟩ ∧ (graph.node? ⟨1⟩).map Node.kind = some .ident ∧
      graph.baseOf ⟨1⟩ = .ok (⟨2⟩, true) :=
    ⟨_, rfl, by decide, rfl, rfl⟩
  have hident : graph.IsIdent ⟨1⟩ := Option.map_eq_some_iff.1 hident
  obtain ⟨-, r, hr, ⟨steps, hresolves, hvia⟩, hagain, hkept⟩ := baseOf_resolves h hid
  obtain rfl : r = (⟨2⟩, true) := Except.ok.inj (hr.symm.trans hbase)
  exact ⟨graph, h, hident, hbase, ⟨steps, hresolves, hvia.1 rfl⟩, hagain,
    hkept (by decide) hident⟩

end FormatGraph
