import FormatGraph.Proofs.Draft

/-! Drafts from the first edit on. An edit adds a node or scope, or changes one that it names. The
draft that edits make becomes a graph, or fails at the first link that leads nowhere. -/

namespace FormatGraph

inductive Change (α : Type) where
  | add (item : α)
  | modify (index : Nat) (change : α → α)

namespace Change

variable {α : Type}

def isAdd : Change α → Bool
  | .add _ => true
  | .modify _ _ => false

def apply (items : Array α) : Change α → Array α
  | .add item => items.push item
  | .modify index change => items.modify index change

def applyAt (index : Nat) (item : α) : Change α → α
  | .add _ => item
  | .modify i change => if i = index then change item else item

def applyAll (changes : List (Change α)) : Array α := changes.foldl apply #[]

def count (changes : List (Change α)) : Nat := changes.countP isAdd

/-- Each item is the one that was added, as the later changes to it have left it. -/
structure Holds (changes : List (Change α)) (items : Array α) : Prop where
  size_eq : items.size = count changes
  item_at : ∀ before item after, changes = before ++ .add item :: after →
    items[count before]? = some (after.foldl (applyAt (count before)) item)

theorem size_apply (items : Array α) (change : Change α) :
    (change.apply items).size = items.size + if change.isAdd then 1 else 0 := by
  cases change with
  | add item => exact Array.size_push item
  | modify index change => exact Array.size_modify

theorem getElem?_apply {items : Array α} {index : Nat} {item : α} (h : items[index]? = some item)
    (change : Change α) : (change.apply items)[index]? = some (applyAt index item change) := by
  cases change with
  | add other =>
    have hlt : index < items.size := (Array.getElem?_eq_some_iff.1 h).1
    rw [apply, Array.getElem?_push, if_neg (Nat.ne_of_lt hlt)]
    exact h
  | modify i change =>
    rw [apply, Array.getElem?_modify, h, applyAt]
    split_ifs <;> rfl

theorem size_foldl (changes : List (Change α)) (items : Array α) :
    (changes.foldl apply items).size = items.size + count changes := by
  induction changes generalizing items with
  | nil => rfl
  | cons change changes ih =>
    rw [List.foldl_cons, ih, size_apply]
    simp only [count, List.countP_cons]
    omega

theorem getElem?_foldl {items : Array α} {index : Nat} {item : α} (h : items[index]? = some item)
    (changes : List (Change α)) :
    (changes.foldl apply items)[index]? = some (changes.foldl (applyAt index) item) := by
  induction changes generalizing items item with
  | nil => exact h
  | cons change changes ih => exact ih (getElem?_apply h change)

theorem Holds.size_lt {before after : List (Change α)} {items : Array α} {item : α} {size : Nat}
    (h : Holds before items) (hsize : count (before ++ .add item :: after) ≤ size) :
    items.size < size := by
  rw [count, List.countP_append, List.countP_cons_of_pos rfl, ← count, ← h.size_eq] at hsize
  omega

theorem applyAll_holds (changes : List (Change α)) : Holds changes (applyAll changes) := by
  have hsize (changes : List (Change α)) : (applyAll changes).size = count changes :=
    (size_foldl changes #[]).trans (Nat.zero_add _)
  refine ⟨hsize changes, ?_⟩
  rintro before item after rfl
  have hadded : ((Change.add item).apply (applyAll before))[count before]? = some item := by
    rw [← hsize before, apply, Array.getElem?_push_size]
  rw [applyAll, List.foldl_append, List.foldl_cons]
  exact getElem?_foldl hadded after

end Change

inductive Edit where
  | push (node : Node)
  | pushScope (scope : Scope)
  | modifyNode (id : NodeId) (change : Node → Node)
  | modifyScope (id : ScopeId) (change : Scope → Scope)

namespace Edit

def apply (draft : Draft) : Edit → Draft
  | .push node => (draft.push node).2
  | .pushScope scope => (draft.pushScope scope).2
  | .modifyNode id change => draft.modifyNode id change
  | .modifyScope id change => draft.modifyScope id change

def node? : Edit → Option (Change Node)
  | .push node => some (.add node)
  | .modifyNode id change => some (.modify id.index change)
  | _ => none

def scope? : Edit → Option (Change Scope)
  | .pushScope scope => some (.add scope)
  | .modifyScope id change => some (.modify id.index change)
  | _ => none

def nodes (edits : List Edit) : List (Change Node) := edits.filterMap node?

def scopes (edits : List Edit) : List (Change Scope) := edits.filterMap scope?

end Edit

def Draft.ofEdits (edits : List Edit) : Draft := edits.foldl Edit.apply {}

def Differs {α : Type} (index : Nat) (item? : Option α) (items items' : Array α) : Prop :=
  items'[index]? = item? ∧ ∀ i ≠ index, items'[i]? = items[i]?

theorem differs_push {α : Type} (items : Array α) (item : α) :
    Differs items.size (some item) items (items.push item) := by
  refine ⟨Array.getElem?_push_size, fun i hi => ?_⟩
  rw [Array.getElem?_push, if_neg hi]

theorem differs_modify {α : Type} (items : Array α) (index : Nat) (change : α → α) :
    Differs index (items[index]?.map change) items (items.modify index change) := by
  refine ⟨?_, fun i hi => ?_⟩
  · rw [Array.getElem?_modify, if_pos rfl]
  · rw [Array.getElem?_modify, if_neg (Ne.symm hi)]

namespace Edit

def Changes (draft next : Draft) : Edit → Prop
  | .push node =>
    Differs draft.nodes.size (some node) draft.nodes next.nodes ∧ next.scopes = draft.scopes
  | .pushScope scope =>
    Differs draft.scopes.size (some scope) draft.scopes next.scopes ∧ next.nodes = draft.nodes
  | .modifyNode id change =>
    Differs id.index (draft.nodes[id.index]?.map change) draft.nodes next.nodes ∧
      next.scopes = draft.scopes
  | .modifyScope id change =>
    Differs id.index (draft.scopes[id.index]?.map change) draft.scopes next.scopes ∧
      next.nodes = draft.nodes

theorem apply_changes (draft : Draft) (edit : Edit) : edit.Changes draft (edit.apply draft) := by
  cases edit with
  | push node => exact ⟨differs_push _ node, rfl⟩
  | pushScope scope => exact ⟨differs_push _ scope, rfl⟩
  | modifyNode id change => exact ⟨differs_modify _ _ change, rfl⟩
  | modifyScope id change => exact ⟨differs_modify _ _ change, rfl⟩

theorem foldl_apply (edits : List Edit) (draft : Draft) :
    edits.foldl apply draft = ⟨(nodes edits).foldl Change.apply draft.nodes,
      (scopes edits).foldl Change.apply draft.scopes⟩ := by
  induction edits generalizing draft with
  | nil => rfl
  | cons edit edits ih =>
    rw [List.foldl_cons, ih]
    cases edit <;> rfl

theorem ofEdits_eq (edits : List Edit) :
    Draft.ofEdits edits = ⟨Change.applyAll (nodes edits), Change.applyAll (scopes edits)⟩ :=
  foldl_apply edits {}

structure Recorded (edits : List Edit) : Prop where
  /-- Nodes are numbered in the order in which they are pushed. -/
  push_index : ∀ before node after, edits = before ++ .push node :: after →
    ((Draft.ofEdits before).push node).1.index = Change.count (nodes before)
  pushScope_index : ∀ before scope after, edits = before ++ .pushScope scope :: after →
    ((Draft.ofEdits before).pushScope scope).1.index = Change.count (scopes before)
  changes : ∀ before edit after, edits = before ++ edit :: after →
    edit.Changes (.ofEdits before) (.ofEdits (before ++ [edit]))
  nodes_hold : Change.Holds (nodes edits) (Draft.ofEdits edits).nodes
  scopes_hold : Change.Holds (scopes edits) (Draft.ofEdits edits).scopes

theorem holds_nodes (edits : List Edit) :
    Change.Holds (nodes edits) (Draft.ofEdits edits).nodes := by
  rw [ofEdits_eq]
  exact Change.applyAll_holds (nodes edits)

theorem holds_scopes (edits : List Edit) :
    Change.Holds (scopes edits) (Draft.ofEdits edits).scopes := by
  rw [ofEdits_eq]
  exact Change.applyAll_holds (scopes edits)

theorem recorded {edits : List Edit} (hnodes : Change.count (nodes edits) ≤ UInt32.size)
    (hscopes : Change.count (scopes edits) ≤ UInt32.size) : Recorded edits := by
  refine ⟨?_, ?_, ?_, holds_nodes edits, holds_scopes edits⟩
  · rintro before node after rfl
    rw [nodes, List.filterMap_append] at hnodes
    have hlt := (holds_nodes before).size_lt hnodes
    exact (Handle.index_ofIndex hlt).trans (holds_nodes before).size_eq
  · rintro before scope after rfl
    rw [scopes, List.filterMap_append] at hscopes
    have hlt := (holds_scopes before).size_lt hscopes
    exact (Handle.index_ofIndex hlt).trans (holds_scopes before).size_eq
  · rintro before edit after rfl
    rw [Draft.ofEdits, Draft.ofEdits, List.foldl_append]
    exact apply_changes _ edit

end Edit

namespace Draft

def HasRoot (draft : Draft) : Prop :=
  ∃ program, draft.nodes[0]? = some program ∧ program.kind = .program

def KeepsChildren (graph : Graph) (node : Node) : Prop := ∀ child ∈ node.children, graph.HasNode child

structure KeepsLinks (graph : Graph) (scope : Scope) : Prop where
  prev : ∀ id ∈ scope.prev, graph.HasScope id
  next : ∀ id ∈ scope.next, graph.HasScope id
  branch : ∀ id ∈ scope.branch, graph.HasScope id
  idents : ∀ id ∈ scope.idents, graph.HasNode id
  owner : ∀ id ∈ scope.owner, graph.HasNode id

structure LosesChild (graph : Graph) (node : Node) (place : Nat) (child : NodeId) : Prop where
  child_at : node.children[place]? = some child
  lost : ¬ graph.HasNode child
  before : ∀ i < place, ∀ other, node.children[i]? = some other → graph.HasNode other

/-- The first link of a scope that is not in the graph: the three that lead to scopes come before the
identifiers, and the owner comes last. -/
inductive LosesLink (graph : Graph) (scope : Scope) : String → Target → Prop where
  | prev {id : ScopeId} : id ∈ scope.prev → ¬ graph.HasScope id →
      LosesLink graph scope "prev" (.scope id)
  | next {id : ScopeId} : (∀ id ∈ scope.prev, graph.HasScope id) →
      id ∈ scope.next → ¬ graph.HasScope id → LosesLink graph scope "next" (.scope id)
  | branch {id : ScopeId} : (∀ id ∈ scope.prev, graph.HasScope id) →
      (∀ id ∈ scope.next, graph.HasScope id) →
      id ∈ scope.branch → ¬ graph.HasScope id → LosesLink graph scope "branch" (.scope id)
  | ident {place : Nat} {id : NodeId} : (∀ id ∈ scope.prev, graph.HasScope id) →
      (∀ id ∈ scope.next, graph.HasScope id) → (∀ id ∈ scope.branch, graph.HasScope id) →
      scope.idents[place]? = some id → ¬ graph.HasNode id →
      (∀ i < place, ∀ other, scope.idents[i]? = some other → graph.HasNode other) →
      LosesLink graph scope "ident" (.node id)
  | owner {id : NodeId} : (∀ id ∈ scope.prev, graph.HasScope id) →
      (∀ id ∈ scope.next, graph.HasScope id) → (∀ id ∈ scope.branch, graph.HasScope id) →
      (∀ id ∈ scope.idents, graph.HasNode id) →
      id ∈ scope.owner → ¬ graph.HasNode id → LosesLink graph scope "owner" (.node id)

inductive Fails (draft : Draft) : LinkError → Prop where
  | root : ¬ draft.HasRoot → Fails draft .missingRoot
  | child {index place : Nat} {node : Node} {child : NodeId} : draft.HasRoot →
      draft.nodes[index]? = some node → LosesChild draft.graph node place child →
      (∀ i < index, ∀ other, draft.nodes[i]? = some other → KeepsChildren draft.graph other) →
      Fails draft (.dangling ⟨.node node.kind, "child", index⟩ child.val.toUInt64 draft.nodes.size)
  | link {index : Nat} {scope : Scope} {field : String} {target : Target} : draft.HasRoot →
      (∀ node ∈ draft.nodes, KeepsChildren draft.graph node) →
      draft.scopes[index]? = some scope → LosesLink draft.graph scope field target →
      (∀ i < index, ∀ other, draft.scopes[i]? = some other → KeepsLinks draft.graph other) →
      Fails draft (.dangling ⟨.scope, field, index⟩ target.handle.toUInt64 (draft.sizeFor target))

variable {draft : Draft}

theorem keepsLinks_iff {graph : Graph} {scope : Scope} :
    KeepsLinks graph scope ↔ ∀ link ∈ linksOf scope, graph.HasTarget link.2 := by
  simp only [linksOf, List.forall_mem_append, List.forall_mem_map, Option.mem_toList]
  constructor
  · rintro ⟨hprev, hnext, hbranch, hidents, howner⟩
    exact ⟨⟨⟨⟨hprev, hnext⟩, hbranch⟩, hidents⟩, howner⟩
  · rintro ⟨⟨⟨⟨hprev, hnext⟩, hbranch⟩, hidents⟩, howner⟩
    exact ⟨hprev, hnext, hbranch, hidents, howner⟩

theorem forall_not_lost_iff {kept : Prop} {error : LinkError} :
    (∀ e, ¬ (¬ kept ∧ e = error)) ↔ kept :=
  ⟨fun h => not_not.1 fun hnot => h error ⟨hnot, rfl⟩, fun h _ he => he.1 h⟩

theorem checkChildren_eq_error_iff {node : Node} {index : Nat} {error : LinkError} :
    draft.checkPart Node.children (fun node index _ => ⟨.node node.kind, "child", index⟩) .node node
        index = .error error ↔
      ∃ place child, LosesChild draft.graph node place child ∧
        error = .dangling ⟨.node node.kind, "child", index⟩ child.val.toUInt64 draft.nodes.size := by
  rw [checkPart, forM_eq_error_iff, first_iff_getElem?]
  simp only [checkTarget_eq_error_iff, forall_not_lost_iff]
  constructor
  · rintro ⟨place, child, hchild, ⟨hlost, rfl⟩, hbefore⟩
    exact ⟨place, child, ⟨hchild, hlost, hbefore⟩, rfl⟩
  · rintro ⟨place, child, ⟨hchild, hlost, hbefore⟩, rfl⟩
    exact ⟨place, child, hchild, ⟨hlost, rfl⟩, hbefore⟩

theorem checkLinks_eq_error_iff {scope : Scope} {index : Nat} {error : LinkError} :
    draft.checkPart linksOf (fun _ index link => ⟨.scope, link.1, index⟩) Prod.snd scope index =
        .error error ↔
      ∃ field target, LosesLink draft.graph scope field target ∧
        error = .dangling ⟨.scope, field, index⟩ target.handle.toUInt64 (draft.sizeFor target) := by
  rw [checkPart, forM_eq_error_iff, linksOf]
  simp only [first_append, first_map, first_toList, checkTarget_eq_error_iff,
    List.forall_mem_append, List.forall_mem_map, Option.mem_toList, forall_not_lost_iff]
  constructor
  · rintro ((((⟨id, hid, hlost, rfl⟩ | ⟨hprev, id, hid, hlost, rfl⟩) |
      ⟨⟨hprev, hnext⟩, id, hid, hlost, rfl⟩) | ⟨⟨⟨hprev, hnext⟩, hbranch⟩, hfirst⟩) |
      ⟨⟨⟨⟨hprev, hnext⟩, hbranch⟩, hidents⟩, id, hid, hlost, rfl⟩)
    · exact ⟨_, _, .prev hid hlost, rfl⟩
    · exact ⟨_, _, .next hprev hid hlost, rfl⟩
    · exact ⟨_, _, .branch hprev hnext hid hlost, rfl⟩
    · obtain ⟨place, id, hid, ⟨hlost, rfl⟩, hbefore⟩ := first_iff_getElem?.1 hfirst
      refine ⟨_, _, .ident hprev hnext hbranch hid hlost fun i hi other hother => ?_, rfl⟩
      exact forall_not_lost_iff.1 (hbefore i hi other hother)
    · exact ⟨_, _, .owner hprev hnext hbranch hidents hid hlost, rfl⟩
  · rintro ⟨field, target, hloses, rfl⟩
    cases hloses with
    | prev hid hlost => exact .inl (.inl (.inl (.inl ⟨_, hid, hlost, rfl⟩)))
    | next hprev hid hlost => exact .inl (.inl (.inl (.inr ⟨hprev, _, hid, hlost, rfl⟩)))
    | branch hprev hnext hid hlost =>
      exact .inl (.inl (.inr ⟨⟨hprev, hnext⟩, _, hid, hlost, rfl⟩))
    | ident hprev hnext hbranch hid hlost hbefore =>
      refine .inl (.inr ⟨⟨⟨hprev, hnext⟩, hbranch⟩, first_iff_getElem?.2 ?_⟩)
      refine ⟨_, _, hid, ⟨hlost, rfl⟩, fun i hi other hother => ?_⟩
      exact forall_not_lost_iff.2 (hbefore i hi other hother)
    | owner hprev hnext hbranch hidents hid hlost =>
      exact .inr ⟨⟨⟨⟨hprev, hnext⟩, hbranch⟩, hidents⟩, _, hid, hlost, rfl⟩

theorem finish_eq_error_iff {error : LinkError} :
    draft.finish = .error error ↔ draft.Fails error := by
  have hhandles (hroot : draft.HasRoot) :
      draft.finish = .error error ↔ draft.checkHandles = .error error := by
    rw [finish, if_pos (hasProgram_iff.2 hroot), bind_eq_error_iff]
    exact or_iff_left nofun
  constructor
  · intro h
    by_cases hroot : draft.HasRoot
    · rw [hhandles hroot, checkHandles_eq, bind_eq_error_iff] at h
      rcases h with h | ⟨_, hchildren, h⟩
      · obtain ⟨index, node, hnode, herror, hearlier⟩ := checkParts_eq_error_iff.1 h
        obtain ⟨place, child, hloses, rfl⟩ := checkChildren_eq_error_iff.1 herror
        exact .child hroot hnode hloses hearlier
      · obtain ⟨index, scope, hscope, herror, hearlier⟩ := checkParts_eq_error_iff.1 h
        obtain ⟨field, target, hloses, rfl⟩ := checkLinks_eq_error_iff.1 herror
        refine .link hroot (checkParts_eq_ok_iff.1 hchildren) hscope hloses fun i hi other hother => ?_
        exact keepsLinks_iff.2 (hearlier i hi other hother)
    · rw [finish, if_neg fun h => hroot (hasProgram_iff.1 h)] at h
      cases h
      exact .root hroot
  · intro h
    cases h with
    | root hroot => rw [finish, if_neg fun h => hroot (hasProgram_iff.1 h)]
    | child hroot hnode hloses hearlier =>
      rw [hhandles hroot, checkHandles_eq, bind_eq_error_iff]
      refine .inl (checkParts_eq_error_iff.2 ⟨_, _, hnode, ?_, hearlier⟩)
      exact checkChildren_eq_error_iff.2 ⟨_, _, hloses, rfl⟩
    | link hroot hchildren hscope hloses hearlier =>
      rw [hhandles hroot, checkHandles_eq, bind_eq_error_iff]
      refine .inr ⟨(), checkParts_eq_ok_iff.2 hchildren, checkParts_eq_error_iff.2 ?_⟩
      refine ⟨_, _, hscope, checkLinks_eq_error_iff.2 ⟨_, _, hloses, rfl⟩, fun i hi other hother => ?_⟩
      exact keepsLinks_iff.1 (hearlier i hi other hother)

theorem closed_graph_iff :
    draft.graph.Closed ↔ draft.HasRoot ∧ (∀ node ∈ draft.nodes, KeepsChildren draft.graph node) ∧
      ∀ scope ∈ draft.scopes, KeepsLinks draft.graph scope := by
  simp only [keepsLinks_iff]
  exact ⟨fun h => ⟨h.root, h.children, h.links⟩, fun ⟨hroot, hchildren, hlinks⟩ =>
    ⟨hroot, hchildren, hlinks⟩⟩

/-- Edits are recorded as they were made, and the draft becomes the graph of what they have recorded
unless its root, a child or a scope link is wrong, of which the first is reported. -/
theorem finish_ofEdits (edits : List Edit) (hnodes : Change.count (Edit.nodes edits) ≤ UInt32.size)
    (hscopes : Change.count (Edit.scopes edits) ≤ UInt32.size) :
    Edit.Recorded edits ∧
      (∀ graph, (ofEdits edits).finish = .ok graph ↔
        graph = ⟨(ofEdits edits).nodes, (ofEdits edits).scopes⟩ ∧ (ofEdits edits).HasRoot ∧
          (∀ node ∈ (ofEdits edits).nodes, KeepsChildren (ofEdits edits).graph node) ∧
          ∀ scope ∈ (ofEdits edits).scopes, KeepsLinks (ofEdits edits).graph scope) ∧
      ∀ error, (ofEdits edits).finish = .error error ↔ (ofEdits edits).Fails error := by
  refine ⟨Edit.recorded hnodes hscopes, fun graph => ?_, fun error => finish_eq_error_iff⟩
  rw [← closed_graph_iff, finish_eq_ok_iff]
  refine and_congr_right ?_
  rintro rfl
  rfl

/-- Edits that name nodes and scopes before they are there. The last identifier never comes. -/
def forwardEdits : List Edit := [
  .push ⟨{}, .program, .cons (FieldType.blank _) (.cons ([⟨1⟩, ⟨2⟩] : List NodeId) (.blank _))⟩,
  .pushScope { next := some ⟨1⟩, idents := [⟨1⟩], owner := some ⟨9⟩ },
  .push (.blank .comment),
  .modifyNode ⟨2⟩ fun _ => .blank .program,
  .modifyScope ⟨0⟩ fun scope => { scope with idents := [⟨2⟩, ⟨3⟩] },
  .push (.blank .comment),
  .pushScope { prev := some ⟨0⟩ }]

theorem finish_ofEdits_forward :
    Change.count (Edit.nodes forwardEdits) ≤ UInt32.size ∧
      Change.count (Edit.scopes forwardEdits) ≤ UInt32.size ∧ Edit.Recorded forwardEdits ∧
      (ofEdits forwardEdits).Fails (.dangling ⟨.scope, "ident", 0⟩ 3 3) := by
  have hnodes : Change.count (Edit.nodes forwardEdits) ≤ UInt32.size := by decide
  have hscopes : Change.count (Edit.scopes forwardEdits) ≤ UInt32.size := by decide
  obtain ⟨hrecorded, -, hfails⟩ := finish_ofEdits forwardEdits hnodes hscopes
  exact ⟨hnodes, hscopes, hrecorded, (hfails _).1 rfl⟩

end Draft

end FormatGraph
