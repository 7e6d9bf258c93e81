import FormatGraph.Draft
import FormatGraph.Proofs.Record
import Mathlib.Data.List.Nodup

/-! Finished drafts. A draft becomes a graph exactly if that graph is closed: its root is a program,
and children and scope links lead to nodes and scopes of the graph. -/

namespace FormatGraph

theorem Handle.length_le {kind : HandleKind} {ids : List (Handle kind)} {size : Nat}
    (hnodup : ids.Nodup) (hids : ∀ id ∈ ids, id.index < size) : ids.length ≤ size := by
  have hsubset : ids.map index ⊆ List.range size := by
    intro n hn
    obtain ⟨id, hid, rfl⟩ := List.mem_map.1 hn
    exact List.mem_range.2 (hids id hid)
  have hlength := (hnodup.map fun _ _ => eq_of_index_eq).length_le_of_subset hsubset
  rwa [List.length_map, List.length_range] at hlength

namespace Graph

def HasNode (graph : Graph) (id : NodeId) : Prop := id.index < graph.nodes.size

def HasScope (graph : Graph) (id : ScopeId) : Prop := id.index < graph.scopes.size

instance (graph : Graph) (id : NodeId) : Decidable (graph.HasNode id) :=
  inferInstanceAs (Decidable (id.index < graph.nodes.size))

instance (graph : Graph) (id : ScopeId) : Decidable (graph.HasScope id) :=
  inferInstanceAs (Decidable (id.index < graph.scopes.size))

def HasTarget (graph : Graph) : Draft.Target → Prop
  | .node id => graph.HasNode id
  | .scope id => graph.HasScope id

/-- The root is a program, and no child or scope link leads out of the graph. Links from one node to
another may. -/
structure Closed (graph : Graph) : Prop where
  root : ∃ program, graph.nodes[0]? = some program ∧ program.kind = .program
  children : ∀ node ∈ graph.nodes, ∀ child ∈ node.children, graph.HasNode child
  links : ∀ scope ∈ graph.scopes, ∀ link ∈ Draft.linksOf scope, graph.HasTarget link.2

/-- All links between nodes stay within the graph, those that are not children as well. -/
def Linked (graph : Graph) : Prop :=
  ∀ node ∈ graph.nodes, ∀ key type value, node.fields.get? key = some ⟨type, value⟩ →
    ∀ id ∈ type.handles value, graph.HasNode id

end Graph

namespace Draft

def graph (draft : Draft) : Graph := ⟨draft.nodes, draft.scopes⟩

def Target.handle : Target → UInt32
  | .node id => id.val
  | .scope id => id.val

def sizeFor (draft : Draft) : Target → Nat
  | .node _ => draft.nodes.size
  | .scope _ => draft.scopes.size

variable {draft : Draft}

theorem hasProgram_iff :
    draft.hasProgram = true ↔ ∃ program, draft.nodes[0]? = some program ∧ program.kind = .program := by
  rw [hasProgram, Option.any_eq_true]
  simp only [decide_eq_true_eq]

theorem checkTarget_eq_ok_iff {site : Site} {target : Target} :
    draft.checkTarget site target = .ok () ↔ draft.graph.HasTarget target := by
  have hwithin {handle : UInt32} {size : Nat} :
      checkWithin site handle size = .ok () ↔ handle.toNat < size := by
    unfold checkWithin
    split_ifs with h <;> simp [h]
  cases target with
  | node id => exact hwithin
  | scope id => exact hwithin

theorem checkTarget_eq_error_iff {site : Site} {target : Target} {error : LinkError} :
    draft.checkTarget site target = .error error ↔
      ¬ draft.graph.HasTarget target ∧
        error = .dangling site target.handle.toUInt64 (draft.sizeFor target) := by
  have hwithin {handle : UInt32} {size : Nat} :
      checkWithin site handle size = .error error ↔
        ¬ handle.toNat < size ∧ error = .dangling site handle.toUInt64 size := by
    unfold checkWithin
    split_ifs with h
    · exact iff_of_false nofun fun hnot => hnot.1 h
    · simp [h, eq_comm]
  cases target with
  | node id => exact hwithin
  | scope id => exact hwithin

theorem getElem?_zipIdx_eq_some_iff {α : Type} {parts : Array α} {i : Nat} {p : α × Nat} :
    parts.toList.zipIdx[i]? = some p ↔ parts[i]? = some p.1 ∧ i = p.2 := by
  rw [List.getElem?_zipIdx, Array.getElem?_toList, Nat.zero_add, Option.map_eq_some_iff]
  constructor
  · rintro ⟨part, hpart, rfl⟩
    exact ⟨hpart, rfl⟩
  · rintro ⟨hpart, rfl⟩
    exact ⟨p.1, hpart, rfl⟩

theorem forall_mem_zipIdx {α : Type} {xs : Array α} {P : α → Prop} :
    (∀ p ∈ xs.toList.zipIdx, P p.1) ↔ ∀ x ∈ xs, P x := by
  have h := List.forall_mem_map (f := Prod.fst) (l := xs.toList.zipIdx) (P := P)
  rw [List.zipIdx_map_fst] at h
  rw [← h]
  simp only [Array.mem_toList_iff]

section parts
variable {α β : Type} {parts : Array α} {items : α → List β} {site : α → Nat → β → Site}
  {target : β → Target}

def checkPart (draft : Draft) (items : α → List β) (site : α → Nat → β → Site) (target : β → Target)
    (part : α) (index : Nat) : Except LinkError Unit :=
  (items part).forM fun item => draft.checkTarget (site part index item) (target item)

def checkParts (draft : Draft) (parts : Array α) (items : α → List β) (site : α → Nat → β → Site)
    (target : β → Target) : Except LinkError Unit :=
  parts.toList.zipIdx.forM fun p => draft.checkPart items site target p.1 p.2

theorem checkPart_eq_ok_iff {part : α} {index : Nat} :
    draft.checkPart items site target part index = .ok () ↔
      ∀ item ∈ items part, draft.graph.HasTarget (target item) := by
  rw [checkPart, forM_eq_ok_iff]
  exact forall₂_congr fun item _ => checkTarget_eq_ok_iff

theorem checkParts_eq_ok_iff :
    draft.checkParts parts items site target = .ok () ↔
      ∀ part ∈ parts, ∀ item ∈ items part, draft.graph.HasTarget (target item) := by
  rw [checkParts, forM_eq_ok_iff, ← forall_mem_zipIdx]
  exact forall₂_congr fun p _ => checkPart_eq_ok_iff

theorem checkParts_eq_error_iff {error : LinkError} :
    draft.checkParts parts items site target = .error error ↔ ∃ (index : Nat) (part : α),
      parts[index]? = some part ∧ draft.checkPart items site target part index = .error error ∧
        ∀ i < index, ∀ other, parts[i]? = some other →
          ∀ item ∈ items other, draft.graph.HasTarget (target item) := by
  have hkept (part : α) (index : Nat) :
      (∀ error, ¬ draft.checkPart items site target part index = .error error) ↔
        ∀ item ∈ items part, draft.graph.HasTarget (target item) := by
    rw [← exists_ok_iff]
    exact ⟨fun ⟨_, h⟩ => checkPart_eq_ok_iff.1 h, fun h => ⟨(), checkPart_eq_ok_iff.2 h⟩⟩
  rw [checkParts, forM_eq_error_iff, first_iff_getElem?]
  constructor
  · rintro ⟨index, ⟨part, _⟩, hpart, herror, hearlier⟩
    obtain ⟨hpart, rfl⟩ := getElem?_zipIdx_eq_some_iff.1 hpart
    refine ⟨index, part, hpart, herror, fun i hi other hother => ?_⟩
    exact (hkept other i).1 (hearlier i hi (other, i) (getElem?_zipIdx_eq_some_iff.2 ⟨hother, rfl⟩))
  · rintro ⟨index, part, hpart, herror, hearlier⟩
    refine ⟨index, (part, index), getElem?_zipIdx_eq_some_iff.2 ⟨hpart, rfl⟩, herror, ?_⟩
    rintro i hi ⟨other, _⟩ hother
    obtain ⟨hother, rfl⟩ := getElem?_zipIdx_eq_some_iff.1 hother
    exact (hkept other i).2 (hearlier i hi other hother)

end parts

theorem checkHandles_eq (draft : Draft) :
    draft.checkHandles = (do
      draft.checkParts draft.nodes Node.children
        (fun node index _ => ⟨.node node.kind, "child", index⟩) .node
      draft.checkParts draft.scopes linksOf (fun _ index link => ⟨.scope, link.1, index⟩)
        Prod.snd) := by
  have hmap {α β : Type} {f : α → β} {g : β → Except LinkError Unit} {xs : List α} :
      (xs.map f).forM g = xs.forM fun x => g (f x) := List.forM_map
  rw [checkHandles, childLinks, scopeLinks, forM_flatMap, forM_flatMap]
  simp only [hmap]
  rfl

theorem checkHandles_eq_ok_iff :
    draft.checkHandles = .ok () ↔
      (∀ node ∈ draft.nodes, ∀ child ∈ node.children, draft.graph.HasNode child) ∧
      ∀ scope ∈ draft.scopes, ∀ link ∈ linksOf scope, draft.graph.HasTarget link.2 := by
  rw [checkHandles_eq, bind_eq_ok_iff]
  constructor
  · rintro ⟨_, hchildren, hlinks⟩
    exact ⟨checkParts_eq_ok_iff.1 hchildren, checkParts_eq_ok_iff.1 hlinks⟩
  · rintro ⟨hchildren, hlinks⟩
    exact ⟨(), checkParts_eq_ok_iff.2 hchildren, checkParts_eq_ok_iff.2 hlinks⟩

theorem finish_eq_ok_iff {graph : Graph} :
    draft.finish = .ok graph ↔ graph = ⟨draft.nodes, draft.scopes⟩ ∧ graph.Closed := by
  unfold finish
  constructor
  · intro h
    split_ifs at h with hroot
    obtain ⟨_, hhandles, h⟩ := bind_eq_ok_iff.1 h
    cases h
    obtain ⟨hchildren, hlinks⟩ := checkHandles_eq_ok_iff.1 hhandles
    exact ⟨rfl, hasProgram_iff.1 hroot, hchildren, hlinks⟩
  · rintro ⟨rfl, hclosed⟩
    rw [if_pos (hasProgram_iff.2 hclosed.root),
      checkHandles_eq_ok_iff.2 ⟨hclosed.children, hclosed.links⟩]
    rfl

end Draft

end FormatGraph
