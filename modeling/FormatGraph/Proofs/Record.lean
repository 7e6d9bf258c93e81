import FormatGraph.Node
import FormatGraph.Proofs.Traversal

/-! The values of a record, by position and by key. A record that was read field by field holds what
was read for each of its fields, and its children are the handles of those fields that are for
children. -/

namespace FormatGraph

namespace FieldType

def handles : (type : FieldType) → type.Carrier → List NodeId
  | .ref _ _, (id? : Option NodeId) => id?.toList
  | .refs _ _, (ids : List NodeId) => ids
  | _, _ => []

def isChild : FieldType → Bool
  | .ref .child _ | .refs .child _ => true
  | _ => false

theorem children_subset_handles (type : FieldType) (value : type.Carrier) :
    type.children value ⊆ type.handles value := by
  cases type with
  | ref role expect | refs role expect =>
    cases role with
    | child => exact List.Subset.refl _
    | link => exact List.nil_subset _
  | _ => exact List.nil_subset _

theorem handles_eq_children {type : FieldType} (h : type.isChild = true) (value : type.Carrier) :
    type.handles value = type.children value := by
  cases type with
  | ref role expect | refs role expect =>
    cases role with
    | child => rfl
    | link => cases h
  | _ => cases h

end FieldType

section visit
variable {m : Type → Type} [Monad m] [LawfulMonad m] (visit : NodeId → m Bool)

theorem allM_append {α : Type} (visit : α → m Bool) (xs ys : List α) :
    (xs ++ ys).allM visit = do if ← xs.allM visit then ys.allM visit else return false := by
  induction xs with
  | nil => simp [List.allM]
  | cons x xs ih =>
    rw [List.cons_append, List.allM, List.allM, bind_assoc]
    refine bind_congr fun goesOn => ?_
    cases goesOn with
    | true => exact ih
    | false => simp

theorem FieldType.visitChildren_eq_allM (type : FieldType) (value : type.Carrier) :
    type.visitChildren visit value = (type.children value).allM visit := by
  have hone (id? : Option NodeId) : id?.elim (pure true) visit = id?.toList.allM visit := by
    cases id? with
    | none => rfl
    | some id =>
      calc visit id
          = visit id >>= pure := (bind_pure (visit id)).symm
        _ = [id].allM visit := bind_congr fun goesOn => by cases goesOn <;> rfl
  cases type with
  | ref role expect =>
    cases role with
    | child => exact hone value
    | link => rfl
  | refs role expect =>
    cases role with
    | child => rfl
    | link => rfl
  | _ => rfl

theorem Record.visitChildren_eq_allM {fields : List Field} (record : Record fields) :
    record.visitChildren visit = record.children.allM visit := by
  induction record with
  | nil => rfl
  | cons value rest ih =>
    rw [visitChildren, children, allM_append, FieldType.visitChildren_eq_allM, ih]

theorem Node.visitChildren_eq_allM (node : Node) :
    node.visitChildren visit = node.children.allM visit :=
  node.fields.visitChildren_eq_allM visit

end visit

namespace Record

variable {ε : Type} {fields : List Field}

theorem map_fst_toList (record : Record fields) : record.toList.map Sigma.fst = fields := by
  induction record with
  | nil => rfl
  | cons value rest ih => simp only [toList, List.map_cons, ih]

theorem readM_eq_ok_iff {read : (field : Field) → Except ε field.type.Carrier}
    {record : Record fields} :
    readM read fields = .ok record ↔ ∀ entry ∈ record.toList, read entry.1 = .ok entry.2 := by
  induction record with
  | nil => exact iff_of_true rfl nofun
  | cons value rest ih =>
    rw [readM, toList, List.forall_mem_cons, ← ih, bind_eq_ok_iff]
    constructor
    · rintro ⟨v, hv, h⟩
      obtain ⟨vs, hvs, h⟩ := bind_eq_ok_iff.1 h
      cases h
      exact ⟨hv, hvs⟩
    · rintro ⟨hv, hvs⟩
      exact ⟨value, hv, bind_eq_ok_iff.2 ⟨rest, hvs, rfl⟩⟩

theorem readM_failsAt {ι : Type} {read : (field : Field) → Except ε field.type.Carrier}
    {P : ι → ε → Prop} {item : Field → ι}
    (h : ∀ field ∈ fields, FailsAt (read field) P [item field]) :
    FailsAt (readM read fields) P (fields.map item) := by
  induction fields with
  | nil => exact .pure Record.nil
  | cons field fields ih =>
    rw [readM]
    change FailsAt _ P ([item field] ++ fields.map item)
    refine (h field List.mem_cons_self).bind fun value _ => ?_
    rw [bind_pure_comp]
    exact (ih fun f hf => h f (List.mem_cons_of_mem _ hf)).map _

theorem get?_of_mem_toList {record : Record fields} (hkeys : (fields.map Field.key).Nodup)
    {entry : (field : Field) × field.type.Carrier} (h : entry ∈ record.toList) :
    record.get? entry.1.key = some ⟨entry.1.type, entry.2⟩ := by
  induction record with
  | nil => cases h
  | cons value rest ih =>
    rename_i field fields
    obtain ⟨hfield, hfields⟩ := List.nodup_cons.1 hkeys
    rcases List.mem_cons.1 h with rfl | h
    · simp only [get?, if_true]
    · -- Keys do not come twice, so this field does not hide the one that is meant.
      have hne : field.key ≠ entry.1.key := by
        intro heq
        have hmem : entry.1 ∈ fields := map_fst_toList rest ▸ List.mem_map_of_mem h
        exact hfield (heq ▸ List.mem_map_of_mem hmem)
      rw [get?, if_neg hne, ih hfields h]

theorem exists_mem_toList_of_get? {record : Record fields} {key : String}
    {found : (type : FieldType) × type.Carrier} (h : record.get? key = some found) :
    ∃ entry ∈ record.toList, entry.1.key = key ∧ ⟨entry.1.type, entry.2⟩ = found := by
  induction record with
  | nil => cases h
  | cons value rest ih =>
    rw [get?] at h
    split_ifs at h with hkey
    · exact ⟨_, List.mem_cons_self, hkey, Option.some.inj h⟩
    · obtain ⟨entry, hentry, hfound⟩ := ih h
      exact ⟨entry, List.mem_cons_of_mem _ hentry, hfound⟩

theorem mem_children_iff {record : Record fields} {id : NodeId} :
    id ∈ record.children ↔ ∃ entry ∈ record.toList, id ∈ entry.1.type.children entry.2 := by
  induction record with
  | nil => simp [children, toList]
  | cons value rest ih => simp only [children, toList, List.mem_append, ih, List.exists_mem_cons_iff]

end Record

namespace Node

variable {node : Node} {key : String} {id : NodeId}

theorem exists_get?_of_ref? (h : node.ref? key = some id) :
    ∃ type value, node.fields.get? key = some ⟨type, value⟩ ∧ id ∈ type.handles value := by
  cases hget : node.fields.get? key with
  | none =>
    rw [ref?, hget] at h
    cases h
  | some found =>
    obtain ⟨type, value⟩ := found
    rw [ref?, hget] at h
    cases type with
    | ref role expect => exact ⟨_, value, rfl, Option.mem_toList.2 h⟩
    | _ => cases h

theorem exists_get?_of_mem_refs (h : id ∈ node.refs key) :
    ∃ type value, node.fields.get? key = some ⟨type, value⟩ ∧ id ∈ type.handles value := by
  cases hget : node.fields.get? key with
  | none =>
    rw [refs, hget] at h
    cases h
  | some found =>
    obtain ⟨type, value⟩ := found
    rw [refs, hget] at h
    cases type with
    | refs role expect => exact ⟨_, value, rfl, h⟩
    | _ => cases h

section children
variable (hkey : ∀ field ∈ node.kind.schema, field.key = key → field.type.isChild = true)
include hkey

theorem mem_children_of_get? {type : FieldType} {value : type.Carrier}
    (hget : node.fields.get? key = some ⟨type, value⟩) (h : id ∈ type.handles value) :
    id ∈ node.children := by
  obtain ⟨entry, hentry, hfield, hfound⟩ := Record.exists_mem_toList_of_get? hget
  have hmem : entry.1 ∈ node.kind.schema :=
    Record.map_fst_toList node.fields ▸ List.mem_map_of_mem hentry
  have hchild := hkey entry.1 hmem hfield
  obtain ⟨⟨_, _⟩, _⟩ := entry
  cases hfound
  rw [FieldType.handles_eq_children hchild] at h
  exact Record.mem_children_iff.2 ⟨_, hentry, h⟩

theorem mem_children_of_ref? (h : node.ref? key = some id) : id ∈ node.children := by
  obtain ⟨_, _, hget, hid⟩ := exists_get?_of_ref? h
  exact mem_children_of_get? hkey hget hid

theorem mem_children_of_mem_refs (h : id ∈ node.refs key) : id ∈ node.children := by
  obtain ⟨_, _, hget, hid⟩ := exists_get?_of_mem_refs h
  exact mem_children_of_get? hkey hget hid

end children

end Node

end FormatGraph
