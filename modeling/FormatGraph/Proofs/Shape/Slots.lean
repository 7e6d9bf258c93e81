import FormatGraph.Proofs.Json.Object
import FormatGraph.Proofs.Traversal
import FormatGraph.Shape.OfText

/-! The slots of a record and the members of an object. A clear shape keeps its fields apart, so
that the members of an object fill the slots in whatever order they stand: a slot holds what the
object holds at its key. -/

namespace FormatGraph

open Reader

def Shape.isOptional : Shape → Bool
  | .optional _ => true
  | _ => false

def Fields.keys : Fields → List String
  | .nil => []
  | .cons key _ rest => key :: rest.keys

mutual

/-- The keys of every record differ, and an optional value is not optional twice. -/
def Shape.Clear : Shape → Prop
  | .list item => item.Clear
  | .optional inner => inner.isOptional = false ∧ inner.Clear
  | .record _ fields => fields.Clear
  | _ => True

def Fields.Clear : Fields → Prop
  | .nil => True
  | .cons key shape rest => key ∉ rest.keys ∧ shape.Clear ∧ rest.Clear

end

namespace Fields

variable {key name : String} {shape : Shape} {rest : Fields} {depth : Nat}

theorem nodup_keys : (fields : Fields) → fields.Clear → fields.keys.Nodup
  | .nil, _ => List.nodup_nil
  | .cons _ _ rest, hclear => List.nodup_cons.2 ⟨hclear.1, nodup_keys rest hclear.2.2⟩

theorem readMember_self (slots : rest.Slots) :
    (Fields.cons key shape rest).readMember depth key (none, slots) =
      (do colon; return (some (← shape.read depth), slots)) :=
  if_pos rfl

theorem readMember_taken (value : shape.Carrier) (slots : rest.Slots) :
    (Fields.cons key shape rest).readMember depth key (some value, slots) =
      (do blank; fail (.mismatch (.duplicateField key))) :=
  if_pos rfl

theorem readMember_of_ne (h : name ≠ key) (slot : Option shape.Carrier) (slots : rest.Slots) :
    (Fields.cons key shape rest).readMember depth name (slot, slots) =
      (do return (slot, ← rest.readMember depth name slots)) :=
  if_neg h

theorem assign_self {json : Json} {value : shape.Carrier} (h : shape.ofJson json = .ok value)
    (slot : Option shape.Carrier) (slots : rest.Slots) :
    (Fields.cons key shape rest).assign key json (slot, slots) = .ok (some value, slots) := by
  have hself : (Fields.cons key shape rest).assign key json (slot, slots) =
      (shape.ofJson json).map fun v => (some v, slots) := if_pos rfl
  rw [hself, h]
  rfl

theorem assign_of_ne (h : name ≠ key) (json : Json) (slot : Option shape.Carrier)
    (slots : rest.Slots) :
    (Fields.cons key shape rest).assign name json (slot, slots) =
      (rest.assign name json slots).map (slot, ·) :=
  if_neg h

def assignAll (fields : Fields) (slots : fields.Slots) (members : List (String × Json)) :
    Except Mismatch fields.Slots :=
  members.foldlM (fun slots member => fields.assign member.1 member.2 slots) slots

theorem assignAll_cons {fields : Fields} {slots next : fields.Slots} {json : Json}
    (h : fields.assign name json slots = .ok next) (members : List (String × Json)) :
    fields.assignAll slots ((name, json) :: members) = fields.assignAll next members := by
  rw [assignAll, List.foldlM_cons, h]
  rfl

theorem assignAll_append_eq_ok_iff {fields : Fields} {slots last : fields.Slots}
    {before after : List (String × Json)} :
    fields.assignAll slots (before ++ after) = .ok last ↔ ∃ next,
      fields.assignAll slots before = .ok next ∧ fields.assignAll next after = .ok last := by
  rw [assignAll, List.foldlM_append, bind_eq_ok_iff]
  rfl

theorem assignAll_of_not_mem {members : List (String × Json)} (hkey : key ∉ members.map Prod.fst)
    {slots last : rest.Slots} (h : rest.assignAll slots members = .ok last)
    (slot : Option shape.Carrier) :
    (Fields.cons key shape rest).assignAll (slot, slots) members = .ok (slot, last) := by
  induction members generalizing slots with
  | nil =>
    cases h
    rfl
  | cons member members ih =>
    rw [List.map_cons, List.mem_cons, not_or] at hkey
    rw [assignAll, List.foldlM_cons, bind_eq_ok_iff] at h
    obtain ⟨next, hnext, htail⟩ := h
    have hfirst : (Fields.cons key shape rest).assign member.1 member.2 (slot, slots) =
        .ok (slot, next) := by
      rw [assign_of_ne (Ne.symm hkey.1), hnext]
      rfl
    exact (assignAll_cons hfirst members).trans (ih hkey.2 htail)

theorem assignAll_of_mem {before after : List (String × Json)} {json : Json}
    {value : shape.Carrier} {slots last : rest.Slots}
    (hbefore : key ∉ before.map Prod.fst) (hafter : key ∉ after.map Prod.fst)
    (hvalue : shape.ofJson json = .ok value)
    (hrest : rest.assignAll slots (before ++ after) = .ok last) (slot : Option shape.Carrier) :
    (Fields.cons key shape rest).assignAll (slot, slots) (before ++ (key, json) :: after) =
      .ok (some value, last) := by
  obtain ⟨next, hnext, hlast⟩ := assignAll_append_eq_ok_iff.1 hrest
  refine assignAll_append_eq_ok_iff.2 ⟨_, assignAll_of_not_mem hbefore hnext slot, ?_⟩
  have hself : (Fields.cons key shape rest).assign key json (slot, next) = .ok (some value, next) :=
    assign_self hvalue slot next
  exact (assignAll_cons hself after).trans (assignAll_of_not_mem hafter hlast (some value))

theorem assignAll_nil (members : List (String × Json)) :
    Fields.nil.assignAll () members = .ok () := by
  induction members with
  | nil => rfl
  | cons member members ih => exact ih

def Slotted : (fields : Fields) → fields.Slots → Json.Object → Prop
  | .nil, _, _ => True
  | .cons key shape rest, (slot, slots), members =>
    Option.Rel (fun value json => shape.ofJson json = .ok value) slot (members.lookup key) ∧
      rest.Slotted slots members

theorem slotted_noSlots : (fields : Fields) → fields.Slotted fields.noSlots []
  | .nil => trivial
  | .cons _ _ rest => ⟨.none, slotted_noSlots rest⟩

theorem Slotted.congr : {fields : Fields} → {slots : fields.Slots} →
    {members others : Json.Object} → fields.Slotted slots members →
    (∀ key ∈ fields.keys, others.lookup key = members.lookup key) → fields.Slotted slots others
  | .nil, _, _, _, _, _ => trivial
  | .cons key _ _, (_, _), _, _, ⟨hslot, hslots⟩, h =>
    ⟨(h key List.mem_cons_self).symm ▸ hslot,
      Slotted.congr hslots fun key hkey => h key (List.mem_cons_of_mem _ hkey)⟩

theorem assignAll_of_slotted : (fields : Fields) → fields.Clear → (slots : fields.Slots) →
    (members : Json.Object) → (members.map Prod.fst).Nodup → fields.Slotted slots members →
    fields.assignAll fields.noSlots members = .ok slots
  | .nil, _, _, members, _, _ => assignAll_nil members
  | .cons key shape rest, ⟨hkey, _, hrest⟩, (slot, slots), members, hnodup, ⟨hslot, hslots⟩ => by
    cases hfound : members.lookup key with
    | none =>
      have hnot : key ∉ members.map Prod.fst := by
        intro hmem
        obtain ⟨member, hmember, rfl⟩ := List.mem_map.1 hmem
        simpa using List.lookup_eq_none_iff.1 hfound member hmember
      rw [hfound] at hslot
      cases hslot
      exact assignAll_of_not_mem hnot (assignAll_of_slotted rest hrest slots _ hnodup hslots) none
    | some json =>
      rw [hfound] at hslot
      cases hslot with
      | @some value _ hvalue =>
        -- The key stands once; the members before and after it fill the other slots.
        obtain ⟨before, after, rfl, -⟩ := List.lookup_eq_some_iff.1 hfound
        rw [(List.perm_middle.map Prod.fst).nodup_iff, List.map_cons, List.nodup_cons] at hnodup
        obtain ⟨hnot, hnodup⟩ := hnodup
        have hothers : rest.Slotted slots (before ++ after) := by
          refine hslots.congr fun other hother => ?_
          have hne : other ≠ key := by
            rintro rfl
            exact hkey hother
          rw [List.lookup_append, List.lookup_append, List.lookup_cons,
            beq_eq_false_iff_ne.2 hne]
        rw [List.map_append, List.mem_append, not_or] at hnot
        exact assignAll_of_mem hnot.1 hnot.2 hvalue
          (assignAll_of_slotted rest hrest slots _ hnodup hothers) none

theorem ofItems_cons {wanted : String} {index : Nat} {json : Json} {items after : List Json}
    {value : shape.Carrier} {values : rest.Carrier} (hvalue : shape.ofJson json = .ok value)
    (hvalues : rest.ofItems wanted (index + 1) items = .ok (values, after)) :
    (Fields.cons key shape rest).ofItems wanted index (json :: items) =
      .ok ((value, values), after) := by
  rw [ofItems, hvalue]
  have hbind (next : rest.Carrier × List Json →
      Except Mismatch ((shape.Carrier × rest.Carrier) × List Json)) :
      rest.ofItems wanted (index + 1) items >>= next = next (values, after) := by
    rw [hvalues]
    rfl
  exact hbind _

end Fields

namespace Shape

theorem ofJson_optional_of_ne_null {inner : Shape} {json : Json} (h : json ≠ .null) :
    ofJson (.optional inner) json = (inner.ofJson json).map some := by
  cases json with
  | null => exact absurd rfl h
  | _ => rfl

theorem ofJson_record {fields : Fields} (hclear : fields.Clear) {slots : fields.Slots}
    {members : Json.Object} (hnodup : (members.map Prod.fst).Nodup)
    (h : fields.Slotted slots members) (name : String) :
    ofJson (.record name fields) (.obj members) = fields.collect slots := by
  show fields.assignAll fields.noSlots members >>= fields.collect = _
  rw [fields.assignAll_of_slotted hclear slots members hnodup h]
  rfl

theorem ofJson_record_arr {fields : Fields} {name : String} {items : List Json}
    {record : fields.Carrier}
    (h : fields.ofItems (fields.describe name) 0 items = .ok (record, [])) :
    ofJson (.record name fields) (.arr items) = .ok record := by
  have hbind (next : fields.Carrier × List Json → Except Mismatch fields.Carrier) :
      fields.ofItems (fields.describe name) 0 items >>= next = next (record, []) := by
    rw [h]
    rfl
  exact hbind _

end Shape

end FormatGraph
