import FormatGraph.Proofs.Json.Message
import FormatGraph.Proofs.Shape.Slots

/-! What a mismatch with a shape can say. Besides what was found, its message has only words that
the shape knows beforehand. -/

namespace FormatGraph

open Mismatch

mutual

/-- What the messages of mismatches with a shape can say after what was found. -/
def Shape.wording : Shape → List String
  | .flag => [expecting "a boolean"]
  | .count => [expecting "u64"]
  | .text => [expecting "a string"]
  | .tokenTag =>
    [", " ++ wordList (Spelled.spellings TokenTag), expecting "unit",
      expecting "map with a single key", expecting "string or map"]
  | .object => [expecting "a map"]
  | .list item => expecting "a sequence" :: item.wording
  | .optional inner => inner.wording
  | .record name fields =>
    expecting ("struct " ++ name) :: expecting (fields.describe name) ::
      expecting "fewer elements in array" :: fields.wording

def Fields.wording : Fields → List String
  | .nil => []
  | .cons key shape rest => key :: (shape.wording ++ rest.wording)

end

theorem Spelled.ofWord_wording {α : Type} [Spelled α] (word : String) :
    FailsWith (Spelled.ofWord word : Except Mismatch α) fun m =>
      m.wording = ", " ++ wordList (Spelled.spellings α) := by
  unfold Spelled.ofWord
  split
  · exact .ok _
  · exact .error rfl

theorem Spelled.ofJson_wording (value : Json) :
    FailsWith (Spelled.ofJson value : Except Mismatch TokenTag) fun m =>
      m.wording ∈ Shape.wording .tokenTag := by
  cases value with
  | str word => exact (ofWord_wording word).mono fun m hm => List.mem_cons.2 (.inl hm)
  | obj members =>
    rcases members with _ | ⟨⟨key, value⟩, _ | _⟩
    · exact .error (.tail _ (.tail _ (.head _)))
    · cases hkey : (Spelled.ofWord key : Except Mismatch TokenTag) with
      | error m =>
        simp only [Spelled.ofJson, hkey]
        exact .error (List.mem_cons.2 (.inl (ofWord_wording key m hkey)))
      | ok tag =>
        simp only [Spelled.ofJson, hkey]
        cases value with
        | null => exact .ok tag
        | _ => exact .error (.tail _ (.head _))
    · exact .error (.tail _ (.tail _ (.head _)))
  | _ => exact .error (.tail _ (.tail _ (.tail _ (.head _))))

theorem Fields.collect_wording : (fields : Fields) → (slots : fields.Slots) →
    FailsWith (fields.collect slots) fun m => m.wording ∈ fields.wording
  | .nil, _ => .ok ()
  | .cons key shape rest, (slot, slots) => by
    rw [Fields.collect]
    split
    · exact .error List.mem_cons_self
    · refine ((Fields.collect_wording rest slots).map _).mono fun m hm => ?_
      exact List.mem_cons_of_mem key (List.mem_append_right _ hm)

theorem countOfNumber_wording (n : Number) :
    FailsWith (countOfNumber n) fun m => m.wording = expecting "u64" := by
  cases n with
  | int i =>
    rw [countOfNumber]
    split_ifs
    · exact .ok _
    · exact .error rfl
  | double bits => exact .error rfl

mutual

theorem Shape.ofJson_wording : (shape : Shape) → (value : Json) →
    FailsWith (shape.ofJson value) fun m => m.wording ∈ shape.wording
  | .flag, value => by
    cases value with
    | bool b => exact .ok b
    | _ => exact .error List.mem_cons_self
  | .count, value => by
    cases value with
    | num n => exact (countOfNumber_wording n).mono fun m hm => List.mem_cons.2 (.inl hm)
    | _ => exact .error List.mem_cons_self
  | .text, value => by
    cases value with
    | str s => exact .ok s
    | _ => exact .error List.mem_cons_self
  | .tokenTag, value => Spelled.ofJson_wording value
  | .object, value => by
    cases value with
    | obj members => exact .ok members
    | _ => exact .error List.mem_cons_self
  | .list item, value => by
    cases value with
    | arr values =>
      have hitems : FailsWith (values.mapM item.ofJson) fun m => m.wording ∈ item.wording :=
        .mapM fun value _ => Shape.ofJson_wording item value
      exact hitems.mono fun m hm => List.mem_cons_of_mem _ hm
    | _ => exact .error List.mem_cons_self
  | .optional inner, value => by
    by_cases hnull : value = .null
    · subst hnull
      exact .ok none
    · rw [Shape.ofJson_optional_of_ne_null hnull]
      exact (Shape.ofJson_wording inner value).map some
  | .record name fields, value => by
    cases value with
    | obj members =>
      have hslots : FailsWith (fields.assignAll fields.noSlots members) fun m =>
          m.wording ∈ fields.wording :=
        .foldlM (fun member _ => Fields.assign_wording fields member.1 member.2) fields.noSlots
      have hrecord : FailsWith (fields.assignAll fields.noSlots members >>= fields.collect) fun m =>
          m.wording ∈ fields.wording := hslots.bind (Fields.collect_wording fields)
      exact hrecord.mono fun m hm => .tail _ (.tail _ (.tail _ hm))
    | arr values =>
      have hitems := Fields.ofItems_wording fields (fields.describe name) 0 values
      refine FailsWith.bind (hitems.mono fun m hm => .tail _ ?_) ?_
      · exact (List.mem_cons.1 hm).elim (fun h => h ▸ .head _) fun h => .tail _ (.tail _ h)
      · rintro ⟨record, _ | _⟩
        · exact .ok record
        · exact .error (.tail _ (.tail _ (.head _)))
    | _ => exact .error List.mem_cons_self

theorem Fields.assign_wording : (fields : Fields) → (name : String) → (value : Json) →
    (slots : fields.Slots) →
    FailsWith (fields.assign name value slots) fun m => m.wording ∈ fields.wording
  | .nil, _, _, slots => .ok slots
  | .cons key shape rest, name, value, (slot, slots) => by
    rw [Fields.assign]
    split_ifs
    · refine ((Shape.ofJson_wording shape value).map _).mono fun m hm => ?_
      exact List.mem_cons_of_mem key (List.mem_append_left _ hm)
    · refine ((Fields.assign_wording rest name value slots).map _).mono fun m hm => ?_
      exact List.mem_cons_of_mem key (List.mem_append_right _ hm)

theorem Fields.ofItems_wording : (fields : Fields) → (wanted : String) → (index : Nat) →
    (values : List Json) → FailsWith (fields.ofItems wanted index values) fun m =>
      m.wording ∈ expecting wanted :: fields.wording
  | .nil, _, _, values => .ok ((), values)
  | .cons _ _ _, wanted, index, [] => .error List.mem_cons_self
  | .cons key shape rest, wanted, index, value :: values => by
    rw [Fields.ofItems]
    refine FailsWith.bind ?_ fun v => FailsWith.bind ?_ fun vs => ?_
    · refine (Shape.ofJson_wording shape value).mono fun m hm => ?_
      exact .tail _ (.tail _ (List.mem_append_left _ hm))
    · refine (Fields.ofItems_wording rest wanted (index + 1) values).mono fun m hm => ?_
      rcases List.mem_cons.1 hm with hwanted | hrest
      · exact List.mem_cons.2 (.inl hwanted)
      · exact .tail _ (.tail _ (List.mem_append_right _ hrest))
    · exact .ok _

end

end FormatGraph
