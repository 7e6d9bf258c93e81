import FormatGraph.Json.Basic

/-! Objects in the order of their keys, and values that are kept as they are when they are written
and read. A value is put in order by inserting the members of every object one after the other. -/

namespace FormatGraph.Json

variable {key other : String} {value : Json} {members : Object}

theorem lookup_insert_self (key : String) (value : Json) (members : Object) :
    (insert key value members).lookup key = some value := by
  induction members with
  | nil => simp [insert]
  | cons member rest ih =>
    rw [insert]
    split
    · rw [List.lookup_cons_self]
    · split
      · rw [List.lookup_cons_self]
      next heq => rw [List.lookup_cons, beq_eq_false_iff_ne.2 heq, ih]

theorem lookup_insert_of_ne (h : other ≠ key) :
    (insert key value members).lookup other = members.lookup other := by
  have hskip : (other == key) = false := beq_eq_false_iff_ne.2 h
  induction members with
  | nil => rw [insert, List.lookup_cons, hskip]
  | cons member rest ih =>
    rw [insert]
    split
    · rw [List.lookup_cons, hskip]
    · split
      next heq => rw [List.lookup_cons, List.lookup_cons, ← heq, hskip]
      · rw [List.lookup_cons, List.lookup_cons, ih]

def Sorted (members : Object) : Prop := members.Pairwise (·.1 < ·.1)

instance (members : Object) : Decidable (Sorted members) :=
  inferInstanceAs (Decidable (members.Pairwise (·.1 < ·.1)))

theorem Sorted.nodup (h : Sorted members) : (members.map Prod.fst).Nodup :=
  List.pairwise_map.2 (h.imp String.ne_of_lt)

theorem mem_insert {member : String × Json} (h : member ∈ insert key value members) :
    member.1 = key ∨ member ∈ members := by
  induction members with
  | nil => exact .inl (List.mem_singleton.1 h ▸ rfl)
  | cons first rest ih =>
    rw [insert] at h
    split at h
    · rcases List.mem_cons.1 h with rfl | h
      · exact .inl rfl
      · exact .inr h
    · split at h
      · rcases List.mem_cons.1 h with rfl | h
        · exact .inl rfl
        · exact .inr (List.mem_cons_of_mem _ h)
      · rcases List.mem_cons.1 h with rfl | h
        · exact .inr List.mem_cons_self
        · exact (ih h).imp_right (List.mem_cons_of_mem _)

theorem Sorted.insert (h : Sorted members) (key : String) (value : Json) :
    Sorted (insert key value members) := by
  induction members with
  | nil => exact List.pairwise_singleton _ _
  | cons first rest ih =>
    obtain ⟨hfirst, hrest⟩ := List.pairwise_cons.1 h
    rw [Json.insert]
    split
    next hlt =>
      refine List.pairwise_cons.2 ⟨fun member hmember => ?_, h⟩
      rcases List.mem_cons.1 hmember with rfl | hmember
      · exact hlt
      · exact String.lt_trans hlt (hfirst member hmember)
    next hle =>
      split
      next heq => exact List.pairwise_cons.2 ⟨heq ▸ hfirst, hrest⟩
      next hne =>
        have hbelow : first.1 < key := by
          rw [← String.not_le]
          intro hge
          exact hne (String.le_antisymm hge (String.not_lt.1 hle))
        refine List.pairwise_cons.2 ⟨fun member hmember => ?_, ih hrest⟩
        rcases mem_insert hmember with heq | hmember
        · exact heq ▸ hbelow
        · exact hfirst member hmember

theorem insert_eq_append (h : ∀ member ∈ members, member.1 < key) (value : Json) :
    insert key value members = members ++ [(key, value)] := by
  induction members with
  | nil => rfl
  | cons member members ih =>
    have hlt := h member List.mem_cons_self
    have hrest := ih fun m hm => h m (List.mem_cons_of_mem _ hm)
    rw [insert, if_neg (String.lt_asymm hlt), if_neg (String.ne_of_lt hlt).symm, hrest,
      List.cons_append]

mutual

def sortKeys : Json → Json
  | .arr items => .arr (sortItems items)
  | .obj members => .obj (sortInto [] members)
  | json => json

def sortItems : List Json → List Json
  | [] => []
  | item :: items => item.sortKeys :: sortItems items

def sortInto (done : Object) : List (String × Json) → Object
  | [] => done
  | (key, value) :: members => sortInto (insert key value.sortKeys done) members

end

theorem sortItems_eq_map (items : List Json) : sortItems items = items.map sortKeys := by
  induction items with
  | nil => rfl
  | cons item items ih => rw [sortItems, ih, List.map_cons]

theorem sorted_sortInto {done : Object} (h : Sorted done) (members : Object) :
    Sorted (sortInto done members) := by
  induction members generalizing done with
  | nil => exact h
  | cons member members ih =>
    rw [sortInto]
    exact ih (h.insert _ _)

theorem lookup_sortInto_of_not_mem {done : Object} (h : key ∉ members.map Prod.fst) :
    (sortInto done members).lookup key = done.lookup key := by
  induction members generalizing done with
  | nil => rfl
  | cons member members ih =>
    rw [List.map_cons, List.mem_cons, not_or] at h
    rw [sortInto, ih h.2, lookup_insert_of_ne h.1]

theorem lookup_sortInto {done : Object} (hnodup : (members.map Prod.fst).Nodup)
    {member : String × Json} (h : member ∈ members) :
    (sortInto done members).lookup member.1 = some member.2.sortKeys := by
  induction members generalizing done with
  | nil => cases h
  | cons first members ih =>
    rw [List.map_cons, List.nodup_cons] at hnodup
    rw [sortInto]
    rcases List.mem_cons.1 h with rfl | h
    · rw [lookup_sortInto_of_not_mem hnodup.1, lookup_insert_self]
    · exact ih hnodup.2 h

mutual

def depth : Json → Nat
  | .arr items => itemsDepth items + 1
  | .obj members => membersDepth members + 1
  | _ => 0

def itemsDepth : List Json → Nat
  | [] => 0
  | item :: items => max item.depth (itemsDepth items)

def membersDepth : List (String × Json) → Nat
  | [] => 0
  | (_, value) :: members => max value.depth (membersDepth members)

end

theorem depth_le_itemsDepth {item : Json} {items : List Json} (h : item ∈ items) :
    item.depth ≤ itemsDepth items := by
  induction h with
  | head => exact Nat.le_max_left _ _
  | tail _ _ ih => exact Nat.le_trans ih (Nat.le_max_right _ _)

theorem itemsDepth_le {items : List Json} {n : Nat} (h : ∀ item ∈ items, item.depth ≤ n) :
    itemsDepth items ≤ n := by
  induction items with
  | nil => exact Nat.zero_le n
  | cons item items ih =>
    have hfirst := h item List.mem_cons_self
    exact Nat.max_le.2 ⟨hfirst, ih fun other hother => h other (List.mem_cons_of_mem _ hother)⟩

theorem depth_le_membersDepth {member : String × Json} (h : member ∈ members) :
    member.2.depth ≤ membersDepth members := by
  induction h with
  | head => exact Nat.le_max_left _ _
  | tail _ _ ih => exact Nat.le_trans ih (Nat.le_max_right _ _)

/-- A value that a text carries exactly: its numbers are integers of 64 bits, with or without a
sign, and the members of its objects stand in the order of their keys. -/
inductive Exact : Json → Prop
  | null : Exact .null
  | bool (b : Bool) : Exact (.bool b)
  | int {i : Int} (lower : -(UInt64.size / 2 : Nat) ≤ i) (upper : i < UInt64.size) :
      Exact (.num (.int i))
  | str (s : String) : Exact (.str s)
  | arr {items : List Json} (each : ∀ item ∈ items, Exact item) : Exact (.arr items)
  | obj {members : Object} (sorted : Sorted members)
      (each : ∀ member ∈ members, Exact member.2) : Exact (.obj members)

theorem sortInto_eq_append {done : Object} (hsorted : Sorted (done ++ members))
    (h : ∀ member ∈ members, member.2.sortKeys = member.2) :
    sortInto done members = done ++ members := by
  induction members generalizing done with
  | nil => rw [sortInto, List.append_nil]
  | cons member members ih =>
    have hbelow : ∀ earlier ∈ done, earlier.1 < member.1 := fun earlier hearlier =>
      (List.pairwise_append.1 hsorted).2.2 earlier hearlier member List.mem_cons_self
    rw [List.append_cons] at hsorted ⊢
    rw [sortInto, h member List.mem_cons_self, insert_eq_append hbelow]
    exact ih hsorted fun m hm => h m (List.mem_cons_of_mem _ hm)

inductive Integral : Json → Prop
  | null : Integral .null
  | bool (b : Bool) : Integral (.bool b)
  | int {i : Int} (lower : -(UInt64.size / 2 : Nat) ≤ i) (upper : i < UInt64.size) :
      Integral (.num (.int i))
  | str (s : String) : Integral (.str s)
  | arr {items : List Json} (each : ∀ item ∈ items, Integral item) : Integral (.arr items)
  | obj {members : Object} (each : ∀ member ∈ members, Integral member.2) : Integral (.obj members)

theorem Exact.integral {json : Json} (h : json.Exact) : json.Integral := by
  induction h with
  | null => exact .null
  | bool b => exact .bool b
  | int lower upper => exact .int lower upper
  | str s => exact .str s
  | arr _ ih => exact .arr ih
  | obj _ _ ih => exact .obj ih

theorem Exact.sortKeys_eq {json : Json} (h : json.Exact) : json.sortKeys = json := by
  induction h with
  | null | bool | int | str => rfl
  | arr each ih => rw [sortKeys, sortItems_eq_map, List.map_congr_left ih, List.map_id']
  | @obj members sorted each ih =>
    have hsorted : Sorted ([] ++ members) := sorted
    rw [sortKeys, sortInto_eq_append hsorted ih, List.nil_append]

end FormatGraph.Json
