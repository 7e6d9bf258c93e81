import FormatGraph.Proofs.Json.RoundTrip
import FormatGraph.Proofs.Shape.Slots
import FormatGraph.Shape.Shaped

/-! Values of a shape come back from what is written for them, from the text and from the value, if
the shape is clear and the objects in the value are exact. Only objects of any kind need a
condition: the other values are exact, and no deeper than their shape. -/

namespace FormatGraph

open Reader

mutual

def Shape.Exact : (shape : Shape) → shape.Carrier → Prop
  | .object, members => (Json.obj members).Exact
  | .list item, (values : List item.Carrier) => ∀ value ∈ values, item.Exact value
  | .optional inner, (value? : Option inner.Carrier) => ∀ value ∈ value?, inner.Exact value
  | .record _ fields, values => fields.Exact values
  | _, _ => True

def Fields.Exact : (fields : Fields) → fields.Carrier → Prop
  | .nil, _ => True
  | .cons _ shape rest, (value, values) => shape.Exact value ∧ rest.Exact values

end

mutual

def Shape.isPlain : Shape → Bool
  | .object => false
  | .list item => item.isPlain
  | .optional inner => inner.isPlain
  | .record _ fields => fields.isPlain
  | _ => true

def Fields.isPlain : Fields → Bool
  | .nil => true
  | .cons _ shape rest => shape.isPlain && rest.isPlain

end

mutual

def Shape.height : Shape → Nat
  | .list item => item.height + 1
  | .optional inner => inner.height
  | .record _ fields => fields.height + 1
  | _ => 0

def Fields.height : Fields → Nat
  | .nil => 0
  | .cons _ shape rest => max shape.height rest.height

end

mutual

theorem Shape.exact_of_isPlain : (shape : Shape) → shape.isPlain → (value : shape.Carrier) →
    shape.Exact value
  | .flag, _, _ | .count, _, _ | .text, _, _ | .tokenTag, _, _ => trivial
  | .object, hplain, _ => Bool.noConfusion hplain
  | .list item, hplain, _ => fun value _ => Shape.exact_of_isPlain item hplain value
  | .optional inner, hplain, _ => fun value _ => Shape.exact_of_isPlain inner hplain value
  | .record _ fields, hplain, values => Fields.exact_of_isPlain fields hplain values

theorem Fields.exact_of_isPlain : (fields : Fields) → fields.isPlain → (values : fields.Carrier) →
    fields.Exact values
  | .nil, _, _ => trivial
  | .cons _ shape rest, hplain, (value, values) => by
    obtain ⟨hshape, hrest⟩ := (Bool.and_eq_true _ _).mp hplain
    exact ⟨Shape.exact_of_isPlain shape hshape value, Fields.exact_of_isPlain rest hrest values⟩

end

mutual

theorem Shape.depth_toJson_le : (shape : Shape) → shape.isPlain → (value : shape.Carrier) →
    (shape.toJson value).depth ≤ shape.height
  | .flag, _, _ | .count, _, _ | .text, _, _ | .tokenTag, _, _ => Nat.le_refl 0
  | .object, hplain, _ => Bool.noConfusion hplain
  | .list item, hplain, (values : List item.Carrier) => by
    refine Nat.succ_le_succ (Json.itemsDepth_le fun json hjson => ?_)
    obtain ⟨value, _, rfl⟩ := List.mem_map.1 hjson
    exact Shape.depth_toJson_le item hplain value
  | .optional _, _, none => Nat.zero_le _
  | .optional inner, hplain, some value => Shape.depth_toJson_le inner hplain value
  | .record _ fields, hplain, values =>
    Nat.succ_le_succ (Fields.depth_toMembers_le fields hplain values)

theorem Fields.depth_toMembers_le : (fields : Fields) → fields.isPlain →
    (values : fields.Carrier) → Json.membersDepth (fields.toMembers values) ≤ fields.height
  | .nil, _, _ => Nat.le_refl 0
  | .cons _ shape rest, hplain, (value, values) => by
    obtain ⟨hshape, hrest⟩ := (Bool.and_eq_true _ _).mp hplain
    have hfirst := Shape.depth_toJson_le shape hshape value
    have hothers := Fields.depth_toMembers_le rest hrest values
    exact Nat.max_le.2 ⟨Nat.le_trans hfirst (Nat.le_max_left _ _),
      Nat.le_trans hothers (Nat.le_max_right _ _)⟩

end

namespace Fields

def filled : (fields : Fields) → fields.Carrier → fields.Slots
  | .nil, _ => ()
  | .cons _ _ rest, (value, values) => (some value, rest.filled values)

theorem collect_filled : (fields : Fields) → (values : fields.Carrier) →
    fields.collect (fields.filled values) = .ok values
  | .nil, _ => rfl
  | .cons key shape rest, (value, values) => by
    rw [filled, collect, collect_filled rest values]
    rfl

theorem map_fst_toMembers : (fields : Fields) → (values : fields.Carrier) →
    (fields.toMembers values).map Prod.fst = fields.keys
  | .nil, _ => rfl
  | .cons key shape rest, (value, values) => by
    rw [toMembers, List.map_cons, map_fst_toMembers rest values, keys]

end Fields

variable {layout : Json.Layout}

theorem Reader.flag_reads (b : Bool) : Reads flag ((Json.bool b).chars layout) b := by
  cases b with
  | false =>
    have htext : (Json.bool false).chars layout = 'f' :: ['a', 'l', 's', 'e'] := rfl
    exact .of_letters htext rfl (by decide) rfl rfl
  | true =>
    have htext : (Json.bool true).chars layout = 't' :: ['r', 'u', 'e'] := rfl
    exact .of_letters htext rfl (by decide) rfl rfl

theorem countOfNumber_nat (n : UInt64) : countOfNumber (.int n.toNat) = .ok n := by
  simp [countOfNumber]

theorem Reader.count_reads (n : UInt64) : Reads count ((Json.nat n.toNat).chars layout) n := by
  refine .of_digits n.toNat_lt_size rfl fun c cs rest hc hnumber => ?_
  have hminus : c ≠ '-' := ne_of_isDigit hc rfl
  simp [hc, hnumber, countOfNumber_nat, orMismatch]

theorem Reader.text_reads (s : String) : Reads text ((Json.str s).chars layout) s := by
  refine .of_first rfl rfl (by decide) rfl fun rest _ => ?_
  simp [run_string]

theorem Reader.optional_none_reads {α : Type} (inner : Reader α) :
    Reads (optional inner) (Json.null.chars layout) none := by
  have htext : Json.null.chars layout = 'n' :: ['u', 'l', 'l'] := rfl
  exact .of_letters htext rfl (by decide) rfl rfl

theorem Reader.optional_some_reads {α : Type} {inner : Reader α} {text : List Char} {a : α}
    (h : Reads inner text a) (hhead : text.head? ≠ some 'n') :
    Reads (optional inner) text (some a) := by
  obtain ⟨c, cs, heq, hc, hclose⟩ := h.opens
  have hn : c ≠ 'n' := by simpa [heq] using hhead
  refine .of_first heq hc hclose rfl fun rest hrest => ?_
  have hinner := h.run_append hrest
  rw [heq, List.cons_append] at hinner
  simp [hn, hinner]

theorem TokenTag.ofWord_spell (tag : TokenTag) :
    Spelled.ofWord (Spelled.spell tag) = .ok tag := by
  cases tag <;> decide

theorem Reader.tokenTag_reads (depth : Nat) (tag : TokenTag) :
    Reads (Spelled.read depth) ((Spelled.toJson tag).chars layout) tag := by
  refine .of_first rfl rfl (by decide) rfl fun rest _ => ?_
  simp [run_string, Spelled.ofWordHere, TokenTag.ofWord_spell]

theorem Shape.head?_chars_toJson_ne {shape : Shape} (h : shape.isOptional = false)
    (value : shape.Carrier) : ((shape.toJson value).chars layout).head? ≠ some 'n' := by
  cases shape with
  | flag => cases (value : Bool) <;> simp [Shape.toJson, Json.chars]
  | count =>
    obtain ⟨c, cs, heq, hc⟩ := exists_toDigits_eq_cons (UInt64.toNat value)
    have htext : ((Shape.toJson .count value).chars layout) = c :: cs := heq
    rw [htext]
    simpa using ne_of_isDigit hc (rfl : isDigit 'n' = false)
  | text => simp [Shape.toJson, Json.chars, Json.stringChars]
  | tokenTag => simp [Shape.toJson, Spelled.toJson, Json.chars, Json.stringChars]
  | object =>
    cases (value : Json.Object) <;> simp [Shape.toJson, Json.chars]
  | list item =>
    cases (value : List item.Carrier) <;> simp [Shape.toJson, Json.chars]
  | optional inner => cases h
  | record name fields =>
    cases hmembers : fields.toMembers value <;> simp [Shape.toJson, hmembers, Json.chars]

namespace Fields

variable {key name : String} {shape : Shape} {rest : Fields} {depth : Nat}

theorem fills_cons {slot : Option shape.Carrier} {slots last : rest.Slots}
    {members : List (String × Json)} (hkey : key ∉ members.map Prod.fst)
    (h : Fills (fun slots name => rest.readMember depth name slots) layout slots members last) :
    Fills (fun slots name => (Fields.cons key shape rest).readMember depth name slots) layout
      (slot, slots) members (slot, last) := by
  induction h with
  | nil => exact .nil _
  | @cons state next last name value members first tail ih =>
    -- No member has the first key, so each goes past its slot to the others.
    rw [List.map_cons, List.mem_cons, not_or] at hkey
    have hfirst := first.map fun slots => (slot, slots)
    rw [← readMember_of_ne (Ne.symm hkey.1)] at hfirst
    exact .cons hfirst (ih hkey.2)

end Fields

namespace Shape

theorem read_object {members : Json.Object} {depth : Nat} (hexact : (Json.obj members).Exact)
    (hdepth : (Json.obj members).depth ≤ depth) :
    Reads (read .object depth) ((Json.obj members).chars layout) members := by
  have hsorted : Json.sortInto [] members = members := Json.obj.inj hexact.sortKeys_eq
  cases depth with
  | zero => exact absurd hdepth (Nat.not_succ_le_zero _)
  | succ depth =>
    cases hexact with
    | obj sorted each =>
      have hread (member : String × Json) (hmember : member ∈ members) :
          Reads (value depth) (member.2.chars layout.inner) member.2.sortKeys := by
        refine value_reads_sortKeys (each member hmember).integral ?_ layout.inner
        exact Nat.le_trans (Json.depth_le_membersDepth hmember) (Nat.le_of_succ_le_succ hdepth)
      obtain ⟨inside, heq, hmembers⟩ := exists_chars_obj (fills_sortInto hread [])
      rw [hsorted] at hmembers
      exact .of_first heq rfl (by decide) rfl fun rest _ => hmembers rest

theorem read_list {item : Shape} {values : List item.Carrier} {depth : Nat}
    (h : ∀ value ∈ values,
      Reads (item.read depth) ((item.toJson value).chars layout.inner) value) :
    Reads (read (.list item) (depth + 1)) ((Json.arr (values.map item.toJson)).chars layout)
      values := by
  obtain ⟨inside, heq, hitems⟩ := exists_chars_arr (g := id) h
  rw [List.map_id] at hitems
  exact .of_first heq rfl (by decide) rfl fun rest _ => hitems rest

theorem read_record {name : String} {fields : Fields} {values : fields.Carrier} {depth : Nat}
    (h : Fills (fun slots key => fields.readMember depth key slots) layout.inner fields.noSlots
      (fields.toMembers values) (fields.filled values)) :
    Reads (read (.record name fields) (depth + 1))
      ((Json.obj (fields.toMembers values)).chars layout) values := by
  obtain ⟨inside, heq, hmembers⟩ := exists_chars_obj h
  have hrecord (rest : List Char) :
      (do
        let slots ← members (fun slots key => fields.readMember depth key slots) fields.noSlots
        orMismatch (fields.collect slots)).run (inside ++ rest) = .ok (values, rest) := by
    simp [hmembers, fields.collect_filled, orMismatch]
  exact .of_first heq rfl (by decide) rfl fun rest _ => hrecord rest

end Shape

mutual

theorem Shape.read_reads : (shape : Shape) → shape.Clear → (value : shape.Carrier) →
    shape.Exact value → (depth : Nat) → (shape.toJson value).depth ≤ depth →
    (layout : Json.Layout) → Reads (shape.read depth) ((shape.toJson value).chars layout) value
  | .flag, _, b, _, _, _, _ => flag_reads b
  | .count, _, n, _, _, _, _ => count_reads n
  | .text, _, s, _, _, _, _ => text_reads s
  | .tokenTag, _, tag, _, depth, _, _ => tokenTag_reads depth tag
  | .object, _, _, hexact, _, hdepth, _ => Shape.read_object hexact hdepth
  | .list _, _, _, _, 0, hdepth, _ => absurd hdepth (Nat.not_succ_le_zero _)
  | .list item, hclear, _, hexact, depth + 1, hdepth, layout => by
    refine Shape.read_list fun value hvalue => ?_
    have hle := Json.depth_le_itemsDepth (List.mem_map_of_mem (f := item.toJson) hvalue)
    exact Shape.read_reads item hclear value (hexact value hvalue) depth
      (Nat.le_trans hle (Nat.le_of_succ_le_succ hdepth)) layout.inner
  | .optional inner, _, none, _, depth, _, _ => optional_none_reads (inner.read depth)
  | .optional inner, hclear, some value, hexact, depth, hdepth, layout =>
    optional_some_reads
      (Shape.read_reads inner hclear.2 value (hexact value rfl) depth hdepth layout)
      (Shape.head?_chars_toJson_ne hclear.1 value)
  | .record _ _, _, _, _, 0, hdepth, _ => absurd hdepth (Nat.not_succ_le_zero _)
  | .record _ fields, hclear, values, hexact, depth + 1, hdepth, layout =>
    Shape.read_record (Fields.readMember_fills fields hclear values hexact depth
      (Nat.le_of_succ_le_succ hdepth) layout.inner)

theorem Fields.readMember_fills : (fields : Fields) → fields.Clear → (values : fields.Carrier) →
    fields.Exact values → (depth : Nat) → Json.membersDepth (fields.toMembers values) ≤ depth →
    (layout : Json.Layout) →
    Fills (fun slots name => fields.readMember depth name slots) layout fields.noSlots
      (fields.toMembers values) (fields.filled values)
  | .nil, _, _, _, _, _, _ => .nil _
  | .cons key shape rest, hclear, (value, values), hexact, depth, hdepth, layout => by
    obtain ⟨hkey, hshape, hrest⟩ := hclear
    rw [Fields.toMembers, Json.membersDepth] at hdepth
    have hread := Shape.read_reads shape hshape value hexact.1 depth
      (Nat.le_trans (Nat.le_max_left _ _) hdepth) layout
    have hfills := Fields.readMember_fills rest hrest values hexact.2 depth
      (Nat.le_trans (Nat.le_max_right _ _) hdepth) layout
    have hfirst := (hread.map fun v => (some v, rest.noSlots)).colon layout
    rw [← Fields.readMember_self] at hfirst
    rw [← rest.map_fst_toMembers values] at hkey
    exact .cons hfirst (Fields.fills_cons hkey hfills)

end

/-! ### Values -/

namespace Shape

theorem sortKeys_toJson_ne_null {shape : Shape} (h : shape.isOptional = false)
    (value : shape.Carrier) : (shape.toJson value).sortKeys ≠ .null := by
  cases shape with
  | optional inner => cases h
  | _ => simp [toJson, Json.nat, Spelled.toJson, Json.sortKeys]

end Shape

mutual

theorem Shape.ofJson_sortKeys : (shape : Shape) → shape.Clear → (value : shape.Carrier) →
    shape.Exact value → shape.ofJson (shape.toJson value).sortKeys = .ok value
  | .flag, _, _, _ => rfl
  | .count, _, n, _ => countOfNumber_nat n
  | .text, _, _, _ => rfl
  | .tokenTag, _, tag, _ => TokenTag.ofWord_spell tag
  | .object, _, members, hexact => by
    have hsorted : (Json.obj members).sortKeys = .obj members := Json.Exact.sortKeys_eq hexact
    exact congrArg (Shape.ofJson .object) hsorted
  | .list item, hclear, (values : List item.Carrier), hexact => by
    have hitems : ((values.map item.toJson).map Json.sortKeys).mapM item.ofJson = .ok values := by
      rw [mapM_eq_ok_iff, List.map_map, List.forall₂_map_left_iff, List.forall₂_same]
      exact fun value hvalue => Shape.ofJson_sortKeys item hclear value (hexact value hvalue)
    have hsorted : (Shape.toJson (.list item) values).sortKeys =
        .arr ((values.map item.toJson).map Json.sortKeys) := by
      rw [← Json.sortItems_eq_map]
      rfl
    rw [hsorted]
    exact hitems
  | .optional _, _, none, _ => rfl
  | .optional inner, hclear, some value, hexact => by
    have hinner := Shape.ofJson_sortKeys inner hclear.2 value (hexact value rfl)
    have hnull := Shape.sortKeys_toJson_ne_null hclear.1 value
    exact (Shape.ofJson_optional_of_ne_null hnull).trans (congrArg (Except.map some) hinner)
  | .record _ fields, hclear, values, hexact => by
    have hnodup := fields.nodup_keys hclear
    rw [← fields.map_fst_toMembers values] at hnodup
    have hslotted := Fields.slotted_filled fields hclear values hexact
      (Json.sortInto [] (fields.toMembers values))
      fun member hmember => Json.lookup_sortInto hnodup hmember
    have hsorted := (Json.sorted_sortInto .nil (fields.toMembers values)).nodup
    exact (Shape.ofJson_record hclear hsorted hslotted _).trans (fields.collect_filled values)

theorem Fields.slotted_filled : (fields : Fields) → fields.Clear → (values : fields.Carrier) →
    fields.Exact values → (members : List (String × Json)) →
    (∀ member ∈ fields.toMembers values, members.lookup member.1 = some member.2.sortKeys) →
    fields.Slotted (fields.filled values) members
  | .nil, _, _, _, _, _ => trivial
  | .cons key shape rest, ⟨_, hshape, hrest⟩, (value, values), hexact, members, h => by
    have hfound : members.lookup key = some (shape.toJson value).sortKeys :=
      h (key, shape.toJson value) List.mem_cons_self
    have hslot : Option.Rel (fun value json => shape.ofJson json = .ok value) (some value)
        (members.lookup key) := by
      rw [hfound]
      exact .some (Shape.ofJson_sortKeys shape hshape value hexact.1)
    exact ⟨hslot, Fields.slotted_filled rest hrest values hexact.2 members
      fun member hmember => h member (List.mem_cons_of_mem _ hmember)⟩

end

end FormatGraph
