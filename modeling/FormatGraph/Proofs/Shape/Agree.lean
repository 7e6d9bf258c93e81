import FormatGraph.Proofs.Json.Agree
import FormatGraph.Proofs.Shape.Slots
import FormatGraph.Shape.OfText

/-! A text and its value say the same. If a shape can be read from a text, and the text has a value,
then the shape can be taken from that value, and the result is the same. Both readers are followed
side by side; they need not be limited to the same depth. -/

namespace FormatGraph

open Reader

namespace Reader

variable {α β : Type} {R : α → Json → Prop}

theorem failWanting_ne_ok (wanted : String) (s : List Char) (taken : α × List Char) :
    (failWanting wanted : Reader α).run s ≠ .ok taken := by
  intro h
  obtain ⟨found, mid, -, h⟩ := run_bind_eq_ok_iff.1 h
  cases h

theorem Agree.opening {R : α → β → Prop} {inside : Nat → Reader α} {inside' : Nat → Reader β}
    (h : ∀ depth depth', Agree R (inside depth) (inside' depth')) (depth depth' : Nat) :
    Agree R (opening depth inside) (opening depth' inside') := by
  cases depth with
  | zero => exact .of_fails (failNext_ne_ok _)
  | succ depth =>
    cases depth' with
    | zero => exact .of_fails_right (failNext_ne_ok _)
    | succ depth' => exact .same eat fun _ => h depth depth'

theorem orMismatch_agrees (result : Except Mismatch α) (b : β) :
    Agree (fun a b' => b' = b ∧ result = .ok a) (orMismatch result) (pure b) := by
  cases result with
  | ok a => exact .pure ⟨rfl, rfl⟩
  | error m => exact .of_fails nofun

theorem value_eq_valueBy (depth : Nat) :
    value depth = valueBy (opening depth fun depth => do return .arr (← items (value depth)))
      (opening depth fun depth => do return .obj (← objectBy (value depth))) := by
  cases depth with
  | zero => rfl
  | succ depth => rfl

/-! ### Values without parts -/

theorem flag_agrees (depth : Nat) : Agree (fun b json => json = .bool b) flag (value depth) := by
  rw [value_eq_valueBy]
  refine .same peekSolid fun c? => ?_
  split
  · exact .same eat fun _ => .same (letters _) fun _ => .pure rfl
  · exact .same eat fun _ => .same (letters _) fun _ => .pure rfl
  · exact .of_fails (failWanting_ne_ok _)

theorem text_agrees (depth : Nat) : Agree (fun s json => json = .str s) text (value depth) := by
  rw [value_eq_valueBy]
  refine .same peekSolid fun c? => ?_
  split
  · exact .same eat fun _ => (Agree.refl string).map_right fun _ _ heq => heq ▸ rfl
  · exact .of_fails (failWanting_ne_ok _)

theorem count_agrees (depth : Nat) :
    Agree (fun n json => Shape.ofJson .count json = .ok n) count (value depth) := by
  have hnumber (negative : Bool) :
      Agree (fun n json => Shape.ofJson .count json = .ok n)
        (do orMismatch (countOfNumber (← number negative)))
        (do return .num (← number negative)) := by
    refine .same (number negative) fun i => (orMismatch_agrees _ _).mono ?_
    rintro n _ ⟨rfl, hcount⟩
    exact hcount
  rw [value_eq_valueBy]
  refine .same peekSolid fun c? => ?_
  split
  · exact .same eat fun _ => hnumber true
  next c _ =>
    split
    next hdigit =>
      split
      case h_9 heq =>
        cases heq
        rw [if_pos hdigit]
        exact hnumber false
      -- No digit is one of the other characters that begin a value.
      all_goals
        rename_i heq
        cases heq
      all_goals cases hdigit
    · exact .of_fails (failWanting_ne_ok _)
  · exact .of_fails (failWanting_ne_ok _)

theorem readUnit_agrees (depth : Nat) :
    Agree (fun _ json => json = .null) Spelled.readUnit (value depth) := by
  rw [value_eq_valueBy]
  refine .same peekSolid fun c? => ?_
  split
  · exact .same eat fun _ => (Agree.refl (letters _)).map_right fun _ _ _ => rfl
  · exact .of_fails (failWanting_ne_ok _)

theorem run_value_dropWhile (depth : Nat) (s : List Char) :
    (value depth).run (s.dropWhile isBlank) = (value depth).run s := by
  rw [value_eq_valueBy]
  exact run_peekSolid_bind_dropWhile _ s

theorem ne_null_of_run_map {f : α → Json} {reader : Reader α} {json : Json} {s rest : List Char}
    (h : (do return f (← reader)).run s = .ok (json, rest)) (hf : ∀ a, f a ≠ .null) :
    json ≠ .null := by
  obtain ⟨a, mid, -, h⟩ := run_bind_eq_ok_iff.1 h
  cases h
  exact hf a

theorem head?_of_run_valueBy_null {list object : Reader Json} {s rest : List Char}
    (hlist : ∀ t, list.run ('[' :: t) ≠ .ok (.null, rest))
    (hobject : ∀ t, object.run ('\x7b' :: t) ≠ .ok (.null, rest))
    (h : (valueBy list object).run s = .ok (.null, rest)) :
    (s.dropWhile isBlank).head? = some 'n' := by
  obtain ⟨c, t, ht, h⟩ := exists_of_run_peekSolid h nofun
  rw [ht, List.head?_cons]
  split at h
  case h_1 => cases h
  case h_2 heq => exact heq
  case h_7 heq =>
    cases heq
    exact absurd h (hlist t)
  case h_8 heq =>
    cases heq
    exact absurd h (hobject t)
  case h_9 =>
    split at h
    · exact absurd rfl (ne_null_of_run_map h fun _ => nofun)
    · cases h
  all_goals exact absurd rfl (ne_null_of_run_map (run_of_run_eat h) fun _ => nofun)

theorem ne_null_of_run_opening {f : α → Json} {inside : Nat → Reader α} {json : Json} {depth : Nat}
    {c : Char} {s rest : List Char}
    (h : (opening depth fun depth => do return f (← inside depth)).run (c :: s) = .ok (json, rest))
    (hf : ∀ a, f a ≠ .null) : json ≠ .null := by
  cases depth with
  | zero => cases h
  | succ depth => exact ne_null_of_run_map (run_of_run_eat h) hf

theorem head?_of_run_value_null {depth : Nat} {s rest : List Char}
    (h : (value depth).run s = .ok (.null, rest)) : (s.dropWhile isBlank).head? = some 'n' := by
  rw [value_eq_valueBy] at h
  refine head?_of_run_valueBy_null (fun t hlist => ?_) (fun t hobject => ?_) h
  · exact absurd rfl (ne_null_of_run_opening hlist fun _ => nofun)
  · exact absurd rfl (ne_null_of_run_opening hobject fun _ => nofun)

theorem optional_agrees {inner : Reader α} {depth : Nat} (h : Agree R inner (value depth)) :
    Agree (fun a? json => (a? = none ∧ json = .null) ∨ ∃ a, a? = some a ∧ json ≠ .null ∧ R a json)
      (optional inner) (value depth) := by
  intro s a? rest json rest' hread hvalue
  rw [optional, run_peekSolid_bind] at hread
  split at hread
  next hn =>
    obtain ⟨_, t, heat, hread⟩ := run_bind_eq_ok_iff.1 hread
    obtain ⟨_, mid, hletters, hread⟩ := run_bind_eq_ok_iff.1 hread
    cases hread
    have hunit : Spelled.readUnit.run s = .ok ((), rest) := by
      rw [Spelled.readUnit, run_peekSolid_bind, hn]
      exact run_bind_eq_ok_iff.2 ⟨_, _, heat, hletters⟩
    exact (readUnit_agrees depth hunit hvalue).imp_right fun hjson => .inl ⟨rfl, hjson⟩
  next hn =>
    obtain ⟨a, mid, hinner, hread⟩ := run_bind_eq_ok_iff.1 hread
    cases hread
    have hsolid : (value depth).run (s.dropWhile isBlank) = .ok (json, rest') := by
      rw [run_value_dropWhile, hvalue]
    have hnull : json ≠ .null := by
      rintro rfl
      exact hn (head?_of_run_value_null hvalue)
    exact (h hinner hsolid).imp_right fun hjson => .inr ⟨a, rfl, hnull, hjson⟩

/-! ### Words -/

theorem readKey_agrees : Agree (fun key key? => key? = some key) Spelled.readKey firstKey? := by
  refine .same peekSolid fun c? => ?_
  split
  case h_2 => exact .same eat fun _ => (Agree.refl string).map_right fun _ _ heq => heq ▸ rfl
  all_goals exact .of_fails (failNext_ne_ok _)

theorem of_run_ofWordHere [Spelled α] {word : String} {a : α} {s rest : List Char}
    (h : (Spelled.ofWordHere word).run s = .ok (a, rest)) :
    rest = s ∧ Spelled.ofWord word = .ok a := by
  rw [Spelled.ofWordHere] at h
  split at h
  next hword =>
    cases h
    exact ⟨rfl, hword⟩
  · cases h

theorem run_iterate_memberStep {σ : Type} {member : σ → String → Reader σ} {s rest : List Char}
    (h : s.dropWhile isBlank = '\x7d' :: rest) (state : σ) :
    (iterate (memberStep member) state).run s = .ok (state, rest) :=
  iterate_of_inr (by simp [memberStep, nextKey?, run_peekSolid, h])

theorem of_run_readEnd {s rest : List Char} (h : Spelled.readEnd.run s = .ok ((), rest)) :
    s.dropWhile isBlank = '\x7d' :: rest := by
  obtain ⟨c, t, ht, h⟩ := exists_of_run_peekSolid h nofun
  split at h
  case h_2 heq =>
    cases heq
    cases h
    exact ht
  all_goals cases h

theorem readObject_agrees [Spelled α] (depth : Nat) :
    Agree (fun a members => Spelled.ofJson (.obj members) = .ok a) (Spelled.readObject : Reader α)
      (objectBy (value depth)) := by
  refine readKey_agrees.bind ?_
  rintro key _ rfl
  intro s a rest members rest' hread hmembers
  obtain ⟨b, r, hhere, hafter⟩ := run_bind_eq_ok_iff.1 hread
  obtain ⟨rfl, hword⟩ := of_run_ofWordHere hhere
  obtain ⟨_, t, hcolon, hread⟩ := run_bind_eq_ok_iff.1 hafter
  obtain ⟨_, u, hunit, hread⟩ := run_bind_eq_ok_iff.1 hread
  obtain ⟨_, v, hend, hread⟩ := run_bind_eq_ok_iff.1 hread
  cases hread
  obtain ⟨state, w, hmember, hloop⟩ := run_bind_eq_ok_iff.1 hmembers
  obtain ⟨_, t', hcolon', hmember⟩ := run_bind_eq_ok_iff.1 hmember
  obtain ⟨json, u', hjson, hmember⟩ := run_bind_eq_ok_iff.1 hmember
  cases hmember
  rw [hcolon] at hcolon'
  cases hcolon'
  obtain ⟨rfl, rfl⟩ := readUnit_agrees depth hunit hjson
  -- The object is closed after its first member, so it has no other.
  rw [run_iterate_memberStep (of_run_readEnd hend)] at hloop
  cases hloop
  have hjson : Spelled.ofJson (.obj (Json.insert key .null [])) = .ok a := by
    simp [Spelled.ofJson, Json.insert, hword]
  exact ⟨rfl, hjson⟩

theorem word_agrees (α : Type) [Spelled α] (depth depth' : Nat) :
    Agree (fun a json => Spelled.ofJson json = .ok a) (Spelled.read depth : Reader α)
      (value depth') := by
  have hstring : Agree (fun a json => Spelled.ofJson json = .ok a)
      (do Spelled.ofWordHere (← string) : Reader α) (do return .str (← string)) := by
    refine .same string fun word => ?_
    rintro s a rest _ _ hword ⟨⟩
    exact of_run_ofWordHere hword
  rw [value_eq_valueBy]
  refine .same peekSolid fun c? => ?_
  split
  · exact .of_fails (failNext_ne_ok _)
  · exact .same eat fun _ => hstring
  · split
    · exact .of_fails (failNext_ne_ok _)
    · have hobject := Agree.opening (R := fun a json => Spelled.ofJson json = .ok a)
        (fun _ depth' => (readObject_agrees depth').map_right fun (_ : α) _ h => h) 1 depth'
      exact hobject
  · exact .of_fails (failNext_ne_ok _)

/-! ### Lists -/

theorem of_run_closeItems {s rest : List Char} (h : closeItems.run s = .ok ((), rest)) :
    s.dropWhile isBlank = ']' :: rest := by
  obtain ⟨c, t, ht, h⟩ := exists_of_run_peekSolid h nofun
  split at h
  case h_2 heq =>
    cases heq
    cases h
    exact ht
  case h_3 heq =>
    cases heq
    obtain ⟨_, _, -, h⟩ := run_bind_eq_ok_iff.1 (run_of_run_eat h)
    split at h <;> cases h
  all_goals cases h

def moreItems? (index : Nat) : Reader Bool := if index = 0 then firstItem? else nextItem?

theorem run_moreItems? {s rest : List Char} (h : s.dropWhile isBlank = ']' :: rest) (index : Nat) :
    (moreItems? index).run s = .ok (false, rest) := by
  rw [moreItems?]
  split
  · simp [firstItem?, run_peekSolid, h]
  · simp [nextItem?, run_peekSolid, h]

def itemsFrom (item : Reader α) (index : Nat) (done : List α) : Reader (List α) := do
  if ← moreItems? index then do
    let next ← item
    iterate (itemStep item) (next :: done)
  else return done.reverse

theorem run_itemsFrom {item : Reader α} {done items : List α} {s rest : List Char}
    (h : (iterate (itemStep item) done).run s = .ok (items, rest)) (index : Nat) :
    (itemsFrom item (index + 1) done).run s = .ok (items, rest) := by
  obtain hlast | ⟨done', mid, hstep, hloop⟩ := of_run_iterate h
  · obtain ⟨more, t, hmore, hlast⟩ := run_bind_eq_ok_iff.1 hlast
    cases more with
    | false =>
      cases hlast
      exact run_bind_eq_ok_iff.2 ⟨false, _, hmore, rfl⟩
    | true =>
      obtain ⟨_, _, _, ⟨⟩⟩ := run_bind_eq_ok_iff.1 hlast
  · obtain ⟨more, t, hmore, hstep⟩ := run_bind_eq_ok_iff.1 hstep
    cases more with
    | false => cases hstep
    | true =>
      obtain ⟨next, u, hnext, hstep⟩ := run_bind_eq_ok_iff.1 hstep
      cases hstep
      exact run_bind_eq_ok_iff.2 ⟨true, t, hmore, run_bind_eq_ok_iff.2 ⟨next, _, hnext, hloop⟩⟩

end Reader

def Shape.Takes (shape : Shape) (value : shape.Carrier) (json : Json) : Prop :=
  shape.ofJson json = .ok value

def Fields.TakesFrom (fields : Fields) (wanted : String) (index : Nat) (done : List Json)
    (record : fields.Carrier) (items : List Json) : Prop :=
  ∃ tail, items = done.reverse ++ tail ∧ fields.ofItems wanted index tail = .ok (record, [])

theorem Fields.slotted_insert {fields : Fields} {slots : fields.Slots} {members : Json.Object}
    (h : fields.Slotted slots members) {key : String} (hkey : key ∉ fields.keys) (json : Json) :
    fields.Slotted slots (Json.insert key json members) := by
  refine h.congr fun other hother => Json.lookup_insert_of_ne ?_
  rintro rfl
  exact hkey hother

theorem Fields.members_agrees {fields : Fields} {depth depth' : Nat}
    (h : ∀ name slots members, fields.Slotted slots members →
      Agree (fun slots json => fields.Slotted slots (Json.insert name json members))
        (fields.readMember depth name slots) (do colon; value depth')) :
    Agree (fun slots members => fields.Slotted slots members ∧ Json.Sorted members)
      (members (fun slots key => fields.readMember depth key slots) fields.noSlots)
      (objectBy (value depth')) := by
  refine .members (fun key slots members hstate => ?_) ⟨fields.slotted_noSlots, .nil⟩
  intro s next rest members' rest' hread hmember
  obtain ⟨_, t, hcolon, hmember⟩ := run_bind_eq_ok_iff.1 hmember
  obtain ⟨json, u, hvalue, hmember⟩ := run_bind_eq_ok_iff.1 hmember
  cases hmember
  have hrun : (do colon; value depth').run s = .ok (json, rest') :=
    run_bind_eq_ok_iff.2 ⟨_, _, hcolon, hvalue⟩
  obtain ⟨hrest, hnext⟩ := h key slots members hstate.1 hread hrun
  exact ⟨hrest, hnext, hstate.2.insert key json⟩

mutual

theorem Shape.read_agrees : (shape : Shape) → shape.Clear → (depth depth' : Nat) →
    Agree shape.Takes (shape.read depth) (value depth')
  | .flag, _, _, depth' => (flag_agrees depth').mono fun _ _ h => by rw [h]; rfl
  | .count, _, _, depth' => count_agrees depth'
  | .text, _, _, depth' => (text_agrees depth').mono fun _ _ h => by rw [h]; rfl
  | .tokenTag, _, depth, depth' => word_agrees TokenTag depth depth'
  | .object, _, depth, depth' => by
    rw [value_eq_valueBy]
    refine .same peekSolid fun c? => ?_
    split
    · refine .opening (fun depth depth' => ?_) depth depth'
      refine (objectBy_agrees (value_agrees depth depth')).map_right fun members _ h => ?_
      rw [h]
      rfl
    · exact .of_fails (failWanting_ne_ok _)
  | .list item, hclear, depth, depth' => by
    rw [value_eq_valueBy]
    refine .same peekSolid fun c? => ?_
    split
    · refine .opening (fun depth depth' => ?_) depth depth'
      refine (Shape.read_agrees item hclear depth depth').items.map_right fun values jsons h => ?_
      exact mapM_eq_ok_iff.2 h.flip
    · exact .of_fails (failWanting_ne_ok _)
  | .optional inner, hclear, depth, depth' => by
    refine (optional_agrees (Shape.read_agrees inner hclear.2 depth depth')).mono ?_
    rintro _ json (⟨rfl, rfl⟩ | ⟨value, rfl, hnull, hvalue⟩)
    · rfl
    · exact (Shape.ofJson_optional_of_ne_null hnull).trans (congrArg (Except.map some) hvalue)
  | .record name fields, hclear, depth, depth' => by
    rw [value_eq_valueBy]
    refine .same peekSolid fun c? => ?_
    split
    · refine .opening (fun depth depth' => ?_) depth depth'
      have hmembers := Fields.members_agrees (Fields.readMember_agrees fields hclear depth depth')
      refine hmembers.bind fun slots members hstate => (orMismatch_agrees _ _).mono ?_
      rintro record _ ⟨rfl, hcollect⟩
      exact (Shape.ofJson_record hclear hstate.2.nodup hstate.1 name).trans hcollect
    · refine .opening (fun depth depth' => ?_) depth depth'
      have hitems := Fields.readItems_agrees fields hclear (fields.describe name) depth depth' 0 []
      refine Agree.map_right hitems ?_
      rintro record _ ⟨items, rfl, hrecord⟩
      exact Shape.ofJson_record_arr hrecord
    · exact .of_fails (failWanting_ne_ok _)

theorem Fields.readMember_agrees : (fields : Fields) → fields.Clear → (depth depth' : Nat) →
    (name : String) → (slots : fields.Slots) → (members : Json.Object) →
    fields.Slotted slots members →
    Agree (fun slots json => fields.Slotted slots (Json.insert name json members))
      (fields.readMember depth name slots) (do colon; value depth')
  | .nil, _, _, depth', _, _, _, _ => by
    exact .same colon fun _ => (skip_agrees depth').map_left fun _ _ _ => trivial
  | .cons key shape rest, ⟨hkey, hshape, hrest⟩, depth, depth', name, (slot, slots), members,
      ⟨hslot, hslots⟩ => by
    by_cases hname : name = key
    · subst hname
      cases slot with
      | some value =>
        rw [Fields.readMember_taken]
        exact .of_fails nofun
      | none =>
        rw [Fields.readMember_self]
        refine .same colon fun _ => (Shape.read_agrees shape hshape depth depth').map_left ?_
        intro value json hvalue
        refine ⟨?_, Fields.slotted_insert hslots hkey json⟩
        rw [Json.lookup_insert_self]
        exact .some hvalue
    · rw [Fields.readMember_of_ne hname]
      have hothers := Fields.readMember_agrees rest hrest depth depth' name slots members hslots
      refine hothers.map_left ?_
      intro next json hnext
      refine ⟨?_, hnext⟩
      rw [Json.lookup_insert_of_ne (Ne.symm hname)]
      exact hslot

theorem Fields.readItems_agrees : (fields : Fields) → fields.Clear → (wanted : String) →
    (depth depth' : Nat) → (index : Nat) → (done : List Json) →
    Agree (fields.TakesFrom wanted index done)
      (do let record ← fields.readItems wanted depth index; closeItems; return record)
      (itemsFrom (value depth') index done)
  | .nil, _, _, _, _, index, done => by
    intro s record rest items rest' hread hitems
    obtain ⟨_, t, hnil, hread⟩ := run_bind_eq_ok_iff.1 hread
    cases hnil
    obtain ⟨_, u, hclose, hread⟩ := run_bind_eq_ok_iff.1 hread
    cases hread
    obtain ⟨more, v, hmore, hitems⟩ := run_bind_eq_ok_iff.1 hitems
    rw [run_moreItems? (of_run_closeItems hclose)] at hmore
    cases hmore
    cases hitems
    exact ⟨rfl, [], (List.append_nil _).symm, rfl⟩
  | .cons key shape rest, ⟨hkey, hshape, hrest⟩, wanted, depth, depth', index, done => by
    intro s record rest' items rest'' hread hitems
    obtain ⟨_, mid, hfields, hclose⟩ := run_bind_eq_ok_iff.1 hread
    obtain ⟨more, t, hmore, hfields⟩ := run_bind_eq_ok_iff.1 hfields
    obtain ⟨more', t', hmore', hitems⟩ := run_bind_eq_ok_iff.1 hitems
    rw [moreItems?, hmore] at hmore'
    cases hmore'
    cases more with
    | false => cases hfields
    | true =>
      obtain ⟨v, u, hv, hfields⟩ := run_bind_eq_ok_iff.1 hfields
      obtain ⟨vs, w, hvs, hfields⟩ := run_bind_eq_ok_iff.1 hfields
      cases hfields
      obtain ⟨_, x, hclose, hrecord⟩ := run_bind_eq_ok_iff.1 hclose
      cases hrecord
      obtain ⟨json, u', hjson, hloop⟩ := run_bind_eq_ok_iff.1 hitems
      obtain ⟨rfl, htakes⟩ := Shape.read_agrees shape hshape depth depth' hv hjson
      have hothers := Fields.readItems_agrees rest hrest wanted depth depth' (index + 1)
        (json :: done)
      have hrun : (do
          let record ← rest.readItems wanted depth (index + 1)
          closeItems
          return record).run u = .ok (vs, rest') :=
        run_bind_eq_ok_iff.2 ⟨vs, mid, hvs, run_bind_eq_ok_iff.2 ⟨(), _, hclose, rfl⟩⟩
      obtain ⟨heq, tail, rfl, htail⟩ := hothers hrun (run_itemsFrom hloop index)
      exact ⟨heq, json :: tail, by simp, Fields.ofItems_cons htakes htail⟩

end

end FormatGraph
