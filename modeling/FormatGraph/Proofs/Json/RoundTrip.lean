import FormatGraph.Proofs.Json.Object
import FormatGraph.Proofs.Json.Scalar

/-! Reading undoes writing. A text of a value is read back as that value, with the keys of its objects
in order, in every layout, if its numbers are integers and it is not nested too deeply. The same holds
of lists and objects whose items and members have readers of their own. -/

namespace FormatGraph

theorem Json.Layout.isBlank_of_mem_breakChars (layout : Layout) :
    ∀ c ∈ layout.breakChars, Reader.isBlank c := by
  intro c hc
  cases layout with
  | oneLine => cases hc
  | indented level =>
    rcases List.mem_cons.1 hc with rfl | hc
    · rfl
    · rw [List.eq_of_mem_replicate hc]
      rfl

theorem Json.Layout.colonChars_inner (layout : Layout) :
    layout.inner.colonChars = layout.colonChars := by
  cases layout <;> rfl

namespace Reader

variable {α β σ : Type} {layout : Json.Layout}

def Opens (text : List Char) : Prop := ∃ c cs, text = c :: cs ∧ isBlank c = false ∧ c ≠ ']'

/-- The reader takes the text for the value, whatever blanks stand before it, wherever a number may
end after it. -/
structure Reads (reader : Reader α) (text : List Char) (a : α) : Prop where
  opens : Opens text
  run_blanks : ∀ blanks rest, (∀ b ∈ blanks, isBlank b) → NumberEnds rest →
    reader.run (blanks ++ (text ++ rest)) = .ok (a, rest)

namespace Reads

variable {reader : Reader α} {text : List Char} {a : α}

theorem run_append (h : Reads reader text a) {rest : List Char} (hrest : NumberEnds rest) :
    reader.run (text ++ rest) = .ok (a, rest) :=
  h.run_blanks [] rest (by simp) hrest

theorem map (h : Reads reader text a) (f : α → β) : Reads (do return f (← reader)) text (f a) where
  opens := h.opens
  run_blanks blanks rest hblanks hrest := by simp [h.run_blanks blanks rest hblanks hrest]

theorem of_first {c : Char} {cs : List Char} {next : Option Char → Reader α} (htext : text = c :: cs)
    (hblank : isBlank c = false) (hclose : c ≠ ']') (hreader : reader = peekSolid >>= next)
    (h : ∀ rest, NumberEnds rest → (next (some c)).run (c :: (cs ++ rest)) = .ok (a, rest)) :
    Reads reader text a where
  opens := ⟨c, cs, htext, hblank, hclose⟩
  run_blanks blanks rest hblanks hrest := by
    rw [hreader, htext, List.cons_append, run_bind, run_peekSolid_append hblanks hblank, andThen_ok]
    exact h rest hrest

theorem of_letters {c : Char} {cs : List Char} {next : Option Char → Reader α}
    (htext : text = c :: cs) (hblank : isBlank c = false) (hclose : c ≠ ']')
    (hreader : reader = peekSolid >>= next)
    (hnext : next (some c) = (do eat; letters cs; return a)) : Reads reader text a := by
  refine .of_first htext hblank hclose hreader fun rest _ => ?_
  simp [hnext, run_letters]

theorem of_digits {n : Nat} {next : Option Char → Reader α} (hn : n < UInt64.size)
    (hreader : reader = peekSolid >>= next)
    (h : ∀ c cs rest, isDigit c → (number false).run (c :: cs) = .ok (.int n, rest) →
      (next (some c)).run (c :: cs) = .ok (a, rest)) :
    Reads reader (Nat.toDigits 10 n) a := by
  obtain ⟨c, cs, heq, hc⟩ := exists_toDigits_eq_cons n
  have hclose : c ≠ ']' := ne_of_isDigit hc rfl
  refine .of_first heq (isBlank_of_isDigit hc) hclose hreader fun rest hrest => ?_
  have hnumber := run_number hrest (integerOf?_natural hn)
  rw [heq, List.cons_append] at hnumber
  exact h c _ rest hc hnumber

theorem colon (h : Reads reader text a) (layout : Json.Layout) :
    Reads (do Reader.colon; reader) (layout.colonChars ++ text) a where
  opens := by cases layout <;> exact ⟨':', _, rfl, rfl, by decide⟩
  run_blanks blanks rest hblanks hrest := by
    have hcolon : isBlank ':' = false := rfl
    cases layout with
    | oneLine =>
      have hread := h.run_append hrest
      simp [Json.Layout.colonChars, Reader.colon, run_peekSolid_append hblanks hcolon, hread]
    | indented level =>
      have hread := h.run_blanks [' '] rest (by simp [isBlank]) hrest
      rw [List.cons_append, List.nil_append] at hread
      simp [Json.Layout.colonChars, Reader.colon, run_peekSolid_append hblanks hcolon, hread]

end Reads

theorem numberEnds_break {close : Char} (h : continuesNumber close = false) (s : List Char) :
    NumberEnds (layout.breakChars ++ close :: s) := by
  cases layout with
  | oneLine => exact numberEnds_cons h s
  | indented level => exact numberEnds_cons rfl _

/-! ### Lists -/

section Items

variable {item : Reader β} {f : α → Json} {g : α → β}

theorem numberEnds_items (layout outer : Json.Layout) (items : List Json) (s : List Char) :
    NumberEnds (Json.itemsChars layout items ++ (outer.breakChars ++ ']' :: s)) := by
  cases items with
  | nil => exact numberEnds_break rfl s
  | cons item items =>
    rw [Json.itemsChars]
    exact numberEnds_cons rfl _

theorem run_firstItem? {text : List Char} (hopens : Opens text) (s : List Char) :
    firstItem?.run (layout.breakChars ++ (text ++ s)) = .ok (true, text ++ s) := by
  obtain ⟨c, cs, rfl, hc, hclose⟩ := hopens
  simp [firstItem?, run_peekSolid_append layout.isBlank_of_mem_breakChars hc]

theorem run_nextItem?_comma {text : List Char} (hopens : Opens text) (s : List Char) :
    nextItem?.run (',' :: (layout.breakChars ++ (text ++ s))) = .ok (true, text ++ s) := by
  obtain ⟨c, cs, rfl, hc, hclose⟩ := hopens
  simp [nextItem?, run_peekSolid_cons, isBlank,
    run_peekSolid_append layout.isBlank_of_mem_breakChars hc]

theorem run_nextItem?_close (s : List Char) :
    nextItem?.run (layout.breakChars ++ ']' :: s) = .ok (false, s) := by
  have hclose : isBlank ']' = false := rfl
  simp [nextItem?, run_peekSolid_append layout.isBlank_of_mem_breakChars hclose]

theorem iterate_itemStep {as : List α} (h : ∀ a ∈ as, Reads item ((f a).chars layout) (g a))
    (outer : Json.Layout) (done : List β) (s : List Char) :
    (iterate (itemStep item) done).run
        (Json.itemsChars layout (as.map f) ++ (outer.breakChars ++ ']' :: s)) =
      .ok (done.reverse ++ as.map g, s) := by
  induction as generalizing done with
  | nil =>
    apply iterate_of_inr
    simp [itemStep, Json.itemsChars, run_nextItem?_close]
  | cons a as ih =>
    have hread := h a List.mem_cons_self
    have hitem := hread.run_append (numberEnds_items layout outer (as.map f) s)
    have hlength :
        (Json.itemsChars layout (as.map f) ++ (outer.breakChars ++ ']' :: s)).length <
          (Json.itemsChars layout ((a :: as).map f) ++ (outer.breakChars ++ ']' :: s)).length := by
      simp only [List.map_cons, Json.itemsChars, List.length_append, List.length_cons]
      omega
    rw [iterate_of_inl _ hlength, ih (fun b hb => h b (List.mem_cons_of_mem _ hb)) (g a :: done)]
    · simp
    · simp [itemStep, Json.itemsChars, run_nextItem?_comma hread.opens, hitem]

theorem exists_chars_arr {as : List α}
    (h : ∀ a ∈ as, Reads item ((f a).chars layout.inner) (g a)) :
    ∃ inside, (Json.arr (as.map f)).chars layout = '[' :: inside ∧
      ∀ s, (items item).run (inside ++ s) = .ok (as.map g, s) := by
  cases as with
  | nil =>
    refine ⟨[']'], rfl, fun s => ?_⟩
    simp [items, firstItem?, run_peekSolid_cons, isBlank]
  | cons a as =>
    refine ⟨layout.inner.breakChars ++ ((f a).chars layout.inner ++
      (Json.itemsChars layout.inner (as.map f) ++ (layout.breakChars ++ [']']))),
      by simp [Json.chars], fun s => ?_⟩
    have hread := h a List.mem_cons_self
    have hitem := hread.run_append (numberEnds_items layout.inner layout (as.map f) s)
    have hrest := iterate_itemStep (fun b hb => h b (List.mem_cons_of_mem _ hb)) layout [g a] s
    simp [items, run_firstItem? hread.opens, hitem, hrest]

end Items

/-! ### Objects -/

section Members

variable {member : σ → String → Reader σ}

inductive Fills (member : σ → String → Reader σ) (layout : Json.Layout) :
    σ → List (String × Json) → σ → Prop
  | nil (state : σ) : Fills member layout state [] state
  | cons {state next last : σ} {key : String} {value : Json} {members : List (String × Json)}
      (first : Reads (member state key) (layout.colonChars ++ value.chars layout) next)
      (rest : Fills member layout next members last) :
      Fills member layout state ((key, value) :: members) last

theorem numberEnds_members (layout outer : Json.Layout) (members : List (String × Json))
    (s : List Char) :
    NumberEnds (Json.membersChars layout members ++ (outer.breakChars ++ '\x7d' :: s)) := by
  cases members with
  | nil => exact numberEnds_break rfl s
  | cons member members =>
    rw [Json.membersChars]
    exact numberEnds_cons rfl _

theorem run_firstKey? (key : String) (s : List Char) :
    firstKey?.run (layout.breakChars ++ (Json.stringChars key ++ s)) = .ok (some key, s) := by
  have hquote : isBlank '"' = false := rfl
  rw [stringChars_append]
  simp [firstKey?, run_string, run_peekSolid_append layout.isBlank_of_mem_breakChars hquote]

theorem run_nextKey?_comma (key : String) (s : List Char) :
    nextKey?.run (',' :: (layout.breakChars ++ (Json.stringChars key ++ s))) =
      .ok (some key, s) := by
  have hquote : isBlank '"' = false := rfl
  rw [stringChars_append]
  simp [nextKey?, run_peekSolid_cons, isBlank, run_string,
    run_peekSolid_append layout.isBlank_of_mem_breakChars hquote]

theorem run_nextKey?_close (s : List Char) :
    nextKey?.run (layout.breakChars ++ '\x7d' :: s) = .ok (none, s) := by
  have hclose : isBlank '\x7d' = false := rfl
  simp [nextKey?, run_peekSolid_append layout.isBlank_of_mem_breakChars hclose]

theorem iterate_memberStep {state last : σ} {members : List (String × Json)}
    (h : Fills member layout state members last) (outer : Json.Layout) (s : List Char) :
    (iterate (memberStep member) state).run
        (Json.membersChars layout members ++ (outer.breakChars ++ '\x7d' :: s)) =
      .ok (last, s) := by
  induction h with
  | nil state =>
    apply iterate_of_inr
    simp [memberStep, Json.membersChars, run_nextKey?_close]
  | @cons state next last key value members first rest ih =>
    have hmember := first.run_append (numberEnds_members layout outer members s)
    rw [List.append_assoc] at hmember
    have hlength :
        (Json.membersChars layout members ++ (outer.breakChars ++ '\x7d' :: s)).length <
          (Json.membersChars layout ((key, value) :: members) ++
            (outer.breakChars ++ '\x7d' :: s)).length := by
      simp only [Json.membersChars, List.length_append, List.length_cons]
      omega
    rw [iterate_of_inl _ hlength, ih]
    simp [memberStep, Json.membersChars, run_nextKey?_comma, hmember]

theorem exists_chars_obj {state last : σ} {ms : List (String × Json)}
    (h : Fills member layout.inner state ms last) :
    ∃ inside, (Json.obj ms).chars layout = '\x7b' :: inside ∧
      ∀ s, (members member state).run (inside ++ s) = .ok (last, s) := by
  cases h with
  | nil =>
    refine ⟨['\x7d'], rfl, fun s => ?_⟩
    simp [members, firstKey?, run_peekSolid_cons, isBlank]
  | @cons _ next _ key value ms first rest =>
    refine ⟨layout.inner.breakChars ++ (Json.stringChars key ++ (layout.colonChars ++
      (value.chars layout.inner ++ (Json.membersChars layout.inner ms ++
        (layout.breakChars ++ ['\x7d']))))), by simp [Json.chars], fun s => ?_⟩
    have hmember := first.run_append (numberEnds_members layout.inner layout ms s)
    rw [List.append_assoc, layout.colonChars_inner] at hmember
    have hrest := iterate_memberStep rest layout s
    simp [members, run_firstKey?, hmember, hrest]

theorem fills_sortInto {value : Reader Json} {members : Json.Object}
    (h : ∀ member ∈ members, Reads value (member.2.chars layout) member.2.sortKeys)
    (done : Json.Object) :
    Fills (fun done key => do colon; return Json.insert key (← value) done) layout done members
      (Json.sortInto done members) := by
  induction members generalizing done with
  | nil => exact .nil done
  | cons member members ih =>
    have hread := h member List.mem_cons_self
    have hfirst := (hread.map fun v => Json.insert member.1 v done).colon layout
    exact .cons hfirst (ih (fun m hm => h m (List.mem_cons_of_mem _ hm)) _)

end Members

/-! ### Values -/

section Values

variable {list object : Reader Json}

theorem valueBy_null : Reads (valueBy list object) (Json.null.chars layout) .null := by
  have htext : Json.null.chars layout = 'n' :: ['u', 'l', 'l'] := rfl
  exact .of_letters htext rfl (by decide) rfl rfl

theorem valueBy_bool (b : Bool) :
    Reads (valueBy list object) ((Json.bool b).chars layout) (.bool b) := by
  cases b with
  | false =>
    have htext : (Json.bool false).chars layout = 'f' :: ['a', 'l', 's', 'e'] := rfl
    exact .of_letters htext rfl (by decide) rfl rfl
  | true =>
    have htext : (Json.bool true).chars layout = 't' :: ['r', 'u', 'e'] := rfl
    exact .of_letters htext rfl (by decide) rfl rfl

theorem valueBy_str (s : String) :
    Reads (valueBy list object) ((Json.str s).chars layout) (.str s) := by
  refine .of_first rfl rfl (by decide) rfl fun rest _ => ?_
  simp [run_string]

theorem valueBy_nat {n : Nat} (h : n < UInt64.size) :
    Reads (valueBy list object) ((Json.num (.int n)).chars layout) (.num (.int n)) := by
  refine .of_digits h rfl fun c cs rest hc hnumber => ?_
  have hne (d : Char) (hd : isDigit d = false) : c ≠ d := ne_of_isDigit hc hd
  simp [hne 'n' rfl, hne 't' rfl, hne 'f' rfl, hne '-' rfl, hne '"' rfl, hne '[' rfl,
    hne '\x7b' rfl, hc, hnumber]

theorem valueBy_negSucc {n : Nat} (h : n < UInt64.size / 2) :
    Reads (valueBy list object) ((Json.num (.int (.negSucc n))).chars layout)
      (.num (.int (.negSucc n))) := by
  have htext : (Json.num (.int (.negSucc n))).chars layout = '-' :: Nat.toDigits 10 (n + 1) := rfl
  refine .of_first htext rfl (by decide) rfl fun rest hrest => ?_
  have hnumber := run_number hrest (integerOf?_negative (Nat.succ_pos n) h)
  have hvalue : -((n + 1 : Nat) : Int) = .negSucc n := rfl
  rw [hvalue] at hnumber
  simp [hnumber]

theorem valueBy_int {i : Int} (lower : -(UInt64.size / 2 : Nat) ≤ i) (upper : i < UInt64.size) :
    Reads (valueBy list object) ((Json.num (.int i)).chars layout) (.num (.int i)) := by
  cases i with
  | ofNat n => exact valueBy_nat (Int.ofNat_lt.1 upper)
  | negSucc n => exact valueBy_negSucc (by omega)

theorem valueBy_arr {item : Reader Json} {js : List Json}
    (h : ∀ json ∈ js, Reads item (json.chars layout.inner) json.sortKeys) :
    Reads (valueBy (do eat; return .arr (← items item)) object) ((Json.arr js).chars layout)
      (Json.arr js).sortKeys := by
  obtain ⟨inside, heq, hitems⟩ := exists_chars_arr (f := id) h
  rw [List.map_id] at heq
  refine .of_first heq rfl (by decide) rfl fun rest _ => ?_
  simp [hitems, Json.sortKeys, Json.sortItems_eq_map]

theorem valueBy_obj {item : Reader Json} {ms : Json.Object}
    (h : ∀ member ∈ ms, Reads item (member.2.chars layout.inner) member.2.sortKeys) :
    Reads (valueBy list (do eat; return .obj (← objectBy item))) ((Json.obj ms).chars layout)
      (Json.obj ms).sortKeys := by
  obtain ⟨inside, heq, hmembers⟩ := exists_chars_obj (fills_sortInto h [])
  refine .of_first heq rfl (by decide) rfl fun rest _ => ?_
  simp [objectBy, hmembers, Json.sortKeys]

theorem exists_value_eq_valueBy (depth : Nat) :
    ∃ list object, value depth = valueBy list object := by
  cases depth <;> exact ⟨_, _, rfl⟩

/-- Reading gives back what was written, with the members of every object in order. -/
theorem value_reads_sortKeys {json : Json} (h : json.Integral) {depth : Nat}
    (hdepth : json.depth ≤ depth) (layout : Json.Layout) :
    Reads (value depth) (json.chars layout) json.sortKeys := by
  obtain ⟨list, object, hvalue⟩ := exists_value_eq_valueBy depth
  induction h generalizing depth layout list object with
  | null => exact hvalue ▸ valueBy_null
  | bool b => exact hvalue ▸ valueBy_bool b
  | int lower upper => exact hvalue ▸ valueBy_int lower upper
  | str s => exact hvalue ▸ valueBy_str s
  | arr each ih =>
    cases depth with
    | zero => exact absurd hdepth (Nat.not_succ_le_zero _)
    | succ depth =>
      obtain ⟨list, object, hinner⟩ := exists_value_eq_valueBy depth
      refine valueBy_arr fun json hjson => ih json hjson ?_ _ list object hinner
      exact Nat.le_trans (Json.depth_le_itemsDepth hjson) (Nat.le_of_succ_le_succ hdepth)
  | obj each ih =>
    cases depth with
    | zero => exact absurd hdepth (Nat.not_succ_le_zero _)
    | succ depth =>
      obtain ⟨list, object, hinner⟩ := exists_value_eq_valueBy depth
      refine valueBy_obj fun member hmember => ih member hmember ?_ _ list object hinner
      exact Nat.le_trans (Json.depth_le_membersDepth hmember) (Nat.le_of_succ_le_succ hdepth)

end Values

end Reader

end FormatGraph
