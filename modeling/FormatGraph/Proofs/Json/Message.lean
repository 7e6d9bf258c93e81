import FormatGraph.Json.Fault
import FormatGraph.Proofs.Text.Cut
import Mathlib.Data.List.Infix

/-! Where the words that begin a place occur in a message. Numbers have no space in them, and what
the message says of its own is known beforehand, so that the words occur in a text that is quoted
from the payload or not at all. -/

namespace FormatGraph

def Text.placeWords : List Char := [' ', 'a', 't', ' ', 'l', 'i', 'n', 'e', ' ']

theorem Text.quoteChar_of_mem_placeWords : ∀ c ∈ placeWords, quoteChar c = [c] := by
  have hplain : ∀ c ∈ placeWords, 0x20 ≤ c.toNat ∧ c.toNat < 0x7f ∧ c ≠ '"' ∧ c ≠ '\\' := by
    simp [placeWords]
  intro c hc
  obtain ⟨hlow, hhigh, hquote, hslash⟩ := hplain c hc
  exact quoteChar_eq_self hlow hhigh hquote hslash

theorem Text.not_infix_nil : ¬ placeWords <:+: [] := by decide

theorem Text.not_infix_of_space {cs : List Char} (h : ' ' ∉ cs) : ¬ placeWords <:+: cs :=
  fun hoccurs => h (hoccurs.subset List.mem_cons_self)

theorem Text.infix_enclosed_iff {kind cs : List Char} {c : Char} (hc : c ∉ placeWords)
    (hkind : ¬ placeWords <:+: kind) :
    placeWords <:+: kind ++ c :: (cs ++ [c]) ↔ placeWords <:+: cs := by
  rw [infix_delimited_iff hc hkind, or_iff_left not_infix_nil]

theorem space_not_mem_decimal (n : Nat) : ' ' ∉ Nat.toDigits 10 n :=
  Text.space_not_mem_toDigits (by decide) (by decide) n

theorem space_not_mem_toString (i : Int) : ' ' ∉ (toString i).toList := by
  rw [Int.toString_eq_repr, Int.repr_eq_if]
  split_ifs <;> simp [space_not_mem_decimal]

namespace Double

theorem space_not_mem_shortest (p : Parts) : ' ' ∉ (shortest p).1 := by
  intro hmem
  rw [shortest, List.mem_reverse] at hmem
  exact space_not_mem_decimal _ (List.mem_reverse.1 ((List.dropWhile_sublist _).subset hmem))

theorem space_not_mem_exponentChars (power : Int) : ' ' ∉ exponentChars power := by
  rw [exponentChars]
  split_ifs <;> simp [space_not_mem_decimal]

theorem space_not_mem_layout {digits : List Char} (h : ' ' ∉ digits) (power : Int) :
    ' ' ∉ layout digits power := by
  have htake (n : Nat) : ' ' ∉ digits.take n := fun hmem => h (List.mem_of_mem_take hmem)
  have hdrop (n : Nat) : ' ' ∉ digits.drop n := fun hmem => h (List.mem_of_mem_drop hmem)
  have htail : ' ' ∉ digits.tail := fun hmem => h (List.mem_of_mem_tail hmem)
  simp only [layout]
  split_ifs <;> simp [h, htake, hdrop, htail, space_not_mem_exponentChars]

theorem space_not_mem_chars (bits : UInt64) : ' ' ∉ chars bits := by
  have hlayout :=
    space_not_mem_layout (space_not_mem_shortest (parts bits)) (shortest (parts bits)).2
  rw [chars]
  split_ifs <;> simp [hlayout]

end Double

namespace Found

open Text

def quoted? : Found → Option String
  | .str s => some s
  | _ => none

theorem infix_message_iff (found : Found) :
    placeWords <:+: ' ' :: found.message.toList ↔
      ∃ s ∈ found.quoted?, placeWords <:+: s.toList := by
  cases found with
  | str s =>
    have hmessage : ' ' :: (Found.str s).message.toList =
        " string ".toList ++ '"' :: (s.toList.flatMap quoteChar ++ ['"']) := by
      show ' ' :: ("string " ++ quote s).toList = _
      simp [quote]
    have hquoted : placeWords <:+: s.toList.flatMap quoteChar ↔ placeWords <:+: s.toList :=
      infix_quoted_iff quoteChar_of_mem_placeWords
    rw [hmessage, infix_enclosed_iff (by decide) (by decide +kernel), hquoted]
    show _ ↔ ∃ t ∈ some s, placeWords <:+: t.toList
    simp
  | num n =>
    refine iff_of_false ?_ nofun
    cases n with
    | int i =>
      have hmessage : ' ' :: (Found.num (.int i)).message.toList =
          " integer ".toList ++ '\x60' :: ((toString i).toList ++ ['\x60']) := by
        show ' ' :: ("integer `" ++ toString i ++ "`").toList = _
        simp
      rw [hmessage, infix_enclosed_iff (by decide) (by decide +kernel)]
      exact not_infix_of_space (space_not_mem_toString i)
    | double bits =>
      have hmessage : ' ' :: (Found.num (.double bits)).message.toList =
          " floating point ".toList ++ '\x60' :: (Double.chars bits ++ ['\x60']) := by
        show ' ' :: ("floating point `" ++ String.ofList (Double.chars bits) ++ "`").toList = _
        simp
      rw [hmessage, infix_enclosed_iff (by decide) (by decide +kernel)]
      exact not_infix_of_space (Double.space_not_mem_chars bits)
  | bool b => cases b <;> exact iff_of_false (by decide +kernel) nofun
  | null => exact iff_of_false (by decide +kernel) nofun
  | list => exact iff_of_false (by decide +kernel) nofun
  | object => exact iff_of_false (by decide +kernel) nofun

end Found

namespace Mismatch

open Text

def quoted? : Mismatch → Option String
  | .invalidType found _ | .invalidValue found _ => found.quoted?
  | .unknownWord word _ => some word
  | _ => none

def expecting (wanted : String) : String := " expected " ++ wanted

def wording : Mismatch → String
  | .invalidType _ wanted | .invalidValue _ wanted | .invalidLength _ wanted => expecting wanted
  | .unknownWord _ known => ", " ++ wordList known
  | .missingField key | .duplicateField key => key

theorem infix_found_iff {kind : List Char} (hkind : ¬ placeWords <:+: kind) (found : Found)
    (wording : List Char) :
    placeWords <:+: kind ++ ':' :: (' ' :: found.message.toList ++ ',' :: wording) ↔
      (∃ s ∈ found.quoted?, placeWords <:+: s.toList) ∨ placeWords <:+: wording := by
  rw [infix_append_cons_iff (by decide), or_iff_right hkind, infix_append_cons_iff (by decide),
    Found.infix_message_iff]

theorem infix_message_iff (m : Mismatch) :
    placeWords <:+: m.message.toList ↔
      (∃ s ∈ m.quoted?, placeWords <:+: s.toList) ∨ placeWords <:+: m.wording.toList := by
  cases m with
  | invalidType found wanted =>
    have hmessage : (invalidType found wanted).message.toList = "invalid type".toList ++
        ':' :: (' ' :: found.message.toList ++ ',' :: (expecting wanted).toList) := by
      show ("invalid type: " ++ found.message ++ ", expected " ++ wanted).toList = _
      simp [expecting]
    rw [hmessage, infix_found_iff (by decide +kernel)]
    rfl
  | invalidValue found wanted =>
    have hmessage : (invalidValue found wanted).message.toList = "invalid value".toList ++
        ':' :: (' ' :: found.message.toList ++ ',' :: (expecting wanted).toList) := by
      show ("invalid value: " ++ found.message ++ ", expected " ++ wanted).toList = _
      simp [expecting]
    rw [hmessage, infix_found_iff (by decide +kernel)]
    rfl
  | invalidLength length wanted =>
    have hmessage : (invalidLength length wanted).message.toList =
        ("invalid length ".toList ++ Nat.toDigits 10 length) ++
          ',' :: (expecting wanted).toList := by
      show ("invalid length " ++ toString length ++ ", expected " ++ wanted).toList = _
      simp [expecting]
    have hlength : ¬ placeWords <:+: "invalid length ".toList ++ Nat.toDigits 10 length := by
      -- The words that begin a place have one space more.
      intro h
      have hcount := h.sublist.count_le ' '
      rw [List.count_append, List.count_eq_zero.2 (space_not_mem_decimal length)] at hcount
      exact absurd hcount (by decide +kernel)
    rw [hmessage, infix_append_cons_iff (by decide), or_iff_right hlength]
    exact (or_iff_right nofun).symm
  | unknownWord word known =>
    have hmessage : (unknownWord word known).message.toList =
        "unknown variant ".toList ++ '\x60' :: (word.toList ++
          '\x60' :: (", " ++ wordList known).toList) := by
      show ("unknown variant `" ++ word ++ "`, " ++ wordList known).toList = _
      simp
    rw [hmessage, infix_delimited_iff (by decide) (by decide +kernel)]
    show _ ↔ (∃ s ∈ some word, placeWords <:+: s.toList) ∨ _
    simp [wording]
  | missingField key =>
    have hmessage : (missingField key).message.toList =
        "missing field ".toList ++ '\x60' :: (key.toList ++ ['\x60']) := by
      show ("missing field `" ++ key ++ "`").toList = _
      simp
    rw [hmessage, infix_enclosed_iff (by decide) (by decide +kernel)]
    exact (or_iff_right nofun).symm
  | duplicateField key =>
    have hmessage : (duplicateField key).message.toList =
        "duplicate field ".toList ++ '\x60' :: (key.toList ++ ['\x60']) := by
      show ("duplicate field `" ++ key ++ "`").toList = _
      simp
    rw [hmessage, infix_enclosed_iff (by decide) (by decide +kernel)]
    exact (or_iff_right nofun).symm

end Mismatch

end FormatGraph
