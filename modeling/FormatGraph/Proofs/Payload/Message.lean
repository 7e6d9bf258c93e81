import FormatGraph.Payload.Error
import FormatGraph.Payload.GraphPayload
import FormatGraph.Proofs.Shape.Wording

/-! The messages of payload errors. An error in a text keeps all that its fault says and loses only
the place after it. An error in a value has no place to lose, and keeps its message when the text
that it quotes has no words like those that begin one. -/

namespace FormatGraph

theorem GraphPayload.wording_plain : ∀ words ∈ (Shaped.shape GraphPayload).wording,
    ¬ Text.placeWords <:+: words.toList := by
  decide +kernel

theorem GraphPayload.infix_message_iff {value : Json} {mismatch : Mismatch}
    (h : (Shaped.ofJson value : Except Mismatch GraphPayload) = .error mismatch) :
    Text.placeWords <:+: mismatch.message.toList ↔
      ∃ quoted ∈ mismatch.quoted?, Text.placeWords <:+: quoted.toList := by
  have hwording := Shape.ofJson_wording _ value mismatch (map_eq_error_iff.1 h)
  rw [mismatch.infix_message_iff, or_iff_left (wording_plain _ hwording)]

namespace PayloadError

open Text

theorem toList_at_line : " at line ".toList = placeWords := by decide +kernel

theorem withoutPlace_eq_self {message : String} (h : ¬ placeWords <:+: message.toList) :
    withoutPlace message = message := by
  rw [withoutPlace, toList_at_line, beforeLast?_eq_none_iff.2 h]

theorem withoutPlace_append {after : List Char} (h : ¬ placeWords <:+: (placeWords ++ after).tail)
    (message : String) :
    withoutPlace (message ++ String.ofList (placeWords ++ after)) = message := by
  rw [withoutPlace, toList_at_line, String.toList_append, String.toList_ofList,
    beforeLast?_append_self (by decide) h]
  exact String.ofList_toList

theorem toList_eq_withoutPlace_append {message : String} (h : placeWords <:+: message.toList) :
    ∃ after, message.toList = (withoutPlace message).toList ++ placeWords ++ after ∧
      ¬ placeWords <:+: (placeWords ++ after).tail := by
  rw [withoutPlace, toList_at_line]
  cases hcut : beforeLast? placeWords message.toList with
  | none => exact absurd h (beforeLast?_eq_none_iff.1 hcut)
  | some before =>
    rw [String.toList_ofList]
    exact eq_append_of_beforeLast? (by decide) hcut

theorem withoutPlace_eq_self_iff {message : String} :
    withoutPlace message = message ↔ ¬ placeWords <:+: message.toList := by
  refine ⟨fun heq hoccurs => ?_, withoutPlace_eq_self⟩
  obtain ⟨after, hafter, -⟩ := toList_eq_withoutPlace_append hoccurs
  have hlength := congrArg List.length hafter
  rw [heq, List.length_append, List.length_append] at hlength
  have hwords : 0 < placeWords.length := by decide
  omega

end PayloadError

namespace Fault

open Text

def place (fault : Fault) (index : LineIndex) : String :=
  " at line " ++ toString (fault.lineCol index).1 ++ " column " ++
    toString (fault.lineCol index).2

theorem message_eq (fault : Fault) (index : LineIndex) :
    fault.message index = fault.cause.message ++ fault.place index := by
  simp [message, place, String.append_assoc]

theorem not_infix_tail_place (line col : Nat) :
    ¬ placeWords <:+:
      (placeWords ++ (Nat.toDigits 10 line ++ " column ".toList ++ Nat.toDigits 10 col)).tail := by
  have hdigits (n : Nat) : 'a' ∉ Nat.toDigits 10 n := fun hmem =>
    absurd (Nat.isDigit_of_mem_toDigits (by decide) (by decide) hmem) (by decide)
  rw [placeWords, List.cons_append, List.tail_cons, List.cons_append, List.infix_cons_iff]
  rintro (hstarts | hlater)
  · exact absurd (List.cons_prefix_cons.1 hstarts).1 (by decide)
  · have hmem := hlater.subset (.tail _ (.head _))
    simp [hdigits] at hmem

theorem withoutPlace_message (fault : Fault) (index : LineIndex) :
    PayloadError.withoutPlace (fault.message index) = fault.cause.message := by
  have hplace : fault.place index = String.ofList (placeWords ++
      (Nat.toDigits 10 (fault.lineCol index).1 ++ " column ".toList ++
        Nat.toDigits 10 (fault.lineCol index).2)) := by
    rw [← String.toList_inj]
    simp [place, placeWords]
  rw [message_eq, hplace]
  exact PayloadError.withoutPlace_append (not_infix_tail_place _ _) _

end Fault

namespace Shaped

open Text

variable {α : Type} [Shaped α]

/-- An error in a text keeps all that the fault says before its place, whatever the text quotes. An
error in a value keeps its message unless it quotes a text with words like those that begin a place;
then it is cut before the last of them. -/
theorem decode_message (file text : String) (value : Json) :
    (∀ fault, (ofText text.toList : Except Fault α) = .error fault →
      ∃ error, (decodeText file text : Except PayloadError α) = .error error ∧
        error.message = fault.cause.message ∧
        fault.message (.ofText text) = error.message ++ fault.place (.ofText text)) ∧
    ∀ mismatch, (ofJson value : Except Mismatch GraphPayload) = .error mismatch →
      ∃ error, (decodeValue file value : Except PayloadError GraphPayload) = .error error ∧
        (error.message = mismatch.message ↔
          ∀ quoted ∈ mismatch.quoted?, ¬ placeWords <:+: quoted.toList) ∧
        (error.message ≠ mismatch.message → ∃ after,
          mismatch.message.toList = error.message.toList ++ placeWords ++ after ∧
            ¬ placeWords <:+: (placeWords ++ after).tail) := by
  constructor
  · intro fault hfault
    have hmessage := fault.withoutPlace_message (.ofText text)
    refine ⟨.ofFault file text.toList fault, ?_, hmessage, ?_⟩
    · rw [decodeText, hfault]
      rfl
    · exact (fault.message_eq _).trans (congrArg (· ++ _) hmessage.symm)
  · intro mismatch hmismatch
    have hkept : PayloadError.withoutPlace mismatch.message = mismatch.message ↔
        ¬ placeWords <:+: mismatch.message.toList := PayloadError.withoutPlace_eq_self_iff
    refine ⟨.ofMismatch file mismatch, ?_, ?_, fun hne => ?_⟩
    · rw [decodeValue, hmismatch]
      rfl
    · rw [GraphPayload.infix_message_iff hmismatch] at hkept
      exact hkept.trans (by simp)
    · exact PayloadError.toList_eq_withoutPlace_append (not_not.1 fun h => hne (hkept.2 h))

theorem decode_message_quoted :
    (∃ fault error, (ofText "\"x at line 9\"".toList : Except Fault GraphPayload) = .error fault ∧
      (decodeText "in.json" "\"x at line 9\"" : Except PayloadError GraphPayload) = .error error ∧
      error.message = fault.cause.message) ∧
    ∃ mismatch error,
      (ofJson (.str "x at line 9") : Except Mismatch GraphPayload) = .error mismatch ∧
      (decodeValue "in.json" (.str "x at line 9") : Except PayloadError GraphPayload) =
        .error error ∧
      (error.message = mismatch.message ↔
        ∀ quoted ∈ mismatch.quoted?, ¬ placeWords <:+: quoted.toList) := by
  have hfault : (ofText "\"x at line 9\"".toList : Except Fault GraphPayload) =
      .error ⟨.mismatch (.invalidType (.str "x at line 9") "struct AstFile"), 0⟩ := by
    with_unfolding_all rfl
  have hmismatch : (ofJson (.str "x at line 9") : Except Mismatch GraphPayload) =
      .error (.invalidType (.str "x at line 9") "struct AstFile") := rfl
  obtain ⟨htext, hvalue⟩ := @decode_message GraphPayload _ "in.json" "\"x at line 9\""
    (.str "x at line 9")
  obtain ⟨error, herror, hmessage, -⟩ := htext _ hfault
  obtain ⟨error', herror', hmessage', -⟩ := hvalue _ hmismatch
  exact ⟨⟨_, error, hfault, herror, hmessage⟩, _, error', hmismatch, herror', hmessage'⟩

/-- A quoted text loses its end, though there is no place after it. -/
theorem decodeValue_message_cut :
    (ofJson (.obj [("success", .str "x at line 9")]) : Except Mismatch GraphPayload) =
      .error (.invalidType (.str "x at line 9") "a boolean") ∧
    (decodeValue "in.json" (.obj [("success", .str "x at line 9")]) :
      Except PayloadError GraphPayload) =
        .error { file := "in.json", message := "invalid type: string \"x" } ∧
    (Mismatch.invalidType (.str "x at line 9") "a boolean").message ≠
      "invalid type: string \"x" := by
  refine ⟨rfl, ?_, by decide +kernel⟩
  with_unfolding_all rfl

end Shaped

end FormatGraph
