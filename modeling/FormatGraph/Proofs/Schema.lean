import FormatGraph.Schema

/-! Facts about the tables of kinds, words and fields: every kind and every word can be told by its
spelling, every field of a node by its key, and expressions and members by their first fields. -/

namespace FormatGraph

theorem Spelled.spell_of_ofSpelling? {α : Type} [Spelled α] {word : String} {a : α}
    (h : ofSpelling? word = some a) : spell a = word := by
  simpa using List.find?_some h

namespace Kind

theorem ofSpelling?_spelling (kind : Kind) : ofSpelling? kind.spelling = some kind := by
  cases kind <;> decide

theorem ofSpelling?_eq_some_iff {tag : String} {kind : Kind} :
    ofSpelling? tag = some kind ↔ kind.spelling = tag := by
  constructor
  · intro h
    obtain ⟨t, ht, hkind⟩ := Option.bind_eq_some_iff.1 h
    have htag : t.spelling = tag := Spelled.spell_of_ofSpelling? ht
    cases t with
    | kind k =>
      cases hkind
      exact htag
    | category c => cases hkind
  · rintro rfl
    exact ofSpelling?_spelling kind

theorem ofSpelling?_eq_none_iff {tag : String} :
    ofSpelling? tag = none ↔ ∀ kind : Kind, kind.spelling ≠ tag := by
  rw [Option.eq_none_iff_forall_ne_some]
  exact forall_congr' fun kind => not_congr ofSpelling?_eq_some_iff

theorem schema_keys_nodup (kind : Kind) : (kind.schema.map Field.key).Nodup := by
  cases kind <;> decide

theorem key_ne_child (kind : Kind) : ∀ field ∈ kind.schema, field.key ≠ "child" := by
  cases kind <;> decide

end Kind

namespace Schema

theorem expression_isPrefix_iff (kind : Kind) :
    expression [] <+: kind.schema ↔ kind.isIn .expr = true := by
  cases kind <;> decide

theorem declaration_isPrefix_iff (kind : Kind) :
    declaration [] <+: kind.schema ↔ kind.isIn .member = true := by
  cases kind <;> decide

end Schema

theorem Vocabulary.ofSpelling?_spell (v : Vocabulary) (word : v.Word) :
    Spelled.ofSpelling? (Spelled.spell word) = some word := by
  cases v <;> cases word <;> rfl

/-- A word is written as itself, or as the only key of an object that holds `null`. -/
theorem Vocabulary.ofJson_eq_ok_iff {v : Vocabulary} {json : Json} {word : v.Word} :
    Spelled.ofJson json = .ok word ↔
      json = .str (Spelled.spell word) ∨ json = .obj [(Spelled.spell word, .null)] := by
  have hword {text : String} :
      Spelled.ofWord text = .ok word ↔ text = Spelled.spell word := by
    unfold Spelled.ofWord
    constructor
    · intro h
      split at h
      next a ha =>
        cases h
        exact (Spelled.spell_of_ofSpelling? ha).symm
      · cases h
    · rintro rfl
      rw [v.ofSpelling?_spell]
  unfold Spelled.ofJson
  split
  next text => simp [hword]
  next key value =>
    cases hkey : (Spelled.ofWord key : Except Mismatch v.Word) with
    | ok a =>
      have hspell : key = Spelled.spell word ↔ a = word := by
        rw [← hword, hkey]
        simp
      cases value <;> simp [hspell]
    | error m =>
      have hspell : key ≠ Spelled.spell word := by
        rw [Ne, ← hword, hkey]
        simp
      simp [hspell]
  next members hmembers =>
    have hne : members ≠ [(Spelled.spell word, .null)] := fun h => hmembers _ _ h
    simp [hne]
  next hstr hpair hobj =>
    simp only [reduceCtorEq, false_iff, not_or]
    exact ⟨hstr _, hobj _⟩

end FormatGraph
