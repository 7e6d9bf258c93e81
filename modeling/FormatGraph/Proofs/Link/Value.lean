import FormatGraph.Link
import FormatGraph.Proofs.Record
import FormatGraph.Proofs.Schema

/-! What a value in the body of a node says about a field, and what can be wrong with it. Both are
said of the JSON value and the nodes and scopes that there are, not of how the value is read. -/

namespace FormatGraph

def FieldType.isPlain : FieldType → Bool
  | .ref _ _ | .refs _ _ | .scope => false
  | _ => true

namespace LinkContext

structure Addressable (ctx : LinkContext) : Prop where
  kinds : ctx.kinds.size ≤ UInt32.size
  scopes : ctx.scopeCount ≤ UInt32.size

def Refers (ctx : LinkContext) (expect : Expect) (json : Json) (id : NodeId) : Prop :=
  json = .nat id.index ∧ ∃ kind, ctx.kinds[id.index]? = some kind ∧ kind.satisfies expect = true

def Holds (ctx : LinkContext) : (type : FieldType) → Json → type.Carrier → Prop
  | .ref _ expect, json, (id? : Option NodeId) => ∃ id, id? = some id ∧ ctx.Refers expect json id
  | .refs _ expect, json, (ids : List NodeId) =>
    ∃ items, json = .arr items ∧ List.Forall₂ (ctx.Refers expect) items ids
  | .scope, json, (id? : Option ScopeId) =>
    ∃ id, id? = some id ∧ json = .nat id.index ∧ id.index < ctx.scopeCount
  | .flag, json, (b : Bool) => json = .bool b
  | .count, json, (n : UInt64) => json = .nat n.toNat
  | .optCount, json, (n? : Option UInt64) => ∃ n, n? = some n ∧ json = .nat n.toNat
  | .text, json, (s : String) => json = .str s
  | .loc, json, (loc : Loc) => Shaped.ofJson json = .ok loc
  | .word _, json, (word : Vocabulary.Word _) =>
    json = .str (Spelled.spell word) ∨ json = .obj [(Spelled.spell word, .null)]
  | .traits, json, (traits : BlockTraits) => json = .nat traits.bits.toNat

inductive TargetFlaw (ctx : LinkContext) (expect : Expect) : UInt64 → Flaw → Prop where
  | outside {target} : ctx.kinds.size ≤ target.toNat →
      TargetFlaw ctx expect target (.dangling target ctx.kinds.size)
  | unfit {target kind} : ctx.kinds[target.toNat]? = some kind → kind.satisfies expect = false →
      TargetFlaw ctx expect target .mismatch

inductive ReferenceFlaw (ctx : LinkContext) (expect : Expect) : Json → Flaw → Prop where
  | noNumber {json} : (∀ target : UInt64, json ≠ .nat target.toNat) →
      ReferenceFlaw ctx expect json .mismatch
  | target {target flaw} : ctx.TargetFlaw expect target flaw →
      ReferenceFlaw ctx expect (.nat target.toNat) flaw

inductive Flawed (ctx : LinkContext) : FieldType → Json → Flaw → Prop where
  | ref {role expect json flaw} : ctx.ReferenceFlaw expect json flaw →
      Flawed ctx (.ref role expect) json flaw
  | noList {role expect json} : (∀ items, json ≠ .arr items) →
      Flawed ctx (.refs role expect) json .mismatch
  | item {role expect items flaw} : First (ctx.ReferenceFlaw expect) items flaw →
      Flawed ctx (.refs role expect) (.arr items) flaw
  | noScopeNumber {json} : (∀ target : UInt64, json ≠ .nat target.toNat) →
      Flawed ctx .scope json .mismatch
  | noScope {target : UInt64} : ctx.scopeCount ≤ target.toNat →
      Flawed ctx .scope (.nat target.toNat) (.dangling target ctx.scopeCount)
  | plain {type json} : type.isPlain = true → (∀ value, ¬ ctx.Holds type json value) →
      Flawed ctx type json .mismatch

variable {ctx : LinkContext} {expect : Expect} {json : Json} {target : UInt64} {flaw : Flaw}

theorem nat_inj {m n : Nat} : Json.nat m = .nat n ↔ m = n := by
  simp only [Json.nat, Json.num.injEq, Number.int.injEq, Int.natCast_inj]

theorem count_eq_ok_iff {n : UInt64} : count json = .ok n ↔ json = .nat n.toNat := by
  rw [← Json.word?_eq_some_iff, count]
  split <;> simp_all

theorem count_eq_error_iff :
    count json = .error flaw ↔ flaw = .mismatch ∧ ∀ n : UInt64, json ≠ .nat n.toNat := by
  have hok := exists_ok_iff (x := count json)
  simp only [count_eq_ok_iff] at hok
  constructor
  · intro h
    refine ⟨?_, fun n hn => hok.1 ⟨n, hn⟩ flaw h⟩
    unfold count at h
    split at h <;> simp_all
  · rintro ⟨rfl, h⟩
    cases hcount : count json with
    | ok n => exact absurd (count_eq_ok_iff.1 hcount) (h n)
    | error e =>
      unfold count at hcount
      split at hcount <;> simp_all

theorem nodeId_eq_error_iff :
    ctx.nodeId expect target = .error flaw ↔ ctx.TargetFlaw expect target flaw := by
  unfold nodeId
  constructor
  · intro h
    split at h
    next hkind =>
      cases h
      exact .outside (Array.getElem?_eq_none_iff.1 hkind)
    next kind hkind =>
      split_ifs at h with hsat
      cases h
      exact .unfit hkind (Bool.not_eq_true _ ▸ hsat)
  · rintro (houtside | ⟨hkind, hsat⟩)
    · rw [Array.getElem?_eq_none houtside]
    · rw [hkind]
      simp [hsat]

theorem nodeId_eq_ok_iff (hctx : ctx.Addressable) {id : NodeId} :
    ctx.nodeId expect target = .ok id ↔ ctx.Refers expect (.nat target.toNat) id := by
  unfold nodeId
  constructor
  · intro h
    split at h
    · cases h
    next kind hkind =>
      split_ifs at h with hsat
      cases h
      have hlt : target.toNat < UInt32.size :=
        Nat.lt_of_lt_of_le (Array.getElem?_eq_some_iff.1 hkind).1 hctx.kinds
      rw [Refers, Handle.index_ofIndex hlt]
      exact ⟨rfl, kind, hkind, hsat⟩
  · rintro ⟨htarget, kind, hkind, hsat⟩
    have hindex : target.toNat = id.index := nat_inj.1 htarget
    have hlt : id.index < UInt32.size :=
      Nat.lt_of_lt_of_le (Array.getElem?_eq_some_iff.1 hkind).1 hctx.kinds
    have hid : Handle.ofIndex id.index = id := Handle.eq_of_index_eq (Handle.index_ofIndex hlt)
    rw [hindex, hkind]
    simp [hsat, hid]

theorem scopeId_eq_error_iff : ctx.scopeId target = .error flaw ↔
    ctx.scopeCount ≤ target.toNat ∧ flaw = .dangling target ctx.scopeCount := by
  unfold scopeId
  split_ifs with h
  · simp [Nat.not_le.2 h]
  · simp [Nat.not_lt.1 h, eq_comm]

theorem scopeId_eq_ok_iff (hctx : ctx.Addressable) {id : ScopeId} :
    ctx.scopeId target = .ok id ↔ target.toNat = id.index ∧ id.index < ctx.scopeCount := by
  unfold scopeId
  split_ifs with h
  · have hindex : (Handle.ofIndex target.toNat : ScopeId).index = target.toNat :=
      Handle.index_ofIndex (Nat.lt_of_lt_of_le h hctx.scopes)
    rw [Except.ok.injEq]
    constructor
    · rintro rfl
      exact ⟨hindex.symm, hindex.symm ▸ h⟩
    · rintro ⟨hid, -⟩
      exact Handle.eq_of_index_eq (hindex.trans hid)
  · refine iff_of_false nofun ?_
    rintro ⟨hid, hlt⟩
    exact h (hid ▸ hlt)

def reference (ctx : LinkContext) (expect : Expect) (json : Json) : Except Flaw NodeId := do
  ctx.nodeId expect (← count json)

theorem reference_eq_ok_iff (hctx : ctx.Addressable) {id : NodeId} :
    ctx.reference expect json = .ok id ↔ ctx.Refers expect json id := by
  rw [reference, bind_eq_ok_iff]
  simp only [count_eq_ok_iff, nodeId_eq_ok_iff hctx]
  constructor
  · rintro ⟨n, rfl, h⟩
    exact h
  · intro h
    -- A handle is narrower than a number, so there is a number for it.
    have hn : (UInt64.ofNat id.index).toNat = id.index :=
      UInt64.toNat_ofNat_of_lt' (Nat.lt_trans id.val.toNat_lt (by decide))
    refine ⟨UInt64.ofNat id.index, ?_, ?_⟩
    · rw [hn, h.1]
    · rw [hn]
      exact ⟨rfl, h.2⟩

theorem reference_eq_error_iff :
    ctx.reference expect json = .error flaw ↔ ctx.ReferenceFlaw expect json flaw := by
  rw [reference, bind_eq_error_iff]
  simp only [count_eq_ok_iff, count_eq_error_iff, nodeId_eq_error_iff]
  constructor
  · rintro (⟨rfl, h⟩ | ⟨n, rfl, h⟩)
    · exact .noNumber h
    · exact .target h
  · rintro (h | h)
    · exact .inl ⟨rfl, h⟩
    · exact .inr ⟨_, rfl, h⟩

theorem references_failsAt (items : List Json) :
    FailsAt (items.mapM (ctx.reference expect)) (ctx.ReferenceFlaw expect) items := by
  have h : FailsAt (items.mapM (ctx.reference expect)) (ctx.ReferenceFlaw expect) (items.map id) :=
    .mapM_single (fun _ => .single fun _ => reference_eq_error_iff) items
  rwa [List.map_id] at h

section ofJson
variable {role : Role}

theorem ofJson_ref :
    ctx.ofJson (.ref role expect) json = (some <$> ctx.reference expect json :) := by
  rw [reference, map_bind]
  rfl

theorem ofJson_refs (items : List Json) :
    ctx.ofJson (.refs role expect) (.arr items) = (items.mapM (ctx.reference expect) :) := rfl

theorem ofJson_scope :
    ctx.ofJson .scope json = (some <$> (count json >>= ctx.scopeId) :) := by
  rw [map_bind]
  rfl

theorem ofJson_optCount : ctx.ofJson .optCount json = (some <$> count json :) := rfl

theorem ofJson_traits : ctx.ofJson .traits json = (BlockTraits.mk <$> count json :) := rfl

theorem ofJson_eq_ok_iff (hctx : ctx.Addressable) {type : FieldType} {value : type.Carrier} :
    ctx.ofJson type json = .ok value ↔ ctx.Holds type json value := by
  -- What a value is depends on its type, so each reader is opened only after the split.
  cases type with
  | ref role expect =>
    rw [ofJson_ref]
    refine map_some_eq_ok_iff.trans ?_
    simp only [reference_eq_ok_iff hctx]
    rfl
  | refs role expect =>
    cases json with
    | arr items =>
      rw [ofJson_refs]
      refine mapM_eq_ok_iff.trans ?_
      simp only [reference_eq_ok_iff hctx]
      exact ⟨fun h => ⟨items, rfl, h⟩, fun ⟨_, hitems, h⟩ => by cases hitems; exact h⟩
    | _ => exact iff_of_false nofun (by rintro ⟨_, ⟨⟩, _⟩)
  | scope =>
    rw [ofJson_scope]
    refine map_some_eq_ok_iff.trans (exists_congr fun id => and_congr_right fun _ => ?_)
    simp only [bind_eq_ok_iff, count_eq_ok_iff, scopeId_eq_ok_iff hctx]
    constructor
    · rintro ⟨n, rfl, hid, hlt⟩
      exact ⟨congrArg Json.nat hid, hlt⟩
    · rintro ⟨rfl, hlt⟩
      have hn : (UInt64.ofNat id.index).toNat = id.index :=
        UInt64.toNat_ofNat_of_lt' (Nat.lt_trans id.val.toNat_lt (by decide))
      exact ⟨UInt64.ofNat id.index, by rw [hn], hn, hlt⟩
  | flag =>
    cases json with
    | bool b => exact Except.ok.injEq b value ▸ Json.bool.injEq b value ▸ Iff.rfl
    | _ => exact iff_of_false nofun nofun
  | count => exact count_eq_ok_iff
  | optCount =>
    rw [ofJson_optCount]
    refine map_some_eq_ok_iff.trans ?_
    simp only [count_eq_ok_iff]
    rfl
  | text =>
    cases json with
    | str s => exact Except.ok.injEq s value ▸ Json.str.injEq s value ▸ Iff.rfl
    | _ => exact iff_of_false nofun nofun
  | loc => exact mapError_eq_ok_iff
  | word v => exact mapError_eq_ok_iff.trans Vocabulary.ofJson_eq_ok_iff
  | traits =>
    rw [ofJson_traits]
    refine map_eq_ok_iff.trans ?_
    simp only [count_eq_ok_iff]
    exact ⟨fun ⟨n, h, hvalue⟩ => hvalue ▸ h, fun h => ⟨_, h, rfl⟩⟩

theorem eq_mismatch_of_isPlain {type : FieldType} (hplain : type.isPlain = true)
    (h : ctx.ofJson type json = .error flaw) : flaw = .mismatch := by
  cases type with
  | ref | refs | scope => cases hplain
  | flag | text => cases json <;> cases h <;> rfl
  | count => exact (count_eq_error_iff.1 h).1
  | optCount | traits => exact (count_eq_error_iff.1 (map_eq_error_iff.1 h)).1
  | loc | word =>
    obtain ⟨_, -, hflaw⟩ := mapError_eq_error_iff.1 h
    exact hflaw.symm

theorem flawed_of_ofJson_eq_error (hctx : ctx.Addressable) {type : FieldType}
    (h : ctx.ofJson type json = .error flaw) : ctx.Flawed type json flaw := by
  have hplain (hplain : type.isPlain = true) : ctx.Flawed type json flaw := by
    obtain rfl := eq_mismatch_of_isPlain hplain h
    refine .plain hplain fun value hvalue => ?_
    rw [← ofJson_eq_ok_iff hctx, h] at hvalue
    cases hvalue
  cases type with
  | ref role expect =>
    rw [ofJson_ref] at h
    exact .ref (reference_eq_error_iff.1 (map_eq_error_iff.1 h))
  | refs role expect =>
    cases json with
    | arr items =>
      rw [ofJson_refs] at h
      exact .item ((references_failsAt items flaw).1 h)
    | _ =>
      cases h
      exact .noList nofun
  | scope =>
    rw [ofJson_scope] at h
    rcases bind_eq_error_iff.1 (map_eq_error_iff.1 h) with hcount | ⟨n, hcount, hscope⟩
    · obtain ⟨rfl, hjson⟩ := count_eq_error_iff.1 hcount
      exact .noScopeNumber hjson
    · obtain rfl := count_eq_ok_iff.1 hcount
      obtain ⟨hle, rfl⟩ := scopeId_eq_error_iff.1 hscope
      exact .noScope hle
  | _ => exact hplain rfl

theorem ofJson_eq_error_of_flawed (hctx : ctx.Addressable) {type : FieldType}
    (h : ctx.Flawed type json flaw) : ctx.ofJson type json = .error flaw := by
  cases h with
  | ref h =>
    rw [ofJson_ref]
    exact map_eq_error_iff.2 (reference_eq_error_iff.2 h)
  | noList h =>
    cases json with
    | arr items => exact absurd rfl (h items)
    | _ => rfl
  | item h =>
    rw [ofJson_refs]
    exact (references_failsAt _ flaw).2 h
  | noScopeNumber h =>
    rw [ofJson_scope]
    exact map_eq_error_iff.2 (bind_eq_error_iff.2 (.inl (count_eq_error_iff.2 ⟨rfl, h⟩)))
  | noScope h =>
    rw [ofJson_scope]
    refine map_eq_error_iff.2 (bind_eq_error_iff.2 (.inr ⟨_, count_eq_ok_iff.2 rfl, ?_⟩))
    exact scopeId_eq_error_iff.2 ⟨h, rfl⟩
  | plain hplain hnone =>
    cases hresult : ctx.ofJson type json with
    | ok value => exact absurd ((ofJson_eq_ok_iff hctx).1 hresult) (hnone value)
    | error flaw => rw [eq_mismatch_of_isPlain hplain hresult]

end ofJson

end LinkContext

end FormatGraph
