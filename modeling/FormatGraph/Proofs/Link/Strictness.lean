import FormatGraph.Proofs.Json.Object
import FormatGraph.Proofs.Link.Outcome

/-! Strict and lenient linking. Strict linking differs from lenient linking only in that it asks for
every key of a schema, so it comes to the same once the keys that are absent are written as `null`.
Keys that are in no schema are never looked at. -/

namespace FormatGraph

theorem AgreesUnless.readM {ε : Type} {P : ε → Prop}
    {f g : (field : Field) → Except ε field.type.Carrier} {fields : List Field}
    (h : ∀ field ∈ fields, AgreesUnless P (f field) (g field)) :
    AgreesUnless P (Record.readM f fields) (Record.readM g fields) := by
  induction fields with
  | nil => exact refl _
  | cons field fields ih =>
    have hrest := ih fun other hother => h other (List.mem_cons_of_mem _ hother)
    exact (h field List.mem_cons_self).bind fun _ _ => hrest.bind fun _ _ => refl _

namespace Json

variable {key other : String} {value : Json} {body : Object}

def complete (body : Object) (key : String) : Object :=
  if (body.lookup key).isSome then body else insert key .null body

theorem lookup_complete (body : Object) (key other : String) :
    (complete body key).lookup other =
      if other = key then (body.lookup key).or (some .null) else body.lookup other := by
  rw [complete]
  cases hfound : body.lookup key with
  | some json =>
    rw [Option.isSome_some, if_pos rfl, Option.some_or]
    split_ifs with heq
    · rw [heq, hfound]
    · rfl
  | none =>
    rw [Option.isSome_none, if_neg Bool.false_ne_true, Option.none_or]
    split_ifs with heq
    · rw [heq, lookup_insert_self]
    · rw [lookup_insert_of_ne heq]

theorem lookup_foldl_complete (keys : List String) (body : Object) (key : String) :
    (keys.foldl complete body).lookup key =
      if key ∈ keys then (body.lookup key).or (some .null) else body.lookup key := by
  induction keys generalizing body with
  | nil => rfl
  | cons first keys ih =>
    rw [List.foldl_cons, ih, lookup_complete]
    by_cases heq : key = first
    · subst heq
      simp
    · simp [heq]

end Json

/-- The node with every key of its schema. A tag that spells no kind has no schema. -/
def RawNode.completed (node : RawNode) : RawNode :=
  match Kind.ofSpelling? node.tag with
  | some kind => { node with body := (kind.schema.map Field.key).foldl Json.complete node.body }
  | none => node

def RawGraph.completed (raw : RawGraph) : RawGraph := { raw with nodes := raw.nodes.map (·.completed) }

namespace RawNode

structure SameFields (node node' : RawNode) : Prop where
  tag : node.tag = node'.tag
  loc : node.loc = node'.loc
  found : ∀ kind : Kind, kind.spelling = node.tag → ∀ field ∈ kind.schema,
    node.body.lookup field.key = node'.body.lookup field.key

theorem completed_tag (node : RawNode) : node.completed.tag = node.tag := by
  unfold completed
  split <;> rfl

theorem completed_loc (node : RawNode) : node.completed.loc = node.loc := by
  unfold completed
  split <;> rfl

theorem lookup_completed {node : RawNode} {kind : Kind} (htag : kind.spelling = node.tag)
    {field : Field} (hfield : field ∈ kind.schema) :
    node.completed.body.lookup field.key = (node.body.lookup field.key).or (some .null) := by
  have hkey : field.key ∈ kind.schema.map Field.key := List.mem_map_of_mem hfield
  rw [completed, Kind.ofSpelling?_eq_some_iff.2 htag]
  change ((kind.schema.map Field.key).foldl Json.complete node.body).lookup field.key = _
  rw [Json.lookup_foldl_complete, if_pos hkey]

end RawNode

namespace LinkContext

variable {P : LinkError → Prop} {kinds : Array Kind} {scopeCount : Nat} {strict strict' : Bool}

theorem ofJson_strict (type : FieldType) (json : Json) :
    ofJson ⟨kinds, scopeCount, strict⟩ type json = ofJson ⟨kinds, scopeCount, strict'⟩ type json := by
  cases type with
  | refs | flag | text => cases json <;> rfl
  | _ => rfl

section field
variable {kind : Kind} {index : Nat} {body body' : Json.Object} {field : Field}

theorem field_agrees_of_lookup_eq (h : body.lookup field.key = body'.lookup field.key)
    (hmissing : body.lookup field.key = none → strict ≠ strict' →
      strict = true ∧ P (.missingField ⟨.node kind, field.key, index⟩)) :
    AgreesUnless P (LinkContext.field ⟨kinds, scopeCount, strict⟩ kind index body field)
      (LinkContext.field ⟨kinds, scopeCount, strict'⟩ kind index body' field) := by
  cases hfound : body.lookup field.key with
  | none =>
    rw [field_of_lookup_none hfound, field_of_lookup_none (h ▸ hfound)]
    by_cases hstrict : strict = strict'
    · rw [hstrict]
      exact .refl _
    · obtain ⟨rfl, hallowed⟩ := hmissing hfound hstrict
      exact .inl ⟨_, hallowed, rfl⟩
  | some json =>
    by_cases hjson : json = .null
    · subst hjson
      rw [field_of_lookup_null hfound, field_of_lookup_null (h ▸ hfound)]
      exact .refl _
    · rw [field_of_lookup_some hfound hjson, field_of_lookup_some (h ▸ hfound) hjson,
        ofJson_strict]
      exact .refl _

theorem field_lenient_eq_strict (h : body'.lookup field.key = (body.lookup field.key).or (some .null)) :
    LinkContext.field ⟨kinds, scopeCount, false⟩ kind index body field =
      LinkContext.field ⟨kinds, scopeCount, true⟩ kind index body' field := by
  cases hfound : body.lookup field.key with
  | none =>
    rw [hfound, Option.none_or] at h
    rw [field_of_lookup_none hfound, field_of_lookup_null h, if_neg Bool.false_ne_true]
  | some json =>
    rw [hfound, Option.some_or] at h
    have hsame : body.lookup field.key = body'.lookup field.key := hfound.trans h.symm
    exact (field_agrees_of_lookup_eq hsame fun hnone => by simp [hfound] at hnone).eq

end field

structure NodesAgree (P : LinkError → Prop) (ctx ctx' : LinkContext) (node node' : RawNode) :
    Prop where
  tag : node.tag = node'.tag
  loc : node.loc = node'.loc
  fields : ∀ kind : Kind, kind.spelling = node.tag → ∀ field ∈ kind.schema, ∀ index,
    AgreesUnless P (ctx.field kind index node.body field) (ctx'.field kind index node'.body field)

theorem node_agrees {ctx ctx' : LinkContext} {node node' : RawNode} {kind : Kind} {index : Nat}
    (h : NodesAgree P ctx ctx' node node') (htag : kind.spelling = node.tag) :
    AgreesUnless P (ctx.node kind index node) (ctx'.node kind index node') := by
  unfold LinkContext.node
  rw [h.loc]
  exact (AgreesUnless.readM fun field hfield => h.fields kind htag field hfield index).bind
    fun _ _ => .refl _

theorem nodes_agrees {ctx ctx' : LinkContext} {raws raws' : List RawNode}
    (hkinds : ctx.kinds = ctx'.kinds)
    (htags : List.Forall₂ (fun raw kind => kind.spelling = raw.tag) raws ctx.kinds.toList)
    (h : List.Forall₂ (NodesAgree P ctx ctx') raws raws') :
    AgreesUnless P (ctx.nodes raws) (ctx'.nodes raws') := by
  unfold LinkContext.nodes
  rw [← hkinds]
  refine .mapM ?_
  generalize ctx.kinds.toList = kinds at htags
  -- The nodes of a rest of the list are not numbered from zero.
  generalize 0 = start
  induction htags generalizing raws' start with
  | nil =>
    cases h
    exact .nil
  | cons htag _ ih =>
    cases h with
    | cons hnode hrest =>
      rw [List.zip_cons_cons, List.zip_cons_cons, List.zipIdx_cons, List.zipIdx_cons]
      exact .cons (node_agrees hnode htag) (ih hrest _)

end LinkContext

namespace RawGraph

variable {P : LinkError → Prop} {raw raw' : RawGraph} {strict strict' : Bool}

theorem link_agrees (hscopes : raw.scopes = raw'.scopes)
    (h : ∀ kinds, List.Forall₂
      (LinkContext.NodesAgree P (raw.context strict kinds) (raw'.context strict' kinds))
      raw.nodes raw'.nodes) :
    AgreesUnless P (raw.link strict) (raw'.link strict') := by
  have htags : raw.nodes.map RawNode.tag = raw'.nodes.map RawNode.tag :=
    List.forall₂_eq_eq_eq ▸ List.forall₂_map_left_iff.2
      (List.forall₂_map_right_iff.2 ((h []).imp fun _ _ hnode => hnode.tag))
  by_cases hnil : raw.nodes = []
  · have hnil' : raw'.nodes = [] := by
      rw [hnil] at h
      exact List.forall₂_nil_left_iff.1 (h [])
    rw [link_of_nodes_eq_nil hnil, link_of_nodes_eq_nil hnil']
    exact .refl _
  · have hnil' : raw'.nodes ≠ [] := by
      intro hnil'
      rw [hnil'] at h
      exact hnil (List.forall₂_nil_right_iff.1 (h []))
    rw [link_of_nodes_ne_nil hnil, link_of_nodes_ne_nil hnil', kinds_eq_of_tags_eq htags]
    refine (AgreesUnless.refl _).bind fun kinds hkinds => ?_
    rw [← kinds_eq_of_tags_eq htags] at hkinds
    have hnodes : AgreesUnless P ((raw.context strict kinds).nodes raw.nodes)
        ((raw'.context strict' kinds).nodes raw'.nodes) := by
      apply LinkContext.nodes_agrees _ (kinds_eq_ok_iff.1 hkinds) (h kinds)
      rfl
    refine hnodes.bind fun _ _ => ?_
    -- The links of scopes do not know whether linking is strict.
    have hsame : (raw.context strict kinds).scopes raw.scopes =
        (raw'.context strict' kinds).scopes raw'.scopes := by
      rw [context, context, hscopes]
      rfl
    rw [hsame]
    exact .refl _

theorem Fault.strict_of_missingField {site : Site} (h : raw.Fault strict (.missingField site)) :
    strict = true := by
  cases h with
  | tag hfirst =>
    obtain ⟨_, -, htag⟩ := hfirst.exists_mem
    cases htag
  | field _ hfirst =>
    obtain ⟨read, -, hfault⟩ := hfirst.exists_mem
    exact hfault.strict_of_missingField
  | scope _ _ _ hfirst =>
    obtain ⟨link, -, hfault⟩ := hfirst.exists_mem
    exact absurd rfl (hfault.ne_missingField site)

def IsMissing (error : LinkError) : Prop := ∃ site, error = .missingField site

theorem link_strict_agrees (raw : RawGraph) :
    AgreesUnless IsMissing (raw.link true) (raw.link false) := by
  refine link_agrees rfl fun kinds => List.forall₂_same.2 fun node _ => ⟨rfl, rfl, ?_⟩
  intro kind _ field _ index
  exact LinkContext.field_agrees_of_lookup_eq rfl fun _ _ => ⟨rfl, _, rfl⟩

theorem link_eq_link_completed (raw : RawGraph) : raw.link false = raw.completed.link true := by
  have hscopes : raw.scopes = raw.completed.scopes := rfl
  refine (link_agrees hscopes fun kinds => ?_).eq
  refine List.forall₂_map_right_iff.2 (List.forall₂_same.2 fun node _ => ?_)
  refine ⟨node.completed_tag.symm, node.completed_loc.symm, fun kind htag field hfield index => ?_⟩
  exact .inr (LinkContext.field_lenient_eq_strict (RawNode.lookup_completed htag hfield))

theorem link_eq_of_sameFields (hscopes : raw.scopes = raw'.scopes)
    (hnodes : List.Forall₂ RawNode.SameFields raw.nodes raw'.nodes) (strict : Bool) :
    raw.link strict = raw'.link strict := by
  refine (link_agrees hscopes fun kinds => hnodes.imp fun node node' h => ?_).eq
  refine ⟨h.tag, h.loc, fun kind htag field hfield index => ?_⟩
  rw [context, context, hscopes]
  exact LinkContext.field_agrees_of_lookup_eq (h.found kind htag field hfield)
    fun _ hstrict => absurd rfl hstrict

/-- Strict linking fails for a key that is absent, or comes to the same as lenient linking. Lenient
linking is strict linking of the bodies with all their keys, and no other key matters to either. -/
theorem link_strictness (raw : RawGraph) (hraw : raw.Addressable) :
    ((∃ site, raw.link true = .error (.missingField site)) ∨ raw.link true = raw.link false) ∧
      (∀ site, raw.link false ≠ .error (.missingField site)) ∧
      raw.link false = raw.completed.link true ∧
      ∀ raw' : RawGraph, raw.scopes = raw'.scopes →
        List.Forall₂ RawNode.SameFields raw.nodes raw'.nodes →
          ∀ strict, raw.link strict = raw'.link strict := by
  refine ⟨?_, fun site h => ?_, link_eq_link_completed raw, fun raw' => link_eq_of_sameFields⟩
  · obtain ⟨_, ⟨site, rfl⟩, h⟩ | h := link_strict_agrees raw
    · exact .inl ⟨site, h⟩
    · exact .inr h
  · cases (fault_of_link_eq_error hraw h).strict_of_missingField

def sparse : RawGraph where
  nodes := [⟨"program", {}, [("elements", .arr [.nat 1])]⟩, ⟨"comment", {}, [("comment", .str "x")]⟩]
  scopes := []

def annotated : RawGraph where
  nodes := [⟨"program", {}, [("elements", .arr [.nat 1])]⟩,
    ⟨"comment", {}, [("comment", .str "x"), ("note", .nat 7)]⟩]
  scopes := []

theorem link_strictness_sparse :
    sparse.link true = .error (.missingField ⟨.node .program, "struct_type", 0⟩) ∧
      sparse.link false = sparse.completed.link true ∧ sparse.link false = annotated.link false := by
  have hsame : List.Forall₂ RawNode.SameFields sparse.nodes annotated.nodes := by
    refine .cons ⟨rfl, rfl, fun _ _ _ _ => rfl⟩ (.cons ⟨rfl, rfl, fun kind htag => ?_⟩ .nil)
    cases Kind.ofSpelling?_eq_some_iff.2 htag
    exact List.forall_mem_singleton.2 rfl
  have h := link_strictness sparse ⟨by decide, by decide⟩
  exact ⟨rfl, h.2.2.1, h.2.2.2 annotated rfl hsame false⟩

end RawGraph

end FormatGraph
