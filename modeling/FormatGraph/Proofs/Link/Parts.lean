import FormatGraph.Proofs.Link.Value

/-! What the parts of a linked graph are, and where linking them fails. A node has the place and the
kind that its raw node gives, and each of its fields holds what stands under its key. A scope has
the links that its raw scope gives. What fails first, in the order of nodes and schemas or of scopes
and their links, is what is reported. -/

namespace FormatGraph

namespace LinkContext

def Reads (ctx : LinkContext) (type : FieldType) (found : Option Json) (value : type.Carrier) :
    Prop :=
  match found with
  | none | some .null => value = type.blank
  | some json => ctx.Holds type json value

structure NodeFrom (ctx : LinkContext) (raw : RawNode) (node : Node) : Prop where
  tag : node.kind.spelling = raw.tag
  loc : node.loc = raw.loc
  fields : ∀ field ∈ node.kind.schema, ∃ value,
    node.fields.get? field.key = some ⟨field.type, value⟩ ∧
      ctx.Reads field.type (raw.body.lookup field.key) value
  present : ctx.strict = true → ∀ field ∈ node.kind.schema, (raw.body.lookup field.key).isSome

def NamesScope (ctx : LinkContext) (target : UInt64) (id : ScopeId) : Prop :=
  target.toNat = id.index ∧ id.index < ctx.scopeCount

def NamesNode (ctx : LinkContext) (expect : Expect) (target : UInt64) (id : NodeId) : Prop :=
  ctx.Refers expect (.nat target.toNat) id

structure ScopeFrom (ctx : LinkContext) (raw : RawScope) (scope : Scope) : Prop where
  prev : Option.Rel ctx.NamesScope raw.prev scope.prev
  next : Option.Rel ctx.NamesScope raw.next scope.next
  branch : Option.Rel ctx.NamesScope raw.branch scope.branch
  idents : List.Forall₂ (ctx.NamesNode (.kind .ident)) raw.idents scope.idents
  owner : Option.Rel (ctx.NamesNode .node) raw.owner scope.owner
  isBranchRoot : scope.isBranchRoot = raw.isBranchRoot

end LinkContext

structure FieldRead where
  kind : Kind
  index : Nat
  body : Json.Object
  field : Field

namespace FieldRead

def found (read : FieldRead) : Option Json := read.body.lookup read.field.key

def site (read : FieldRead) : Site := ⟨.node read.kind, read.field.key, read.index⟩

end FieldRead

inductive ScopeLink where
  | scope (index : Nat) (key : String) (target : UInt64)
  | node (index : Nat) (key : String) (expect : Expect) (target : UInt64)

def RawScope.links (raw : RawScope) (index : Nat) : List ScopeLink :=
  raw.prev.toList.map (.scope index "prev") ++ (raw.next.toList.map (.scope index "next") ++
    (raw.branch.toList.map (.scope index "branch") ++
      (raw.idents.map (.node index "ident" (.kind .ident)) ++
        raw.owner.toList.map (.node index "owner" .node))))

namespace LinkContext

inductive FieldFault (ctx : LinkContext) (read : FieldRead) : LinkError → Prop where
  | missing : ctx.strict = true → read.found = none → FieldFault ctx read (.missingField read.site)
  | flawed {json flaw} : read.found = some json → json ≠ .null →
      ctx.Flawed read.field.type json flaw → FieldFault ctx read (flaw.at read.site)

inductive LinkFault (ctx : LinkContext) : ScopeLink → LinkError → Prop where
  | scope {index key} {target : UInt64} : ctx.scopeCount ≤ target.toNat →
      LinkFault ctx (.scope index key target)
        (.dangling ⟨.scope, key, index⟩ target ctx.scopeCount)
  | node {index key expect target flaw} : ctx.TargetFlaw expect target flaw →
      LinkFault ctx (.node index key expect target) (flaw.at ⟨.scope, key, index⟩)

theorem FieldFault.site?_eq {ctx : LinkContext} {read : FieldRead} {error : LinkError}
    (h : ctx.FieldFault read error) : error.site? = some read.site := by
  cases h with
  | missing => rfl
  | @flawed _ flaw => cases flaw <;> rfl

theorem LinkFault.exists_site?_eq {ctx : LinkContext} {link : ScopeLink} {error : LinkError}
    (h : ctx.LinkFault link error) : ∃ key index, error.site? = some ⟨.scope, key, index⟩ := by
  cases h with
  | @scope index key => exact ⟨key, index, rfl⟩
  | @node index key _ _ flaw => exact ⟨key, index, by cases flaw <;> rfl⟩

theorem FieldFault.strict_of_missingField {ctx : LinkContext} {read : FieldRead} {site : Site}
    (h : ctx.FieldFault read (.missingField site)) : ctx.strict = true := by
  generalize herror : LinkError.missingField site = error at h
  cases h with
  | missing hstrict => exact hstrict
  | @flawed _ flaw => cases flaw <;> cases herror

theorem LinkFault.ne_missingField {ctx : LinkContext} {link : ScopeLink} {error : LinkError}
    (h : ctx.LinkFault link error) (site : Site) : error ≠ .missingField site := by
  cases h with
  | scope => nofun
  | @node _ _ _ _ flaw => cases flaw <;> nofun

def fieldReads (ctx : LinkContext) (raws : List RawNode) : List FieldRead :=
  (ctx.kinds.toList.zip raws).zipIdx.flatMap fun ((kind, raw), index) =>
    kind.schema.map fun field => ⟨kind, index, raw.body, field⟩

variable {ctx : LinkContext} {kind : Kind} {index : Nat}

section field
variable {body : Json.Object} {field : Field}

theorem field_of_lookup_none (h : body.lookup field.key = none) :
    ctx.field kind index body field =
      if ctx.strict then .error (.missingField ⟨.node kind, field.key, index⟩)
      else .ok field.type.blank := by
  rw [LinkContext.field, h]

theorem field_of_lookup_null (h : body.lookup field.key = some .null) :
    ctx.field kind index body field = .ok field.type.blank := by
  rw [LinkContext.field, h]

theorem field_of_lookup_some {json : Json} (h : body.lookup field.key = some json)
    (hjson : json ≠ .null) :
    ctx.field kind index body field =
      (ctx.ofJson field.type json).mapError (Flaw.at ⟨.node kind, field.key, index⟩) := by
  rw [LinkContext.field, h]
  cases json with
  | null => exact absurd rfl hjson
  | _ => rfl

theorem reads_some {type : FieldType} {json : Json} (hjson : json ≠ .null)
    {value : type.Carrier} : ctx.Reads type (some json) value ↔ ctx.Holds type json value := by
  cases json with
  | null => exact absurd rfl hjson
  | _ => rfl

theorem field_eq_ok_iff (hctx : ctx.Addressable) {value : field.type.Carrier} :
    ctx.field kind index body field = .ok value ↔
      (ctx.strict = true → (body.lookup field.key).isSome) ∧
        ctx.Reads field.type (body.lookup field.key) value := by
  cases hfound : body.lookup field.key with
  | none =>
    rw [field_of_lookup_none hfound, Reads]
    cases ctx.strict <;> simp [@eq_comm _ value]
  | some json =>
    by_cases hjson : json = .null
    · subst hjson
      rw [field_of_lookup_null hfound, Reads]
      simp [@eq_comm _ value]
    · rw [field_of_lookup_some hfound hjson, mapError_eq_ok_iff, ofJson_eq_ok_iff hctx,
        reads_some hjson]
      simp

theorem field_failsAt (hctx : ctx.Addressable) (body : Json.Object) (field : Field) :
    FailsAt (ctx.field kind index body field) ctx.FieldFault [⟨kind, index, body, field⟩] := by
  refine .single fun e => ?_
  cases hfound : body.lookup field.key with
  | none =>
    rw [field_of_lookup_none hfound]
    constructor
    · intro h
      split_ifs at h with hstrict
      cases h
      exact .missing hstrict hfound
    · intro h
      cases h with
      | missing hstrict _ => rw [if_pos hstrict]; rfl
      | flawed hsome _ _ => cases hfound.symm.trans hsome
  | some json =>
    by_cases hjson : json = .null
    · subst hjson
      rw [field_of_lookup_null hfound]
      refine iff_of_false nofun fun h => ?_
      cases h with
      | missing _ hnone => cases hfound.symm.trans hnone
      | flawed hsome hne _ =>
        cases hfound.symm.trans hsome
        exact hne rfl
    · rw [field_of_lookup_some hfound hjson, mapError_eq_error_iff]
      constructor
      · rintro ⟨flaw, hflaw, rfl⟩
        exact .flawed hfound hjson (flawed_of_ofJson_eq_error hctx hflaw)
      · intro h
        cases h with
        | missing _ hnone => cases hfound.symm.trans hnone
        | flawed hsome _ hflaw =>
          cases hfound.symm.trans hsome
          exact ⟨_, ofJson_eq_error_of_flawed hctx hflaw, rfl⟩

end field

theorem node_failsAt (hctx : ctx.Addressable) (raw : RawNode) :
    FailsAt (ctx.node kind index raw) ctx.FieldFault
      (kind.schema.map fun field => ⟨kind, index, raw.body, field⟩) := by
  rw [LinkContext.node, bind_pure_comp]
  exact (Record.readM_failsAt fun field _ => field_failsAt hctx raw.body field).map _

theorem nodes_failsAt (hctx : ctx.Addressable) (raws : List RawNode) :
    FailsAt (ctx.nodes raws) ctx.FieldFault (ctx.fieldReads raws) :=
  .mapM fun ((_, raw), _) _ => node_failsAt hctx raw

theorem nodeFrom_of_node_eq_ok (hctx : ctx.Addressable) {raw : RawNode} {node : Node}
    (htag : kind.spelling = raw.tag) (h : ctx.node kind index raw = .ok node) :
    ctx.NodeFrom raw node ∧ node.kind = kind := by
  obtain ⟨record, hrecord, h⟩ := bind_eq_ok_iff.1 h
  cases h
  have hread : ∀ field ∈ kind.schema, ∃ value, record.get? field.key = some ⟨field.type, value⟩ ∧
      ctx.field kind index raw.body field = .ok value := by
    intro field hfield
    rw [← Record.map_fst_toList record] at hfield
    obtain ⟨entry, hentry, rfl⟩ := List.mem_map.1 hfield
    exact ⟨entry.2, Record.get?_of_mem_toList kind.schema_keys_nodup hentry,
      Record.readM_eq_ok_iff.1 hrecord entry hentry⟩
  refine ⟨⟨htag, rfl, fun field hfield => ?_, fun hstrict field hfield => ?_⟩, rfl⟩
  · obtain ⟨value, hget, hvalue⟩ := hread field hfield
    exact ⟨value, hget, ((field_eq_ok_iff hctx).1 hvalue).2⟩
  · obtain ⟨value, -, hvalue⟩ := hread field hfield
    exact ((field_eq_ok_iff hctx).1 hvalue).1 hstrict

theorem nodesFrom_of_nodes_eq_ok (hctx : ctx.Addressable) {raws : List RawNode}
    {nodes : List Node}
    (htags : List.Forall₂ (fun raw kind => kind.spelling = raw.tag) raws ctx.kinds.toList)
    (h : ctx.nodes raws = .ok nodes) :
    List.Forall₂ ctx.NodeFrom raws nodes ∧ nodes.map Node.kind = ctx.kinds.toList := by
  rw [LinkContext.nodes, mapM_eq_ok_iff] at h
  generalize ctx.kinds.toList = kinds at htags h
  -- The nodes of a rest of the list are not numbered from zero.
  generalize 0 = start at h
  induction htags generalizing nodes start with
  | nil =>
    cases h
    exact ⟨.nil, rfl⟩
  | cons htag _ ih =>
    rw [List.zip_cons_cons, List.zipIdx_cons] at h
    cases h with
    | cons hnode hnodes =>
      obtain ⟨hfrom, hkind⟩ := nodeFrom_of_node_eq_ok hctx htag hnode
      obtain ⟨hfroms, hkinds⟩ := ih _ hnodes
      exact ⟨.cons hfrom hfroms, by rw [List.map_cons, hkind, hkinds]⟩

section scope
variable {raw : RawScope}

theorem scope_failsAt (index : Nat) (raw : RawScope) :
    FailsAt (ctx.scope index raw) ctx.LinkFault (raw.links index) := by
  have hscope (key : String) (target : UInt64) :
      FailsAt ((ctx.scopeId target).mapError (Flaw.at ⟨.scope, key, index⟩)) ctx.LinkFault
        [.scope index key target] := by
    refine .single fun e => mapError_eq_error_iff.trans ⟨?_, ?_⟩
    · rintro ⟨flaw, hflaw, rfl⟩
      obtain ⟨hle, rfl⟩ := scopeId_eq_error_iff.1 hflaw
      exact .scope hle
    · rintro ⟨hle⟩
      exact ⟨_, scopeId_eq_error_iff.2 ⟨hle, rfl⟩, rfl⟩
  have hnode (key : String) (expect : Expect) (target : UInt64) :
      FailsAt ((ctx.nodeId expect target).mapError (Flaw.at ⟨.scope, key, index⟩)) ctx.LinkFault
        [.node index key expect target] := by
    refine .single fun e => mapError_eq_error_iff.trans ⟨?_, ?_⟩
    · rintro ⟨flaw, hflaw, rfl⟩
      exact .node (nodeId_eq_error_iff.1 hflaw)
    · intro h
      cases h with
      | node hflaw => exact ⟨_, nodeId_eq_error_iff.2 hflaw, rfl⟩
  unfold LinkContext.scope RawScope.links
  refine (FailsAt.optionMapM_single (hscope "prev") raw.prev).bind fun _ _ => ?_
  refine (FailsAt.optionMapM_single (hscope "next") raw.next).bind fun _ _ => ?_
  refine (FailsAt.optionMapM_single (hscope "branch") raw.branch).bind fun _ _ => ?_
  refine (FailsAt.mapM_single (hnode "ident" (.kind .ident)) raw.idents).bind fun _ _ => ?_
  rw [bind_pure_comp]
  exact (FailsAt.optionMapM_single (hnode "owner" .node) raw.owner).map _

theorem scopes_failsAt (ctx : LinkContext) (raws : List RawScope) :
    FailsAt (ctx.scopes raws) ctx.LinkFault
      (raws.zipIdx.flatMap fun (raw, index) => raw.links index) :=
  .mapM fun (raw, index) _ => scope_failsAt index raw

theorem scopeFrom_of_scope_eq_ok (hctx : ctx.Addressable) {scope : Scope}
    (h : ctx.scope index raw = .ok scope) : ctx.ScopeFrom raw scope := by
  unfold LinkContext.scope at h
  simp only [bind_eq_ok_iff, optionMapM_eq_ok_iff, mapM_eq_ok_iff, mapError_eq_ok_iff,
    scopeId_eq_ok_iff hctx, nodeId_eq_ok_iff hctx] at h
  obtain ⟨prev, hprev, next, hnext, branch, hbranch, idents, hidents, owner, howner, h⟩ := h
  cases h
  exact ⟨hprev, hnext, hbranch, hidents, howner, rfl⟩

theorem scopesFrom_of_scopes_eq_ok (hctx : ctx.Addressable) {raws : List RawScope}
    {scopes : List Scope} (h : ctx.scopes raws = .ok scopes) :
    List.Forall₂ ctx.ScopeFrom raws scopes := by
  rw [LinkContext.scopes, mapM_eq_ok_iff] at h
  rw [← List.zipIdx_map_fst 0 raws, List.forall₂_map_left_iff]
  exact h.imp fun _ _ hscope => scopeFrom_of_scope_eq_ok hctx hscope

end scope

end LinkContext

namespace RawGraph

def Tagged (raw : RawGraph) (kinds : List Kind) : Prop :=
  List.Forall₂ (fun node kind => kind.spelling = node.tag) raw.nodes kinds

inductive TagFault : RawNode × Nat → LinkError → Prop where
  | unknown {node index} : (∀ kind : Kind, kind.spelling ≠ node.tag) →
      TagFault (node, index) (.unknownTag node.tag index)

variable {raw : RawGraph} {kinds : List Kind}

theorem kind_eq_ok_iff {node : RawNode} {index : Nat} {kind : Kind} :
    node.kind index = .ok kind ↔ kind.spelling = node.tag := by
  rw [← Kind.ofSpelling?_eq_some_iff, RawNode.kind]
  cases Kind.ofSpelling? node.tag <;> simp

theorem kind_eq_error_iff {node : RawNode} {index : Nat} {e : LinkError} :
    node.kind index = .error e ↔ TagFault (node, index) e := by
  unfold RawNode.kind
  cases hkind : Kind.ofSpelling? node.tag with
  | some kind =>
    refine iff_of_false nofun ?_
    rintro ⟨hunknown⟩
    exact hunknown kind (Kind.ofSpelling?_eq_some_iff.1 hkind)
  | none =>
    constructor
    · intro h
      cases h
      exact .unknown (Kind.ofSpelling?_eq_none_iff.1 hkind)
    · rintro ⟨-⟩
      rfl

theorem kinds_eq_ok_iff : raw.kinds = .ok kinds ↔ raw.Tagged kinds := by
  have h := List.forall₂_map_left_iff (R := fun (node : RawNode) (kind : Kind) =>
    kind.spelling = node.tag) (f := Prod.fst) (l := raw.nodes.zipIdx) (u := kinds)
  rw [List.zipIdx_map_fst] at h
  rw [RawGraph.kinds, mapM_eq_ok_iff, Tagged, h]
  simp only [kind_eq_ok_iff]

theorem kinds_failsAt (raw : RawGraph) : FailsAt raw.kinds TagFault raw.nodes.zipIdx := by
  have h : FailsAt raw.kinds TagFault (raw.nodes.zipIdx.map id) :=
    .mapM_single (fun _ => .single fun _ => kind_eq_error_iff) _
  rwa [List.map_id] at h

theorem kinds_eq_of_tags_eq {raw' : RawGraph}
    (h : raw.nodes.map RawNode.tag = raw'.nodes.map RawNode.tag) :
    raw.kinds = raw'.kinds := by
  have hkinds (raw : RawGraph) : raw.kinds =
      (raw.nodes.map RawNode.tag).zipIdx.mapM fun p => RawNode.kind p.2 ⟨p.1, {}, []⟩ := by
    rw [List.zipIdx_map, List.mapM_map]
    rfl
  rw [hkinds raw, hkinds raw', h]

end RawGraph

end FormatGraph
