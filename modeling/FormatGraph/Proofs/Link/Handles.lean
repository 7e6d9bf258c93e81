import FormatGraph.Proofs.Link.Assembly

/-! Handles in a graph of any size. A number that is too great for a handle is cut down to fit it. The
handle may then name another node than the number does, but never one that is not there. -/

namespace FormatGraph

theorem Handle.index_ofIndex_le {kind : HandleKind} (index : Nat) :
    (ofIndex index : Handle kind).index ≤ index := by
  unfold ofIndex Handle.index
  rw [UInt32.toNat_ofNat']
  exact Nat.mod_le _ _

def FieldType.expect? : FieldType → Option Expect
  | .ref _ expect => some expect
  | .refs _ expect => some expect
  | _ => none

theorem Node.expect?_of_get? (node : Node) {key : String} {expect : Expect}
    (hkey : ∀ field ∈ node.kind.schema, field.key = key → field.type.expect? = some expect)
    {type : FieldType} {value : type.Carrier}
    (hget : node.fields.get? key = some ⟨type, value⟩) : type.expect? = some expect := by
  obtain ⟨entry, hentry, hfield, hfound⟩ := Record.exists_mem_toList_of_get? hget
  have hmem : entry.1 ∈ node.kind.schema :=
    Record.map_fst_toList node.fields ▸ List.mem_map_of_mem hentry
  have hexpect := hkey entry.1 hmem hfield
  cases hfound
  exact hexpect

namespace LinkContext

variable {ctx : LinkContext} {expect : Expect} {id : NodeId}

def Stands (ctx : LinkContext) (expect : Expect) (id : NodeId) : Prop :=
  ∃ index kind, Handle.ofIndex index = id ∧ ctx.kinds[index]? = some kind ∧
    kind.satisfies expect = true

theorem Stands.lt (h : ctx.Stands expect id) : id.index < ctx.kinds.size := by
  obtain ⟨index, kind, rfl, hkind, -⟩ := h
  have hindex : index < ctx.kinds.size := (Array.getElem?_eq_some_iff.1 hkind).1
  exact Nat.lt_of_le_of_lt (Handle.index_ofIndex_le index) hindex

theorem Stands.satisfies (h : ctx.Stands expect id) (hsize : ctx.kinds.size ≤ UInt32.size) :
    ∃ kind, ctx.kinds[id.index]? = some kind ∧ kind.satisfies expect = true := by
  obtain ⟨index, kind, rfl, hkind, hsat⟩ := h
  have hindex : index < ctx.kinds.size := (Array.getElem?_eq_some_iff.1 hkind).1
  rw [Handle.index_ofIndex (Nat.lt_of_lt_of_le hindex hsize)]
  exact ⟨kind, hkind, hsat⟩

theorem stands_of_reference_eq_ok {json : Json} (h : ctx.reference expect json = .ok id) :
    ctx.Stands expect id := by
  obtain ⟨target, -, h⟩ := bind_eq_ok_iff.1 h
  unfold nodeId at h
  split at h
  · cases h
  next kind hkind =>
    split_ifs at h with hsat
    exact ⟨target.toNat, kind, Except.ok.inj h, hkind, hsat⟩

def Fits (ctx : LinkContext) (type : FieldType) (value : type.Carrier) : Prop :=
  ∀ id ∈ type.handles value, ∃ expect, type.expect? = some expect ∧ ctx.Stands expect id

theorem fits_blank (type : FieldType) : ctx.Fits type type.blank := by
  cases type <;> nofun

theorem fits_of_ofJson_eq_ok {type : FieldType} {json : Json} {value : type.Carrier}
    (h : ctx.ofJson type json = .ok value) : ctx.Fits type value := by
  cases type with
  | ref role expect =>
    rw [ofJson_ref] at h
    obtain ⟨id, rfl, hid⟩ := map_some_eq_ok_iff.1 h
    intro id' hid'
    cases List.mem_singleton.1 hid'
    exact ⟨expect, rfl, stands_of_reference_eq_ok hid⟩
  | refs role expect =>
    cases json with
    | arr items =>
      rw [ofJson_refs] at h
      intro id hid
      obtain ⟨item, -, hitem⟩ := exists_left_of_forall₂ (mapM_eq_ok_iff.1 h) hid
      exact ⟨expect, rfl, stands_of_reference_eq_ok hitem⟩
    | _ => cases h
  | _ => nofun

theorem fits_of_field_eq_ok {kind : Kind} {index : Nat} {body : Json.Object} {field : Field}
    {value : field.type.Carrier} (h : ctx.field kind index body field = .ok value) :
    ctx.Fits field.type value := by
  unfold LinkContext.field at h
  dsimp only at h
  split at h
  · split_ifs at h
    cases h
    exact fits_blank field.type
  · cases h
    exact fits_blank field.type
  · exact fits_of_ofJson_eq_ok (mapError_eq_ok_iff.1 h)

theorem fits_of_node_eq_ok {kind : Kind} {index : Nat} {raw : RawNode} {node : Node}
    (h : ctx.node kind index raw = .ok node) {key : String} {type : FieldType}
    {value : type.Carrier} (hget : node.fields.get? key = some ⟨type, value⟩) :
    ctx.Fits type value := by
  obtain ⟨record, hrecord, h⟩ := bind_eq_ok_iff.1 h
  cases h
  obtain ⟨entry, hentry, -, hfound⟩ := Record.exists_mem_toList_of_get? hget
  have hfits : ctx.Fits entry.1.type entry.2 :=
    fits_of_field_eq_ok (Record.readM_eq_ok_iff.1 hrecord entry hentry)
  cases hfound
  exact hfits

theorem exists_item_of_nodes_eq_ok {raws : List RawNode} {nodes : List Node}
    (h : ctx.nodes raws = .ok nodes) {node : Node} (hnode : node ∈ nodes) :
    ∃ kind index raw, ctx.node kind index raw = .ok node := by
  obtain ⟨item, -, hitem⟩ := exists_left_of_forall₂ (mapM_eq_ok_iff.1 h) hnode
  exact ⟨_, _, _, hitem⟩

theorem map_kind_of_nodes_eq_ok {raws : List RawNode} {nodes : List Node}
    (hlength : ctx.kinds.toList.length ≤ raws.length) (h : ctx.nodes raws = .ok nodes) :
    nodes.map Node.kind = ctx.kinds.toList := by
  have hkinds : nodes.map Node.kind = (ctx.kinds.toList.zip raws).zipIdx.map fun item => item.1.1 := by
    have hitems := mapM_eq_ok_iff.1 h
    clear h
    generalize (ctx.kinds.toList.zip raws).zipIdx = items at hitems
    induction hitems with
    | nil => rfl
    | cons hnode _ ih =>
      obtain ⟨record, -, hnode⟩ := bind_eq_ok_iff.1 hnode
      cases hnode
      rw [List.map_cons, List.map_cons, ih]
  calc nodes.map Node.kind
      = ((ctx.kinds.toList.zip raws).zipIdx.map Prod.fst).map Prod.fst := by
        rw [hkinds, List.map_map]
        rfl
    _ = (ctx.kinds.toList.zip raws).map Prod.fst := by rw [List.zipIdx_map_fst]
    _ = ctx.kinds.toList := List.map_fst_zip hlength

end LinkContext

namespace RawGraph

variable {raw : RawGraph} {strict : Bool}

section parts
variable {kinds : List Kind} {nodes : List Node} {scopes : List Scope}

theorem Parts.map_kind (h : raw.Parts strict kinds nodes scopes) : nodes.map Node.kind = kinds := by
  have hlength : kinds.length ≤ raw.nodes.length := Nat.le_of_eq h.tagged.length_eq.symm
  exact LinkContext.map_kind_of_nodes_eq_ok hlength h.nodes_eq

theorem Parts.fits (h : raw.Parts strict kinds nodes scopes) {node : Node} (hnode : node ∈ nodes)
    {key : String} {type : FieldType} {value : type.Carrier}
    (hget : node.fields.get? key = some ⟨type, value⟩) :
    (raw.context strict kinds).Fits type value := by
  obtain ⟨kind, index, rawNode, hread⟩ := LinkContext.exists_item_of_nodes_eq_ok h.nodes_eq hnode
  exact LinkContext.fits_of_node_eq_ok hread hget

end parts

variable {graph : Graph} (h : raw.link strict = .ok graph)
include h

theorem linked_of_link_eq_ok : graph.Linked := by
  obtain ⟨kinds, nodes, scopes, hparts, rfl, -⟩ := exists_parts_of_link_eq_ok h
  intro node hnode key type value hget id hid
  obtain ⟨expect, -, hstands⟩ := hparts.fits (List.mem_toArray.1 hnode) hget id hid
  have hlt : id.index < kinds.toArray.size := hstands.lt
  rw [List.size_toArray, ← hparts.map_kind, List.length_map] at hlt
  exact hlt

/-- Where every node has a handle of its own, a reference is to a node that its field asks for. -/
theorem satisfies_of_link_eq_ok (hsize : raw.nodes.length ≤ UInt32.size) {node : Node}
    (hnode : node ∈ graph.nodes) {key : String} {type : FieldType} {value : type.Carrier}
    (hget : node.fields.get? key = some ⟨type, value⟩) {id : NodeId}
    (hid : id ∈ type.handles value) :
    ∃ expect target, type.expect? = some expect ∧ graph.node? id = some target ∧
      target.kind.satisfies expect = true := by
  obtain ⟨kinds, nodes, scopes, hparts, rfl, -⟩ := exists_parts_of_link_eq_ok h
  obtain ⟨expect, hexpect, hstands⟩ := hparts.fits (List.mem_toArray.1 hnode) hget id hid
  have hkinds : kinds.toArray.size ≤ UInt32.size := by
    rw [List.size_toArray, ← hparts.tagged.length_eq]
    exact hsize
  obtain ⟨kind, hkind, hsat⟩ := hstands.satisfies hkinds
  have hmap : (nodes.map Node.kind)[id.index]? = some kind := by
    rw [hparts.map_kind, ← List.getElem?_toArray]
    exact hkind
  rw [List.getElem?_map] at hmap
  obtain ⟨target, htarget, rfl⟩ := Option.map_eq_some_iff.1 hmap
  exact ⟨expect, target, hexpect, by rw [Graph.node?, List.getElem?_toArray, htarget], hsat⟩

end RawGraph

end FormatGraph
