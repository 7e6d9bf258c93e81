import FormatGraph.Proofs.Link.Assembly

/-! What linking comes to. It fails for the first reason of these that there is: no nodes, a tag that
names no kind, a field that cannot be read, a link of a scope that leads nowhere, and a root that is
no program. The handles of a graph that is assembled from linked parts need no second check. -/

namespace FormatGraph.RawGraph

def scopeLinks (raw : RawGraph) : List ScopeLink :=
  raw.scopes.zipIdx.flatMap fun (scope, index) => scope.links index

def FieldsRead (raw : RawGraph) (strict : Bool) (kinds : List Kind) : Prop :=
  ∀ read ∈ (raw.context strict kinds).fieldReads raw.nodes, ∀ error,
    ¬ (raw.context strict kinds).FieldFault read error

def LinksLead (raw : RawGraph) (strict : Bool) (kinds : List Kind) : Prop :=
  ∀ link ∈ raw.scopeLinks, ∀ error, ¬ (raw.context strict kinds).LinkFault link error

/-- Why the lists do not describe a graph: the first reason that there is. -/
inductive Fault (raw : RawGraph) (strict : Bool) : LinkError → Prop where
  | noNodes : raw.nodes = [] → Fault raw strict .missingRoot
  | tag {error} : First TagFault raw.nodes.zipIdx error → Fault raw strict error
  | field {kinds error} : raw.Tagged kinds →
      First (raw.context strict kinds).FieldFault
        ((raw.context strict kinds).fieldReads raw.nodes) error →
      Fault raw strict error
  | scope {kinds error} : raw.nodes ≠ [] → raw.Tagged kinds → raw.FieldsRead strict kinds →
      First (raw.context strict kinds).LinkFault raw.scopeLinks error → Fault raw strict error
  | root {kinds} : raw.Tagged kinds → raw.FieldsRead strict kinds → raw.LinksLead strict kinds →
      kinds.head? ≠ some .program → Fault raw strict .missingRoot

variable {raw : RawGraph} {strict : Bool} {error : LinkError}

section addressable
variable (hraw : raw.Addressable)
include hraw

theorem Tagged.nodes_failsAt {kinds : List Kind} (htags : raw.Tagged kinds) (strict : Bool) :
    FailsAt ((raw.context strict kinds).nodes raw.nodes) (raw.context strict kinds).FieldFault
      ((raw.context strict kinds).fieldReads raw.nodes) :=
  LinkContext.nodes_failsAt (htags.addressable hraw) raw.nodes

theorem fault_of_link_eq_error (h : raw.link strict = .error error) : raw.Fault strict error := by
  by_cases hnil : raw.nodes = []
  · rw [link_of_nodes_eq_nil hnil] at h
    cases h
    exact .noNodes hnil
  rw [link_of_nodes_ne_nil hnil] at h
  rcases bind_eq_error_iff.1 h with hkinds | ⟨kinds, hkinds, h⟩
  · exact .tag ((kinds_failsAt raw error).1 hkinds)
  have htags := kinds_eq_ok_iff.1 hkinds
  have hfails := htags.nodes_failsAt hraw strict
  rcases bind_eq_error_iff.1 h with hread | ⟨nodes, hread, h⟩
  · exact .field htags ((hfails error).1 hread)
  have hfields := hfails.exists_ok_iff.1 ⟨nodes, hread⟩
  have hlinks := LinkContext.scopes_failsAt (raw.context strict kinds) raw.scopes
  rcases bind_eq_error_iff.1 h with hscope | ⟨scopes, hscope, h⟩
  · exact .scope hnil htags hfields ((hlinks error).1 hscope)
  have hparts : raw.Parts strict kinds nodes scopes := ⟨hkinds, hread, hscope⟩
  by_cases hroot : kinds.head? = some .program
  · rw [hparts.finish_eq_ok hraw hroot] at h
    cases h
  · rw [hparts.finish_eq_missingRoot hraw hroot] at h
    cases h
    exact .root htags hfields (hlinks.exists_ok_iff.1 ⟨scopes, hscope⟩) hroot

theorem Tagged.exists_parts {kinds : List Kind} (htags : raw.Tagged kinds)
    (hfields : raw.FieldsRead strict kinds) (hlinks : raw.LinksLead strict kinds) :
    ∃ nodes scopes, raw.Parts strict kinds nodes scopes := by
  obtain ⟨nodes, hread⟩ := (htags.nodes_failsAt hraw strict).exists_ok_iff.2 hfields
  obtain ⟨scopes, hscope⟩ := (LinkContext.scopes_failsAt _ raw.scopes).exists_ok_iff.2 hlinks
  exact ⟨nodes, scopes, kinds_eq_ok_iff.2 htags, hread, hscope⟩

theorem link_eq_error_of_fault (h : raw.Fault strict error) : raw.link strict = .error error := by
  by_cases hnil : raw.nodes = []
  · -- Without nodes there is nothing that could be wrong but the root.
    rw [link_of_nodes_eq_nil hnil]
    cases h with
    | noNodes => rfl
    | tag hfirst =>
      rw [hnil] at hfirst
      exact absurd hfirst not_first_nil
    | field _ hfirst =>
      rw [hnil, LinkContext.fieldReads, List.zip_nil_right] at hfirst
      exact absurd hfirst not_first_nil
    | scope hne => exact absurd hnil hne
    | root => rfl
  rw [link_of_nodes_ne_nil hnil]
  cases h with
  | noNodes h => exact absurd h hnil
  | tag hfirst => exact bind_eq_error_iff.2 (.inl ((kinds_failsAt raw error).2 hfirst))
  | field htags hfirst =>
    refine bind_eq_error_iff.2 (.inr ⟨_, kinds_eq_ok_iff.2 htags, ?_⟩)
    exact bind_eq_error_iff.2 (.inl ((htags.nodes_failsAt hraw strict error).2 hfirst))
  | scope _ htags hfields hfirst =>
    obtain ⟨nodes, hread⟩ := (htags.nodes_failsAt hraw strict).exists_ok_iff.2 hfields
    refine bind_eq_error_iff.2 (.inr ⟨_, kinds_eq_ok_iff.2 htags, ?_⟩)
    refine bind_eq_error_iff.2 (.inr ⟨nodes, hread, bind_eq_error_iff.2 (.inl ?_)⟩)
    exact (LinkContext.scopes_failsAt _ raw.scopes error).2 hfirst
  | root htags hfields hlinks hroot =>
    obtain ⟨nodes, scopes, hparts⟩ := htags.exists_parts hraw hfields hlinks
    rw [← link_of_nodes_ne_nil hnil, hparts.link_eq_finish hnil]
    exact hparts.finish_eq_missingRoot hraw hroot

theorem exists_link_eq_ok_iff : (∃ graph, raw.link strict = .ok graph) ↔
    ∃ kinds, raw.Tagged kinds ∧ raw.FieldsRead strict kinds ∧ raw.LinksLead strict kinds ∧
      kinds.head? = some .program := by
  constructor
  · rintro ⟨graph, h⟩
    obtain ⟨kinds, nodes, scopes, hparts, rfl, hclosed⟩ := exists_parts_of_link_eq_ok h
    have hfields := hparts.tagged.nodes_failsAt hraw strict
    have hlinks := LinkContext.scopes_failsAt (raw.context strict kinds) raw.scopes
    exact ⟨kinds, hparts.tagged, hfields.exists_ok_iff.1 ⟨nodes, hparts.nodes_eq⟩,
      hlinks.exists_ok_iff.1 ⟨scopes, hparts.scopes_eq⟩, (hparts.closed_iff hraw).1 hclosed⟩
  · rintro ⟨kinds, htags, hfields, hlinks, hroot⟩
    obtain ⟨nodes, scopes, hparts⟩ := htags.exists_parts hraw hfields hlinks
    have hnil : raw.nodes ≠ [] := by
      intro hnil
      rw [Tagged, hnil, List.forall₂_nil_left_iff] at htags
      rw [htags] at hroot
      cases hroot
    exact ⟨_, (hparts.link_eq_finish hnil).trans (hparts.finish_eq_ok hraw hroot)⟩

end addressable

/-- No fault is found in a child, which is what the check at the end would call it. -/
theorem Fault.not_child {kind : Kind} {index : Nat} {target : UInt64} {size : Nat} :
    ¬ raw.Fault strict (.dangling ⟨.node kind, "child", index⟩ target size) := by
  intro h
  cases h with
  | tag hfirst =>
    obtain ⟨_, -, htag⟩ := hfirst.exists_mem
    cases htag
  | field _ hfirst =>
    obtain ⟨read, hread, hfault⟩ := hfirst.exists_mem
    obtain ⟨_, -, hfield⟩ := List.mem_flatMap.1 hread
    obtain ⟨field, hmem, rfl⟩ := List.mem_map.1 hfield
    have hkey : "child" = field.key :=
      congrArg Site.field (Option.some.inj hfault.site?_eq)
    exact Kind.key_ne_child _ field hmem hkey.symm
  | scope _ _ _ hfirst =>
    obtain ⟨link, -, hfault⟩ := hfirst.exists_mem
    obtain ⟨key, _, hsite⟩ := hfault.exists_site?_eq
    cases hsite

/-- Linking fails exactly with the fault that there is, and gives a graph exactly if there is none.
The second look at the handles of an assembled graph finds nothing. -/
theorem link_outcome (raw : RawGraph) (strict : Bool) (hraw : raw.Addressable) :
    (∀ error, raw.link strict = .error error ↔ raw.Fault strict error) ∧
      ((∃ graph, raw.link strict = .ok graph) ↔ ∃ kinds, raw.Tagged kinds ∧
        raw.FieldsRead strict kinds ∧ raw.LinksLead strict kinds ∧
          kinds.head? = some .program) ∧
      ∀ kind index target size,
        raw.link strict ≠ .error (.dangling ⟨.node kind, "child", index⟩ target size) := by
  refine ⟨fun error => ⟨?_, ?_⟩, exists_link_eq_ok_iff hraw, ?_⟩
  · exact fault_of_link_eq_error hraw
  · exact link_eq_error_of_fault hraw
  · intro kind index target size h
    exact Fault.not_child (fault_of_link_eq_error hraw h)

/-- A comment at the root whose text is a number, an identifier with links that lead nowhere, and a
scope after one that is not there. -/
def faulty : RawGraph where
  nodes := [
    ⟨"comment", {}, [("comment", .nat 3), ("multiline", .bool true)]⟩,
    ⟨"ident", {}, [("base", .nat 7), ("scope", .str "x")]⟩]
  scopes := [{ prev := some 4 }]

/-- The first field that is wrong is reported, and not the scope or the root. -/
theorem link_outcome_faulty :
    faulty.link false = .error (.mismatch ⟨.node .comment, "comment", 0⟩) ∧
      faulty.Fault false (.mismatch ⟨.node .comment, "comment", 0⟩) := by
  have h : faulty.link false = .error (.mismatch ⟨.node .comment, "comment", 0⟩) := rfl
  have houtcome := link_outcome faulty false ⟨by decide, by decide⟩
  exact ⟨h, (houtcome.1 _).1 h⟩

end FormatGraph.RawGraph
