import FormatGraph.Graph
import FormatGraph.Proofs.Record
import FormatGraph.Proofs.Schema

/-! Children one by one. A visit of the children of a node goes through its fields in their order, and
through the nodes of each; all the same it is called on a beginning of the list of children, up to the
first where it says to stop. The list begins with what all nodes of a category have first. -/

namespace FormatGraph

section calls
variable {α σ : Type}

def noting (visit : α → StateM σ Bool) (item : α) : StateM (σ × List α) Bool := fun noted =>
  let asked := visit item noted.1
  (asked.1, asked.2, noted.2 ++ [item])

/-- The calls of a visit on some items: those made and the answers to them, from one state to
another. They are on a beginning of the items, which is all of them or ends with the only call that
is answered `false`. -/
structure Calls (visit : α → StateM σ Bool) (items : List α) (state : σ) (called : List α)
    (answers : List Bool) (last : σ) : Prop where
  made : (called.mapM visit).run state = (answers, last)
  isPrefix : called <+: items
  whole : false ∉ answers → called = items
  shortest : false ∈ answers → ∃ before, answers = List.replicate before true ++ [false]

namespace Calls

variable {visit : α → StateM σ Bool} {items called : List α} {item : α} {answers : List Bool}
  {state next last : σ}

theorem nil (visit : α → StateM σ Bool) (state : σ) : Calls visit [] state [] [] state :=
  ⟨rfl, List.prefix_refl _, fun _ => rfl, nofun⟩

theorem stop (h : visit item state = (false, last)) (items : List α) :
    Calls visit (item :: items) state [item] [false] last := by
  refine ⟨?_, ?_, ?_, ?_⟩
  · rw [List.mapM_cons, List.mapM_nil]
    change ([(visit item state).1], (visit item state).2) = _
    rw [h]
  · exact List.cons_prefix_cons.2 ⟨rfl, List.nil_prefix⟩
  · exact fun hanswers => absurd List.mem_cons_self hanswers
  · exact fun _ => ⟨0, rfl⟩

theorem cons (h : visit item state = (true, next))
    (hcalls : Calls visit items next called answers last) :
    Calls visit (item :: items) state (item :: called) (true :: answers) last := by
  refine ⟨?_, ?_, ?_, ?_⟩
  · rw [List.mapM_cons]
    change ((visit item state).1 :: ((called.mapM visit).run (visit item state).2).1,
      ((called.mapM visit).run (visit item state).2).2) = _
    rw [h, hcalls.made]
  · exact List.cons_prefix_cons.2 ⟨rfl, hcalls.isPrefix⟩
  · intro hanswers
    rw [hcalls.whole fun hfalse => hanswers (List.mem_cons_of_mem _ hfalse)]
  · intro hanswers
    have hfalse : false ∈ answers := by simpa using hanswers
    obtain ⟨before, rfl⟩ := hcalls.shortest hfalse
    exact ⟨before + 1, rfl⟩

end Calls

theorem run_allM_of_stop {visit : α → StateM σ Bool} {item : α} {state last : σ}
    (h : visit item state = (false, last)) (items : List α) :
    ((item :: items).allM visit).run state = (false, last) := by
  simp only [List.allM, StateT.run, bind, StateT.bind, h]
  rfl

theorem run_allM_of_goesOn {visit : α → StateM σ Bool} {item : α} {state next : σ}
    (h : visit item state = (true, next)) (items : List α) :
    ((item :: items).allM visit).run state = (items.allM visit).run next := by
  simp only [List.allM, StateT.run, bind, StateT.bind, h]

theorem exists_calls_allM (visit : α → StateM σ Bool) (items : List α) (state : σ) :
    ∃ called answers last, Calls visit items state called answers last ∧
      (items.allM visit).run state = (decide (false ∉ answers), last) ∧
      ∀ noted, (items.allM (noting visit)).run (state, noted) =
        (decide (false ∉ answers), last, noted ++ called) := by
  induction items generalizing state with
  | nil =>
    refine ⟨[], [], state, .nil visit state, rfl, fun noted => ?_⟩
    rw [List.append_nil]
    rfl
  | cons item items ih =>
    rcases hvisit : visit item state with ⟨answer, next⟩
    have hnoting (noted : List α) : noting visit item (state, noted) =
        (answer, next, noted ++ [item]) := by
      simp only [noting, hvisit]
    cases answer with
    | false =>
      refine ⟨[item], [false], next, .stop hvisit items, run_allM_of_stop hvisit items, ?_⟩
      exact fun noted => run_allM_of_stop (hnoting noted) items
    | true =>
      obtain ⟨called, answers, last, hcalls, hrun, hnoted⟩ := ih next
      have hanswers : decide (false ∉ true :: answers) = decide (false ∉ answers) := by simp
      refine ⟨item :: called, true :: answers, last, hcalls.cons hvisit, ?_, fun noted => ?_⟩
      · rw [run_allM_of_goesOn hvisit, hrun, hanswers]
      · rw [run_allM_of_goesOn (hnoting noted), hnoted, hanswers, List.append_assoc,
          List.singleton_append]

end calls

theorem Record.head?_children {links fields schema : List Field} {key : String} {expect : Expect}
    (hlinks : ∀ link ∈ links, link.key ≠ key ∧ ∀ value, link.type.children value = [])
    (hschema : links ++ Schema.child key expect :: fields = schema) (record : Record schema)
    {type : FieldType} {value : type.Carrier} (hget : record.get? key = some ⟨type, value⟩)
    {id : NodeId} (hid : id ∈ type.handles value) : record.children.head? = some id := by
  subst hschema
  induction links with
  | nil =>
    cases record with
    | cons held rest =>
      have hkey : (Schema.child key expect).key = key := rfl
      rw [get?, if_pos hkey] at hget
      cases hget
      cases Option.mem_toList.1 hid
      rfl
  | cons link links ih =>
    obtain ⟨hkey, hnone⟩ := hlinks link List.mem_cons_self
    cases record with
    | cons held rest =>
      rw [get?, if_neg hkey] at hget
      rw [children, hnone, List.nil_append]
      exact ih (fun link hlink => hlinks link (List.mem_cons_of_mem _ hlink)) rest hget

namespace Node

variable {node : Node} {id : NodeId}

theorem head?_children_of_isExpr (hkind : node.kind.isIn .expr = true)
    (htype : node.ref? "expr_type" = some id) : node.children.head? = some id := by
  obtain ⟨fields, hfields⟩ := (Schema.expression_isPrefix_iff node.kind).2 hkind
  obtain ⟨type, value, hget, hid⟩ := exists_get?_of_ref? htype
  exact Record.head?_children (List.forall_mem_nil _) hfields node.fields hget hid

/-- A member has its name for its first child, after two links that are no children. -/
theorem head?_children_of_isMember (hkind : node.kind.isIn .member = true)
    (hident : node.ref? "ident" = some id) : node.children.head? = some id := by
  obtain ⟨fields, hfields⟩ := (Schema.declaration_isPrefix_iff node.kind).2 hkind
  obtain ⟨type, value, hget, hid⟩ := exists_get?_of_ref? hident
  have hlinks : ∀ link ∈ [Schema.link "belong" Schema.aMember,
      Schema.link "belong_struct" (.kind .structType)],
      link.key ≠ "ident" ∧ ∀ value, link.type.children value = [] := by
    intro link hlink
    simp only [List.mem_cons, List.not_mem_nil, or_false] at hlink
    rcases hlink with rfl | rfl
    · exact ⟨by decide, fun _ => rfl⟩
    · exact ⟨by decide, fun _ => rfl⟩
  exact Record.head?_children hlinks hfields node.fields hget hid

def collect (child : NodeId) : StateM (Array NodeId) Bool := do
  modify (·.push child)
  return true

theorem run_allM_collect (children : List NodeId) (collected : Array NodeId) :
    (children.allM collect).run collected = (true, collected ++ children) := by
  induction children generalizing collected with
  | nil => rw [Array.appendList_nil]; rfl
  | cons child children ih =>
    have hcollect : collect child collected = (true, collected.push child) := rfl
    rw [run_allM_of_goesOn hcollect, ih, Array.appendList_cons]

structure VisitsChildren {σ : Type} (node : Node) (visit : NodeId → StateM σ Bool) (state : σ) :
    Prop where
  calls : ∃ called answers last, Calls visit node.children state called answers last ∧
    (node.visitChildren visit).run state = (decide (false ∉ answers), last) ∧
    (node.visitChildren (noting visit)).run (state, []) = (decide (false ∉ answers), last, called)
  collected : (node.visitChildren collect).run #[] = (true, node.children.toArray)
  children : ∀ (graph : Graph) id, graph.node? id = some node → graph.children id = .ok node.children
  expression : Schema.expression [] <+: node.kind.schema ↔ node.kind.isIn .expr = true
  declaration : Schema.declaration [] <+: node.kind.schema ↔ node.kind.isIn .member = true
  exprType : Schema.expression [] <+: node.kind.schema →
    ∀ type, node.ref? "expr_type" = some type → node.children.head? = some type
  ident : Schema.declaration [] <+: node.kind.schema →
    ∀ ident, node.ref? "ident" = some ident → node.children.head? = some ident

/-- Every visit is called on the children in their order, up to the first call that is answered
`false`, and what comes first in the list of children is fixed for expressions and for members. -/
theorem visitChildren_calls {σ : Type} (node : Node) (visit : NodeId → StateM σ Bool) (state : σ) :
    node.VisitsChildren visit state where
  calls := by
    obtain ⟨called, answers, last, hcalls, hrun, hnoted⟩ :=
      exists_calls_allM visit node.children state
    refine ⟨called, answers, last, hcalls, ?_, ?_⟩
    · rw [visitChildren_eq_allM, hrun]
    · rw [visitChildren_eq_allM, hnoted, List.nil_append]
  collected := by
    rw [visitChildren_eq_allM, run_allM_collect]
    simp
  children := by
    intro graph id hnode
    rw [Graph.children, Graph.node, hnode]
    rfl
  expression := Schema.expression_isPrefix_iff node.kind
  declaration := Schema.declaration_isPrefix_iff node.kind
  exprType := fun hschema _ =>
    head?_children_of_isExpr ((Schema.expression_isPrefix_iff node.kind).1 hschema)
  ident := fun hschema _ =>
    head?_children_of_isMember ((Schema.declaration_isPrefix_iff node.kind).1 hschema)

end Node

end FormatGraph
