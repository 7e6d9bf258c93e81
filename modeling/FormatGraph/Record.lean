import FormatGraph.Handle
import FormatGraph.Location
import FormatGraph.Schema

/-! Values of the fields of a node: one for each field of the schema, in its order. -/

namespace FormatGraph

namespace FieldType

def Carrier : FieldType → Type
  | .ref _ _ => Option NodeId
  | .refs _ _ => List NodeId
  | .scope => Option ScopeId
  | .flag => Bool
  | .count => UInt64
  | .optCount => Option UInt64
  | .text => String
  | .loc => Loc
  | .word v => v.Word
  | .traits => BlockTraits

def blank : (type : FieldType) → type.Carrier
  | .ref _ _ => (none : Option NodeId)
  | .refs _ _ => ([] : List NodeId)
  | .scope => (none : Option ScopeId)
  | .flag => false
  | .count => (0 : UInt64)
  | .optCount => (none : Option UInt64)
  | .text => ""
  | .loc => ({} : Loc)
  | .word v => v.first
  | .traits => BlockTraits.none

def children : (type : FieldType) → type.Carrier → List NodeId
  | .ref .child _, (id : Option NodeId) => id.toList
  | .refs .child _, ids => ids
  | _, _ => []

def visitChildren {m : Type → Type} [Monad m] (visit : NodeId → m Bool) :
    (type : FieldType) → type.Carrier → m Bool
  | .ref .child _, (id : Option NodeId) => id.elim (pure true) visit
  | .refs .child _, (ids : List NodeId) => ids.allM visit
  | _, _ => pure true

end FieldType

inductive Record : List Field → Type where
  | nil : Record []
  | cons {field : Field} {fields : List Field} (value : field.type.Carrier) (rest : Record fields) :
      Record (field :: fields)

namespace Record

def blank : (fields : List Field) → Record fields
  | [] => .nil
  | field :: fields => .cons field.type.blank (blank fields)

def children : {fields : List Field} → Record fields → List NodeId
  | _, .nil => []
  | field :: _, .cons value rest => field.type.children value ++ rest.children

/-- Visit the children of one field after the other, up to a field that is not gone through. -/
def visitChildren {m : Type → Type} [Monad m] (visit : NodeId → m Bool) :
    {fields : List Field} → Record fields → m Bool
  | _, .nil => pure true
  | field :: _, .cons value rest => do
    if ← field.type.visitChildren visit value then rest.visitChildren visit else return false

def get? (key : String) :
    {fields : List Field} → Record fields → Option ((type : FieldType) × type.Carrier)
  | _, .nil => none
  | field :: _, .cons value rest =>
    if field.key = key then some ⟨field.type, value⟩ else rest.get? key

def readM {ε : Type} (read : (field : Field) → Except ε field.type.Carrier) :
    (fields : List Field) → Except ε (Record fields)
  | [] => .ok .nil
  | field :: fields => do
    let value ← read field
    return .cons value (← readM read fields)

def toList : {fields : List Field} → Record fields → List ((field : Field) × field.type.Carrier)
  | _, .nil => []
  | field :: _, .cons value rest => ⟨field, value⟩ :: rest.toList

def modify? {ε : Type} (key : String) (read : (type : FieldType) → Except ε type.Carrier) :
    {fields : List Field} → Record fields → Except ε (Option (Record fields))
  | _, .nil => .ok none
  | field :: _, .cons value rest =>
    if field.key = key then do return some (.cons (← read field.type) rest)
    else do return (← rest.modify? key read).map (.cons value)

end Record

end FormatGraph
