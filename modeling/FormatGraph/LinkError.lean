import FormatGraph.Kind

/-! What can be wrong with the parts of a graph. -/

namespace FormatGraph

inductive Owner where
  | node (kind : Kind)
  | scope
  deriving DecidableEq, Repr

def Owner.name : Owner → String
  | .node kind => kind.name
  | .scope => "Scope"

structure Site where
  owner : Owner
  field : String
  index : Nat
  deriving DecidableEq, Repr

def Site.path (site : Site) : String := site.owner.name ++ "::" ++ site.field

inductive LinkError where
  | unknownTag (tag : String) (index : Nat)
  /-- The value is not what the field holds, or it names a node that may not stand there. -/
  | mismatch (site : Site)
  /-- The handle is outside of the `size` nodes or scopes that there are. -/
  | dangling (site : Site) (target : UInt64) (size : Nat)
  | missingField (site : Site)
  | missingRoot
  deriving DecidableEq, Repr

namespace LinkError

def message : LinkError → String
  | .unknownTag tag _ => "unknown node type: " ++ tag
  | .mismatch site => "type mismatch at " ++ site.path
  | .dangling site target size =>
    "dangling reference at " ++ site.path ++ ": index " ++ toString target.toNat ++ " out of " ++
      toString size
  | .missingField site => "missing field " ++ site.path
  | .missingRoot => "ast must be Program"

def site? : LinkError → Option Site
  | .mismatch site | .dangling site _ _ | .missingField site => some site
  | .unknownTag _ _ | .missingRoot => none

def index? : LinkError → Option Nat
  | .unknownTag _ index => some index
  | error => error.site?.map (·.index)

end LinkError

end FormatGraph
