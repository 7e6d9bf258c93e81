/-! Paths. A path is kept as it was given; its components decide what it names and how paths are
ordered. -/

namespace FormatGraph

inductive Component where
  | root
  | here
  | up
  | name (text : String)
  deriving DecidableEq, Repr

namespace Component

def rank : Component → Nat
  | .root => 0
  | .here => 1
  | .up => 2
  | .name _ => 3

def text : Component → String
  | .root => "/"
  | .here => "."
  | .up => ".."
  | .name text => text

def lt (a b : Component) : Bool :=
  a.rank < b.rank ∨ a.rank = b.rank ∧ a.text < b.text

end Component

namespace Path

def pieces (path : String) : List String :=
  (path.toList.splitOn '/').map String.ofList

/-- The component of a piece; `.` counts only at the start of a path. -/
def component? (piece : String) : Option Component :=
  match piece with
  | "" | "." => none
  | ".." => some .up
  | text => some (.name text)

def components (path : String) : List Component :=
  let start : List Component :=
    match pieces path with
    | "" :: _ :: _ => [.root]
    | "." :: _ => [.here]
    | _ => []
  start ++ (pieces path).filterMap component?

def le : List Component → List Component → Bool
  | [], _ => true
  | _ :: _, [] => false
  | a :: as, b :: bs => a.lt b || a = b && le as bs

/-- Sort paths; those with equal components stay in the order in which they were given. -/
def sort (paths : List String) : List String :=
  paths.mergeSort fun p q => le (components p) (components q)

def fileName? (path : String) : Option String :=
  match (components path).getLast? with
  | some (.name text) => some text
  | _ => none

/-- What follows the last point of the name, unless the point is its first character. -/
def extension? (path : String) : Option String := do
  let chars := (← fileName? path).toList.reverse
  match chars.dropWhile (· ≠ '.') with
  | [] | [_] => none
  | _ :: _ :: _ => some (String.ofList (chars.takeWhile (· ≠ '.')).reverse)

def join (directory name : String) : String :=
  if directory.endsWith "/" then directory ++ name else directory ++ "/" ++ name

end Path

end FormatGraph
