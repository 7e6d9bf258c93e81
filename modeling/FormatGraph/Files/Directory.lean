import FormatGraph.Files.Basic

/-! Files held in memory. -/

namespace FormatGraph

structure Directory where
  files : List (List String × ByteArray) := []

namespace Directory

def kindOf? (dir : Directory) (names : List String) : Option FileKind :=
  if (dir.files.lookup names).isSome then some .file
  else if names.isEmpty || dir.files.any fun (file, _) => names.isPrefixOf file then some .directory
  else none

def enter (dir : Directory) (names : List String) : Except FileError (List String) :=
  match dir.kindOf? names with
  | some .directory => .ok names
  | some .file => .error .notADirectory
  | none => .error .notFound

def step (dir : Directory) (names : List String) (component : Component) :
    Except FileError (List String) := do
  let names ← dir.enter names
  match component with
  | .here => return names
  | .name name => return names ++ [name]
  | .up => if names.isEmpty then throw .notFound else return names.dropLast
  | .root => throw .notFound

def namesDirectory (path : String) : Bool :=
  (Path.pieces path).getLast?.any fun piece => piece = "" || piece = "."

def resolve (dir : Directory) (path : String) : Except FileError (List String) :=
  if path.isEmpty then .error .notFound else (Path.components path).foldlM dir.step []

def kind? (dir : Directory) (path : String) : Option FileKind :=
  match dir.resolve path with
  | .error _ => none
  | .ok names =>
    match dir.kindOf? names with
    | some .file => if namesDirectory path then none else some .file
    | kind => kind

def read (dir : Directory) (path : String) : Except FileError ByteArray := do
  let names ← dir.resolve path
  match dir.files.lookup names with
  | some bytes => if namesDirectory path then throw .notADirectory else return bytes
  | none => throw (if (dir.kindOf? names).isSome then .isADirectory else .notFound)

def put (dir : Directory) (names : List String) (bytes : ByteArray) : Directory :=
  ⟨dir.files.filter (·.1 ≠ names) ++ [(names, bytes)]⟩

def write (dir : Directory) (path text : String) : Except FileError Directory := do
  let names ← dir.resolve path
  match dir.kindOf? names with
  | some .directory => throw .isADirectory
  | some .file => if namesDirectory path then throw .notADirectory
  | none => if namesDirectory path then throw .isADirectory
  return dir.put names text.toUTF8

def below (dir : Directory) (path : String) : List String :=
  match dir.resolve path with
  | .error _ => []
  | .ok names =>
    dir.files.filterMap fun (file, _) =>
      if names.isPrefixOf file then some ((file.drop names.length).foldl Path.join path) else none

instance : Files (StateM Directory) where
  kind? path := return (← get).kind? path
  read path := return (← get).read path
  write path text := do
    match (← get).write path text with
    | .ok dir => do set dir; return .ok ()
    | .error e => return .error e
  below path := return (← get).below path

end Directory

end FormatGraph
