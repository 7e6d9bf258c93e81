import FormatGraph.Files.Path

/-! Files, as far as this library reads and writes them. -/

namespace FormatGraph

inductive FileKind where
  | file | directory
  deriving DecidableEq, Repr

inductive FileError where
  | notFound
  | notADirectory
  | isADirectory
  | notText
  | other (message : String)
  deriving DecidableEq, Repr

def FileError.message : FileError → String
  | .notFound => "No such file or directory (os error 2)"
  | .notADirectory => "Not a directory (os error 20)"
  | .isADirectory => "Is a directory (os error 21)"
  | .notText => "stream did not contain valid UTF-8"
  | .other message => message

class Files (m : Type → Type) where
  kind? (path : String) : m (Option FileKind)
  read (path : String) : m (Except FileError ByteArray)
  write (path text : String) : m (Except FileError Unit)
  below (path : String) : m (List String)

namespace Files

variable {m : Type → Type} [Monad m] [Files m]

def readText (path : String) : m (Except FileError String) := do
  match ← read path with
  | .error e => return .error e
  | .ok bytes =>
    match String.fromUTF8? bytes with
    | some text => return .ok text
    | none => return .error .notText

def byteOrderMark : Char := '\ufeff'

def readPayload (path : String) : m (Except FileError String) := do
  return (← readText path).map fun text => String.ofList (text.toList.dropWhile (· = byteOrderMark))

def isPayload (path : String) : Bool :=
  (Path.extension? path).any fun extension => extension.toLower = "json"

end Files

end FormatGraph
