import FormatGraph.Command.Run

/-! The command line tool on real files. -/

namespace FormatGraph

def FileError.ofSystem (error : IO.Error) : FileError :=
  match error with
  | .noFileOrDirectory _ _ _ => .notFound
  | .inappropriateType _ 20 _ => .notADirectory
  | .inappropriateType _ 21 _ => .isADirectory
  | error => .other (toString error)

def realKind? (path : String) : IO (Option FileKind) := do
  try
    let real ← IO.FS.realPath path
    return some (if ← real.isDir then .directory else .file)
  catch _ => return none

partial def realFilesBelow (path : String) : IO (List String) := do
  let entries ← try (← IO.FS.realPath path).readDir catch _ => pure #[]
  let below ← entries.toList.mapM fun entry => do
    let inner := Path.join path entry.fileName
    match ← realKind? inner with
    | some .directory => realFilesBelow inner
    | some .file => return [inner]
    | none => return []
  return below.flatten

def attempt {α : Type} (operation : IO α) : IO (Except FileError α) := do
  try return .ok (← operation)
  catch error => return .error (.ofSystem error)

instance : Files IO where
  kind? := realKind?
  read path := attempt (IO.FS.readBinFile path)
  write path text := attempt (IO.FS.writeFile path text)
  below := realFilesBelow

instance : Parallel IO where
  map act items := do
    let tasks ← items.mapM fun item => IO.asTask (act item)
    tasks.mapM fun task => do IO.ofExcept (← IO.wait task)

end FormatGraph

open FormatGraph in
def main (words : List String) : IO UInt32 := do
  let start ← IO.monoMsNow
  let stdout ← IO.getStdout
  let stderr ← IO.getStderr
  let color := (← stdout.isTty) && (← IO.getEnv "NO_COLOR").isNone
  let elapsed : IO String := do return durationText ((← IO.monoMsNow) - start)
  let outcome ← runTool color elapsed words
  stdout.putStr outcome.stdout
  stdout.flush
  stderr.putStr outcome.stderr
  return outcome.code
