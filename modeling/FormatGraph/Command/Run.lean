import FormatGraph.Command.Check
import FormatGraph.Command.Dump
import FormatGraph.Command.Invocation
import FormatGraph.Graph.Formats
import FormatGraph.Graph.Histogram
import FormatGraph.Payload.TokenPayload
import FormatGraph.Settings.Load

/-! The commands of the tool. -/

namespace FormatGraph

def toolVersion : String := "0.3.0"

structure Setup where
  settings : Settings
  style : Report
  shouldPrint : Bool

namespace Command

/-! ### What is written -/

def statsReport (style : Report) (elapsed : String) (graph : Graph) : Except QueryError String := do
  let histogram ← graph.histogram
  let statistics : Statistics :=
    { total := histogram.foldl (fun total row => total + row.2) 0
      categories := histogram.map fun (kind, count) => (kind.name, count)
      duration? := some elapsed }
  let sizes :=
    if style.format = .text then
      Report.lines [
        "Nodes in arena: " ++ toString graph.nodes.size,
        "Scopes: " ++ toString graph.scopes.size]
    else ""
  return style.statistics statistics ++ sizes

def orderReport (style : Report) (graph : Graph) : Except QueryError String := do
  let names := (← graph.formatsInOrder).map fun id =>
    (graph.nameOf? id).getD ("<anonymous " ++ id.text ++ ">")
  return match style.format with
    | .json => style.object (.arr (names.map .str))
    | .text | .table => Report.lines names

def tokensReport (style : Report) (tokens : List Token) : String :=
  match style.format with
  | .json => style.object (.arr (tokens.map Shaped.toJson))
  | .text | .table =>
    style.table ⟨["loc", "tag", "token"], tokens.map fun t =>
      [t.loc.text, Spelled.spell t.tag, Text.quote t.text]⟩

def tokensOutcome (style : Report) (payload : TokenPayload) : Except Failure Outcome := do
  let warning ← match payload.complaints? with
    | none => pure ""
    | some complaints =>
      if payload.success then pure (Outcome.warning style.color complaints.message)
      else throw ⟨"front end reported errors\n" ++ complaints.message, []⟩
  return { stdout := warning ++ tokensReport style (payload.tokens?.getD []) }

/-! ### What is read -/

variable {m : Type → Type} [Monad m] [Files m] [Parallel m]

def withGraph (setup : Setup) (file : String) (report : Graph → m (Except QueryError String)) :
    m (Except Failure Outcome) := do
  match ← Graph.walkableOfFile setup.settings.strictFields file with
  | .error failure => return .error failure
  | .ok graph =>
    match ← report graph with
    | .ok stdout => return .ok { stdout }
    | .error error => return .error (.ofQuery error)

def tokensOf (style : Report) (file : String) : m (Except Failure Outcome) := do
  match ← Files.readPayload file with
  | .error error => return .error ⟨"Failed to read " ++ file, [error.message]⟩
  | .ok text =>
    match Shaped.decodeText file text with
    | .ok payload => return tokensOutcome style payload
    | .error error => return .error ⟨error.report, []⟩

def writeConfig (setup : Setup) (path : String) (force : Bool) : m (Except Failure Outcome) := do
  if (← Files.kind? path).isSome && !force then
    return .error ⟨path ++ " already exists (use --force to overwrite)", []⟩
  match ← Settings.save {} path with
  | .error failure => return .error ⟨failure.message, failure.causes⟩
  | .ok () =>
    let notice := Outcome.success setup.style.color ("Config written to " ++ path)
    return .ok { stdout := if setup.shouldPrint then notice else "" }

def run (setup : Setup) (elapsed : m String) : Command → m (Except Failure Outcome)
  | .check paths strict =>
    Check.run setup.style setup.shouldPrint elapsed setup.settings.parallel
      (setup.settings.strictFields || strict) paths
  | .dump file maxDepth? =>
    withGraph setup file fun graph =>
      return (Dump.entriesOf graph maxDepth?).map (Dump.report setup.style)
  | .stats file =>
    withGraph setup file fun graph => return statsReport setup.style (← elapsed) graph
  | .tokens file => tokensOf setup.style file
  | .order file => withGraph setup file fun graph => return orderReport setup.style graph
  | .initConfig path force => writeConfig setup path force

end Command

namespace UsageError

def message : UsageError → String
  | .conflict => "the arguments cannot be used together"
  | .invalidValue => "a value is required but none was supplied"
  | .badValue => "invalid value"
  | .unneededValue => "unexpected value"
  | .unknownArgument => "unexpected argument"
  | .missingArgument => "a required argument was not provided"
  | .missingCommand => "a command is required"
  | .help | .version => ""

def usage : String :=
  "Usage: fmtast [--verbose | --quiet] [--config FILE] [--format text|json|table] COMMAND\n\n" ++
  "Commands:\n" ++
  "  check PATHS... [--strict]     decode every payload and report failures\n" ++
  "  dump FILE [--max-depth N]     print the node tree of a payload\n" ++
  "  stats FILE                    count the nodes of each kind\n" ++
  "  tokens FILE                   print a token payload\n" ++
  "  order FILE                    list formats in dependency order\n" ++
  "  init-config [PATH] [--force]  write a file with default settings\n"

def outcome : UsageError → Outcome
  | .help => { stdout := usage }
  | .version => { stdout := "fmtast " ++ toolVersion ++ "\n" }
  | error => { code := 2, stderr := "error: " ++ error.message ++ "\n\n" ++ usage }

end UsageError

def Invocation.run {m : Type → Type} [Monad m] [Files m] [Parallel m] (color : Bool)
    (elapsed : m String) (invocation : Invocation) : m Outcome := do
  let options := invocation.options
  match ← Settings.loadOrDefault options.config with
  | .error failure => return .failed ⟨failure.message, failure.causes⟩
  | .ok settings =>
    let style : Report := ⟨options.format?.getD settings.format, settings.pretty, color⟩
    match ← invocation.command.run ⟨settings, style, options.shouldPrint⟩ elapsed with
    | .ok outcome => return outcome
    | .error failure => return .failed failure

def runTool {m : Type → Type} [Monad m] [Files m] [Parallel m] (color : Bool)
    (elapsed : m String) (words : List String) : m Outcome :=
  match Invocation.parse words with
  | .ok invocation => invocation.run color elapsed
  | .error error => return error.outcome

end FormatGraph
