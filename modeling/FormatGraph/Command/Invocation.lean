import FormatGraph.Command.Arguments

/-! Command lines of the tool. -/

namespace FormatGraph

inductive LogLevel where
  | error | info | debug
  deriving DecidableEq, Repr

structure CommonOptions where
  verbose : Bool := false
  quiet : Bool := false
  config : String := "fmtast.toml"
  format? : Option ReportFormat := none
  deriving DecidableEq, Repr

inductive Command where
  | check (paths : List String) (strict : Bool)
  | dump (file : String) (maxDepth? : Option Nat)
  | stats (file : String)
  | tokens (file : String)
  | order (file : String)
  | initConfig (path : String) (force : Bool)
  deriving DecidableEq, Repr

structure Invocation where
  options : CommonOptions
  command : Command
  deriving DecidableEq, Repr

def helpOption : OptionSpec := ⟨"help", some 'h', .stop .help⟩

namespace CommonOptions

def specs : List OptionSpec := [
  ⟨"verbose", some 'v', .flag⟩,
  ⟨"quiet", some 'q', .flag⟩,
  ⟨"config", none, .value .path⟩,
  ⟨"format", none, .value .format⟩]

def exclusive : List (String × String) := [("verbose", "quiet")]

/-- The options of the arguments before the command and after it; what is said later counts. -/
def ofArguments (before after : Arguments) : CommonOptions :=
  let value? (name : String) : Option String := (after.value? name).or (before.value? name)
  { verbose := before.has "verbose" || after.has "verbose"
    quiet := before.has "quiet" || after.has "quiet"
    config := (value? "config").getD "fmtast.toml"
    format? := (value? "format").bind ReportFormat.ofName? }

def parse (words : List String) : Except UsageError CommonOptions := do
  let args ← Grammar.read { options := helpOption :: specs } exclusive words
  return ofArguments args {}

def logLevel (options : CommonOptions) : LogLevel :=
  if options.quiet then .error else if options.verbose then .debug else .info

def shouldPrint (options : CommonOptions) : Bool := !options.quiet

end CommonOptions

namespace Command

def grammars : List (String × List OptionSpec × Option Nat) := [
  ("check", [⟨"strict", none, .flag⟩], none),
  ("dump", [⟨"max-depth", none, .value .count⟩], some 1),
  ("stats", [], some 1),
  ("tokens", [], some 1),
  ("order", [], some 1),
  ("init-config", [⟨"force", none, .flag⟩], some 1)]

def ofArguments (name : String) (args : Arguments) : Except UsageError Command :=
  match name, args.positions with
  | "check", [] => .error .missingArgument
  | "check", paths => .ok (.check paths (args.has "strict"))
  | "dump", [file] => .ok (.dump file ((args.value? "max-depth").bind countOfText?))
  | "stats", [file] => .ok (.stats file)
  | "tokens", [file] => .ok (.tokens file)
  | "order", [file] => .ok (.order file)
  | "init-config", paths => .ok (.initConfig (paths.headD "fmtast.toml") (args.has "force"))
  | _, _ => .error .missingArgument

end Command

namespace Invocation

def topGrammar : Grammar where
  options := helpOption :: ⟨"version", some 'V', .stop .version⟩ :: CommonOptions.specs
  commands := "help" :: Command.grammars.map (·.1)

def parse (words : List String) : Except UsageError Invocation := do
  let before ← topGrammar.read CommonOptions.exclusive words
  match before.command? with
  | none => throw .missingCommand
  | some (name, rest) =>
    match Command.grammars.lookup name with
    | none => throw .help
    | some (specs, positions?) => do
      let grammar : Grammar := { options := helpOption :: CommonOptions.specs ++ specs, positions? }
      let after ← grammar.read CommonOptions.exclusive rest
      return {
        options := CommonOptions.ofArguments before after
        command := ← Command.ofArguments name after }

end Invocation

end FormatGraph
