import FormatGraph.Report.Format

/-! Arguments of a command line. Options are long, or letters that may stand together after one
dash; an option takes no value, or one that follows it or stands after `=`. Options and positions
may be mixed up to `--`. -/

namespace FormatGraph

inductive UsageError where
  | conflict
  | invalidValue
  | badValue
  | unneededValue
  | unknownArgument
  | missingArgument
  | missingCommand
  | help
  | version
  deriving DecidableEq, Repr

inductive ValueType where
  | path | format | count
  deriving DecidableEq, Repr

/-- A number below 2^64 in decimal digits, perhaps after a plus sign. -/
def countOfText? (text : String) : Option Nat :=
  let digits := match text.toList with
    | '+' :: digits => digits
    | digits => digits
  if digits.isEmpty || digits.any (!·.isDigit) then none
  else
    let n := digits.foldl (fun n c => 10 * n + (c.toNat - '0'.toNat)) 0
    if n < UInt64.size then some n else none

def ValueType.check (type : ValueType) (value : String) : Except UsageError Unit :=
  match type with
  | .path => if value.isEmpty then .error .invalidValue else .ok ()
  | .format => if (ReportFormat.ofName? value).isSome then .ok () else .error .badValue
  | .count => if (countOfText? value).isSome then .ok () else .error .badValue

inductive OptionAction where
  | flag
  | value (type : ValueType)
  | stop (error : UsageError)
  deriving DecidableEq, Repr

structure OptionSpec where
  name : String
  letter? : Option Char := none
  action : OptionAction
  deriving DecidableEq, Repr

structure Grammar where
  options : List OptionSpec
  positions? : Option Nat := some 0
  /-- Words that end the arguments of this command and begin those of another. -/
  commands : List String := []
  deriving DecidableEq, Repr

structure Arguments where
  options : List (String × String) := []
  positions : List String := []
  /-- An option that waits for its value, or has one that was not looked at. -/
  pending : Option (OptionSpec × ValueType × Option String) := none
  afterDashes : Bool := false
  command? : Option (String × List String) := none
  deriving DecidableEq, Repr

namespace Arguments

def has (args : Arguments) (name : String) : Bool := (args.options.lookup name).isSome

def value? (args : Arguments) (name : String) : Option String := args.options.lookup name

def take (args : Arguments) (spec : OptionSpec) (value : String) : Except UsageError Arguments :=
  if args.has spec.name then .error .conflict
  else .ok { args with options := args.options ++ [(spec.name, value)] }

def takeValue (args : Arguments) (spec : OptionSpec) (type : ValueType) (value : String) :
    Except UsageError Arguments := do
  let args ← args.take spec value
  type.check value
  return args

def settle (args : Arguments) : Except UsageError Arguments :=
  match args.pending with
  | none => .ok args
  | some (_, _, none) => .error .invalidValue
  | some (spec, type, some value) => { args with pending := none }.takeValue spec type value

def option (args : Arguments) (spec : OptionSpec) (value? : Option String) :
    Except UsageError Arguments := do
  match spec.action, value? with
  | .flag, some _ | .stop _, some _ => throw .unneededValue
  | .flag, none => (← args.settle).take spec ""
  | .stop error, none => do
    let _ ← args.settle
    throw error
  | .value type, some value => (← args.settle).takeValue spec type value
  | .value type, none => return { ← args.settle with pending := some (spec, type, none) }

def letters (grammar : Grammar) (args : Arguments) (cs : List Char) : Except UsageError Arguments :=
  cs.foldlM (fun args c =>
    match grammar.options.find? (·.letter? = some c) with
    | some spec => args.option spec none
    | none => .error .unknownArgument) args

def position (grammar : Grammar) (args : Arguments) (word : String) :
    Except UsageError Arguments := do
  if grammar.positions?.any (· ≤ args.positions.length) then throw .unknownArgument
  let args ← args.settle
  ValueType.path.check word
  return { args with positions := args.positions ++ [word] }

def word (grammar : Grammar) (args : Arguments) (word : String) : Except UsageError Arguments :=
  if args.afterDashes then args.position grammar word
  else
    match word.toList with
    | ['-', '-'] => .ok { args with afterDashes := true }
    | '-' :: '-' :: long =>
      let name := String.ofList (long.takeWhile (· ≠ '='))
      let value? := match long.dropWhile (· ≠ '=') with
        | [] => none
        | _ :: value => some (String.ofList value)
      match grammar.options.find? (·.name = name) with
      | some spec => args.option spec value?
      | none => .error .unknownArgument
    | '-' :: c :: cs => args.letters grammar (c :: cs)
    | _ =>
      match args.pending with
      | some (spec, type, none) => .ok { args with pending := some (spec, type, some word) }
      | _ => args.position grammar word

def isWaiting (args : Arguments) : Bool :=
  match args.pending with
  | some (_, _, none) => true
  | _ => false

def words (grammar : Grammar) : Arguments → List String → Except UsageError Arguments
  | args, [] => args.settle
  | args, word :: rest =>
    if grammar.commands.contains word && !args.afterDashes && !args.isWaiting then do
      return { ← args.settle with command? := some (word, rest) }
    else do
      words grammar (← args.word grammar word) rest

end Arguments

/-- Read the words of a command line; two flags exclude each other if they are listed as a pair. -/
def Grammar.read (grammar : Grammar) (exclusive : List (String × String)) (words : List String) :
    Except UsageError Arguments := do
  let args ← Arguments.words grammar {} words
  if exclusive.any fun (a, b) => args.has a && args.has b then throw .conflict
  return args

end FormatGraph
