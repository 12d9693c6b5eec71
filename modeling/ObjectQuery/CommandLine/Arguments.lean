import ObjectQuery.Lowering.Join
/-!
# Arguments of the command line

The command line names one command with its operands. Options may stand before and after operands; a
value is the next argument or follows an equals sign, and for a one-letter option it may follow
directly. Everything after two dashes is an operand.
-/
namespace ObjectQuery.CommandLine

/-- How compiled statements are printed. -/
inductive OutputFormat where
  | sql
  | json
  deriving DecidableEq, Repr

/-- What is to be done. -/
inductive Command where
  | compile (query : String) (model : Option String) (format : OutputFormat)
      (policy : Option JoinPolicy)
  | split (query : String) (model : Option String)
  | checkModel (file : String)
  deriving DecidableEq, Repr

/-- An option that takes a value. -/
structure Flag where
  long : String
  short : Option Char
  deriving DecidableEq, Repr

/-- The settings file. -/
def configFlag : Flag := ⟨"config", some 'c'⟩

/-- The model file. -/
def modelFlag : Flag := ⟨"model", some 'm'⟩

/-- The output format. -/
def formatFlag : Flag := ⟨"format", some 'f'⟩

/-- The way to join further tables. -/
def policyFlag : Flag := ⟨"secondary-join", none⟩

/-- What one argument is: an operand, an option with or without its value, or the sign that only
operands follow. -/
inductive Argument where
  | operand (text : String)
  | option (flag : Flag) (value : Option String)
  | operandsFollow
  | help
  | version
  | unknown
  deriving DecidableEq, Repr

/-- The text before the first equals sign and the text after it. -/
def cutAtEquals (cs : List Char) : List Char × Option String :=
  match cs.dropWhile (· != '=') with
  | '=' :: value => (cs.takeWhile (· != '='), some (String.ofList value))
  | _ => (cs, none)

/-- What one argument is, given the options of the command. -/
def classify (flags : List Flag) (argument : String) : Argument :=
  match argument.toList with
  | ['-', '-'] => .operandsFollow
  | '-' :: '-' :: rest =>
    let (name, value) := cutAtEquals rest
    match flags.find? (·.long.toList == name) with
    | some flag => .option flag value
    | none =>
      if value.isSome then .unknown
      else if name == "help".toList then .help
      else if name == "version".toList then .version
      else .unknown
  | '-' :: letter :: rest =>
    match flags.find? (·.short == some letter) with
    | some flag => match rest with
      | [] => .option flag none
      | '=' :: value => .option flag (some (String.ofList value))
      | value => .option flag (some (String.ofList value))
    | none =>
      if letter == 'h' then .help else if letter == 'V' then .version else .unknown
  | _ => .operand argument

/-- Whether an argument can be the value of the option before it. -/
def isValue (argument : String) : Bool :=
  match argument.toList with
  | '-' :: _ :: _ => false
  | _ => true

/-- Options with their values and operands, both in order. -/
structure Given where
  options : List (Flag × String)
  operands : List String
  deriving DecidableEq, Repr

/-- Why there is nothing to do: the arguments ask for help or the version, or they are wrong. -/
inductive Refusal where
  | help
  | version
  | usage
  deriving DecidableEq, Repr

/-- The arguments read so far, those that are left, and whether reading is over. -/
structure Progress where
  given : Given
  rest : List String
  finished : Bool

/-- Adds an option, which may be given once. -/
def addOption (given : Given) (flag : Flag) (value : String) (rest : List String) :
    Except Refusal Progress :=
  if given.options.any (·.1 == flag) then .error .usage
  else .ok ⟨{ given with options := given.options ++ [(flag, value)] }, rest, false⟩

/-- Reads one argument and, if it is an option without its value, the next one. With a limit, reading
is over after that many operands. -/
def readOne (flags : List Flag) (limit : Option Nat) (given : Given) (argument : String)
    (rest : List String) : Except Refusal Progress :=
  match classify flags argument with
  | .operand text =>
    let given := { given with operands := given.operands ++ [text] }
    .ok ⟨given, rest, limit = some given.operands.length⟩
  | .option flag (some value) => addOption given flag value rest
  | .option flag none => match rest with
    | next :: rest => if isValue next then addOption given flag next rest else .error .usage
    | [] => .error .usage
  | .operandsFollow =>
    if limit.isSome then .error .usage
    else .ok ⟨{ given with operands := given.operands ++ rest }, [], true⟩
  | .help => .error .help
  | .version => .error .version
  | .unknown => .error .usage

/-- Reads arguments one after the other, at most `fuel` of them. The arguments that are left are
given as well. -/
def readWithin (flags : List Flag) (limit : Option Nat) :
    Nat → Given → List String → Except Refusal (Given × List String)
  | 0, given, rest => .ok (given, rest)
  | _, given, [] => .ok (given, [])
  | fuel + 1, given, argument :: rest => do
    let progress ← readOne flags limit given argument rest
    if progress.finished then return (progress.given, progress.rest)
    else readWithin flags limit fuel progress.given progress.rest

/-- The value of an option. -/
def Given.value? (given : Given) (flag : Flag) : Option String := given.options.lookup flag

/-- A path, which is not empty. -/
def pathOf (path : String) : Except Refusal String :=
  if path.isEmpty then .error .usage else .ok path

/-- The value of an option that is a path. -/
def Given.path? (given : Given) (flag : Flag) : Except Refusal (Option String) :=
  match given.value? flag with
  | none => .ok none
  | some path => (pathOf path).map some

/-- The value of an option that is one of a few words. -/
def Given.word? {α : Type} (given : Given) (flag : Flag) (read : String → Option α) :
    Except Refusal (Option α) :=
  match given.value? flag with
  | none => .ok none
  | some word => match read word with
    | some value => .ok (some value)
    | none => .error .usage

/-- The format that a word stands for. -/
def OutputFormat.ofText? (word : String) : Option OutputFormat :=
  if word == "sql" then some .sql else if word == "json" then some .json else none

/-- The one operand of a command. -/
def Given.operand (given : Given) : Except Refusal String :=
  match given.operands with
  | [operand] => .ok operand
  | _ => .error .usage

/-- The options of a command besides the settings file. -/
def commandFlags : String → Option (List Flag)
  | "compile" => some [modelFlag, formatFlag, policyFlag]
  | "split" => some [modelFlag]
  | "check-model" => some []
  | _ => none

/-- The command of that name with what is given to it. -/
def commandOf (name : String) (given : Given) : Except Refusal Command := do
  let operand ← given.operand
  if name == "compile" then
    let model ← given.path? modelFlag
    let format ← given.word? formatFlag OutputFormat.ofText?
    let policy ← given.word? policyFlag JoinPolicy.ofText?
    return .compile operand model (format.getD .sql) policy
  else if name == "split" then
    let model ← given.path? modelFlag
    return .split operand model
  else
    let file ← pathOf operand
    return .checkModel file

/-- Arguments after the name of a command cannot ask for the version. -/
def withoutVersion {α : Type} : Except Refusal α → Except Refusal α
  | .error .version => .error .usage
  | result => result

/-- Help may be asked for on one command. -/
def helpOn : List String → Refusal
  | [] => .help
  | [topic] => if topic == "help" || (commandFlags topic).isSome then .help else .usage
  | _ => .usage

/-- What the arguments ask for. The settings file may be given before the command and after it; the
later one counts. -/
def read (arguments : List String) : Except Refusal (Option String × Command) := do
  let (before, rest) ← readWithin [configFlag] (some 1) arguments.length ⟨[], []⟩ arguments
  let name ← before.operand
  if name == "help" then throw (helpOn rest)
  let some flags := commandFlags name | throw .usage
  let (after, _) ←
    withoutVersion (readWithin (configFlag :: flags) none rest.length ⟨[], []⟩ rest)
  let command ← commandOf name after
  let outer ← before.path? configFlag
  let inner ← after.path? configFlag
  return (inner <|> outer, command)

end ObjectQuery.CommandLine
