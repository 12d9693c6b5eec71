import ObjectQuery.CommandLine.Arguments
import ObjectQuery.Compile
import ObjectQuery.Document.Written
import ObjectQuery.Settings.Expansion
/-!
# Running a command

A command looks at files and variables through a host and ends with an exit code and what it has to
print. The same code thus runs against a real file system and against one that is only described.
-/
namespace ObjectQuery.CommandLine

/-- What a command can look at. -/
structure Host (m : Type → Type) where
  /-- The value of a variable of the environment. -/
  environment : String → m (Option String)
  /-- Whether there is something at a path. -/
  pathExists : String → m Bool
  /-- The content of a file, or why it cannot be read. -/
  readText : String → m (Except String String)

/-- What goes to the error output: a message, what is wrong with the query, or how to use the
command line. -/
inductive Report where
  | silent
  | message (text : String)
  | diagnostic (diagnostic : Diagnostic)
  | usage
  deriving DecidableEq, Repr

/-- How a command has ended. -/
structure Outcome where
  code : Nat
  output : String
  report : Report
  deriving DecidableEq, Repr

/-- Everything went well. -/
def Outcome.success (output : String) : Outcome := ⟨0, output, .silent⟩

/-- The command has failed after some output. -/
def Outcome.failureAfter (output : String) (report : Report) : Outcome := ⟨1, output, report⟩

/-- The command has failed before any output. -/
def Outcome.failure (report : Report) : Outcome := .failureAfter "" report

/-- A text with the end of its line. -/
def line (text : String) : String := text ++ "\n"

/-- The report for a text that does not compile. -/
def reportOf : CompileError → Report
  | .invalidText diagnostic => .diagnostic diagnostic
  | error => .message error.message

/-- The parts of a path, without those that mean nothing. -/
def pathParts (path : String) : List (List Char) :=
  (path.toList.splitOn '/').filter fun part => !part.isEmpty && part != ['.']

/-- What follows the last dot of a file name, unless nothing comes before it. -/
def extension? (path : String) : Option String := do
  let name ← (pathParts path).getLast?
  guard (name != ['.', '.'])
  let reversed := name.reverse
  let ending := reversed.takeWhile (· != '.')
  guard (ending.length + 1 < name.length)
  return String.ofList ending.reverse

/-- The format of a model file, by its name. -/
def formatOf? (path : String) : Option Document.Format :=
  match extension? path with
  | some "toml" => some .toml
  | some "json" => some .json
  | _ => none

/-- The model that the content of a file describes. -/
def modelOf (path : String) : Except String String → Except ModelError Model
  | .error reason => .error (.unreadable reason)
  | .ok text => match formatOf? path with
    | some format => Model.read format text
    | none => .error (.unsupportedFormat path)

/-- The settings that the content of a file describes. -/
def settingsOf : Except String String → Except SettingsError Settings
  | .error reason => .error (.unreadable reason)
  | .ok text => Settings.read text

/-- The SQL statements, each on a line with a semicolon after it. -/
def statementLines (statements : List Sql.Statement) : String :=
  String.join (statements.map fun statement => line (statement.text ++ ";"))

/-- The plans of statements over several lines. -/
def planText (statements : List Sql.Statement) : String :=
  line (Document.Json.pretty "" (.list (statements.map fun statement => statement.plan.toValue)))

/-- Compiles a query. -/
def compileQuery (model : Model) (policy : JoinPolicy) (format : OutputFormat) (query : String) :
    Outcome :=
  match compile model.catalog policy query with
  | .error error => .failure (reportOf error)
  | .ok statements => .success (match format with
    | .sql => statementLines statements
    | .json => planText statements)

/-- The output for each of the statements that a statement means, up to the first that fails. -/
def splitOutput (context : LoweringContext) (output : String) :
    List Resolved.Statement → Outcome
  | [] => .success output
  | tree :: rest =>
    let output := output ++ line ("-- " ++ ((tree.root?.map (·.entity.name)).getD ""))
    match tree.toSql context with
    | .error error => .failureAfter output (.message (CompileError.lowering error).message)
    | .ok statements => splitOutput context (output ++ statementLines statements) rest

/-- Shows the statements that a query means. -/
def splitQuery (model : Model) (policy : JoinPolicy) (query : String) : Outcome :=
  match interpret model.catalog query with
  | .error error => .failure (reportOf error)
  | .ok statement =>
    let heading := if (statement.root?.map (·.entity.isPolymorphic)).getD false then ""
      else line "-- Not polymorphic: query is used as is"
    splitOutput ⟨model.catalog, policy⟩ heading statement.split

/-- One entity of a model with its tables. -/
def entityLine (mapped : MappedEntity) : String :=
  let parent := (mapped.entity.superType.map (" extends " ++ ·)).getD ""
  let tables := ", ".intercalate (mapped.shape.tables.map (·.name))
  line ("  - " ++ mapped.entity.name ++ parent ++ " (tables: " ++ tables ++ ")")

/-- Lists the entities of a model. -/
def describeModel (file : String) (model : Model) : String :=
  line ("File: " ++ file) ++ line "" ++ line "Entities:" ++
    String.join (model.entities.map entityLine) ++ line "" ++ line ("OK: " ++ file ++ " is valid")

section Hosted

variable {m : Type → Type} [Monad m]

/-- The settings in a file. -/
def settingsAt (host : Host m) (path : String) : m (Except SettingsError Settings) := do
  if ← host.pathExists path then return settingsOf (← host.readText path)
  else return .error (.fileNotFound path)

/-- The directory for the settings of a user. -/
def configDirectory (host : Host m) : m (Option String) := do
  match (← host.environment "XDG_CONFIG_HOME").filter (·.toList.head? == some '/') with
  | some directory => return some directory
  | none => return (← host.environment "HOME").map (· ++ "/.config")

/-- The settings that apply when none are named: those of a variable, of the working directory or of
the user, and otherwise the defaults. -/
def defaultSettings (host : Host m) : m (Except SettingsError Settings) := do
  if let some path ← host.environment "ORQL_CONFIG" then return ← settingsAt host path
  if ← host.pathExists "orql.toml" then return ← settingsAt host "orql.toml"
  if let some directory ← configDirectory host then
    let path := directory ++ "/orql/config.toml"
    if ← host.pathExists path then return ← settingsAt host path
  return .ok {}

/-- The path of the model in the settings, with the variables that it refers to. -/
def settingsModel (host : Host m) (settings : Settings) :
    m (Except SettingsError (Option String)) := do
  let names := Expansion.names (settings.model.getD "")
  let values ← names.mapM host.environment
  let environment (name : String) : Option String := ((names.zip values).lookup name).join
  return settings.modelPath environment

/-- The model that a command works with, or what to report. -/
def loadModel (host : Host m) (settings : Settings) (path : Option String) :
    m (Except String Model) := do
  let chosen ← match path with
    | some path => pure (.ok (some path))
    | none => settingsModel host settings
  match chosen with
  | .error error => return .error ("Configuration error: " ++ error.message)
  | .ok none => return .error "No model file: pass --model or set [metadata] model"
  | .ok (some path) =>
    return (modelOf path (← host.readText path)).mapError fun error =>
      "Error loading model '" ++ path ++ "': " ++ error.message

/-- Runs a command with a model. -/
def withModel (host : Host m) (settings : Settings) (path : Option String)
    (run : Model → Outcome) : m Outcome := do
  match ← loadModel host settings path with
  | .error message => return .failure (.message message)
  | .ok model => return run model

/-- Runs a command. -/
def execute (host : Host m) (settings : Settings) : Command → m Outcome
  | .compile query model format policy =>
    withModel host settings model fun model =>
      compileQuery model (policy.getD settings.policy) format query
  | .split query model =>
    withModel host settings model fun model => splitQuery model settings.policy query
  | .checkModel file => do
    match modelOf file (← host.readText file) with
    | .error error => return .failure (.message ("Validation error: " ++ error.message))
    | .ok model => return .success (describeModel file model)

/-- The name and version of the program. -/
def versionText : String := "orql 0.1.0"

/-- How to call the program. -/
def usageText : String :=
  "Usage: orql [--config <FILE>] compile <QUERY> [--model <FILE>] [--format sql|json]\n" ++
  "            [--secondary-join outer|inner|mapped]\n" ++
  "       orql [--config <FILE>] split <QUERY> [--model <FILE>]\n" ++
  "       orql [--config <FILE>] check-model <FILE>"

/-- Does what the arguments ask for. -/
def run (host : Host m) (arguments : List String) : m Outcome := do
  match read arguments with
  | .error .version => return .success (line versionText)
  | .error .help => return .success (line usageText)
  | .error .usage => return ⟨2, "", .usage⟩
  | .ok (config, command) =>
    let settings ← match config with
      | some path => settingsAt host path
      | none => defaultSettings host
    match settings with
    | .error error => return .failure (.message ("Configuration error: " ++ error.message))
    | .ok settings => execute host settings command

end Hosted

/-- The text of a report. -/
def Report.text : Report → String
  | silent => ""
  | message text => line text
  | diagnostic found => line found.text
  | usage => line usageText

end ObjectQuery.CommandLine
