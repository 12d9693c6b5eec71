import ObjectQuery.Document.Toml.Reader
import ObjectQuery.Lowering.Join
/-!
# Settings

A settings file says where the model is, how further tables are joined and how much is logged.
-/
namespace ObjectQuery

open Document

/-- Why there are no settings, or why they cannot be used. -/
inductive SettingsError where
  | fileNotFound (path : String)
  | unreadable (reason : String)
  | malformed
  | missingVariable (name : String)
  | unknownLevel (level : String)
  | unterminatedReference (name : String)
  deriving DecidableEq, Repr

/-- The levels of logging. -/
def logLevels : List String := ["off", "error", "warn", "info", "debug", "trace"]

/-- The text for an error. -/
def SettingsError.message : SettingsError → String
  | fileNotFound path => "Config file not found: " ++ path
  | unreadable reason => "Failed to read config file: " ++ reason
  | malformed => "Failed to parse config file: "
  | missingVariable name => "Missing environment variable: " ++ name
  | unknownLevel level =>
    "Invalid configuration: unknown log level '" ++ level ++ "' (expected one of: " ++
      ", ".intercalate logLevels ++ ")"
  | unterminatedReference name =>
    "Invalid configuration: unterminated variable reference '$\x7b" ++ name ++ "'"

/-- Settings, every part of which has a default. -/
structure Settings where
  /-- The path of the model, in which references to variables are still to be filled in. -/
  model : Option String := none
  policy : JoinPolicy := .outer
  logLevel : String := "info"
  deriving DecidableEq, Repr

namespace Settings

/-- Whether the word is a level of logging in any case. No letter outside ASCII has one of the
letters of the levels as its lower-case form. -/
def isLevel (level : String) : Bool :=
  logLevels.contains (String.ofList (level.toList.map Char.toLower))

/-- The policy that a value names: its word, or a table that has only that word for a key and nothing
under it. -/
def policyOf? : Value → Option JoinPolicy
  | .text word => JoinPolicy.ofText? word
  | .record [(word, .record [])] | .record [(word, .list [])] => JoinPolicy.ofText? word
  | _ => none

/-- The one field of a part of the settings, which is absent with the part. -/
def partFields? (fields : Fields) (part field : String) : Option Fields :=
  fields.withDefault part (fun _ => none) fun value => value.fields? .toml [field]

/-- The settings that a document describes. -/
def ofValue? (value : Value) : Option Settings := do
  let fields ← value.fields? .toml ["metadata", "sql", "logging"]
  let metadata ← partFields? fields "metadata" "model"
  let sql ← partFields? fields "sql" "secondary_table_join"
  let logging ← partFields? fields "logging" "level"
  let defaults : Settings := {}
  return {
    model := ← metadata.optionalText "model"
    policy := ← sql.withDefault "secondary_table_join" defaults.policy policyOf?
    logLevel := ← logging.withDefault "level" defaults.logLevel Value.text? }

/-- The settings that a text describes. -/
def read (text : String) : Except SettingsError Settings :=
  match (Toml.read? text).bind ofValue? with
  | none => .error .malformed
  | some settings =>
    if isLevel settings.logLevel then .ok settings else .error (.unknownLevel settings.logLevel)

end Settings
end ObjectQuery
