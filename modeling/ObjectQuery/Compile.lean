import ObjectQuery.Grammar.Statement
import ObjectQuery.Lowering.Statement
import ObjectQuery.Resolution.Statement
import ObjectQuery.Resolved.Inference
/-!
# From text to SQL

A query text is parsed, its names are resolved, its parameters are typed, and what results is
lowered to SQL.
-/
namespace ObjectQuery

/-- Why a text has no meaning or no SQL form. -/
inductive CompileError where
  | invalidText (diagnostic : Diagnostic)
  | resolution (error : ResolutionError)
  | lowering (error : LoweringError)
  deriving DecidableEq, Repr

/-- The text for an error. -/
def CompileError.message : CompileError → String
  | invalidText diagnostic => "Syntax error: " ++ diagnostic.message
  | resolution error => "Semantic error: " ++ error.message
  | lowering error => "Conversion error: " ++ error.message

/-- The parse tree of a text. -/
def parse (source : String) : Except CompileError Grammar.Statement :=
  (Grammar.Statement.parse source).mapError .invalidText

/-- The statement that a text means. -/
def interpret (catalog : Catalog) (source : String) : Except CompileError Resolved.Statement := do
  let tree ← parse source
  let statement ← (Resolved.Statement.resolve catalog tree).mapError CompileError.resolution
  return statement.infer

/-- The SQL statements that a text means. -/
def compile (catalog : Catalog) (policy : JoinPolicy) (source : String) :
    Except CompileError (List Sql.Statement) := do
  let statement ← interpret catalog source
  (statement.toSql ⟨catalog, policy⟩).mapError CompileError.lowering

end ObjectQuery
