import ObjectQuery.Source.Span
/-!
# Why a statement has no meaning

A name may stand for nothing or for too much, or an operation may be used where it has no meaning.
The remaining causes are no fault of the statement: they say that two parts of the analysis disagree.
-/
namespace ObjectQuery

/-- Uses of an operation that have no meaning. -/
inductive IllegalUse where
  | indexInJoinPath (path : String)
  | joinOfBasicCollection (label : String)
  | pluralInJoinPath (label : String)
  | joinOfBasic (label : String)
  | assignmentTarget (entity path : String)
  | notCollection (path : String)
  | mixedParameters
  | unknownFunction (name : String)
  | starArgument (name : String)
  | indexOnAlias (label : String)
  | notIndexed (label type : String)
  | throughPlural (label type : String)
  | notNumeric (operation type : String)
  | crossJoinCondition (label : String)
  | crossJoinPath (owner : String) (path : List String)
  deriving DecidableEq, Repr

/-- The text for a use. -/
def IllegalUse.message : IllegalUse → String
  | indexInJoinPath path => "index operator in join path '" ++ path ++ "'"
  | joinOfBasicCollection label => "cannot join collection of basic values '" ++ label ++ "'"
  | pluralInJoinPath label =>
    "cannot dereference plural attribute '" ++ label ++ "' in a join path"
  | joinOfBasic label => "cannot join basic attribute '" ++ label ++ "'"
  | assignmentTarget entity path =>
    "update can only assign basic attributes of '" ++ entity ++ "', not '" ++ path ++ "'"
  | notCollection path => "'" ++ path ++ "' is not a collection"
  | mixedParameters => "'?' and '?N' parameters cannot be mixed in one statement"
  | unknownFunction name => "unknown function '" ++ name ++ "'"
  | starArgument name => "'*' is only allowed in count, not " ++ name
  | indexOnAlias label => "index operator applied to alias '" ++ label ++ "'"
  | notIndexed label type =>
    "index operator applied to '" ++ label ++ "' of type " ++ type ++
      ", which is not an indexed collection"
  | throughPlural label type =>
    "cannot dereference '" ++ label ++ "' through plural type " ++ type ++ " without an index"
  | notNumeric operation type => operation ++ " applied to non-numeric type " ++ type
  | crossJoinCondition label =>
    "cross join to '" ++ label ++ "' cannot have a join predicate"
  | crossJoinPath owner path =>
    "cross join cannot navigate '" ++ owner ++ "." ++ ".".intercalate path ++
      "'; use an inner or left join"

/-- Disagreements between parts of the analysis. -/
inductive Misuse where
  | unknownClause (clause : Nat)
  | unknownSpace (space : Nat)
  | noClauseAt (span : Span)
  | noElementAt (span : Span)
  | repeatedQuery
  | repeatedOrder
  | noQuery
  deriving DecidableEq, Repr

/-- The text for a disagreement. -/
def Misuse.message : Misuse → String
  | unknownClause clause => "unknown from-clause FromClauseId(" ++ toString clause ++ ")"
  | unknownSpace space => "space " ++ toString space ++ " does not exist in its clause"
  | noClauseAt span => "no from-clause indexed at " ++ span.text
  | noElementAt span => "no from-element indexed at " ++ span.text
  | repeatedQuery => "query spec applied to a select statement twice"
  | repeatedOrder => "order-by clause applied to a select statement twice"
  | noQuery => "select statement has no query spec"

/-- Why a statement has no meaning. -/
inductive ResolutionError where
  | duplicateAlias (label : String)
  /-- The owner is the type that was searched, if it was one. -/
  | unresolvedAttribute (label : String) (owner : Option String)
  | ambiguousAttribute (label : String) (sources : List String)
  | illegalUse (use : IllegalUse)
  | unresolvedType (name : String)
  | misuse (cause : Misuse)
  deriving DecidableEq, Repr

namespace ResolutionError

/-- The text for an error. -/
def message : ResolutionError → String
  | duplicateAlias label => "Duplicate alias '" ++ label ++ "'"
  | unresolvedAttribute label (some owner) =>
    "Unknown attribute '" ++ label ++ "' on '" ++ owner ++ "'"
  | unresolvedAttribute label none =>
    "Unknown attribute '" ++ label ++ "': no from-element in scope exposes it"
  | ambiguousAttribute label sources =>
    "Ambiguous attribute '" ++ label ++ "' - exposed by: " ++ ", ".intercalate sources ++
      ". Qualify it."
  | illegalUse use => "Illegal operator use: " ++ use.message
  | unresolvedType name => "Unknown entity type '" ++ name ++ "'"
  | misuse cause => "Internal error: " ++ cause.message

/-- Whether the error is no fault of the statement. -/
def isInternal : ResolutionError → Bool
  | misuse _ => true
  | _ => false

end ResolutionError
end ObjectQuery
