import ObjectQuery.Number.Binary64
/-!
# Why a statement has no SQL form

Either the model says too little about a name, or the statement asks for something that cannot be
expressed.
-/
namespace ObjectQuery

/-- The statements that change rows. -/
inductive BulkVerb where
  | update
  | delete
  deriving DecidableEq, Repr

/-- The word of the statement. -/
def BulkVerb.text : BulkVerb → String
  | update => "update"
  | delete => "delete"

/-- What cannot be expressed. -/
inductive Unsupported where
  | polymorphicSource (name label : String)
  | emptyJoinPath (label : String)
  | notEntityCollection (label : String)
  | noIndexColumn (entity label : String)
  | missingArgument (function : String)
  | collectionAsValue (path : String)
  | notCollection (path : String)
  | nonFinite (value : Number.Binary64)
  | polymorphicTarget (verb : BulkVerb) (name : String)
  | manyTables (verb : BulkVerb) (entity : String) (count : Nat)
  | derivedTarget (verb : BulkVerb) (entity : String)
  | joinedTarget (verb : BulkVerb)
  | noScope
  deriving DecidableEq, Repr

/-- The text of a number that is not finite. -/
def nonFiniteText (value : Number.Binary64) : String :=
  if value.fraction != 0 then "NaN" else if value.isNegative then "-inf" else "inf"

/-- The text for what cannot be expressed. -/
def Unsupported.message : Unsupported → String
  | polymorphicSource name label =>
    "polymorphic reference '" ++ name ++ "' (" ++ label ++
      ") is only supported as the query root"
  | emptyJoinPath label => "empty join path from '" ++ label ++ "'"
  | notEntityCollection label => "'" ++ label ++ "' is not a collection of entities"
  | noIndexColumn entity label =>
    "collection '" ++ entity ++ "." ++ label ++ "' has no index column"
  | missingArgument function => function ++ " requires an argument"
  | collectionAsValue path =>
    "collection-valued path '" ++ path ++ "' cannot be used as a value"
  | notCollection path => "'" ++ path ++ "' is not a collection"
  | nonFinite value => "numeric literal " ++ nonFiniteText value ++ " has no SQL form"
  | polymorphicTarget verb name => verb.text ++ " of polymorphic reference '" ++ name ++ "'"
  | manyTables verb entity count =>
    verb.text ++ " of '" ++ entity ++ "' which spans " ++ toString count ++ " tables"
  | derivedTarget verb entity =>
    verb.text ++ " of '" ++ entity ++ "' which is mapped to a derived table"
  | joinedTarget verb => verb.text ++ " cannot navigate associations of its target"
  | noScope => "expression outside of a query scope"

/-- Why a statement has no SQL form. -/
inductive LoweringError where
  | crossJoinCondition (label : String)
  | missingShape (entity : String)
  | unmapped (entity label : String)
  | unknownLabel (label : String)
  | unsupported (reason : Unsupported)
  deriving DecidableEq, Repr

/-- The text for an error. -/
def LoweringError.message : LoweringError → String
  | crossJoinCondition label =>
    "Illegal join specification: cross join to '" ++ label ++ "' cannot have a join predicate"
  | missingShape entity => "No table mapping for entity '" ++ entity ++ "'"
  | unmapped entity label => "Attribute '" ++ entity ++ "." ++ label ++ "' has no column mapping"
  | unknownLabel label => "Alias '" ++ label ++ "' does not name a table group"
  | unsupported reason => "Cannot lower to SQL: " ++ reason.message

end ObjectQuery
