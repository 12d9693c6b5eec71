import ObjectQuery.Model.Type
/-!
# Parameters

A query refers to values that are supplied when it runs, by name or by position. The type of such a
value is found by looking at what the parameter is compared with, and stays unknown if that says
nothing.
-/
namespace ObjectQuery

/-- How a parameter is referred to. -/
inductive ParameterKind where
  | named (name : String)
  | positional (position : Nat)
  deriving DecidableEq, Repr

/-- The name after a colon or the position after a question mark. -/
def ParameterKind.text : ParameterKind → String
  | named name => ":" ++ name
  | positional position => "?" ++ toString position

/-- A parameter with its type, if that is known. -/
structure Parameter where
  kind : ParameterKind
  type : Option DataType
  deriving DecidableEq, Repr

namespace Parameter

/-- Adds a parameter to those found before, unless one of the same kind is among them. -/
def addNew (found : List Parameter) (parameter : Parameter) : List Parameter :=
  if found.any (·.kind == parameter.kind) then found else found ++ [parameter]

/-- The first parameter of each kind, in order. -/
def distinct (parameters : List Parameter) : List Parameter := parameters.foldl addNew []

end Parameter
end ObjectQuery
