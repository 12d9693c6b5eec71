import ObjectQuery.Grammar.Tree
import ObjectQuery.Resolution.FromIndex
/-!
# The sources in a parse tree

The sources of a statement are the first entities of the items of its from-clauses and the joins,
those of sub-queries included. Each is known by the place it was read from, and so is each from-clause.
One of the sources is the root of the statement: the first source of a query, or the target of a
change, which is a from-clause of its own.
-/
namespace ObjectQuery.Grammar

mutual

/-- The places of the sources in a predicate, in the order of the text. -/
def Predicate.places : Predicate → List Span
  | .and _ left right | .or _ left right => left.places ++ right.places
  | .not _ operand => operand.places
  | .inQuery _ _ query _ => queryPlaces query
  | _ => []

/-- The places of the sources of a query. -/
def queryPlaces : Query Predicate → List Span
  | ⟨_, ⟨spaces, _⟩, filter, _⟩ => spacePlaces spaces ++ filterPlaces filter

/-- The places of the sources of the items of a from-clause. -/
def spacePlaces : List (FromSpace Predicate) → List Span
  | [] => []
  | ⟨root, joins, _⟩ :: rest => root.span :: (joinPlaces joins ++ spacePlaces rest)

/-- The places of joins and of the sources in their conditions. -/
def joinPlaces : List (Join Predicate) → List Span
  | [] => []
  | ⟨_, _, _, _, predicate, span⟩ :: rest => span :: (filterPlaces predicate ++ joinPlaces rest)

/-- The places of the sources in a condition that may be absent. -/
def filterPlaces : Option Predicate → List Span
  | none => []
  | some predicate => predicate.places

end

mutual

/-- The places of the from-clauses in a predicate, in the order of the text. -/
def Predicate.clauses : Predicate → List Span
  | .and _ left right | .or _ left right => left.clauses ++ right.clauses
  | .not _ operand => operand.clauses
  | .inQuery _ _ query _ => queryClauses query
  | _ => []

/-- The places of the from-clauses of a query. -/
def queryClauses : Query Predicate → List Span
  | ⟨_, ⟨spaces, span⟩, filter, _⟩ => span :: (spaceClauses spaces ++ filterClauses filter)

/-- The places of the from-clauses inside the items of a from-clause. -/
def spaceClauses : List (FromSpace Predicate) → List Span
  | [] => []
  | ⟨_, joins, _⟩ :: rest => joinClauses joins ++ spaceClauses rest

/-- The places of the from-clauses in the conditions of joins. -/
def joinClauses : List (Join Predicate) → List Span
  | [] => []
  | ⟨_, _, _, _, predicate, _⟩ :: rest => filterClauses predicate ++ joinClauses rest

/-- The places of the from-clauses in a condition that may be absent. -/
def filterClauses : Option Predicate → List Span
  | none => []
  | some predicate => predicate.clauses

end

/-- The places of the items of a from-clause and of their joins, without those of sub-queries. -/
def ownPlaces (spaces : List (FromSpace Predicate)) : List Span :=
  spaces.flatMap fun space => space.root.span :: space.joins.map (·.span)

namespace Statement

/-- The places of all sources of a statement, in the order of the text. -/
def places : Statement → List Span
  | select query _ => queryPlaces query
  | update target _ filter | delete target filter => target.span :: filterPlaces filter

/-- The places of all from-clauses of a statement, in the order of the text. -/
def clauses : Statement → List Span
  | select query _ => queryClauses query
  | update target _ filter | delete target filter => target.span :: filterClauses filter

/-- The root of a statement, if there is one. -/
def root? : Statement → Option RootRef
  | select query _ => query.sources.spaces.head?.map (·.root)
  | update target _ _ | delete target _ => some target

/-- The places of all sources but the root. -/
def others : Statement → List Span
  | select ⟨_, ⟨⟨_, joins, _⟩ :: rest, _⟩, filter, _⟩ _ =>
    joinPlaces joins ++ spacePlaces rest ++ filterPlaces filter
  | select ⟨_, ⟨[], _⟩, filter, _⟩ _ => filterPlaces filter
  | update _ _ filter | delete _ filter => filterPlaces filter

end Statement

/-- The reference with another entity in the same place. -/
def RootRef.naming (root : RootRef) (entity : String) : RootRef :=
  { root with entity := { root.entity with value := entity } }

/-- The statement with another entity for its root. -/
def Statement.naming (entity : String) : Statement → Statement
  | select ⟨chosen, ⟨⟨root, joins, place⟩ :: rest, span⟩, filter, whole⟩ order =>
    select ⟨chosen, ⟨⟨root.naming entity, joins, place⟩ :: rest, span⟩, filter, whole⟩ order
  | select query order => select query order
  | update target assignments filter => update (target.naming entity) assignments filter
  | delete target filter => delete (target.naming entity) filter

/-! ## Paths that start with a source -/

section Qualified

variable (index : FromIndex)

mutual

/-- Whether every path in an expression starts with a source that is visible in the scope. -/
def Expr.isQualified (clause : Nat) : Expr → Bool
  | .path route => pathQualified clause route
  | .literal _ _ | .named _ _ | .positional _ _ => true
  | .arithmetic _ _ left right => left.isQualified clause && right.isQualified clause
  | .negate _ operand => operand.isQualified clause
  | .call _ _ _ argument => optionalQualified clause argument

/-- Whether a path and every path inside it start with a visible source. -/
def pathQualified (clause : Nat) : Path Expr → Bool
  | ⟨⟨name, position⟩, rest, _⟩ =>
    (index.findVisible? clause name.value).isSome && optionalQualified clause position &&
      partsQualified clause rest

/-- Whether every path in an index or an argument starts with a visible source. -/
def optionalQualified (clause : Nat) : Option Expr → Bool
  | none => true
  | some expr => expr.isQualified clause

/-- Whether every path in the indices of parts starts with a visible source. -/
def partsQualified (clause : Nat) : List (PathPart Expr) → Bool
  | [] => true
  | ⟨_, position⟩ :: rest => optionalQualified clause position && partsQualified clause rest

end

mutual

/-- Whether every path in a predicate starts with a source that is visible in its scope. -/
def Predicate.isQualified (clause : Nat) : Predicate → Bool
  | .and _ left right | .or _ left right => left.isQualified clause && right.isQualified clause
  | .not _ operand => operand.isQualified clause
  | .compare _ _ left right => left.isQualified index clause && right.isQualified index clause
  | .inList _ test values _ =>
    test.isQualified index clause && values.all (Expr.isQualified index clause)
  | .inQuery _ test query _ => test.isQualified index clause && queryQualified query
  | .memberOf _ element collection _ =>
    element.isQualified index clause && pathQualified index clause collection
  | .isNull _ operand _ => operand.isQualified index clause
  | .like _ operand pattern _ =>
    operand.isQualified index clause && pattern.isQualified index clause
  | .between _ operand low high _ => operand.isQualified index clause &&
      low.isQualified index clause && high.isQualified index clause

/-- Whether every path in a query starts with a source that is visible in its scope. -/
def queryQualified : Query Predicate → Bool
  | ⟨select, ⟨spaces, span⟩, filter, _⟩ => (index.scopeAt? span).any fun clause =>
      ((select.map (·.selections)).getD []).all (·.expr.isQualified index clause) &&
        spacesQualified clause spaces && filterQualified clause filter

/-- Whether every path in the items of a from-clause starts with a visible source. -/
def spacesQualified (clause : Nat) : List (FromSpace Predicate) → Bool
  | [] => true
  | ⟨_, joins, _⟩ :: rest => joinsQualified clause joins && spacesQualified clause rest

/-- Whether every path in the conditions of joins starts with a visible source. -/
def joinsQualified (clause : Nat) : List (Join Predicate) → Bool
  | [] => true
  | ⟨_, _, _, _, predicate, _⟩ :: rest =>
    filterQualified clause predicate && joinsQualified clause rest

/-- Whether every path in a condition that may be absent starts with a visible source. -/
def filterQualified (clause : Nat) : Option Predicate → Bool
  | none => true
  | some predicate => predicate.isQualified clause

end

/-- Whether every path of a statement starts with a source that is visible in its scope. -/
def Statement.isQualified : Statement → Bool
  | select query order => queryQualified index query &&
      (index.scopeAt? query.sources.span).all fun clause =>
        order.all (·.expr.isQualified index clause)
  | update target assignments filter => (index.scopeAt? target.span).any fun clause =>
      (assignments.all fun given => pathQualified index clause given.target &&
        given.value.isQualified index clause) && filterQualified index clause filter
  | delete target filter => (index.scopeAt? target.span).any fun clause =>
      filterQualified index clause filter

end Qualified

end ObjectQuery.Grammar
