import ObjectQuery.Resolved.Tree
/-!
# Walking through resolved statements

`nodes` lists every expression of a statement with everything inside it, each before its parts and
all in the order of the text. `retype` replaces recorded types at the same places and keeps
everything else. `Predicate.inside` lists the predicates that a predicate consists of, each after
its parts.
-/
namespace ObjectQuery.Resolved

mutual

/-- The expression and all expressions inside it, each before its parts. -/
def Expr.nodes : Expr → List Expr
  | .path ⟨source, sourceType, init, ⟨label, declared, index, after⟩, type⟩ =>
    .path ⟨source, sourceType, init, ⟨label, declared, index, after⟩, type⟩ ::
      (segmentNodes init ++ indexNodes index)
  | .element label type => [.element label type]
  | .literal value => [.literal value]
  | .parameter bound => [.parameter bound]
  | .arithmetic op left right type =>
    .arithmetic op left right type :: (left.nodes ++ right.nodes)
  | .negate operand => .negate operand :: operand.nodes
  | .call function distinct argument type =>
    .call function distinct argument type :: indexNodes argument

/-- The expressions inside an index or an argument. -/
def indexNodes : Option Expr → List Expr
  | none => []
  | some index => index.nodes

/-- The expressions inside the indices of segments. -/
def segmentNodes : List (Segment Expr) → List Expr
  | [] => []
  | ⟨_, _, index, _⟩ :: rest => indexNodes index ++ segmentNodes rest

end

mutual

/-- The expressions of a predicate with everything inside them, sub-queries included. -/
def Predicate.nodes : Predicate → List Expr
  | .and left right | .or left right => left.nodes ++ right.nodes
  | .not operand => operand.nodes
  | .compare _ left right => left.nodes ++ right.nodes
  | .inList test values _ => test.nodes ++ values.flatMap Expr.nodes
  | .inQuery test query _ => test.nodes ++ queryNodes query
  | .memberOf element collection _ => element.nodes ++ (Expr.path collection).nodes
  | .isNull operand _ => operand.nodes
  | .like operand pattern _ => operand.nodes ++ pattern.nodes
  | .between operand low high _ => operand.nodes ++ low.nodes ++ high.nodes

/-- The expressions of a query: of its select list, of its joins and of its condition. -/
def queryNodes : Query Predicate → List Expr
  | ⟨spaces, _, selections, filter⟩ =>
    (selections.flatMap fun selection => selection.expr.nodes) ++ spaceNodes spaces ++
      filterNodes filter

/-- The expressions of the items of a from-clause. -/
def spaceNodes : List (FromSpace Predicate) → List Expr
  | [] => []
  | ⟨_, joins⟩ :: rest => joinNodes joins ++ spaceNodes rest

/-- The expressions of the conditions of joins. -/
def joinNodes : List (Join Predicate) → List Expr
  | [] => []
  | ⟨_, _, _, predicate⟩ :: rest => filterNodes predicate ++ joinNodes rest

/-- The expressions of a condition that may be absent. -/
def filterNodes : Option Predicate → List Expr
  | none => []
  | some predicate => predicate.nodes

end

/-- The expressions of a statement. Sort keys come last, and the targets of assignments are not
among them. -/
def Statement.nodes : Statement → List Expr
  | .select query order => queryNodes query ++ order.flatMap fun key => key.expr.nodes
  | .update _ assignments filter =>
    (assignments.flatMap fun assignment => assignment.value.nodes) ++ filterNodes filter
  | .delete _ filter => filterNodes filter

/-- The parameter that an expression is. -/
def Expr.parameter? : Expr → Option Parameter
  | .parameter bound => some bound
  | _ => none

/-- All parameters of a statement in order, one for each occurrence. -/
def Statement.occurrences (statement : Statement) : List Parameter :=
  statement.nodes.filterMap Expr.parameter?

/-- The parameters of a statement, each once, in the order of their first occurrences. -/
def Statement.parameters (statement : Statement) : List Parameter :=
  Parameter.distinct statement.occurrences

/-- New types for what records one: parameters, the sources of paths, and sources as a whole. Paths from
some sources have their first attribute looked up again in an entity. -/
structure Retyping where
  parameter : Parameter → Option DataType
  source : String → DataType → DataType
  entity? : String → Option EntityType
  element : String → DataType → DataType

namespace Retyping

/-- Every recorded type stays. -/
def unchanged : Retyping :=
  ⟨Parameter.type, fun _ type => type, fun _ => none, fun _ type => type⟩

end Retyping

section Retargeting

variable {ε : Type} (entity : EntityType)

/-- The segment with the type that the entity gives to its attribute, if the entity has it. That is also
the type after the segment, unless there is an index. -/
def Segment.retarget (segment : Segment ε) : Segment ε :=
  match entity.attribute? segment.label with
  | none => segment
  | some declared => { segment with
      declared := declared
      type := if segment.index.isNone then declared else segment.type }

/-- The path with its first attribute looked up in the entity. The type after its last attribute is then
the type of the path. -/
def Reference.retarget : Reference ε → Reference ε
  | ⟨source, sourceType, [], last, _⟩ =>
    ⟨source, sourceType, [], last.retarget entity, (last.retarget entity).type⟩
  | ⟨source, sourceType, first :: rest, last, _⟩ =>
    ⟨source, sourceType, first.retarget entity :: rest, last, last.type⟩

end Retargeting

/-- The path with its first attribute looked up again, if it is to be looked up in an entity. -/
def Reference.retargetTo {ε : Type} : Option EntityType → Reference ε → Reference ε
  | none, reference => reference
  | some entity, reference => reference.retarget entity

mutual

/-- The expression with new types. -/
def Expr.retype (new : Retyping) : Expr → Expr
  | .path ⟨source, sourceType, init, ⟨label, declared, index, after⟩, type⟩ =>
    .path (Reference.retargetTo (new.entity? source) ⟨source, new.source source sourceType,
      retypeSegments new init, ⟨label, declared, retypeIndex new index, after⟩, type⟩)
  | .element label type => .element label (new.element label type)
  | .literal value => .literal value
  | .parameter bound => .parameter ⟨bound.kind, new.parameter bound⟩
  | .arithmetic op left right type => .arithmetic op (left.retype new) (right.retype new) type
  | .negate operand => .negate (operand.retype new)
  | .call function distinct argument type =>
    .call function distinct (retypeIndex new argument) type

/-- The index or argument with new types. -/
def retypeIndex (new : Retyping) : Option Expr → Option Expr
  | none => none
  | some index => some (index.retype new)

/-- The segments with new types in their indices. -/
def retypeSegments (new : Retyping) : List (Segment Expr) → List (Segment Expr)
  | [] => []
  | ⟨label, declared, index, after⟩ :: rest =>
    ⟨label, declared, retypeIndex new index, after⟩ :: retypeSegments new rest

end

/-- The path with new types. -/
def Reference.retype (new : Retyping) (reference : Reference Expr) : Reference Expr :=
  Reference.retargetTo (new.entity? reference.source) { reference with
    sourceType := new.source reference.source reference.sourceType
    init := retypeSegments new reference.init
    last := { reference.last with index := retypeIndex new reference.last.index } }

mutual

/-- The predicate with new types. -/
def Predicate.retype (new : Retyping) : Predicate → Predicate
  | .and left right => .and (left.retype new) (right.retype new)
  | .or left right => .or (left.retype new) (right.retype new)
  | .not operand => .not (operand.retype new)
  | .compare op left right => .compare op (left.retype new) (right.retype new)
  | .inList test values negated =>
    .inList (test.retype new) (values.map (Expr.retype new)) negated
  | .inQuery test query negated => .inQuery (test.retype new) (retypeQuery new query) negated
  | .memberOf element collection negated =>
    .memberOf (element.retype new) (collection.retype new) negated
  | .isNull operand negated => .isNull (operand.retype new) negated
  | .like operand pattern negated => .like (operand.retype new) (pattern.retype new) negated
  | .between operand low high negated =>
    .between (operand.retype new) (low.retype new) (high.retype new) negated

/-- The query with new types. -/
def retypeQuery (new : Retyping) : Query Predicate → Query Predicate
  | ⟨spaces, distinct, selections, filter⟩ =>
    ⟨retypeSpaces new spaces, distinct,
      selections.map fun selection => { selection with expr := selection.expr.retype new },
      retypeFilter new filter⟩

/-- The items of a from-clause with new types. -/
def retypeSpaces (new : Retyping) : List (FromSpace Predicate) → List (FromSpace Predicate)
  | [] => []
  | ⟨root, joins⟩ :: rest => ⟨root, retypeJoins new joins⟩ :: retypeSpaces new rest

/-- Joins with new types. -/
def retypeJoins (new : Retyping) : List (Join Predicate) → List (Join Predicate)
  | [] => []
  | ⟨kind, fetch, target, predicate⟩ :: rest =>
    ⟨kind, fetch, target, retypeFilter new predicate⟩ :: retypeJoins new rest

/-- A condition that may be absent with new types. -/
def retypeFilter (new : Retyping) : Option Predicate → Option Predicate
  | none => none
  | some predicate => some (predicate.retype new)

end

/-- The statement with new types. The targets of assignments stay as they are. -/
def Statement.retype (new : Retyping) : Statement → Statement
  | .select query order => .select (retypeQuery new query)
      (order.map fun key => { key with expr := key.expr.retype new })
  | .update target assignments filter => .update target
      (assignments.map fun assignment =>
        { assignment with value := assignment.value.retype new })
      (retypeFilter new filter)
  | .delete target filter => .delete target (retypeFilter new filter)

mutual

/-- The predicates inside a predicate and then the predicate itself. Of a sub-query only the
condition is looked at. -/
def Predicate.inside : Predicate → List Predicate
  | .and left right => left.inside ++ right.inside ++ [.and left right]
  | .or left right => left.inside ++ right.inside ++ [.or left right]
  | .not operand => operand.inside ++ [.not operand]
  | .inQuery test ⟨spaces, distinct, selections, filter⟩ negated =>
    filterInside filter ++ [.inQuery test ⟨spaces, distinct, selections, filter⟩ negated]
  | other => [other]

/-- The predicates inside a condition that may be absent. -/
def filterInside : Option Predicate → List Predicate
  | none => []
  | some predicate => predicate.inside

end

end ObjectQuery.Resolved
