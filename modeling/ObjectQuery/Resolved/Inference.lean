import ObjectQuery.Resolved.Visit
/-!
# Types of parameters

A parameter has the type of what it is compared with, tested against or assigned to. One pass over a
statement gives types to parameters from their surroundings; then every occurrence that is still
without a type takes the one that the first typed occurrence of the same parameter has. A parameter
with nothing beside it that has a type keeps none.
-/
namespace ObjectQuery.Resolved

/-- Gives a type to an expression that is a parameter without one. -/
def Expr.withType (type : Option DataType) : Expr → Expr
  | .parameter ⟨kind, none⟩ => .parameter ⟨kind, type⟩
  | other => other

mutual

/-- Types the parameters among the operands of arithmetic and the indices inside an expression. -/
def Expr.infer : Expr → Expr
  | .path ⟨source, sourceType, init, ⟨label, declared, index, after⟩, type⟩ =>
    .path ⟨source, sourceType, inferSegments init,
      ⟨label, declared, inferIndex declared.index? index, after⟩, type⟩
  | .arithmetic op left right type =>
    .arithmetic op (left.infer.withType (type.map .basic)) (right.infer.withType (type.map .basic))
      type
  | .negate operand => .negate operand.infer
  | .call function distinct argument type =>
    .call function distinct (inferIndex none argument) type
  | .element label type => .element label type
  | .literal value => .literal value
  | .parameter bound => .parameter bound

/-- Types the parameters inside an index or an argument, and itself by the given type. -/
def inferIndex (type : Option DataType) : Option Expr → Option Expr
  | none => none
  | some index => some (index.infer.withType type)

/-- Types the parameters inside the indices of segments. -/
def inferSegments : List (Segment Expr) → List (Segment Expr)
  | [] => []
  | ⟨label, declared, index, after⟩ :: rest =>
    ⟨label, declared, inferIndex declared.index? index, after⟩ :: inferSegments rest

end

/-- The type of the one item of a select list. -/
def selectedType? : List Selection → Option DataType
  | [selection] => selection.expr.type?
  | _ => none

mutual

/-- Types the parameters of a predicate. -/
def Predicate.infer : Predicate → Predicate
  | .and left right => .and left.infer right.infer
  | .or left right => .or left.infer right.infer
  | .not operand => .not operand.infer
  | .compare op left right =>
    let left := left.infer
    let right := right.infer
    .compare op (left.withType right.type?) (right.withType left.type?)
  | .inList test values negated =>
    let test := test.infer
    let values := values.map Expr.infer
    let type := test.type? <|> values.findSome? Expr.type?
    .inList (test.withType type) (values.map (Expr.withType type)) negated
  | .inQuery test query negated =>
    let query := inferQuery query
    .inQuery (test.infer.withType (selectedType? query.selections)) query negated
  | .memberOf element collection negated =>
    .memberOf (element.withType collection.type.element?).infer collection negated
  | .isNull operand negated => .isNull operand.infer negated
  | .like operand pattern negated =>
    let string : Option DataType := some (.basic .string)
    .like (operand.infer.withType string) (pattern.infer.withType string) negated
  | .between operand low high negated =>
    let operand := operand.infer
    let low := low.infer
    let high := high.infer
    let type := operand.type? <|> low.type? <|> high.type?
    .between (operand.withType type) (low.withType type) (high.withType type) negated

/-- Types the parameters of a query. -/
def inferQuery : Query Predicate → Query Predicate
  | ⟨spaces, distinct, selections, filter⟩ =>
    ⟨inferSpaces spaces, distinct,
      selections.map fun selection => { selection with expr := selection.expr.infer },
      inferFilter filter⟩

/-- Types the parameters of the items of a from-clause. -/
def inferSpaces : List (FromSpace Predicate) → List (FromSpace Predicate)
  | [] => []
  | ⟨root, joins⟩ :: rest => ⟨root, inferJoins joins⟩ :: inferSpaces rest

/-- Types the parameters of the conditions of joins. -/
def inferJoins : List (Join Predicate) → List (Join Predicate)
  | [] => []
  | ⟨kind, fetch, target, predicate⟩ :: rest =>
    ⟨kind, fetch, target, inferFilter predicate⟩ :: inferJoins rest

/-- Types the parameters of a condition that may be absent. -/
def inferFilter : Option Predicate → Option Predicate
  | none => none
  | some predicate => some predicate.infer

end

/-- Types the parameters of an assigned value, and itself by the type of its target. -/
def Assignment.infer (assignment : Assignment) : Assignment :=
  { assignment with value := (assignment.value.withType (some assignment.target.type)).infer }

/-- Types parameters from their surroundings. Sort keys have none that count. -/
def Statement.inferLocally : Statement → Statement
  | .select query order => .select (inferQuery query) order
  | .update target assignments filter =>
    .update target (assignments.map (·.infer)) (inferFilter filter)
  | .delete target filter => .delete target (inferFilter filter)

/-- The type of the first parameter of that kind that has one. -/
def knownType? (parameters : List Parameter) (kind : ParameterKind) : Option DataType :=
  parameters.findSome? fun parameter => if parameter.kind = kind then parameter.type else none

/-- Types every parameter that has none like the first one of the same kind that has. -/
def Statement.shareTypes (statement : Statement) : Statement :=
  let parameters := statement.occurrences
  statement.retype { Retyping.unchanged with
    parameter := fun parameter => parameter.type <|> knownType? parameters parameter.kind }

/-- Types the parameters of a statement. -/
def Statement.infer (statement : Statement) : Statement := statement.inferLocally.shareTypes

end ObjectQuery.Resolved
