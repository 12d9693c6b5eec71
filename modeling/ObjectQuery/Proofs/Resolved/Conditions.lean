import ObjectQuery.Proofs.Resolved.Retyped
/-!
# The conditions of a statement

A condition may hold further ones: those that it is put together from, and those of a query inside it.
All of them are listed here, each before what it holds. Typing parameters and retyping work on each
condition by itself, so that the conditions of the result are those of the statement one for one.
-/
namespace ObjectQuery.Resolved

mutual

/-- The predicate and all predicates inside it, those of queries included. -/
def Predicate.conditions : Predicate → List Predicate
  | .and left right => .and left right :: (left.conditions ++ right.conditions)
  | .or left right => .or left right :: (left.conditions ++ right.conditions)
  | .not operand => .not operand :: operand.conditions
  | .inQuery test query negated => .inQuery test query negated :: queryConditions query
  | other => [other]

/-- The conditions of a query: of its joins and its filter. -/
def queryConditions : Query Predicate → List Predicate
  | ⟨spaces, _, _, filter⟩ => spaceConditions spaces ++ filterConditions filter

/-- The conditions of the items of a from-clause. -/
def spaceConditions : List (FromSpace Predicate) → List Predicate
  | [] => []
  | ⟨_, joins⟩ :: rest => joinConditions joins ++ spaceConditions rest

/-- The conditions of joins. -/
def joinConditions : List (Join Predicate) → List Predicate
  | [] => []
  | ⟨_, _, _, predicate⟩ :: rest => filterConditions predicate ++ joinConditions rest

/-- The conditions in one that may be absent. -/
def filterConditions : Option Predicate → List Predicate
  | none => []
  | some predicate => predicate.conditions

end

/-- The conditions of a statement, those of queries inside it included. -/
def Statement.conditions : Statement → List Predicate
  | .select query _ => queryConditions query
  | .update _ _ filter | .delete _ filter => filterConditions filter

section Retyping

variable (new : Retyping)

mutual

/-- Other types for parameters leave the parts of a predicate what they are. -/
theorem Predicate.conditions_retype : ∀ predicate : Predicate,
    (predicate.retype new).conditions = predicate.conditions.map (Predicate.retype new)
  | .and left right | .or left right => by
    simp [Predicate.retype, Predicate.conditions, left.conditions_retype, right.conditions_retype]
  | .not operand => by simp [Predicate.retype, Predicate.conditions, operand.conditions_retype]
  | .inQuery test query negated => by
    simp [Predicate.retype, Predicate.conditions, queryConditions_retype query]
  | .compare op left right => by simp [Predicate.retype, Predicate.conditions]
  | .inList test values negated => by simp [Predicate.retype, Predicate.conditions]
  | .memberOf element collection negated => by simp [Predicate.retype, Predicate.conditions]
  | .isNull operand negated => by simp [Predicate.retype, Predicate.conditions]
  | .like operand pattern negated => by simp [Predicate.retype, Predicate.conditions]
  | .between operand low high negated => by simp [Predicate.retype, Predicate.conditions]

/-- Other types for parameters leave the conditions of a query what they are. -/
theorem queryConditions_retype : ∀ query : Query Predicate,
    queryConditions (retypeQuery new query) = (queryConditions query).map (Predicate.retype new)
  | ⟨spaces, distinct, selections, filter⟩ => by
    simp [retypeQuery, queryConditions, spaceConditions_retype spaces, filterConditions_retype filter]

/-- Other types for parameters leave the conditions of spaces what they are. -/
theorem spaceConditions_retype : ∀ spaces : List (FromSpace Predicate),
    spaceConditions (retypeSpaces new spaces) = (spaceConditions spaces).map (Predicate.retype new)
  | [] => rfl
  | ⟨root, joins⟩ :: rest => by
    simp [retypeSpaces, spaceConditions, joinConditions_retype joins, spaceConditions_retype rest]

/-- Other types for parameters leave the conditions of joins what they are. -/
theorem joinConditions_retype : ∀ joins : List (Join Predicate),
    joinConditions (retypeJoins new joins) = (joinConditions joins).map (Predicate.retype new)
  | [] => rfl
  | ⟨kind, fetch, target, predicate⟩ :: rest => by
    simp [retypeJoins, joinConditions, filterConditions_retype predicate, joinConditions_retype rest]

/-- Other types for parameters leave the conditions of a filter what they are. -/
theorem filterConditions_retype : ∀ filter : Option Predicate,
    filterConditions (retypeFilter new filter) = (filterConditions filter).map (Predicate.retype new)
  | none => rfl
  | some predicate => predicate.conditions_retype

end

/-- Other types for parameters leave the conditions of a statement what they are. -/
theorem Statement.conditions_retype (statement : Statement) :
    (statement.retype new).conditions = statement.conditions.map (Predicate.retype new) := by
  cases statement with
  | select query order => exact queryConditions_retype new query
  | update target assignments filter => exact filterConditions_retype new filter
  | delete target filter => exact filterConditions_retype new filter

end Retyping

mutual

/-- Inference reaches each part of a predicate by itself. -/
theorem Predicate.conditions_infer : ∀ predicate : Predicate,
    predicate.infer.conditions = predicate.conditions.map Predicate.infer
  | .and left right | .or left right => by
    simp [Predicate.infer, Predicate.conditions, left.conditions_infer, right.conditions_infer]
  | .not operand => by simp [Predicate.infer, Predicate.conditions, operand.conditions_infer]
  | .inQuery test query negated => by
    simp [Predicate.infer, Predicate.conditions, queryConditions_infer query]
  | .compare op left right => by simp [Predicate.infer, Predicate.conditions]
  | .inList test values negated => by simp [Predicate.infer, Predicate.conditions]
  | .memberOf element collection negated => by simp [Predicate.infer, Predicate.conditions]
  | .isNull operand negated => by simp [Predicate.infer, Predicate.conditions]
  | .like operand pattern negated => by simp [Predicate.infer, Predicate.conditions]
  | .between operand low high negated => by simp [Predicate.infer, Predicate.conditions]

/-- Inference reaches each condition of a query by itself. -/
theorem queryConditions_infer : ∀ query : Query Predicate,
    queryConditions (inferQuery query) = (queryConditions query).map Predicate.infer
  | ⟨spaces, distinct, selections, filter⟩ => by
    simp [inferQuery, queryConditions, spaceConditions_infer spaces, filterConditions_infer filter]

/-- Inference reaches each condition of spaces by itself. -/
theorem spaceConditions_infer : ∀ spaces : List (FromSpace Predicate),
    spaceConditions (inferSpaces spaces) = (spaceConditions spaces).map Predicate.infer
  | [] => rfl
  | ⟨root, joins⟩ :: rest => by
    simp [inferSpaces, spaceConditions, joinConditions_infer joins, spaceConditions_infer rest]

/-- Inference reaches each condition of joins by itself. -/
theorem joinConditions_infer : ∀ joins : List (Join Predicate),
    joinConditions (inferJoins joins) = (joinConditions joins).map Predicate.infer
  | [] => rfl
  | ⟨kind, fetch, target, predicate⟩ :: rest => by
    simp [inferJoins, joinConditions, filterConditions_infer predicate, joinConditions_infer rest]

/-- Inference reaches each condition of a filter by itself. -/
theorem filterConditions_infer : ∀ filter : Option Predicate,
    filterConditions (inferFilter filter) = (filterConditions filter).map Predicate.infer
  | none => rfl
  | some predicate => predicate.conditions_infer

end

/-- The local pass reaches each condition of a statement by itself. -/
theorem Statement.conditions_inferLocally (statement : Statement) :
    statement.inferLocally.conditions = statement.conditions.map Predicate.infer := by
  cases statement with
  | select query order => exact queryConditions_infer query
  | update target assignments filter => exact filterConditions_infer filter
  | delete target filter => exact filterConditions_infer filter

end ObjectQuery.Resolved
