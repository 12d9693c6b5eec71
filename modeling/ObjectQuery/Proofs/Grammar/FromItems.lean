import ObjectQuery.Proofs.Grammar.Landmarks
import ObjectQuery.Proofs.Grammar.Names
/-!
# The items of from-clauses

An item of a from-clause is a root or a join, with the name that the text gives to it, if any, and
its place. The target of a change is an item too. In the tree of a text the items start one behind
the other, if they are listed as they stand there: those in the condition of a join before the next
join, and those in the condition of a query last.
-/
namespace ObjectQuery

/-- A root or a join of a from-clause: the name it is given, if any, and its place. -/
structure FromItem where
  label : Option String
  span : Span
  deriving DecidableEq, Repr

/-- No text can spell a generated name. -/
theorem IsWord.ne_generatedLabel {name : String} (word : IsWord name) (number : Nat) :
    name ≠ generatedLabel number := by
  rintro rfl
  have bracket : '<' ∈ (generatedLabel number).toList := by simp [generatedLabel]
  have impossible := word '<' bracket
  exact absurd impossible (by decide)

namespace Grammar

/-- The item that a root is. -/
def RootRef.item (root : RootRef) : FromItem := ⟨root.label.map (·.value), root.span⟩

mutual

/-- The items in a predicate, in the order of the text. -/
def Predicate.items : Predicate → List FromItem
  | .and _ left right | .or _ left right => left.items ++ right.items
  | .not _ operand => operand.items
  | .inQuery _ _ query _ => queryItems query
  | _ => []

/-- The items of a query and of the queries in it. -/
def queryItems : Query Predicate → List FromItem
  | ⟨_, ⟨spaces, _⟩, filter, _⟩ => spaceItems spaces ++ filterItems filter

/-- The roots, each with its joins and what is in their conditions. -/
def spaceItems : List (FromSpace Predicate) → List FromItem
  | [] => []
  | ⟨root, joins, _⟩ :: rest => root.item :: (joinItems joins ++ spaceItems rest)

/-- The joins, each with what is in its condition. -/
def joinItems : List (Join Predicate) → List FromItem
  | [] => []
  | ⟨_, _, _, label, predicate, span⟩ :: rest =>
    ⟨label.map (·.value), span⟩ :: (filterItems predicate ++ joinItems rest)

/-- The items in a condition that may be absent. -/
def filterItems : Option Predicate → List FromItem
  | none => []
  | some predicate => predicate.items

end

/-- All items of a statement, in the order of the text. -/
def Statement.items : Statement → List FromItem
  | select query _ => queryItems query
  | update target _ filter | delete target filter => target.item :: filterItems filter

/-! ## Places of items -/

mutual

/-- The items of a predicate stand at its places. -/
theorem Predicate.span_items : ∀ predicate : Predicate,
    predicate.items.map (·.span) = predicate.places
  | .and _ left right | .or _ left right => by
    rw [Predicate.items, Predicate.places, List.map_append, left.span_items, right.span_items]
  | .not _ operand => by rw [Predicate.items, Predicate.places, operand.span_items]
  | .inQuery _ _ query _ => by rw [Predicate.items, Predicate.places, query_span_items query]
  | .compare _ _ _ _ | .inList _ _ _ _ | .memberOf _ _ _ _ | .isNull _ _ _ | .like _ _ _ _
  | .between _ _ _ _ _ => rfl

/-- The items of a query stand at its places. -/
theorem query_span_items : ∀ query : Query Predicate,
    (queryItems query).map (·.span) = queryPlaces query
  | ⟨_, ⟨spaces, _⟩, filter, _⟩ => by
    rw [queryItems, queryPlaces, List.map_append, space_span_items spaces, filter_span_items filter]

/-- The items of spaces stand at their places. -/
theorem space_span_items : ∀ spaces : List (FromSpace Predicate),
    (spaceItems spaces).map (·.span) = spacePlaces spaces
  | [] => rfl
  | ⟨root, joins, _⟩ :: rest => by
    rw [spaceItems, spacePlaces, List.map_cons, List.map_append, join_span_items joins,
      space_span_items rest]
    rfl

/-- The items of joins stand at their places. -/
theorem join_span_items : ∀ joins : List (Join Predicate),
    (joinItems joins).map (·.span) = joinPlaces joins
  | [] => rfl
  | ⟨_, _, _, _, predicate, _⟩ :: rest => by
    rw [joinItems, joinPlaces, List.map_cons, List.map_append, filter_span_items predicate,
      join_span_items rest]

/-- The items of a filter stand at its places. -/
theorem filter_span_items : ∀ filter : Option Predicate,
    (filterItems filter).map (·.span) = filterPlaces filter
  | none => rfl
  | some predicate => predicate.span_items

end

/-- The items of a statement stand at its places. -/
theorem Statement.span_items (statement : Statement) :
    statement.items.map (·.span) = statement.places := by
  cases statement with
  | select query order => exact query_span_items query
  | update target assignments filter =>
    exact congrArg (target.span :: ·) (filter_span_items filter)
  | delete target filter => exact congrArg (target.span :: ·) (filter_span_items filter)

/-- In the tree of a text each item starts behind the one before it. -/
theorem parse_items_increase {source : String} {tree : Statement}
    (parsed : Statement.parse source = .ok tree) :
    (tree.items.map (·.span.start)).Pairwise (· < ·) := by
  obtain ⟨lexemes, found, marked⟩ := parse_gives statement_marked parsed
  have begins : (tree.places.map (·.start)).Sublist (Lexeme.starts lexemes) := marked.sources
  rw [← tree.span_items, List.map_map] at begins
  exact (Lexeme.read_starts found).sublist begins

/-! ## Names of items -/

/-- The names that items are given. -/
def labelsOf (items : List FromItem) : List String := items.filterMap (·.label)

/-- Two lists of items have the labels of both. -/
theorem labelsOf_append (first second : List FromItem) :
    labelsOf (first ++ second) = labelsOf first ++ labelsOf second := List.filterMap_append

/-- A list of items has the label of its first item, if any, and those of the rest. -/
theorem labelsOf_cons (label : Option (Spanned String)) (span : Span) (rest : List FromItem) :
    labelsOf (⟨label.map (·.value), span⟩ :: rest) = labelNames label ++ labelsOf rest := by
  cases label <;> rfl

mutual

/-- The labels of a predicate are among its names, in order. -/
theorem Predicate.labelsOf_items : ∀ predicate : Predicate,
    (labelsOf predicate.items).Sublist predicate.names
  | .and _ left right | .or _ left right => by
    rw [Predicate.items, Predicate.names, labelsOf_append]
    exact left.labelsOf_items.append right.labelsOf_items
  | .not _ operand => by
    rw [Predicate.items, Predicate.names]
    exact operand.labelsOf_items
  | .inQuery _ test query _ => by
    rw [Predicate.items, Predicate.names]
    exact (query_labelsOf_items query).trans (List.sublist_append_right _ _)
  | .compare _ _ _ _ | .inList _ _ _ _ | .memberOf _ _ _ _ | .isNull _ _ _ | .like _ _ _ _
  | .between _ _ _ _ _ => List.nil_sublist _

/-- The labels of a query are among its names, in order. -/
theorem query_labelsOf_items : ∀ query : Query Predicate,
    (labelsOf (queryItems query)).Sublist (queryNames query)
  | ⟨select, ⟨spaces, _⟩, filter, _⟩ => by
    rw [queryItems, queryNames, labelsOf_append, List.append_assoc]
    apply List.Sublist.trans _ (List.sublist_append_right _ _)
    exact (space_labelsOf_items spaces).append (filter_labelsOf_items filter)

/-- The labels of spaces are among their names, in order. -/
theorem space_labelsOf_items : ∀ spaces : List (FromSpace Predicate),
    (labelsOf (spaceItems spaces)).Sublist (spacesNames spaces)
  | [] => List.nil_sublist _
  | ⟨root, joins, _⟩ :: rest => by
    rw [spaceItems, spacesNames, RootRef.item, labelsOf_cons, labelsOf_append, List.append_assoc]
    apply List.Sublist.append_left
    exact (join_labelsOf_items joins).append (space_labelsOf_items rest)

/-- The labels of joins are among their names, in order. -/
theorem join_labelsOf_items : ∀ joins : List (Join Predicate),
    (labelsOf (joinItems joins)).Sublist (joinsNames joins)
  | [] => List.nil_sublist _
  | ⟨_, _, target, label, predicate, _⟩ :: rest => by
    rw [joinItems, joinsNames, labelsOf_cons, labelsOf_append, List.append_assoc, List.append_assoc]
    apply List.Sublist.trans _ (List.sublist_append_right _ _)
    apply List.Sublist.append_left
    exact (filter_labelsOf_items predicate).append (join_labelsOf_items rest)

/-- The labels of a filter are among its names, in order. -/
theorem filter_labelsOf_items : ∀ filter : Option Predicate,
    (labelsOf (filterItems filter)).Sublist (filterNames filter)
  | none => List.nil_sublist _
  | some predicate => predicate.labelsOf_items

end

/-- The labels of a statement are among its names, in order. -/
theorem Statement.labelsOf_items (statement : Statement) :
    (labelsOf statement.items).Sublist statement.names := by
  cases statement with
  | select query order => exact (query_labelsOf_items query).trans (List.sublist_append_left _ _)
  | update target assignments filter =>
    rw [Statement.items, Statement.names, RootRef.item, labelsOf_cons, List.append_assoc]
    apply List.Sublist.append_left
    exact (filter_labelsOf_items filter).trans (List.sublist_append_right _ _)
  | delete target filter =>
    rw [Statement.items, Statement.names, RootRef.item, labelsOf_cons]
    exact (filter_labelsOf_items filter).append_left _

/-- In the tree of a text the names of items are words. -/
theorem parse_items_isWord {source : String} {tree : Statement}
    (parsed : Statement.parse source = .ok tree) : ∀ label ∈ labelsOf tree.items, IsWord label :=
  fun label listed => parse_isWord parsed label (tree.labelsOf_items.subset listed)

end Grammar
end ObjectQuery
