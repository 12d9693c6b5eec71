import ObjectQuery.Proofs.ParameterTypes
import ObjectQuery.Proofs.Resolution.Awaiting
/-!
# Types of indices

A parameter that stands as an index of a list or a map has the type of the index wherever typing
comes by: in select lists, assigned values and conditions, in queries inside these and in indices inside
indices. Typing does not come by at sort keys and at the collections of membership tests. An index there
has the type that the same parameter has elsewhere in the statement, or none.
-/
namespace ObjectQuery

open Resolved (knownType?)

namespace Resolved

/-- Every segment of a path that follows attributes has the type that it should have. -/
theorem isTyped_of_areTyped {ε : Type} {catalog : Catalog} {segments : List (Segment ε)}
    {find? : String → Option DataType} (follows : AreTyped catalog find? segments) :
    ∀ segment ∈ segments, segment.IsTyped := by
  induction segments generalizing find? with
  | nil => simp
  | cons first rest ih =>
    obtain ⟨_, typed, later⟩ := follows
    exact List.forall_mem_cons.mpr ⟨typed, ih later⟩

/-- Whatever has an index has a type for it. -/
theorem Segment.indexType?_isSome {ε : Type} {segment : Segment ε} (typed : segment.IsTyped)
    (indexed : segment.index.isSome = true) :
    ∃ key, segment.indexType? = some key ∧ segment.declared.index? = some key := by
  rw [Segment.IsTyped, if_pos indexed] at typed
  obtain ⟨key, keyed⟩ := Option.isSome_iff_exists.mp typed.1
  exact ⟨key, by rw [Segment.indexType?, if_pos indexed, keyed], keyed⟩

/-- What types the statement that results gives to the parameters among indices. -/
structure Statement.TypesIndices (resolved given : Statement) : Prop where
  /-- An expression is visited by typing or left out, as a whole or inside another one. -/
  places : ∀ expr ∈ given.nodes, ∃ whole ∈ given.visited ++ given.unvisited, expr ∈ whole.nodes
  /-- An index that is visited has the type of the index. -/
  visited : ∀ whole ∈ given.visited, ∀ reference, .path reference ∈ whole.nodes →
    ∀ segment ∈ reference.segments, ∀ bound, segment.index = some (.parameter bound) →
      ∃ key, segment.indexType? = some key ∧ bound.type = some key
  /-- A parameter that is left out has the type that the surroundings of another one give to it. -/
  unvisited : ∀ whole ∈ given.unvisited, ∀ bound, .parameter bound ∈ whole.nodes →
    bound.type = knownType? resolved.inferLocally.occurrences bound.kind
  /-- What is assigned has no index. -/
  targets : ∀ assignment ∈ given.assignments, ∀ segment ∈ assignment.target.segments,
    segment.index = none

/-- Inference leaves what a statement assigns to. -/
theorem Statement.targets_infer (statement : Statement) :
    statement.infer.assignments.map (·.target) = statement.assignments.map (·.target) := by
  rw [Statement.infer, Statement.shareTypes_eq, Statement.assignments_retype]
  cases statement with
  | update target assignments filter =>
    simp [Statement.inferLocally, Statement.assignments, Assignment.infer]
  | _ => rfl

/-- Typing a statement whose parameters await their types. -/
theorem Statement.typesIndices_infer {catalog : Catalog} {statement : Statement}
    (awaits : ∀ node ∈ statement.nodes, node.AwaitsType) (within : statement.IsScoped catalog)
    (plain : ∀ target ∈ statement.assignments.map (·.target), ∀ segment ∈ target.segments,
      segment.index = none) : statement.TypesIndices statement.infer := by
  have keeps := keepsTypes_sharedType statement.inferLocally.occurrences
  refine ⟨fun expr listed => Statement.mem_nodes_iff.mp listed, ?_, ?_, ?_⟩
  · intro whole listed reference inside segment along bound stands
    have place : .path reference ∈ statement.infer.nodes :=
      Statement.mem_nodes_iff.mpr ⟨whole, List.mem_append_left _ listed, inside⟩
    obtain ⟨node, _, starts⟩ :=
      statement.infer.startsAmong (Statement.isScoped_infer within) _ place
    -- The path follows attributes that exist, so that only an indexed collection has an index.
    have typed := isTyped_of_areTyped starts.segments segment along
    obtain ⟨key, typing, keyed⟩ := Segment.indexType?_isSome typed (by rw [stands]; rfl)
    exact ⟨key, typing, Statement.indicesTyped_visited keeps awaits whole listed _ inside segment along
      bound stands key keyed⟩
  · intro whole listed bound inside
    exact Statement.parameters_unvisited awaits listed inside
  · rw [← statement.targets_infer] at plain
    exact List.forall_mem_map.mp plain

end Resolved

variable {parser : SqlParser} {definitions : List EntityDefinition} {model : Model} {source : String}
  {tree : Grammar.Statement} {index : FromIndex}

/-- What a text assigns has no index. -/
theorem targets_of_parsed {statement : Resolved.Statement} {after : Numbering}
    (accepted : Model.build parser definitions = .ok model) (parsed : parse source = .ok tree)
    (registered : Sources.ofStatement model.catalog tree = .ok index)
    (ran : (Resolution.statement ⟨model.catalog, index⟩ tree).run .unused = .ok (statement, after)) :
    ∀ target ∈ statement.assignments.map (·.target), ∀ segment ∈ target.segments,
      segment.index = none := by
  have within := (resolved_of_parsed parsed registered ran).1
  have plain := (Sources.ofStatement_admits registered).1
  have fills := Grammar.parse_fillsLists (mapError_ok parsed)
  obtain ⟨_, _, basic⟩ := Resolution.statement_counts _ tree plain fills ran
  have holds : ∀ node ∈ statement.sources, ∀ label type, node.entity.attribute? label = some type →
      type.HoldsEntities := by
    intro node listed label type typed
    obtain ⟨name, found⟩ := known_of_parsed parsed registered ran node listed
    exact Model.holdsEntities_of_resolve? accepted found typed
  refine List.forall_mem_map.mpr fun assignment listed => ?_
  obtain ⟨segments, unindexed⟩ := Resolved.Statement.target_isPlain holds within basic listed
  rw [segments, List.forall_mem_singleton]
  exact unindexed

/-- A parameter that stands as an index has the type of the index, unless it stands in a sort key or in
the collection of a membership test: there it has the type that it has elsewhere. -/
theorem interpret_typesIndices {given : Resolved.Statement}
    (accepted : Model.build parser definitions = .ok model)
    (interpreted : interpret model.catalog source = .ok given) :
    ∃ tree resolved, parse source = .ok tree ∧
      Resolved.Statement.resolve model.catalog tree = .ok resolved ∧ given = resolved.infer ∧
      resolved.TypesIndices given := by
  obtain ⟨tree, index, resolved, after, parsed, registered, ran, rfl⟩ := interpret_ok interpreted
  have found : Resolved.Statement.resolve model.catalog tree = .ok resolved :=
    resolve_ok.mpr ⟨index, after, registered, ran⟩
  exact ⟨tree, resolved, parsed, found, rfl, Resolved.Statement.typesIndices_infer
    (Resolution.statement_awaits _ tree ran) (resolved_of_parsed parsed registered ran).1
    (targets_of_parsed accepted parsed registered ran)⟩

/-- A text with the same index in the select list, where it is typed, and in a sort key. -/
def itemsInOrder : String := "select o.items[:k].n from Order o order by o.items[:k].n"

/-- The index has its type in the sort key as well, since the select list gives it one. -/
theorem interpret_typesIndices_itemsInOrder : ∃ model given,
    Model.ofDefinitions shop = .ok model ∧ interpret model.catalog itemsInOrder = .ok given ∧
    given.occurrences = [.ofBasic "k" .integer, .ofBasic "k" .integer] ∧
    ∃ tree resolved, parse itemsInOrder = .ok tree ∧
      Resolved.Statement.resolve model.catalog tree = .ok resolved ∧ given = resolved.infer ∧
      resolved.TypesIndices given := by
  have checked : reports shop itemsInOrder [.ofBasic "k" .integer, .ofBasic "k" .integer]
      [.ofBasic "k" .integer] [.ofBasic "k" .integer] = true := by decide +kernel
  obtain ⟨model, given, _, accepted, interpreted, _, occurrences, _⟩ := exists_of_reports checked
  exact ⟨model, given, accepted, interpreted, occurrences,
    interpret_typesIndices accepted interpreted⟩

/-! ## Indices without a type -/

/-- A path in what the text means has a parameter without a type for an index, although the index has
one. -/
def LeavesIndexUntyped (definitions : List EntityDefinition) (source : String) : Prop :=
  ∃ (model : Model) (given : Resolved.Statement) (reference : Resolved.Reference Resolved.Expr)
    (segment : Resolved.Segment Resolved.Expr) (kind : ParameterKind) (key : DataType),
    Model.ofDefinitions definitions = .ok model ∧ interpret model.catalog source = .ok given ∧
    .path reference ∈ given.nodes ∧ segment ∈ reference.segments ∧
    segment.index = some (.parameter ⟨kind, none⟩) ∧ segment.indexType? = some key

namespace Resolved

/-- Whether the segment has a parameter without a type for an index that has one. -/
def Segment.isUntyped (segment : Segment Expr) : Bool :=
  match segment.index, segment.indexType? with
  | some (.parameter ⟨_, none⟩), some _ => true
  | _, _ => false

/-- Whether the expression is a path with such a segment. -/
def Expr.hasUntypedIndex : Expr → Bool
  | .path reference => reference.segments.any Segment.isUntyped
  | _ => false

/-- The check on an expression finds the index without a type. -/
theorem Expr.exists_of_hasUntypedIndex {expr : Expr} (passed : expr.hasUntypedIndex = true) :
    ∃ reference segment kind key, expr = .path reference ∧ segment ∈ reference.segments ∧
      segment.index = some (.parameter ⟨kind, none⟩) ∧ segment.indexType? = some key := by
  cases expr with
  | path reference =>
    obtain ⟨segment, along, untyped⟩ := List.any_eq_true.mp passed
    unfold Segment.isUntyped at untyped
    split at untyped
    · rename_i kind key stands typed
      exact ⟨reference, segment, kind, key, rfl, along, stands, typed⟩
    · cases untyped
  | _ => cases passed

end Resolved

/-- Decides whether the text leaves an index without a type. -/
def leavesIndexUntyped (definitions : List EntityDefinition) (source : String) : Bool :=
  match Model.ofDefinitions definitions with
  | .error _ => false
  | .ok model =>
    match interpret model.catalog source with
    | .error _ => false
    | .ok given => given.nodes.any Resolved.Expr.hasUntypedIndex

/-- The check on a text finds an index that stays untyped. -/
theorem of_leavesIndexUntyped (passed : leavesIndexUntyped definitions source = true) :
    LeavesIndexUntyped definitions source := by
  unfold leavesIndexUntyped at passed
  split at passed
  · cases passed
  · rename_i model accepted
    split at passed
    · cases passed
    · rename_i given interpreted
      obtain ⟨expr, listed, untyped⟩ := List.any_eq_true.mp passed
      obtain ⟨reference, segment, kind, key, rfl, rest⟩ :=
        Resolved.Expr.exists_of_hasUntypedIndex untyped
      exact ⟨model, given, reference, segment, kind, key, accepted, interpreted, listed, rest⟩

/-- Shops with orders of items. -/
def orderedItems : List EntityDefinition := [
  { name := "Shop"
    table := some "shops"
    attributes := [
      ⟨"id", "long", none, none, none⟩,
      ⟨"orders", "list<Order>", none, some "shop_id", some "pos"⟩] },
  { name := "Order"
    table := some "orders"
    attributes := [
      ⟨"id", "long", none, none, none⟩, ⟨"items", "set<Item>", none, some "order_id", none⟩] },
  { name := "Item"
    table := some "items"
    attributes := [⟨"id", "long", none, none, none⟩] }]

/-- An index in a sort key and an index in the collection of a membership test get no type, if the
parameter does not occur elsewhere. -/
theorem indices_without_types :
    LeavesIndexUntyped shop "select o.id from Order o order by o.items[:k].n" ∧
    LeavesIndexUntyped orderedItems
      "select s.id from Shop s, Item i where i member of s.orders[:k].items" :=
  ⟨of_leavesIndexUntyped (by decide +kernel), of_leavesIndexUntyped (by decide +kernel)⟩

end ObjectQuery
