import ObjectQuery.Proofs.Lowering.Change
import ObjectQuery.Proofs.Lowering.Skeletons
import ObjectQuery.Proofs.Parts
/-!
# Shapes of lowered expressions

Paths and sources become columns, and everything else of an expression or a condition stays as it is
written: the operators, the literals and parameters, the functions, and the flags. There is one flag
that gets lost: a count of all distinct rows becomes a count of all rows.
-/
namespace ObjectQuery

open Sql
open Resolved (CountsRows)

/-- The SQL form has the shape without the flags of counts of all rows, and if none of these counts is
one of distinct rows, that is the shape as it is written. -/
def Sql.Expr.HasShape (value : Sql.Expr) (sources : List String) (nodes : List Resolved.Expr)
    (skeleton : Bool → Sql.Expr) : Prop :=
  value.skeleton sources = skeleton false ∧
    (CountsRows nodes → value.skeleton sources = skeleton true)

variable {parser : SqlParser} {definitions : List EntityDefinition} {model : Model} {source : String}
  {given part : Resolved.Statement}

/-- Every expression and every condition of what a text means has in SQL the shape that it is written
in, with the flags of counts of all rows left out. -/
theorem lowering_keepsShapes (accepted : Model.build parser definitions = .ok model)
    (interpreted : interpret model.catalog source = .ok given) (member : part ∈ given.split)
    (policy : JoinPolicy) :
    (∀ expr ∈ part.nodes, ∀ state value after,
      Lowering.Yields (Lowering.expr ⟨model.catalog, policy⟩ expr) state value after →
        value.HasShape (part.sources.map (·.label)) expr.nodes expr.skeleton) ∧
    ∀ condition ∈ part.conditions, ∀ state value after,
      Lowering.Yields (Lowering.predicate ⟨model.catalog, policy⟩ condition) state value after →
        value.HasShape (part.sources.map (·.label)) condition.nodes condition.skeleton := by
  obtain ⟨_, ready⟩ := ready_of_mem_split accepted interpreted member policy
  have plain : ∀ source ∈ part.sources.map (·.label), IsPlainName source :=
    List.forall_mem_map.mpr ready.coming.plain
  refine ⟨fun expr _ state value after run => ?_, fun condition listed state value after run => ?_⟩
  · have same := (Lowering.expr_draws plain expr run).2
    exact ⟨same, fun counts => same.trans (Resolved.Expr.skeleton_eq counts).symm⟩
  · have known := Resolved.Statement.sources_of_mem_conditions listed
    have same := (Lowering.predicate_draws plain condition (List.map_subset _ known) run).2
    exact ⟨same, fun counts => same.trans (condition.skeleton_eq counts).symm⟩

/-! ## Filters of statements -/

/-- The filter of a statement in SQL. -/
def Sql.Statement.filter? : Sql.Statement → Option Sql.Expr
  | .select lowered => lowered.filter
  | .update change => change.filter
  | .delete removal => removal.filter

/-- The filter of a statement is what its condition is lowered to. -/
theorem Lowering.statement_filter {context : LoweringContext} {start after : LoweringState}
    {statement : Sql.Statement} (run : Yields (Lowering.statement context part) start statement after) :
    ∃ before later, Yields (filter context part.filter?) before statement.filter? later := by
  cases part with
  | select query order =>
    simp only [Lowering.statement, select, yields_bind, yields_pure] at run
    obtain ⟨_, _, ⟨⟨⟨chosen, filtered, keys⟩, scope⟩, _, ranScope, rfl, rfl⟩, rfl, rfl⟩ := run
    obtain ⟨_, ran, _, _⟩ := yields_inScope.mp ranScope
    simp only [yields_bind, yields_pure] at ran
    obtain ⟨_, _, _, _, _, _, _, _, ranFilter, _, _, _, same, _⟩ := ran
    obtain ⟨_, rfl, _⟩ := Prod.mk.inj same
    exact ⟨_, _, ranFilter⟩
  | update target assignments condition =>
    simp only [Lowering.statement, yields_bind, yields_lift] at run
    obtain ⟨_, _, _, run⟩ := run
    obtain ⟨_, _, ran, _⟩ := yields_inTargetScope.mp run
    simp only [yields_bind, yields_pure] at ran
    obtain ⟨_, _, _, _, _, ranFilter, rfl, _⟩ := ran
    exact ⟨_, _, ranFilter⟩
  | delete target condition =>
    simp only [Lowering.statement, yields_bind, yields_lift] at run
    obtain ⟨_, _, _, run⟩ := run
    obtain ⟨_, _, ran, _⟩ := yields_inTargetScope.mp run
    simp only [yields_bind, yields_pure] at ran
    obtain ⟨_, _, ranFilter, rfl, _⟩ := ran
    exact ⟨_, _, ranFilter⟩

/-- A predicate is one of its conditions. -/
theorem Resolved.Predicate.mem_conditions (predicate : Resolved.Predicate) :
    predicate ∈ predicate.conditions := by
  cases predicate <;> simp [Resolved.Predicate.conditions]

/-- The condition of a statement is one of its conditions. -/
theorem Resolved.Statement.mem_conditions_of_filter? {condition : Resolved.Predicate}
    (filtered : part.filter? = some condition) : condition ∈ part.conditions := by
  have own : condition ∈ Resolved.filterConditions (some condition) := condition.mem_conditions
  rw [← filtered] at own
  cases part with
  | select query order =>
    obtain ⟨spaces, distinct, selections, filter⟩ := query
    exact List.mem_append_right _ own
  | update target assignments filter => exact own
  | delete target filter => exact own

/-- Whether the text compiles in the model with these definitions, and has a condition without counts
of distinct rows in all its parts. -/
def filtersRows (definitions : List EntityDefinition) (source : String) : Bool :=
  match Model.ofDefinitions definitions with
  | .error _ => false
  | .ok model =>
    match interpret model.catalog source, compile model.catalog .outer source with
    | .ok given, .ok (_ :: _) => given.split.all fun part =>
        part.filter?.any fun condition => condition.nodes.all (!·.countsDistinctRows)
    | _, _ => false

/-- The check on a text finds the condition and what it is lowered to. -/
theorem exists_of_filtersRows (passed : filtersRows definitions source = true) :
    ∃ model given part condition before filtered after, Model.ofDefinitions definitions = .ok model ∧
      interpret model.catalog source = .ok given ∧ part ∈ given.split ∧
      part.filter? = some condition ∧ CountsRows condition.nodes ∧
      Lowering.Yields (Lowering.predicate ⟨model.catalog, .outer⟩ condition) before filtered after := by
  unfold filtersRows at passed
  split at passed
  · cases passed
  · rename_i model accepted
    split at passed
    · rename_i given statement rest interpreted compiled
      obtain ⟨other, part, _, same, listed, run⟩ := compile_statement compiled List.mem_cons_self
      obtain rfl := Except.ok.inj (interpreted.symm.trans same)
      have counts := List.all_eq_true.mp passed part listed
      obtain ⟨before, later, ran⟩ := Lowering.statement_filter run
      cases own : part.filter? with
      | none =>
        rw [own] at counts
        cases counts
      | some condition =>
        rw [own] at counts ran
        simp only [Lowering.filter, Lowering.yields_bind] at ran
        obtain ⟨value, between, ran, _⟩ := ran
        refine ⟨model, given, part, condition, before, value, between, accepted, interpreted, listed, own,
          fun node inside => ?_, ran⟩
        simpa using List.all_eq_true.mp counts node inside
    · cases passed

/-- A text with negated tests, a call with a flag, a parameter and a join with a condition. -/
def itemsApart : String :=
  "delete from Order o where o.a + 1 not between -3 and o.b * 2 and o.b not in " ++
  "(select count(distinct p.a) from Order p left join p.items i on i.n <> :n " ++
  "where i not member of p.items or p.customer.name not like 'x%')"

/-- The filter of the text about items keeps its shape. -/
theorem lowering_keepsShapes_itemsApart : ∃ model given part condition before filtered after,
    Model.ofDefinitions shop = .ok model ∧ interpret model.catalog itemsApart = .ok given ∧
    part ∈ given.split ∧ part.filter? = some condition ∧
    Lowering.Yields (Lowering.predicate ⟨model.catalog, .outer⟩ condition) before filtered after ∧
    filtered.skeleton (part.sources.map (·.label)) = condition.skeleton true := by
  have checked : filtersRows shop itemsApart = true := by decide +kernel
  obtain ⟨model, given, part, condition, before, filtered, after, accepted, interpreted, member, own,
    counts, run⟩ := exists_of_filtersRows checked
  exact ⟨model, given, part, condition, before, filtered, after, accepted, interpreted, member, own, run,
    ((lowering_keepsShapes accepted interpreted member .outer).2 condition
      (Resolved.Statement.mem_conditions_of_filter? own) before filtered after run).2 counts⟩

/-! ## Counts of distinct rows -/

/-- Whether a part of what the text means in the model with these definitions has a count of distinct
rows. -/
def countsDistinct (definitions : List EntityDefinition) (source : String) : Bool :=
  match Model.ofDefinitions definitions with
  | .error _ => false
  | .ok model =>
    match interpret model.catalog source with
    | .error _ => false
    | .ok given => given.split.any fun part => part.nodes.any fun expr =>
        match expr with
        | .call .count true none _ => true
        | _ => false

/-- An expression of a text loses the flag of its count when it is lowered. -/
theorem lowering_losesFlag : ∃ model given part expr state value after,
    Model.ofDefinitions shop = .ok model ∧
    interpret model.catalog "select count(distinct *) from Order o" = .ok given ∧
    part ∈ given.split ∧ expr ∈ part.nodes ∧
    Lowering.Yields (Lowering.expr ⟨model.catalog, .outer⟩ expr) state value after ∧
    value.skeleton (part.sources.map (·.label)) ≠ expr.skeleton true := by
  have checked : countsDistinct shop "select count(distinct *) from Order o" = true := by decide +kernel
  unfold countsDistinct at checked
  split at checked
  · cases checked
  · rename_i model accepted
    split at checked
    · cases checked
    · rename_i given interpreted
      obtain ⟨part, member, counted⟩ := List.any_eq_true.mp checked
      obtain ⟨expr, listed, found⟩ := List.any_eq_true.mp counted
      split at found
      · refine ⟨model, given, part, _, ⟨[], 0⟩, Sql.Expr.countStar, ⟨[], 0⟩, accepted, interpreted, member,
          listed, rfl, ?_⟩
        intro same
        cases same
      · cases found

end ObjectQuery
