import ObjectQuery.Proofs.Compiled
import ObjectQuery.Proofs.Resolved.Addresses
import ObjectQuery.Proofs.Resolved.PredicatePlaces
import ObjectQuery.Proofs.Resolved.Rewritten
/-!
# What a rewriting meets

A rewriting of predicates meets the predicates inside a predicate from the innermost outwards, each of
them once. It leaves out the conditions of the joins of sub-queries.

A rewriting of expressions meets all expressions of a statement, the conditions of joins included, in
the order in which they are read.
-/
namespace ObjectQuery

namespace Resolved

/-! ## Predicates -/

/-- Rewriting a predicate rewrites the predicates at places one after the other where they stand: each
of the places once, and none before the places further in. The places are those of the predicates in
it that no join leads to, and what stands there is listed by `inside`. -/
theorem Predicate.rewrite_meets (predicate : Predicate) : ∃ places : List Place,
    (∀ {σ : Type} (f : Predicate → StateM σ Predicate),
      predicate.rewrite f = predicate.rewriteEach f places) ∧
    places.Nodup ∧ places.Pairwise (fun earlier later => ¬ earlier <+: later) ∧
    (∀ place, place ∈ places ↔
      (predicate.at? place).isSome ∧ ∀ branch ∈ place, branch.isJoin = false) ∧
    places.map predicate.at? = predicate.inside.map some :=
  ⟨predicate.reached, fun f => predicate.rewrite_eq f, predicate.nodup_reached,
    predicate.pairwise_reached, predicate.mem_reached, predicate.map_at?_reached⟩

/-- Leaves a predicate as it is and counts it. -/
def Predicate.counted (predicate : Predicate) : StateM Nat Predicate := do
  modify (· + 1)
  return predicate

end Resolved

/-- A text with a condition for a join of a sub-query. -/
def joinInQuery : String :=
  "select o.id from Order o where o.id in (select i.id from Item i join Customer c on c.id = i.n)"

/-- The condition of a join of a sub-query stands inside a condition and is not met. -/
theorem rewrite_misses_joinCondition : ∃ model statement condition part,
    Model.ofDefinitions shop = .ok model ∧ interpret model.catalog joinInQuery = .ok statement ∧
    statement.filter? = some condition ∧ condition.at? [.join 0 0] = some part ∧
    ((condition.rewrite Resolved.Predicate.counted).run 0).2 = 1 := by
  have checked : means shop joinInQuery (fun statement => statement.filter?.any fun condition =>
    (condition.at? [.join 0 0]).isSome &&
      ((condition.rewrite Resolved.Predicate.counted).run 0).2 == 1) = true := by decide +kernel
  obtain ⟨model, statement, accepted, interpreted, passed⟩ := exists_of_means checked
  obtain ⟨condition, own, passed⟩ := Option.any_eq_true _ _ |>.mp passed
  simp only [Bool.and_eq_true, beq_iff_eq] at passed
  obtain ⟨part, stands⟩ := Option.isSome_iff_exists.mp passed.1
  exact ⟨model, statement, condition, part, accepted, interpreted, own, stands, passed.2⟩

namespace Resolved

/-! ## Expressions -/

/-- Rewriting the expressions of a statement through a function that only rewrites recorded types
succeeds. Whoever notes what the function is given gets the expressions in the order in which they are
read, each as it stands in the statement. What is read afterwards is what was read before, element by
element, with the function applied to each expression and to everything inside it. There is one element
for each address that leads to an expression, in the order of the addresses. -/
theorem Statement.rewrites_as_read (g : TypeRewriting) (statement : Statement) :
    (∀ {σ : Type} (note : Expr → StateT σ Option Unit), statement.rewriteExprs (showing note g) = do
      statement.nodes.forM note
      return statement.rewritten g) ∧
    (statement.rewritten g).nodes = statement.nodes.map (Expr.rewritten g) ∧
    LeadsTo (Fragment.statement statement).at? statement.nodes :=
  ⟨fun note => statement.rewriteExprs_showing note g, statement.nodes_rewritten g, statement.leadsTo⟩

end Resolved

end ObjectQuery
