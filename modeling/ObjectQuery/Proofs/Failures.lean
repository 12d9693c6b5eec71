import ObjectQuery.Proofs.Parts
import ObjectQuery.Proofs.Supplied
/-!
# Why what a text means may have no SQL form

The statement that a text means has been resolved in a model. So everything that is asked about the
mapping of its entities and attributes has an answer, and every name of a source in it is the name of
a source. What can still go wrong is that the statement asks for something that cannot be expressed,
or that the condition of a join uses a source before its join: names are resolved in whole
from-clauses, but groups are entered source by source, while the conditions of joins are lowered.
-/
namespace ObjectQuery

variable {parser : SqlParser} {definitions : List EntityDefinition} {model : Model} {source : String}
  {statement part : Resolved.Statement}

/-- A part fails as its lowering does. -/
theorem Resolved.Statement.lower_error {context : LoweringContext} {error : LoweringError}
    (failed : part.lower context = .error error) :
    (Lowering.statement context part).run ⟨[], 0⟩ = .error error := by
  unfold Resolved.Statement.lower StateT.run' at failed
  cases ran : (Lowering.statement context part).run ⟨[], 0⟩ with
  | error failure =>
    change Functor.map _ ((Lowering.statement context part).run ⟨[], 0⟩) = _ at failed
    rw [ran] at failed
    exact congrArg _ (Except.error.inj failed)
  | ok result =>
    change Functor.map _ ((Lowering.statement context part).run ⟨[], 0⟩) = _ at failed
    rw [ran] at failed
    cases failed

/-- A part of what a text means fails only for sources that are used ahead of their joins or because
it asks for something that cannot be expressed, and it does fail if there are such sources. -/
theorem lower_of_mem_split (accepted : Model.build parser definitions = .ok model)
    (interpreted : interpret model.catalog source = .ok statement) (policy : JoinPolicy)
    (member : part ∈ statement.split) :
    (∀ error, part.lower ⟨model.catalog, policy⟩ = .error error →
      Lowering.Blames [] [] statement.ahead error) ∧
    ∀ lowered, part.lower ⟨model.catalog, policy⟩ = .ok lowered → statement.ahead = [] := by
  obtain ⟨visible, ready⟩ := ready_of_mem_split accepted interpreted member policy
  have meets := Lowering.statement_meets (Model.catalog_isMapped accepted) ready
  rw [← (kept_of_mem_split accepted interpreted member).2.2]
  refine ⟨fun error failed => meets.error (Resolved.Statement.lower_error failed), fun lowered ran => ?_⟩
  obtain ⟨after, run⟩ := Resolved.Statement.lower_ok ran
  exact (meets.yields run).1

/-- The SQL forms of what a text means are missing for no other reasons. -/
theorem toSql_blames (accepted : Model.build parser definitions = .ok model)
    (interpreted : interpret model.catalog source = .ok statement) {policy : JoinPolicy}
    {error : LoweringError} (failed : statement.toSql ⟨model.catalog, policy⟩ = .error error) :
    Lowering.Blames [] [] statement.ahead error := by
  obtain ⟨before, failing, behind, parts, _, broken⟩ := mapM_error failed
  exact (lower_of_mem_split accepted interpreted policy (parts ▸ by simp)).1 error broken

/-- The mapping never fails to answer: for a text that can be interpreted in a model, lowering never
misses the tables of an entity or the column of an attribute, and never meets a cross join with a
condition. -/
theorem toSql_isMapped (accepted : Model.build parser definitions = .ok model)
    (interpreted : interpret model.catalog source = .ok statement) (policy : JoinPolicy) :
    (∀ entity, statement.toSql ⟨model.catalog, policy⟩ ≠ .error (.missingShape entity)) ∧
      (∀ entity label, statement.toSql ⟨model.catalog, policy⟩ ≠ .error (.unmapped entity label)) ∧
      ∀ label, statement.toSql ⟨model.catalog, policy⟩ ≠ .error (.crossJoinCondition label) :=
  ⟨fun _ failed => toSql_blames accepted interpreted failed,
    fun _ _ failed => toSql_blames accepted interpreted failed,
    fun _ failed => toSql_blames accepted interpreted failed⟩

/-- The text about the city of a party does not fail for want of a mapping. -/
theorem toSql_isMapped_cityOfParty : ∃ model statement,
    Model.ofDefinitions parties = .ok model ∧ interpret model.catalog cityOfParty = .ok statement ∧
      (∀ entity, statement.toSql ⟨model.catalog, .mapped⟩ ≠ .error (.missingShape entity)) ∧
      (∀ entity label, statement.toSql ⟨model.catalog, .mapped⟩ ≠ .error (.unmapped entity label)) ∧
      ∀ label, statement.toSql ⟨model.catalog, .mapped⟩ ≠ .error (.crossJoinCondition label) := by
  have checked : compilesTo parties .mapped cityOfParty (fun _ => true) = true := by decide +kernel
  obtain ⟨model, statements, _, accepted, compiled, _, _⟩ := exists_of_compilesTo checked
  obtain ⟨statement, interpreted, _⟩ := except_bind_ok.mp compiled
  exact ⟨model, statement, accepted, interpreted, toSql_isMapped accepted interpreted .mapped⟩

/-- A name that stands for no group when it is looked up is that of a source that the condition of a
join uses ahead of its own join. A text that uses a source in this way has no SQL form. -/
theorem toSql_unknownLabel (accepted : Model.build parser definitions = .ok model)
    (interpreted : interpret model.catalog source = .ok statement) (policy : JoinPolicy) :
    (∀ label, statement.toSql ⟨model.catalog, policy⟩ = .error (.unknownLabel label) →
      label ∈ statement.ahead) ∧
    (statement.ahead ≠ [] → ∃ error, statement.toSql ⟨model.catalog, policy⟩ = .error error) := by
  refine ⟨fun label failed => ?_, fun early => ?_⟩
  · exact (toSql_blames accepted interpreted failed).resolve_left nofun
  · cases outcome : statement.toSql ⟨model.catalog, policy⟩ with
    | error failure => exact ⟨failure, rfl⟩
    | ok statements =>
      obtain ⟨_, _, _, _, _, _, parts⟩ := interpret_keeps accepted interpreted
      obtain ⟨part, listed⟩ := List.exists_mem_of_ne_nil _ parts
      obtain ⟨lowered, ran⟩ := mapM_succeeds.mp ⟨statements, outcome⟩ part listed
      exact (early ((lower_of_mem_split accepted interpreted policy listed).2 lowered ran)).elim

/-- Whether the text has a meaning in a model with these definitions, but no SQL form because the name
stands for no group. -/
def missesLabel (definitions : List EntityDefinition) (policy : JoinPolicy) (source label : String) :
    Bool :=
  match Model.ofDefinitions definitions with
  | .error _ => false
  | .ok model =>
    match interpret model.catalog source with
    | .error _ => false
    | .ok statement =>
      match statement.toSql ⟨model.catalog, policy⟩ with
      | .error failure => failure == .unknownLabel label
      | .ok _ => false

/-- The check on a text finds the label its conversion misses. -/
theorem exists_of_missesLabel {policy : JoinPolicy} {label : String}
    (missed : missesLabel definitions policy source label = true) :
    ∃ model statement, Model.ofDefinitions definitions = .ok model ∧
      interpret model.catalog source = .ok statement ∧
        statement.toSql ⟨model.catalog, policy⟩ = .error (.unknownLabel label) := by
  unfold missesLabel at missed
  split at missed
  · cases missed
  · rename_i model accepted
    split at missed
    · cases missed
    · rename_i statement interpreted
      refine ⟨model, statement, accepted, interpreted, ?_⟩
      split at missed
      · rename_i failure failed
        rw [failed, eq_of_beq missed]
      · cases missed

/-- A text with a query in the condition of a join that uses the source of a later item. -/
def queryBeforeItem : String :=
  "select o.id from Order o join Customer c on c.id in (select p.id from Order p where p.a = i.n), Item i"

/-- The label of the later item is unknown where the condition of the join looks for it. -/
theorem toSql_unknownLabel_queryBeforeItem : ∃ model statement,
    Model.ofDefinitions shop = .ok model ∧ interpret model.catalog queryBeforeItem = .ok statement ∧
      statement.toSql ⟨model.catalog, .inner⟩ = .error (.unknownLabel "i") ∧
      "i" ∈ statement.ahead ∧
      ∃ error, statement.toSql ⟨model.catalog, .outer⟩ = .error error := by
  have missed : missesLabel shop .inner queryBeforeItem "i" = true := by decide +kernel
  obtain ⟨model, statement, accepted, interpreted, failed⟩ := exists_of_missesLabel missed
  have early := (toSql_unknownLabel accepted interpreted .inner).1 "i" failed
  exact ⟨model, statement, accepted, interpreted, failed, early,
    (toSql_unknownLabel accepted interpreted .outer).2 (List.ne_nil_of_mem early)⟩

/-- A name may have been resolved and still stand for no group when it is looked up: here the condition
of the first join uses the source of the second one. -/
theorem toSql_misses_label : ∃ model statement, Model.ofDefinitions shop = .ok model ∧
    interpret model.catalog "select o.id from Order o join Customer c on c.id = i.n
      join Item i on i.id = o.id" = .ok statement ∧
      statement.toSql ⟨model.catalog, .outer⟩ = .error (.unknownLabel "i") :=
  exists_of_missesLabel (by decide +kernel)

end ObjectQuery
