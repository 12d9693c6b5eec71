import ObjectQuery.Proofs.Lowering.Parameters
import ObjectQuery.Proofs.Model.Collections
import ObjectQuery.Proofs.Polymorphic
import ObjectQuery.Proofs.Resolution.Admitted
import ObjectQuery.Proofs.Resolution.Counted
import ObjectQuery.Proofs.Resolved.Retyped
/-!
# What has to be supplied

Every parameter that a text spells is one of the parameters of what the text means, and each of these
is one placeholder of each SQL statement that comes out. A plan numbers the placeholders in their
order. So what is asked for is what the text spells: nothing is lost, doubled or renumbered on the way
from the text through the resolved statement and its parts into the conditions of joins.
-/
namespace ObjectQuery

open Resolved (FromNode countOf)

/-! ## Each kind once -/

namespace Parameter

variable {kind : ParameterKind} {found : List Parameter}

/-- The kinds collected are those there were and the one added. -/
theorem mem_addNew {parameter : Parameter} :
    kind ∈ (addNew found parameter).map (·.kind) ↔
      kind ∈ found.map (·.kind) ∨ kind = parameter.kind := by
  unfold addNew
  split
  · rename_i known
    obtain ⟨other, listed, same⟩ := List.any_eq_true.mp known
    have already : parameter.kind ∈ found.map (·.kind) :=
      beq_iff_eq.mp same ▸ List.mem_map_of_mem listed
    constructor
    · exact Or.inl
    · rintro (earlier | rfl)
      · exact earlier
      · exact already
  · simp

/-- No kind is collected twice. -/
theorem nodup_addNew {parameter : Parameter} (unique : (found.map (·.kind)).Nodup) :
    ((addNew found parameter).map (·.kind)).Nodup := by
  unfold addNew
  split
  · exact unique
  · rename_i unknown
    have new : parameter.kind ∉ found.map (·.kind) := by
      intro known
      obtain ⟨other, listed, same⟩ := List.mem_map.mp known
      exact unknown (List.any_eq_true.mpr ⟨other, listed, beq_iff_eq.mpr same⟩)
    rw [List.map_append, List.map_singleton, ← List.concat_eq_append, List.nodup_concat]
    exact ⟨new, unique⟩

/-- The kinds collected are those there were and those of the items. -/
theorem mem_foldl_addNew : ∀ {items found : List Parameter},
    kind ∈ (items.foldl addNew found).map (·.kind) ↔
      kind ∈ found.map (·.kind) ∨ kind ∈ items.map (·.kind)
  | [], found => by simp
  | item :: rest, found => by
    rw [List.foldl_cons, mem_foldl_addNew, mem_addNew, List.map_cons, List.mem_cons, or_assoc]

/-- However many are added, no kind is collected twice. -/
theorem nodup_foldl_addNew : ∀ {items found : List Parameter}, (found.map (·.kind)).Nodup →
    ((items.foldl addNew found).map (·.kind)).Nodup
  | [], found, unique => unique
  | item :: rest, found, unique => by
    rw [List.foldl_cons]
    exact nodup_foldl_addNew (nodup_addNew unique)

/-- The kinds of the parameters are kept. -/
theorem mem_distinct {parameters : List Parameter} :
    kind ∈ (distinct parameters).map (·.kind) ↔ kind ∈ parameters.map (·.kind) := by
  rw [distinct, mem_foldl_addNew, List.map_nil, or_iff_right List.not_mem_nil]

/-- No kind is there twice. -/
theorem nodup_distinct (parameters : List Parameter) :
    ((distinct parameters).map (·.kind)).Nodup :=
  nodup_foldl_addNew List.nodup_nil

end Parameter

/-! ## Targets of assignments -/

namespace Resolved

/-- A path to a basic value along one attribute has no index if collections hold entities. -/
theorem Segment.index_of_basic {ε : Type} {segment : Segment ε} (typed : segment.IsTyped)
    (holds : segment.declared.HoldsEntities) (basic : segment.type.basic?.isSome = true) :
    segment.index = none := by
  obtain ⟨label, declared, index, after⟩ := segment
  cases index with
  | none => rfl
  | some index =>
    obtain ⟨indexed, element⟩ := typed
    rcases declared with type | ⟨kind, (type | name)⟩
    · cases indexed
    · exact holds.elim
    · rw [← Option.some.inj element] at basic
      cases basic

/-- A segment without an index holds no parameter. -/
theorem countOf_segment {segment : Segment Expr} (plain : segment.index = none) :
    countOf (segmentNodes [segment]) = 0 := by
  obtain ⟨label, declared, index, after⟩ := segment
  obtain rfl : index = none := plain
  rfl

/-- What is assigned is one attribute, without an index. -/
theorem Statement.target_isPlain {catalog : Catalog} {statement : Statement}
    (holds : ∀ node ∈ statement.sources, ∀ label type, node.entity.attribute? label = some type →
      type.HoldsEntities)
    (within : statement.IsScoped catalog) (basic : statement.AssignsBasic) {assignment : Assignment}
    (listed : assignment ∈ statement.assignments) :
    assignment.target.segments = [assignment.target.last] ∧ assignment.target.last.index = none := by
  cases statement with
  | select query order => cases listed
  | delete target filter => cases listed
  | update target assignments filter =>
    obtain ⟨direct, isBasic⟩ := basic assignment listed
    have segments : assignment.target.segments = [assignment.target.last] := by
      rw [Reference.segments, direct, List.nil_append]
    have starts := Statement.target_startsFrom within rfl listed
    have typed := starts.segments
    rw [segments] at typed
    rw [starts.type] at isBasic
    exact ⟨segments,
      Segment.index_of_basic typed.2.1 (holds target List.mem_cons_self _ _ typed.1) isBasic⟩

/-- Assigned attributes have no parameters. -/
theorem Statement.targetCount_eq_zero {catalog : Catalog} {statement : Statement}
    (holds : ∀ node ∈ statement.sources, ∀ label type, node.entity.attribute? label = some type →
      type.HoldsEntities)
    (within : statement.IsScoped catalog) (basic : statement.AssignsBasic) :
    statement.targetCount = 0 := by
  cases statement with
  | select query order => rfl
  | delete target filter => rfl
  | update target assignments filter =>
    apply List.sum_eq_zero
    intro count counted
    obtain ⟨assignment, listed, rfl⟩ := List.mem_map.mp counted
    obtain ⟨segments, plain⟩ := Statement.target_isPlain holds within basic listed
    rw [countOf_path, segments, countOf_segment plain]

/-- A statement has parts if a root that stands for several entities stands for some. -/
theorem Statement.split_ne_nil {statement : Statement}
    (filled : ∀ node ∈ statement.root?, ∀ name implementors,
      node.entity = .polymorphic name implementors → implementors ≠ []) : statement.split ≠ [] := by
  unfold split
  split
  · rename_i label generated name implementors origin rooted
    rw [Ne, List.map_eq_nil_iff]
    exact filled _ rooted name implementors rfl
  · exact List.cons_ne_nil _ _

end Resolved

/-! ## Placeholders -/

namespace Sql.Statement

/-- The statement asks for the parameters of what it is the SQL form of, and its plan says in which
order. -/
structure AsksFor (given : Resolved.Statement) (statement : Statement) : Prop where
  /-- The placeholders stand for the parameters, for each kind as often as it occurs. -/
  kinds : ((Token.parameters statement.tokens).map (·.kind)).Perm (given.occurrences.map (·.kind))
  /-- The plan has one binder for each placeholder, in the order of the placeholders. -/
  binders : statement.plan.binders.map (fun binder => ⟨binder.parameter, binder.type⟩) =
    Token.parameters statement.tokens
  /-- Positions are counted from one. -/
  positions : statement.plan.binders.map (·.position) =
    List.range' 1 (Token.parameters statement.tokens).length

/-- The binders of a plan are the parameters of its text. -/
theorem plan_binders (statement : Statement) :
    statement.plan.binders.map (fun binder => (⟨binder.parameter, binder.type⟩ : Parameter)) =
      Token.parameters statement.tokens := by
  rw [plan, List.map_map]
  exact List.zipIdx_map_fst 1 _

/-- The binders of a plan are numbered from one. -/
theorem plan_positions (statement : Statement) : statement.plan.binders.map (·.position) =
    List.range' 1 (Token.parameters statement.tokens).length := by
  rw [plan, List.map_map]
  exact List.zipIdx_map_snd 1 _

end Sql.Statement

/-- The placeholders of the SQL form of a part stand for the parameters of the whole, with the types
that these have. -/
theorem tokenNeeds_of_lowered {context : LoweringContext} {statement part : Resolved.Statement}
    {lowered : Sql.Statement} {after : LoweringState} (writes : statement.WritesAll)
    (listed : part ∈ statement.infer.split)
    (run : Lowering.Yields (Lowering.statement context part) ⟨[], 0⟩ lowered after) :
    Sql.tokenNeeds lowered.tokens = statement.infer.needs := by
  have same : part.needs = statement.infer.needs :=
    congrArg Multiset.ofList (Resolved.Statement.occurrences_of_split listed)
  have all := Resolved.Statement.writesAll_of_split listed
  have empty : LoweringState.HasShape [] ⟨[], 0⟩ := ⟨rfl, by simp⟩
  obtain ⟨shaped, collected⟩ := Lowering.statement_collects part (all.mpr writes) empty run
  -- A run that starts without levels ends without levels, so no condition of a join is left over.
  have left : after.needs = 0 := by
    rw [LoweringState.needs, List.map_eq_nil_iff.mp shaped.lengths]
    rfl
  rw [left, zero_add, same] at collected
  exact collected.trans (zero_add _)

/-- The placeholders of a part are the kinds of parameters it holds. -/
theorem placeholderKinds_of_lowered {context : LoweringContext} {statement part : Resolved.Statement}
    {lowered : Sql.Statement} {after : LoweringState} (writes : statement.WritesAll)
    (listed : part ∈ statement.infer.split)
    (run : Lowering.Yields (Lowering.statement context part) ⟨[], 0⟩ lowered after) :
    Sql.placeholderKinds lowered.tokens = statement.kinds := by
  rw [Sql.placeholderKinds_eq, tokenNeeds_of_lowered writes listed run,
    ← Resolved.Statement.kinds_eq, statement.same_infer.1]

/-- Both have the same kinds of parameters, each once. -/
structure SameKindsOnce (first second : List Parameter) : Prop where
  firstOnce : (first.map (·.kind)).Nodup
  secondOnce : (second.map (·.kind)).Nodup
  same : ∀ kind, kind ∈ first.map (·.kind) ↔ kind ∈ second.map (·.kind)

/-- If each of some statements asks for the parameters, they do so together. -/
theorem bindings_of_asksFor {given : Resolved.Statement} {statements : List Sql.Statement}
    (filled : statements ≠ []) (asks : ∀ statement ∈ statements, statement.AsksFor given) :
    SameKindsOnce (Sql.Statement.bindings statements) given.parameters := by
  refine ⟨Parameter.nodup_distinct _, Parameter.nodup_distinct _, fun kind => ?_⟩
  rw [Sql.Statement.bindings, Resolved.Statement.parameters, Parameter.mem_distinct,
    Parameter.mem_distinct, List.map_flatMap, List.mem_flatMap]
  constructor
  · rintro ⟨statement, listed, met⟩
    exact (asks statement listed).kinds.mem_iff.mp met
  · intro met
    obtain ⟨statement, listed⟩ := List.exists_mem_of_ne_nil _ filled
    exact ⟨statement, listed, (asks statement listed).kinds.mem_iff.mpr met⟩

/-! ## From the text to the placeholders -/

variable {parser : SqlParser} {definitions : List EntityDefinition} {model : Model} {source : String}

/-- What a text means has the parameters of the text and at least one part, and all of it is
written. -/
theorem interpret_keeps {given : Resolved.Statement}
    (accepted : Model.build parser definitions = .ok model)
    (interpreted : interpret model.catalog source = .ok given) :
    ∃ (tree : Grammar.Statement) (resolved : Resolved.Statement), parse source = .ok tree ∧
      given = resolved.infer ∧ resolved.WritesAll ∧ given.kinds.card = tree.parameterCount ∧
      given.split ≠ [] := by
  obtain ⟨tree, index, resolved, after, parsed, registered, ran, rfl⟩ := interpret_ok interpreted
  have within := (resolved_of_parsed parsed registered ran).1
  have plain := (Sources.ofStatement_admits registered).1
  have fills := Grammar.parse_fillsLists (mapError_ok parsed)
  obtain ⟨counts, writes, basic⟩ := Resolution.statement_counts _ tree plain fills ran
  have stands := known_of_parsed parsed registered ran
  refine ⟨tree, resolved, parsed, rfl, writes, ?_, ?_⟩
  -- Targets of assignments are not visited, so their parameters would be missing.
  · have targets : resolved.targetCount = 0 := by
      apply Resolved.Statement.targetCount_eq_zero _ within basic
      intro node listed label type typed
      obtain ⟨name, found⟩ := stands node listed
      exact Model.holdsEntities_of_resolve? accepted found typed
    rw [resolved.same_infer.1, ← counts, targets]
    rfl
  · refine Resolved.Statement.split_ne_nil fun node rooted name implementors several => ?_
    rw [resolved.root?_infer] at rooted
    obtain ⟨root, found⟩ := stands node (Resolved.Statement.root_mem_sources rooted)
    rw [several] at found
    exact (Model.rootImplementors_of_polymorphic found).2

/-- Nothing that a text leaves to be supplied is lost, doubled or renumbered. The parameters of what
the text means are as many as the text spells, each statement that comes out has one placeholder for
each of them, and its plan binds the placeholders in order. -/
theorem parameters_are_kept {policy : JoinPolicy} {statements : List Sql.Statement}
    (accepted : Model.build parser definitions = .ok model)
    (compiled : compile model.catalog policy source = .ok statements) :
    ∃ tree given, parse source = .ok tree ∧ interpret model.catalog source = .ok given ∧
      given.occurrences.length = tree.parameterCount ∧
      (∀ statement ∈ statements, statement.AsksFor given) ∧
      SameKindsOnce (Sql.Statement.bindings statements) given.parameters := by
  obtain ⟨given, interpreted, lowered⟩ := except_bind_ok.mp compiled
  obtain ⟨tree, resolved, parsed, inferred, writes, counts, parts⟩ :=
    interpret_keeps accepted interpreted
  have asks : ∀ statement ∈ statements, statement.AsksFor given := by
    intro statement member
    obtain ⟨part, listed, single⟩ := mem_of_mapM_ok (mapError_ok lowered) statement member
    obtain ⟨after, run⟩ := Resolved.Statement.lower_ok single
    have same := placeholderKinds_of_lowered writes (inferred ▸ listed) run
    rw [← resolved.same_infer.1, ← inferred] at same
    exact ⟨Multiset.coe_eq_coe.mp same, statement.plan_binders, statement.plan_positions⟩
  have filled : statements ≠ [] := by
    have paired := mapM_ok_iff.mp (mapError_ok lowered)
    rw [← List.length_pos_iff, ← paired.length_eq, List.length_pos_iff]
    exact parts
  refine ⟨tree, given, parsed, interpreted, ?_, asks, bindings_of_asksFor filled asks⟩
  rw [← counts]
  simp [Resolved.Statement.kinds, Resolved.kindsOf, Resolved.Statement.occurrences]

/-- A text with parameters in a select list, in indices, in a query that uses an index of the query
around it, in a list and in a sort key. -/
def officesByPlace : String :=
  "select p.name, p.offices[?].city from Party p where p.name in (?, ?) or " ++
  "p.offices[? + 1].city in (select a.city from Address a where a.id = ? or a.city = p.offices[?].city) " ++
  "order by p.offices[?].city"

/-- The offices by place keep all of their parameters. -/
theorem parameters_are_kept_officesByPlace : ∃ model statements statement,
    Model.ofDefinitions parties = .ok model ∧
    compile model.catalog .outer officesByPlace = .ok statements ∧ statement ∈ statements ∧
    (Sql.Token.parameters statement.tokens).length = 7 ∧
    ∃ tree given, parse officesByPlace = .ok tree ∧
      interpret model.catalog officesByPlace = .ok given ∧
      given.occurrences.length = tree.parameterCount ∧
      (∀ statement ∈ statements, statement.AsksFor given) ∧
      SameKindsOnce (Sql.Statement.bindings statements) given.parameters := by
  have checked : compilesTo parties .outer officesByPlace (fun statement =>
      (Sql.Token.parameters statement.tokens).length == 7) = true := by decide +kernel
  obtain ⟨model, statements, statement, accepted, compiled, member, seven⟩ :=
    exists_of_compilesTo checked
  exact ⟨model, statements, statement, accepted, compiled, member, beq_iff_eq.mp seven,
    parameters_are_kept accepted compiled⟩

end ObjectQuery
