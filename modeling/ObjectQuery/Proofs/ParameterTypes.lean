import ObjectQuery.Proofs.Compiled
import ObjectQuery.Proofs.Supplied
/-!
# Types of parameters

A parameter may occur several times. First every occurrence is typed by what stands beside it, and then
those without a type take that of the first occurrence that has one. So either all occurrences of a
parameter have a type or none has.

They have the same type exactly if what stands beside them does not type two of them differently.
Nothing brings two such occurrences together: each keeps its type, and which one is reported depends on
which occurrence comes first, in the statement or in its SQL form. If there are no such occurrences, the
statement and its SQL forms report the same type.
-/
namespace ObjectQuery

open Resolved (knownType?)

namespace Parameter

variable {kind : ParameterKind} {parameters : List Parameter}

/-- All parameters of the kind have the same type, or none of them has one. -/
def AgreeOn (kind : ParameterKind) (parameters : List Parameter) : Prop :=
  ∀ first ∈ parameters, ∀ second ∈ parameters, first.kind = kind → second.kind = kind →
    first.type = second.type

/-- Two parameters of the kind have different types. -/
def ConflictOn (kind : ParameterKind) (parameters : List Parameter) : Prop :=
  ∃ first ∈ parameters, ∃ second ∈ parameters, first.kind = kind ∧ second.kind = kind ∧
    ∃ type other, first.type = some type ∧ second.type = some other ∧ type ≠ other

/-- Of the parameters of the kind, all have a type or none has. -/
def TypedTogether (kind : ParameterKind) (parameters : List Parameter) : Prop :=
  ∀ first ∈ parameters, ∀ second ∈ parameters, first.kind = kind → second.kind = kind →
    first.type.isSome = true → second.type.isSome = true

/-- The parameters with the type of the first typed one of the same kind where there is none. -/
def shared (parameters : List Parameter) : List Parameter :=
  parameters.map fun parameter =>
    ⟨parameter.kind, parameter.type <|> knownType? parameters parameter.kind⟩

/-- No type is known for a kind if none of its parameters has one. -/
theorem knownType?_eq_none : knownType? parameters kind = none ↔
    ∀ parameter ∈ parameters, parameter.kind = kind → parameter.type = none := by
  simp [knownType?, List.findSome?_eq_none_iff]

/-- A known type is that of a parameter of the kind. -/
theorem exists_of_knownType? {type : DataType} (known : knownType? parameters kind = some type) :
    ∃ parameter ∈ parameters, parameter.kind = kind ∧ parameter.type = some type := by
  obtain ⟨parameter, listed, typed⟩ := List.exists_of_findSome?_eq_some known
  split at typed
  · rename_i same
    exact ⟨parameter, listed, same, typed⟩
  · cases typed

/-- A shared parameter has its own type or the one known for its kind. -/
theorem mem_shared {parameter : Parameter} : parameter ∈ shared parameters ↔
    ∃ given ∈ parameters, given.kind = parameter.kind ∧
      parameter.type = (given.type <|> knownType? parameters parameter.kind) := by
  rw [shared, List.mem_map]
  constructor
  · rintro ⟨given, listed, rfl⟩
    exact ⟨given, listed, rfl, rfl⟩
  · rintro ⟨given, listed, same, typed⟩
    exact ⟨given, listed, by rw [same, ← typed]⟩

/-- A type that is there has come from what stands beside some occurrence. -/
theorem exists_of_mem_shared {parameter : Parameter} (listed : parameter ∈ shared parameters)
    {type : DataType} (typed : parameter.type = some type) :
    ∃ given ∈ parameters, given.kind = parameter.kind ∧ given.type = some type := by
  obtain ⟨given, member, same, shares⟩ := mem_shared.mp listed
  rw [typed, eq_comm, Option.orElse_eq_some] at shares
  rcases shares with own | ⟨_, known⟩
  · exact ⟨given, member, same, own⟩
  · exact exists_of_knownType? known

/-- An occurrence has a type if some occurrence of its kind is typed by what stands beside it. -/
theorem isSome_of_mem_shared {parameter : Parameter} (listed : parameter ∈ shared parameters) :
    parameter.type.isSome = (knownType? parameters parameter.kind).isSome := by
  obtain ⟨given, member, same, shares⟩ := mem_shared.mp listed
  rw [shares]
  cases own : given.type with
  | none => rfl
  | some type =>
    cases known : knownType? parameters parameter.kind with
    | none => rw [knownType?_eq_none.mp known given member same] at own; cases own
    | some other => rfl

/-- After sharing all parameters of a kind have a type or none has. -/
theorem typedTogether_shared (kind : ParameterKind) (parameters : List Parameter) :
    TypedTogether kind (shared parameters) := by
  rintro first listed second listedToo rfl same typed
  rwa [isSome_of_mem_shared listedToo, same, ← isSome_of_mem_shared listed]

/-- After sharing a kind has one type exactly if it had no two before. -/
theorem agreeOn_shared : AgreeOn kind (shared parameters) ↔ ¬ ConflictOn kind parameters := by
  constructor
  · rintro agree ⟨first, listed, second, listedToo, rfl, same, type, other, typed, typedToo, differ⟩
    have one : ⟨first.kind, some type⟩ ∈ shared parameters :=
      mem_shared.mpr ⟨first, listed, rfl, by simp [typed]⟩
    have two : ⟨second.kind, some other⟩ ∈ shared parameters :=
      mem_shared.mpr ⟨second, listedToo, rfl, by simp [typedToo]⟩
    exact differ (Option.some.inj (agree _ one _ two rfl same))
  · rintro clear first listed second listedToo rfl same
    have together : first.type.isSome = second.type.isSome := by
      rw [isSome_of_mem_shared listed, isSome_of_mem_shared listedToo, same]
    cases typed : first.type with
    | none =>
      rw [typed] at together
      exact (Option.isNone_iff_eq_none.mp (Option.isSome_eq_false_iff.mp together.symm)).symm
    | some type =>
      rw [typed] at together
      obtain ⟨other, typedToo⟩ := Option.isSome_iff_exists.mp together.symm
      obtain ⟨given, member, kinds, own⟩ := exists_of_mem_shared listed typed
      obtain ⟨givenToo, memberToo, kindsToo, ownToo⟩ := exists_of_mem_shared listedToo typedToo
      rw [typedToo]
      by_contra differ
      exact clear ⟨given, member, givenToo, memberToo, kinds, kindsToo.trans same, type, other, own,
        ownToo, fun equal => differ (congrArg some equal)⟩

/-! ## What is reported -/

/-- What is collected was there or is one of the items. -/
theorem mem_of_mem_foldl_addNew {parameter : Parameter} : ∀ {items found : List Parameter},
    parameter ∈ items.foldl addNew found → parameter ∈ found ∨ parameter ∈ items
  | [], found, listed => .inl listed
  | item :: rest, found, listed => by
    rw [List.foldl_cons] at listed
    rcases mem_of_mem_foldl_addNew listed with early | late
    · unfold addNew at early
      split at early
      · exact .inl early
      · rcases List.mem_append.mp early with before | single
        · exact .inl before
        · exact .inr (List.mem_cons.mpr (.inl (List.mem_singleton.mp single)))
    · exact .inr (List.mem_cons_of_mem _ late)

/-- A distinct parameter is one of the parameters. -/
theorem mem_of_mem_distinct {parameter : Parameter} (listed : parameter ∈ distinct parameters) :
    parameter ∈ parameters :=
  (mem_of_mem_foldl_addNew listed).resolve_left List.not_mem_nil

/-- Parameters that agree do so in part. -/
theorem AgreeOn.mono {some all : List Parameter} (agree : AgreeOn kind all) (fewer : some ⊆ all) :
    AgreeOn kind some :=
  fun first listed second listedToo => agree first (fewer listed) second (fewer listedToo)

end Parameter

variable {parser : SqlParser} {definitions : List EntityDefinition} {model : Model} {source : String}

/-- The placeholders of what a text compiles to stand for the parameters of what it means, types
/-- The statements write the parameters of what they are compiled from. -/
included. -/
theorem tokenNeeds_of_compiled {policy : JoinPolicy} {given : Resolved.Statement}
    {statements : List Sql.Statement} (accepted : Model.build parser definitions = .ok model)
    (interpreted : interpret model.catalog source = .ok given)
    (compiled : compile model.catalog policy source = .ok statements) {statement : Sql.Statement}
    (member : statement ∈ statements) : Sql.tokenNeeds statement.tokens = given.needs := by
  obtain ⟨found, meant, lowered⟩ := except_bind_ok.mp compiled
  obtain rfl := Except.ok.inj (meant.symm.trans interpreted)
  obtain ⟨_, resolved, _, rfl, writes, _⟩ := interpret_keeps accepted interpreted
  obtain ⟨part, listed, single⟩ := mem_of_mapM_ok (mapError_ok lowered) statement member
  obtain ⟨after, run⟩ := Resolved.Statement.lower_ok single
  exact tokenNeeds_of_lowered writes listed run

/-- Whatever is reported, for the statement or for its SQL forms, is one of the occurrences. -/
theorem mem_occurrences_of_reported {policy : JoinPolicy} {given : Resolved.Statement}
    {statements : List Sql.Statement} (accepted : Model.build parser definitions = .ok model)
    (interpreted : interpret model.catalog source = .ok given)
    (compiled : compile model.catalog policy source = .ok statements) :
    given.parameters ++ Sql.Statement.bindings statements ⊆ given.occurrences := by
  intro parameter listed
  rcases List.mem_append.mp listed with own | bound
  · exact Parameter.mem_of_mem_distinct own
  · obtain ⟨statement, member, placed⟩ := List.mem_flatMap.mp (Parameter.mem_of_mem_distinct bound)
    have same := tokenNeeds_of_compiled accepted interpreted compiled member
    exact (Multiset.coe_eq_coe.mp same).subset placed

/-- Of one parameter all occurrences have a type or none has. They have the same one exactly if what
stands beside them types no two of them differently, and then the statement and its SQL forms report
the same. -/
theorem parameterTypes_agree_iff {given : Resolved.Statement}
    (accepted : Model.build parser definitions = .ok model)
    (interpreted : interpret model.catalog source = .ok given) :
    ∃ tree resolved, parse source = .ok tree ∧
      Resolved.Statement.resolve model.catalog tree = .ok resolved ∧ given = resolved.infer ∧
      given.occurrences = Parameter.shared resolved.inferLocally.occurrences ∧
      ∀ kind, Parameter.TypedTogether kind given.occurrences ∧
        (Parameter.AgreeOn kind given.occurrences ↔
          ¬ Parameter.ConflictOn kind resolved.inferLocally.occurrences) ∧
        (¬ Parameter.ConflictOn kind resolved.inferLocally.occurrences →
          ∀ policy statements, compile model.catalog policy source = .ok statements →
            Parameter.AgreeOn kind (given.parameters ++ Sql.Statement.bindings statements)) := by
  obtain ⟨tree, parsed, rest⟩ := except_bind_ok.mp interpreted
  obtain ⟨resolved, found, same⟩ := except_bind_ok.mp rest
  obtain rfl := Except.ok.inj same
  have shares : resolved.infer.occurrences = Parameter.shared resolved.inferLocally.occurrences :=
    resolved.occurrences_infer
  have agree (kind : ParameterKind) : Parameter.AgreeOn kind resolved.infer.occurrences ↔
      ¬ Parameter.ConflictOn kind resolved.inferLocally.occurrences := by
    rw [shares]
    exact Parameter.agreeOn_shared
  refine ⟨tree, resolved, parsed, mapError_ok found, rfl, shares, fun kind =>
    ⟨shares ▸ Parameter.typedTogether_shared kind _, agree kind, fun clear policy statements compiled =>
      ?_⟩⟩
  exact ((agree kind).mpr clear).mono (mem_occurrences_of_reported accepted interpreted compiled)

/-- Whether the definitions make a model in which the text means a statement with these occurrences
of parameters, and reports these for itself and for its SQL form. -/
def reports (definitions : List EntityDefinition) (source : String)
    (occurrences own bound : List Parameter) : Bool :=
  match Model.ofDefinitions definitions with
  | .error _ => false
  | .ok model =>
    match interpret model.catalog source, compile model.catalog .outer source with
    | .ok given, .ok statements => given.occurrences == occurrences && given.parameters == own &&
        Sql.Statement.bindings statements == bound
    | _, _ => false

/-- The check on a text finds its parameters and those bound by the statements. -/
theorem exists_of_reports {occurrences own bound : List Parameter}
    (passed : reports definitions source occurrences own bound = true) :
    ∃ model given statements, Model.ofDefinitions definitions = .ok model ∧
      interpret model.catalog source = .ok given ∧
      compile model.catalog .outer source = .ok statements ∧ given.occurrences = occurrences ∧
      given.parameters = own ∧ Sql.Statement.bindings statements = bound := by
  unfold reports at passed
  split at passed
  · cases passed
  · rename_i model accepted
    split at passed
    · rename_i given statements interpreted compiled
      simp only [Bool.and_eq_true, beq_iff_eq, and_assoc] at passed
      exact ⟨model, given, statements, accepted, interpreted, compiled, passed⟩
    · cases passed

/-- The parameter of that name with a basic type. -/
def Parameter.ofBasic (name : String) (type : BasicType) : Parameter :=
  ⟨.named name, some (.basic type)⟩

/-- A text where only the second occurrence of a parameter has something beside it. -/
def itemsAtIndex : String := "select o.id from Order o where :x is null or o.items[:x].n = 3"

/-- The occurrence with nothing beside it takes the type of the other. -/
theorem parameterTypes_agree_itemsAtIndex : ∃ model given statements,
    Model.ofDefinitions shop = .ok model ∧
    interpret model.catalog itemsAtIndex = .ok given ∧
    compile model.catalog .outer itemsAtIndex = .ok statements ∧
    given.occurrences = [.ofBasic "x" .integer, .ofBasic "x" .integer] ∧
    (∀ kind, Parameter.TypedTogether kind given.occurrences) ∧
    Parameter.AgreeOn (.named "x") (given.parameters ++ Sql.Statement.bindings statements) := by
  have checked : reports shop itemsAtIndex [.ofBasic "x" .integer, .ofBasic "x" .integer]
      [.ofBasic "x" .integer] [.ofBasic "x" .integer] = true := by decide +kernel
  obtain ⟨model, given, statements, accepted, interpreted, compiled, occurrences, _⟩ :=
    exists_of_reports checked
  obtain ⟨_, resolved, _, _, _, _, agree⟩ := parameterTypes_agree_iff accepted interpreted
  have same : Parameter.AgreeOn (.named "x") given.occurrences := by
    rw [occurrences]
    intro first listed second listedToo _ _
    simp only [List.mem_cons, List.not_mem_nil, or_false, or_self] at listed listedToo
    rw [listed, listedToo]
  have clear := (agree (.named "x")).2.1.mp same
  exact ⟨model, given, statements, accepted, interpreted, compiled, occurrences,
    fun kind => (agree kind).1, (agree (.named "x")).2.2 clear .outer statements compiled⟩

/-- A text where one occurrence of a parameter stands for a name and another one for an index. -/
def nameAsIndex : String :=
  "select o.id from Order o where o.customer.name = :x and o.items[:x].n = 3"

/-- Occurrences of one parameter may have different types, and the statement and its SQL form may then
report different ones. -/
theorem parameterTypes_differ_nameAsIndex : ∃ model given statements,
    Model.ofDefinitions shop = .ok model ∧
    interpret model.catalog nameAsIndex = .ok given ∧
    compile model.catalog .outer nameAsIndex = .ok statements ∧
    given.occurrences = [.ofBasic "x" .string, .ofBasic "x" .integer] ∧
    ¬ Parameter.AgreeOn (.named "x") given.occurrences ∧
    given.parameters = [.ofBasic "x" .string] ∧
    Sql.Statement.bindings statements = [.ofBasic "x" .integer] := by
  have checked : reports shop nameAsIndex [.ofBasic "x" .string, .ofBasic "x" .integer]
      [.ofBasic "x" .string] [.ofBasic "x" .integer] = true := by decide +kernel
  obtain ⟨model, given, statements, accepted, interpreted, compiled, occurrences, own, bound⟩ :=
    exists_of_reports checked
  refine ⟨model, given, statements, accepted, interpreted, compiled, occurrences, ?_, own, bound⟩
  rw [occurrences]
  intro agree
  have same := agree (.ofBasic "x" .string) List.mem_cons_self (.ofBasic "x" .integer) (by simp) rfl rfl
  simp [Parameter.ofBasic, DataType.basic] at same

end ObjectQuery
