import ObjectQuery.Proofs.Lowering.Settled
import ObjectQuery.Proofs.Lowering.Statement
/-!
# Lowering grounded statements

A statement that refers to its sources in the way the model allows is lowered, or it fails for one of
two reasons: the condition of a join uses a source before its join, or the statement asks for something
that cannot be expressed. The level of a change is there from the start and has one table; the level of
a query is opened for it and filled by its from-clause.
-/
namespace ObjectQuery.Lowering

open Sql
open Resolved (FromNode FromSpace Trail filterSources filterAhead queryAhead querySources queryTrails
  spaceTrails filterTrails)

variable {context : LoweringContext} {roots : String → Option String} {visible : List FromNode}

/-- A statement that is to be lowered by itself refers to its sources in the way the model allows. -/
structure Ready (context : LoweringContext) (roots : String → Option String)
    (visible : List FromNode) (given : Resolved.Statement) : Prop where
  coming : Awaits context roots visible [] given.sources [] []
  named : ∀ node ∈ visible, node.label ∈ given.elements.map (·.label)
  grounded : given.IsGrounded context.catalog visible

/-- Before anything is lowered there are no levels. -/
theorem stage_start : Stage context roots [] [] ⟨[], 0⟩ :=
  ⟨⟨List.nodup_nil, nofun⟩, nofun, nofun⟩

/-! ## Queries -/

/-- The selections of a statement choose values. -/
theorem topSelection_choosesValues : ChoosesValues context (topSelection context) := by
  intro item state after chosen coherent run
  refine ⟨(topSelection_lowered item coherent run).1, ?_⟩
  have single {chosen : List (Sql.Selection Sql.Expr)} {after : LoweringState}
      (run : Yields (topSelection.single context item) state chosen after) :
      ∀ selection ∈ chosen, selection.expr.isValue = true := by
    simp only [topSelection.single, yields_bind, yields_pure] at run
    obtain ⟨value, _, ran, rfl, rfl⟩ := run
    exact List.forall_mem_singleton.mpr (expr_lowered item.expr coherent ran).within.isValue
  have columns {group : TableGroup} {between : LoweringState}
      (run : Yields (topSelection.columns group) between chosen after) :
      ∀ selection ∈ chosen, selection.expr.isValue = true := by
    simp only [topSelection.columns, yields_pure] at run
    obtain ⟨rfl, rfl⟩ := run
    refine List.forall_mem_map.mpr fun column member => ?_
    rcases List.mem_cons.mp member with rfl | listed
    · rfl
    · obtain ⟨binding, _, rfl⟩ := List.mem_map.mp listed
      rfl
  unfold topSelection at run
  split at run
  · simp only [yields_bind] at run
    obtain ⟨group, _, _, run⟩ := run
    exact columns run
  · split at run
    · simp only [yields_bind] at run
      obtain ⟨group, _, _, run⟩ := run
      exact columns run
    · exact single run
  · exact single run

/-- An item that stands for a whole entity goes along the trails of the path to it, and further. -/
theorem trails_subset (selection : Resolved.Selection) :
    selection.expr.trails ⊆ selection.trails := by
  obtain ⟨given, label⟩ := selection
  cases given with
  | path reference => exact List.subset_append_left _ _
  | _ => exact List.Subset.refl _

/-- What lowering the query of a statement achieves. -/
def Laid (context : LoweringContext) (roots : String → Option String) (given : Resolved.Statement)
    (levels : List Level) : Prop :=
  Neat context.catalog roots (given.sources.map (·.label)) levels ∧
    ∀ trail ∈ given.trails, trail.route.IsPlain ∧ Shelters given.layouts levels trail

/-- The query of a statement is lowered at its one level.

Proof: the statement has no level around it, so all its sources are entered at its own level. -/
theorem select_meets (mapped : context.catalog.IsMapped) {query : Resolved.QuerySpec}
    {order : List Resolved.SortKey} (ready : Ready context roots visible (.select query order)) :
    Meets (select context query order) ⟨[], 0⟩ (Blames [] [] (queryAhead query)) fun select _ =>
      Laid context roots (.select query order) (queryLevels [] select.toQuery) ∧
        queryAhead query = [] := by
  obtain ⟨coming, named, grounded⟩ := ready
  have noReports (trails : List Trail) : Reports [] [] trails := fun _ _ => List.not_mem_nil.elim
  have inside : ∀ node ∈ visible, node.label ∈ query.spaces.flatMap FromSpace.labels := by
    intro node seen
    obtain ⟨own, listed, same⟩ := List.mem_map.mp (named node seen)
    exact same ▸ label_of_element listed
  obtain ⟨items, isDistinct, selections, condition⟩ := query
  rw [← List.append_nil visible] at coming grounded
  have plain := coming.plain
  rw [Resolved.Statement.sources, querySources] at coming
  obtain ⟨⟨groundedItems, groundedSpaces, groundedFilter⟩, groundedKeys⟩ := grounded
  have distinct := coming.distinct
  rw [List.append_assoc] at distinct
  rw [select_eq_selectWith]
  refine (selectWith_meets stage_start coming inside fun built =>
    levelBody_meets mapped topSelection_choosesValues coming
      (spaces_meets mapped items built coming.left distinct groundedSpaces (noReports _))
      (fun item listed _ stage reports =>
        topSelection_meets mapped stage (groundedItems item listed) reports)
      (fun stage coming => filter_meets mapped condition stage coming groundedFilter (noReports _))
      groundedKeys (noReports _)).weaken (fun _ blames => blames) fun select after ran good => ?_
  obtain ⟨settled, nothing⟩ := good
  refine ⟨⟨settled.neat [] (List.forall_mem_nil _), fun trail member => ?_⟩, nothing⟩
  have secured := settled.trails trail ?_
  · refine ⟨secured.plain, ?_⟩
    rcases secured.found with entered | shelters
    · rw [(select_scoped plain ran).1] at entered
      cases entered
    · exact shelters []
  · simp only [Resolved.Statement.trails, queryTrails, List.mem_append, List.mem_flatMap] at member ⊢
    rcases member with (((inSpaces | ⟨item, listed, inItem⟩) | inFilter) | inItems) | inKeys
    · exact .inl (.inl inSpaces)
    · exact .inl (.inr (.inl ⟨item, listed, trails_subset item inItem⟩))
    · exact .inr inFilter
    · exact .inl (.inr (.inl inItems))
    · exact .inl (.inr (.inr inKeys))

/-! ## Changes -/

/-- The group of the target of a change is refused only for what cannot be expressed. -/
theorem targetGroup_blames (mapped : context.catalog.IsMapped) {verb : BulkVerb} {target : FromNode}
    (rooted : ∀ entity, target.entity = .concrete entity →
      context.catalog.entity? entity.name = some entity)
    {missing reported ahead : List String} {error : LoweringError}
    (failed : targetGroup context verb target = .error error) :
    Blames missing reported ahead error := by
  unfold targetGroup at failed
  split at failed
  · rename_i entity concrete
    obtain ⟨shape, _, _, _, shaped, _⟩ := shape_of_mapped mapped (rooted entity concrete)
    simp only [pure_bind, shaped] at failed
    dsimp only [Bind.bind, Except.bind] at failed
    split at failed
    · split at failed
      · obtain rfl := Except.error.inj failed
        trivial
      · cases failed
    · obtain rfl := Except.error.inj failed
      trivial
  · obtain rfl := Except.error.inj failed
    trivial

/-- The one table of a change has a column for each attribute that is no collection. -/
theorem targetGroup_enters (mapped : context.catalog.IsMapped) {verb : BulkVerb} {target : FromNode}
    (rooted : ∀ entity, target.entity = .concrete entity →
      roots target.label = some entity.name ∧ context.catalog.entity? entity.name = some entity)
    {group : TableGroup} (built : targetGroup context verb target = .ok group) :
    ∃ entity, target.entity = .concrete entity ∧ group.entity = entity.name ∧
      group.label = target.label ∧ EntersAs context roots target.label group := by
  have coherent := (targetGroup_coherent built).1
  unfold targetGroup at built
  split at built
  · rename_i entity concrete
    simp only [pure_bind, except_bind_ok] at built
    obtain ⟨shape, shaped, built⟩ := built
    split at built
    · rename_i table single
      split at built
      · cases built
      · obtain rfl := Except.ok.inj built
        refine ⟨entity, concrete, rfl, rfl, coherent, ?_, (rooted entity concrete).1⟩
        intro found label type known typed singular
        have answered := mapped.answered known (shape?_of_shape shaped) typed
        rw [TableShape.Answers, singular] at answered
        obtain ⟨further, listed, column, stored, named⟩ := answered
        obtain rfl := List.mem_singleton.mp (single ▸ listed)
        refine List.find?_isSome.mpr ⟨⟨column.label, further.name, column.column⟩,
          List.mem_map_of_mem stored, by simpa using named⟩
    · cases built
  · cases built

/-- The level of a change has its target. -/
theorem stage_target {group : TableGroup} {target : FromNode} {entity : EntityType}
    (enters : EntersAs context roots target.label group) (labelled : group.label = target.label)
    (concrete : target.entity = .concrete entity) (same : group.entity = entity.name)
    {rest : List FromNode} (coming : Awaits context roots visible [] (target :: rest) [] [])
    (named : ∀ node ∈ visible, node.label = target.label) :
    Stage context roots visible [] ⟨[LoweringScope.empty.addSpace group], 0⟩ ∧
      Awaits context roots visible [] rest [] [LoweringScope.empty.addSpace group] := by
  have groups : (LoweringScope.empty.addSpace group).groups = [(target.label, ⟨0, group⟩)] := by
    rw [← labelled]
    rfl
  constructor
  · have start : Stage context roots [] [] ⟨[], 0⟩ := stage_start
    have opened := (built_open start (List.forall_mem_singleton.mpr
      (coming.new target List.mem_cons_self)) fun node seen => List.mem_singleton.mpr
        (named node seen)).stage
    rw [List.append_nil, List.append_nil] at opened
    refine opened.enter nofun enters (fun node seen equal => ?_) groups
    rw [same]
    exact coming.shared node seen target List.mem_cons_self equal entity concrete
  · have split : Awaits context roots visible [] ([target] ++ rest) [] [] := coming
    refine split.right fun label _ member entered => ?_
    rw [keys_cons, groups] at entered
    obtain rfl := List.mem_singleton.mp entered
    exact (coming.head.1 member).elim

/-- An assignment makes the scopes grow. -/
theorem assignment_grows (given : Resolved.Assignment) {state after : LoweringState}
    {assigned : String × Sql.Expr} (coherent : Coherent state.scopes)
    (run : Yields (assignment context given) state assigned after) :
    Grows context state.scopes after.scopes := by
  simp only [assignment, yields_bind] at run
  obtain ⟨owner, _, found, run⟩ := run
  obtain ⟨rfl, _⟩ := yields_group.mp found
  split at run
  · simp at run
  · simp only [yields_bind, yields_pure] at run
    obtain ⟨lowered, _, ran, rfl, rfl⟩ := run
    exact (expr_lowered given.value coherent ran).grows

/-- What is lowered at the level of a change is lowered with its target entered, and the rest of its
sources still to come. -/
theorem change_meets (mapped : context.catalog.IsMapped) {verb : BulkVerb} {target : FromNode}
    {rest : List FromNode} {ahead : List String} {body : TableGroup → Lowering Sql.Statement}
    {good : Sql.Statement → Prop} (coming : Awaits context roots visible [] (target :: rest) [] [])
    (named : ∀ node ∈ visible, node.label ∈ [target.label])
    (meets : ∀ group {state : LoweringState}, Stage context roots visible [] state →
      Awaits context roots visible [] rest [] state.scopes →
        Meets (body group) state (Blames [] [] ahead) fun value after =>
          Grows context state.scopes after.scopes ∧ good value) :
    Meets (targetGroup context verb target >>= fun group =>
      inTargetScope verb group (body group)) ⟨[], 0⟩ (Blames [] [] ahead) fun value _ => good value := by
  have rooted := coming.rooted target List.mem_cons_self
  refine .bind_lift (fun error failed => targetGroup_blames mapped
    (fun entity concrete => (rooted entity concrete).2) failed) fun group built => ?_
  obtain ⟨entity, concrete, same, labelled, enters⟩ := targetGroup_enters mapped rooted built
  obtain ⟨stage, coming⟩ := stage_target enters labelled concrete same coming fun node seen =>
    List.mem_singleton.mp (named node seen)
  have inside : Meets (body group) ⟨[LoweringScope.empty.addSpace group], 0⟩ (Blames [] [] ahead)
      fun value after => after.scopes ≠ [] ∧ good value := by
    refine (meets group stage coming).weaken (fun _ blames => blames) fun value after _ good => ?_
    obtain ⟨grown, held⟩ := good
    obtain ⟨_, _, levels, _⟩ := grown.cons_cases
    exact ⟨by simp [levels], held⟩
  rw [inTargetScope]
  refine .bind (Meets.inScope inside) fun result after _ kept => ?_
  obtain ⟨_, _, _, held⟩ := kept
  dsimp only
  split
  · exact .throw trivial
  · exact .pure held

/-! ## Statements -/

/-- A statement that refers to its sources in the way the model allows fails only for sources that are
used before their joins, or because it asks for something that cannot be expressed. -/
theorem statement_meets (mapped : context.catalog.IsMapped) {given : Resolved.Statement}
    (ready : Ready context roots visible given) :
    Meets (statement context given) ⟨[], 0⟩ (Blames [] [] given.ahead) fun lowered _ =>
      given.ahead = [] ∧
        ∀ select, lowered = .select select → Laid context roots given lowered.levels := by
  have noReports (trails : List Trail) : Reports [] [] trails := fun _ _ => List.not_mem_nil.elim
  cases given with
  | select query order =>
    rw [statement]
    refine .bind (select_meets mapped ready) fun _ _ _ good => .pure ?_
    exact ⟨good.2, fun _ _ => good.1⟩
  | update target assignments condition =>
    obtain ⟨coming, named, groundedAssignments, groundedFilter⟩ := ready
    rw [statement]
    refine change_meets mapped coming named fun group state stage coming => ?_
    refine .bind ((mapM_meets assignment_grows assignments stage
      (fun item listed _ stage reports => assignment_meets mapped stage
        (groundedAssignments item listed) reports) (noReports _)).early (List.nil_subset _))
      fun values between ran traced => ?_
    have grown := (assignments_lowered assignments stage.tidy.coherent ran).1
    have stage' := stage.grows grown traced.tidy
    refine .bind (filter_meets mapped condition stage' (coming.grows grown) groundedFilter
      (noReports _)) fun filtered after ranFilter good => .pure ?_
    refine ⟨grown.trans (filter_lowered condition stage'.tidy.coherent coming.plain ranFilter).1,
      good.2, ?_⟩
    simp
  | delete target condition =>
    obtain ⟨coming, named, groundedFilter⟩ := ready
    rw [statement]
    refine change_meets mapped coming named fun group state stage coming => ?_
    refine .bind (filter_meets mapped condition stage coming groundedFilter (noReports _))
      fun filtered after ran good => .pure ?_
    refine ⟨(filter_lowered condition stage.tidy.coherent coming.plain ran).1, good.2, ?_⟩
    simp

end ObjectQuery.Lowering
