import ObjectQuery.Proofs.Lowering.Awaited
import ObjectQuery.Proofs.Lowering.Scoping
/-!
# Lowering a from-clause source by source

`Built` is what holds of the innermost level while its from-clause is lowered. It holds when the level
is opened, each source of the from-clause preserves it, and in the end the query over the level has
all that its from-clause promises.

What the condition of a join refers to may have to wait for a later source of the same from-clause.
This is why conditions are lowered with some sources missing, and why they may fail.
-/
namespace ObjectQuery.Lowering

open Sql
open Resolved (FromNode Trail filterSources filterTrails filterLayouts filterAhead originTrails)

variable {context : LoweringContext} {roots : String → Option String} {visible : List FromNode}
  {missing reported awaited known firsts : List String} {state after : LoweringState}
  {outside : List LoweringScope} {trails : List Trail} {layouts : List (List String)}

/-- A level whose from-clause is being lowered. The sources `known` are entered, besides those that are
entered `outside`, and the `awaited` ones are still to come; the `trails` so far are secured. -/
structure Built (context : LoweringContext) (roots : String → Option String)
    (visible : List FromNode) (outside : List LoweringScope)
    (awaited missing known firsts : List String) (trails : List Trail) (layouts : List (List String))
    (state : LoweringState) : Prop where
  stage : Stage context roots visible (awaited ++ missing) state
  gained : ∀ label, IsPlainName label → label ∈ keys state.scopes →
    label ∈ keys outside ∨ label ∈ known
  level : ∃ scope outer own nested, state.scopes = scope :: outer ∧ (own ++ nested).Perm known ∧
    Filled context.catalog roots own nested firsts [] scope ∧
    ∀ trail ∈ trails, Secured missing layouts (fun outer => joinLevels outer (entries scope.spaces))
      state.scopes trail

/-- Joins that paths ask for leave what has been built. -/
theorem Built.grows
    (built : Built context roots visible outside awaited missing known firsts trails layouts state)
    (grows : Grows context state.scopes after.scopes) (tidy : Tidy context roots after) :
    Built context roots visible outside awaited missing known firsts trails layouts after := by
  refine ⟨built.stage.grows grows tidy, fun label plain member =>
    built.gained label plain (grows.mem_keys_of_plain plain member), ?_⟩
  obtain ⟨scope, outer, own, nested, levels, parts, filled, secured⟩ := built.level
  have keys := grows.keys_subset
  rw [levels] at grows
  obtain ⟨scope', outer', same, widened, _⟩ := grows.cons_cases
  obtain ⟨filled', equal⟩ := filled.widened widened
  refine ⟨scope', outer', own, nested, same, parts, filled', fun trail member => ?_⟩
  exact (secured trail member).mono (List.Subset.refl _) (List.Subset.refl _)
    (fun outer => (equal outer).symm.subset) keys

/-! ## Groups of sources -/

/-- The group of a source is refused only if the source is several entities. -/
theorem sourceGroup_blames (mapped : context.catalog.IsMapped) {node : FromNode}
    (rooted : ∀ entity, node.entity = .concrete entity →
      roots node.label = some entity.name ∧ context.catalog.entity? entity.name = some entity)
    {ahead : List String} {error : LoweringError} (failed : sourceGroup context node = .error error) :
    Blames missing reported ahead error := by
  unfold sourceGroup at failed
  split at failed
  · rename_i entity concrete
    obtain ⟨group, built⟩ := tableGroup_succeeds mapped (rooted entity concrete).2 node.label
    rw [built] at failed
    cases failed
  · obtain rfl := Except.error.inj failed
    trivial

/-- The group of a source can be entered for it. -/
theorem sourceGroup_enters (mapped : context.catalog.IsMapped) {node : FromNode}
    (rooted : ∀ entity, node.entity = .concrete entity →
      roots node.label = some entity.name ∧ context.catalog.entity? entity.name = some entity)
    {target : TableGroup} (built : sourceGroup context node = .ok target) :
    ∃ entity, node.entity = .concrete entity ∧ target.entity = entity.name ∧
      target.label = node.label ∧ target.labels.Nodup ∧ EntersAs context roots node.label target := by
  unfold sourceGroup at built
  split at built
  · rename_i entity concrete
    obtain ⟨same, serves⟩ := tableGroup_serves mapped built
    refine ⟨entity, concrete, same, tableGroup_label built, tableGroup_nodup built,
      tableGroup_coherent built, serves, ?_⟩
    rw [same]
    exact (rooted entity concrete).1
  · cases built

/-! ## Joins -/

/-- One join of a from-clause. -/
def joinStep (context : LoweringContext) (space : Nat)
    (given : Resolved.Join Resolved.Predicate) : Lowering Unit := do
  let target ← sourceGroup context given.target
  let implied ← impliedCondition context given.target.origin target
  changeScope (·.addGroup space target)
  let before ← currentScope
  let written ← filter context given.predicate
  let join ← joinOf given.kind target (Sql.Expr.conjunction (implied.toList ++ written.toList))
  changeScope (·.insertJoin space (before.joinCount space) join)

/-- Joins are lowered one by one. -/
theorem joins_cons {space : Nat} {given : Resolved.Join Resolved.Predicate}
    {rest : List (Resolved.Join Resolved.Predicate)} :
    joins context space (given :: rest) = joinStep context space given >>= fun _ =>
      joins context space rest := by
  rw [joins]
  simp only [joinStep, bind_assoc]

/-- A join has a form in SQL unless it is a cross join with a condition. -/
theorem joinOf_of_allowed {kind : JoinKind} {target : TableGroup} {condition : Option Sql.Expr}
    (allowed : kind = .cross → condition = none) :
    ∃ join, joinOf kind target condition = .ok join ∧ join.group = target ∧
      ∀ outer, conditionLevels outer join.condition = conditionLevels outer condition := by
  have present (given : JoinKind) (other : given ≠ .cross) (condition : Sql.Expr) :
      groupJoin given target (some condition) = .ok ⟨given, target, some condition⟩ :=
    groupJoin_of_allowed fun crossed => (other crossed).elim
  cases kind with
  | cross =>
    obtain rfl := allowed rfl
    exact ⟨_, groupJoin_of_allowed fun _ => rfl, rfl, fun _ => rfl⟩
  | inner =>
    cases condition with
    | none => exact ⟨_, groupJoin_of_allowed fun _ => rfl, rfl, fun _ => rfl⟩
    | some condition => exact ⟨_, present .inner (by decide) condition, rfl, fun _ => rfl⟩
  | leftOuter =>
    cases condition with
    | none =>
      refine ⟨_, present .leftOuter (by decide) _, rfl, fun _ => ?_⟩
      simp [conditionLevels, Sql.Expr.levels]
    | some condition => exact ⟨_, present .leftOuter (by decide) condition, rfl, fun _ => rfl⟩

/-- The sub-selects in the condition of a join are those of the written one. -/
theorem conditionLevels_conjunction {implied written : Option Sql.Expr} {outer : List String}
    (flat : ∀ given ∈ implied, ∀ outer, given.levels outer = []) :
    conditionLevels outer (Sql.Expr.conjunction (implied.toList ++ written.toList)) =
      conditionLevels outer written := by
  cases implied with
  | none => cases written <;> rfl
  | some given =>
    have none := flat given rfl outer
    cases written <;>
      simp [Sql.Expr.conjunction, conditionLevels, Sql.Expr.both, Sql.Expr.levels, none]

/-- No path from a source starts from one that is still to come. -/
theorem Awaits.reports_origin {node : FromNode} {given rest : List FromNode}
    {scopes : List LoweringScope}
    (awaits : Awaits context roots visible missing (node :: given) rest scopes) :
    Reports (node.label :: missing) [] (originTrails node.origin) := by
  have ordered := (List.pairwise_cons.mp awaits.ordered).1
  have apart := awaits.apart node List.mem_cons_self
  intro trail member waits
  cases origin : node.origin with
  | root | entityJoin =>
    rw [origin] at member
    cases member
  | pathJoin owner path plural =>
    rw [origin] at member ordered apart
    rw [Trail.root_of_mem_steps member, Trail.root_start] at waits
    rcases List.mem_cons.mp waits with rfl | later
    · exact (apart rfl).elim
    · obtain ⟨other, listed, same⟩ := List.mem_map.mp (awaits.further later)
      exact (ordered other (List.mem_append_right _ listed) (congrArg some same.symm)).elim

/-- Sources that are known and sources to come have different names. -/
theorem Built.awaits {first second rest : List FromNode}
    (built : Built context roots visible outside awaited missing known firsts trails layouts state)
    (coming : Awaits context roots visible (awaited ++ missing) (first ++ second) rest outside)
    (distinct : (known ++ (second ++ rest).map (·.label)).Nodup) :
    Awaits context roots visible (awaited ++ missing) second rest state.scopes := by
  refine coming.right fun label plain member entered => ?_
  rcases built.gained label plain entered with around | own
  · exact around
  · exact ((List.nodup_append.mp distinct).2.2 label own label member rfl).elim

/-- A group that is entered first adds its name to the names that are known. -/
theorem keys_of_groups {scope entered : LoweringScope} {outer : List LoweringScope} {label : String}
    {group : ScopedGroup} (groups : entered.groups = (label, group) :: scope.groups) :
    keys (entered :: outer) = label :: keys (scope :: outer) := by
  rw [keys_cons, groups]
  rfl

/-- Once a source is entered, the sources behind it are still to come. -/
theorem Built.awaits_entered {node : FromNode} {given rest : List FromNode}
    {scopes : List LoweringScope}
    (built : Built context roots visible outside (node.label :: awaited) missing known firsts trails
      layouts state)
    (coming : Awaits context roots visible (awaited ++ missing) (node :: given) rest outside)
    (distinct : (known ++ (node :: given ++ rest).map (·.label)).Nodup)
    (entered : keys scopes = node.label :: keys state.scopes) :
    Awaits context roots visible (awaited ++ missing) given rest scopes := by
  have split : Awaits context roots visible (awaited ++ missing) ([node] ++ given) rest outside :=
    coming
  refine split.right fun label plain member isKnown => ?_
  rw [entered] at isKnown
  rcases List.mem_cons.mp isKnown with rfl | earlier
  · exact (coming.head.1 member).elim
  · rcases built.gained label plain earlier with around | own
    · exact around
    · exact ((List.nodup_append.mp distinct).2.2 label own label (List.mem_cons_of_mem _ member)
        rfl).elim

/-- Once a source is entered, no other sources are known than those before it and those behind it. -/
theorem Built.gained_entered {node : FromNode} {behind : List String} {scopes : List LoweringScope}
    (built : Built context roots visible outside (node.label :: awaited) missing known firsts trails
      layouts state)
    (entered : keys scopes = node.label :: keys state.scopes)
    (grows : Grows context scopes after.scopes) {label : String} (plain : IsPlainName label)
    (member : label ∈ keys after.scopes) :
    label ∈ keys outside ∨ label ∈ known ++ node.label :: behind := by
  have before := grows.mem_keys_of_plain plain member
  rw [entered] at before
  rcases List.mem_cons.mp before with rfl | earlier
  · exact .inr (List.mem_append_right _ List.mem_cons_self)
  · exact (built.gained label plain earlier).imp_right (List.mem_append_left _)

/-- One join keeps what has been built and adds its source, unless its condition cannot be lowered. -/
theorem joinStep_meets (mapped : context.catalog.IsMapped) {space : Nat}
    {given : Resolved.Join Resolved.Predicate} {rest : List FromNode}
    (built : Built context roots visible outside (given.target.label :: awaited) missing known firsts
      trails layouts state)
    (coming : Awaits context roots visible (awaited ++ missing)
      (given.target :: filterSources given.predicate) rest outside)
    (distinct : (known ++
      (given.target :: filterSources given.predicate ++ rest).map (·.label)).Nodup)
    (last : space + 1 = firsts.length)
    (crossed : given.kind = .cross → given.predicate.isSome = false)
    (grounded : Resolved.FromOrigin.IsGrounded context.catalog visible given.kind given.target.origin)
    (filtered : ∀ {state : LoweringState}, Stage context roots visible (awaited ++ missing) state →
      Awaits context roots visible (awaited ++ missing) (filterSources given.predicate) rest
        state.scopes →
      Meets (filter context given.predicate) state
        (Blames (awaited ++ missing) reported (filterAhead given.predicate)) fun value after =>
          Settled context roots (awaited ++ missing) (filterTrails given.predicate)
            (filterLayouts given.predicate) ((filterSources given.predicate).map (·.label))
            (fun outer => conditionLevels outer value) after ∧ filterAhead given.predicate = []) :
    Meets (joinStep context space given) state
      (Blames (awaited ++ missing) reported (filterAhead given.predicate)) fun _ after =>
        Built context roots visible outside awaited missing
          (known ++ (given.target :: filterSources given.predicate).map (·.label)) firsts
          (trails ++ (originTrails given.target.origin ++ filterTrails given.predicate))
          (layouts ++ filterLayouts given.predicate) after ∧
        (∀ trail ∈ filterTrails given.predicate, trail.root ∉ awaited) ∧
        filterAhead given.predicate = [] := by
  obtain ⟨kind, fetch, node, condition⟩ := given
  simp only at built coming distinct crossed grounded filtered ⊢
  have rooted := coming.rooted node List.mem_cons_self
  rw [joinStep]
  refine .bind_lift (fun error failed => sourceGroup_blames mapped rooted failed) fun target found => ?_
  obtain ⟨entity, concrete, entityOf, labelled, differ, enters⟩ := sourceGroup_enters mapped rooted found
  have named := (sourceGroup_ok found).2
  -- The condition that the join implies starts from a source that is entered.
  refine .bind ((impliedCondition_meets mapped built.stage grounded coming.reports_origin).weaken
    (fun _ blames => blames.mono (by simp) (List.nil_subset _)) fun _ _ _ good => good)
    fun implied between ranImplied ⟨traced, uncrossed⟩ => ?_
  obtain ⟨grown, boundImplied⟩ := impliedCondition_bound built.stage.tidy.coherent ranImplied
  have built₁ := built.grows grown traced.tidy
  obtain ⟨scope₁, outer₁, own, nested, levels₁, parts, filled₁, secured₁⟩ := built₁.level
  obtain ⟨_, count₁⟩ := between
  obtain rfl := levels₁
  refine .bind_changeScope rfl (.bind_currentScope rfl ?_)
  -- The source is known from here on.
  have inside : space < scope₁.spaces.length := by
    have length := congrArg List.length filled₁.begins
    rw [List.length_map] at length
    omega
  have filled₂ := filled₁.addGroup inside named differ
  have groups : (scope₁.addGroup space target).groups =
      (node.label, ⟨space, target⟩) :: scope₁.groups := by
    rw [← labelled]
    rfl
  have stage₂ : Stage context roots visible (awaited ++ missing)
      ⟨scope₁.addGroup space target :: outer₁, count₁⟩ := by
    refine built₁.stage.enter coming.head.2 enters (fun seen member same => ?_) groups
    rw [entityOf]
    exact coming.shared seen member node List.mem_cons_self same entity concrete
  have keys₂ : keys (scope₁.addGroup space target :: outer₁) = node.label :: keys (scope₁ :: outer₁) :=
    keys_of_groups groups
  refine .bind (filtered stage₂ (built₁.awaits_entered coming distinct keys₂))
    fun written filled ranWritten ⟨settled, nothing⟩ => ?_
  have grown₂ := (filter_lowered condition stage₂.tidy.coherent
    (List.forall_mem_cons.mp coming.plain).2 ranWritten).1
  obtain ⟨scope₃, outer₃, levels₃, widened, _⟩ := grown₂.cons_cases
  obtain ⟨_, count₃⟩ := filled
  obtain rfl := levels₃
  have stage₃ := stage₂.grows grown₂ settled.tidy
  obtain ⟨filled₃, same₃⟩ := filled₂.widened widened
  have absent : kind = .cross →
      Sql.Expr.conjunction (implied.toList ++ written.toList) = none := by
    intro isCross
    obtain rfl : condition = none := by simpa using crossed isCross
    simp only [filter, yields_pure] at ranWritten
    rw [uncrossed isCross, ranWritten.1]
    rfl
  obtain ⟨join, joined, grouped, levelsJoin⟩ := joinOf_of_allowed absent
  refine .bind_ok joined ?_
  rw [← bind_pure (changeScope _)]
  -- The join takes its place, with the sub-selects of its condition.
  have levels (outer : List String) :
      conditionLevels outer join.condition = conditionLevels outer written := by
    rw [levelsJoin, conditionLevels_conjunction fun value listed => (boundImplied value listed).2.2]
  have apart : ∀ source ∈ (filterSources condition).map (·.label), source ∉ nested := by
    intro source member listed
    have own := parts.mem_iff.mp (List.mem_append_right own listed)
    refine (List.nodup_append.mp distinct).2.2 source own source ?_ rfl
    rw [List.map_append]
    exact List.mem_append_left _ (List.mem_cons_of_mem _ member)
  obtain ⟨filled₄, same₄⟩ := filled₃.insertJoin ((scope₁.addGroup space target).joinCount space)
    grouped enters.coherent (fun outer typed => by rw [levels]; exact settled.neat outer typed) apart
  refine .bind_changeScope rfl (.pure ⟨⟨?_, ?_, ?_⟩, ?_, nothing⟩)
  · exact stage₃.regroup rfl
  · exact fun label plain entered => built₁.gained_entered keys₂ grown₂ plain entered
  · have entered : keys (scope₁ :: outer₁) ⊆ keys (scope₃ :: outer₃) := by
      refine List.Subset.trans ?_ grown₂.keys_subset
      rw [keys₂]
      exact List.subset_cons_self _ _
    have inside (given : List String) : joinLevels given (entries scope₁.spaces) ⊆ joinLevels given
        (entries (scope₃.insertJoin space
          ((scope₁.addGroup space target).joinCount space) join).spaces) := by
      intro level member
      refine (same₄ given).mem_iff.mpr (List.mem_append_right _ ((same₃ given).mem_iff.mpr member))
    refine ⟨_, outer₃, target.label :: own, _, rfl, ?_, filled₄, ?_⟩
    · refine List.perm_iff_count.mpr fun label => ?_
      have counted := parts.count_eq label
      simp only [List.count_append, List.count_cons, List.map_cons, labelled] at counted ⊢
      omega
    · refine List.forall_mem_append.mpr ⟨fun trail member => ?_, List.forall_mem_append.mpr
        ⟨fun trail member => ?_, fun trail member => ?_⟩⟩
      · exact (secured₁ trail member).mono (List.Subset.refl _) (List.subset_append_left _ _) inside
          entered
      · refine ((traced.joined trail member).secured built.stage grown traced.tidy).mono ?_
          (List.nil_subset _) (fun _ => List.nil_subset _) entered
        exact List.subset_append_right _ _
      · refine (settled.trails trail member).mono (List.subset_append_right _ _)
          (List.subset_append_right _ _) (fun outer level inner => ?_) (List.Subset.refl _)
        refine (same₄ outer).mem_iff.mpr (List.mem_append_left _ ?_)
        rw [levels]
        exact inner
  · intro trail member waits
    exact (settled.trails trail member).present (List.mem_append_left _ waits)

/-! ## Items of a from-clause -/

/-- The first source of an item of a from-clause. -/
def rootStep (context : LoweringContext) (node : FromNode) : Lowering Nat := do
  let root ← sourceGroup context node
  let before ← currentScope
  changeScope (·.addSpace root)
  return before.spaces.length

/-- Spaces are lowered one by one, the root of each before its joins. -/
theorem spaces_cons {node : FromNode} {joined : List (Resolved.Join Resolved.Predicate)}
    {rest : List (Resolved.FromSpace Resolved.Predicate)} :
    spaces context (⟨node, joined⟩ :: rest) = rootStep context node >>= fun space =>
      joins context space joined >>= fun _ => spaces context rest := by
  rw [spaces]
  simp only [rootStep, bind_assoc, pure_bind]

/-- The first source of an item opens a space.

Proof: the source has not been entered, so its name is new at all levels, and its group is built
because the catalog is mapped. -/
theorem rootStep_meets (mapped : context.catalog.IsMapped) {node : FromNode}
    {given rest : List FromNode} {ahead : List String}
    (built : Built context roots visible outside (node.label :: awaited) missing known firsts trails
      layouts state)
    (coming : Awaits context roots visible (awaited ++ missing) (node :: given) rest outside) :
    Meets (rootStep context node) state (Blames missing reported ahead) fun space after =>
      space + 1 = (firsts ++ [node.label]).length ∧
        Built context roots visible outside awaited missing (known ++ [node.label])
          (firsts ++ [node.label]) trails layouts after := by
  have rooted := coming.rooted node List.mem_cons_self
  rw [rootStep]
  refine .bind_lift (fun error failed => sourceGroup_blames mapped rooted failed) fun target found => ?_
  obtain ⟨entity, concrete, entityOf, labelled, differ, enters⟩ := sourceGroup_enters mapped rooted found
  obtain ⟨scope, outer, own, nested, levels, parts, filled, secured⟩ := built.level
  obtain ⟨_, count⟩ := state
  obtain rfl := levels
  obtain ⟨filled', same⟩ := filled.addSpace enters.coherent (sourceGroup_ok found).2 differ
  have groups : (scope.addSpace target).groups =
      (node.label, ⟨scope.spaces.length, target⟩) :: scope.groups := by
    rw [← labelled]
    rfl
  have names : keys (scope.addSpace target :: outer) = node.label :: keys (scope :: outer) :=
    keys_of_groups groups
  refine .bind_currentScope rfl (.bind_changeScope rfl (.pure ⟨?_, ?_, ?_, ?_⟩))
  · have length := congrArg List.length filled.begins
    rw [List.length_map] at length
    simp [length]
  · refine built.stage.enter coming.head.2 enters (fun seen member equal => ?_) groups
    rw [entityOf]
    exact coming.shared seen member node List.mem_cons_self equal entity concrete
  · exact fun label plain entered => built.gained_entered names .refl plain entered
  · refine ⟨_, outer, node.label :: own, nested, rfl, ?_, labelled ▸ filled', fun trail member => ?_⟩
    · exact (parts.cons node.label).trans (List.perm_append_singleton _ _).symm
    · refine (secured trail member).mono (List.Subset.refl _) (List.Subset.refl _) (fun given => ?_) ?_
      · rw [same]
        exact List.Subset.refl _
      · rw [names]
        exact List.subset_cons_self _ _

/-! ## Opening and closing a level -/

/-- A level is opened for the sources that its query names itself. -/
theorem built_open {own : List FromNode} {awaited : List String}
    (stage : Stage context roots visible missing state)
    (labels : ∀ label ∈ awaited, IsPlainName label ∧ label ∉ keys state.scopes)
    (awaits : ∀ node ∈ own, node.label ∈ awaited) :
    Built context roots (own ++ visible) state.scopes awaited missing [] [] [] []
      { state with scopes := .empty :: state.scopes } where
  stage := by
    refine ⟨stage.tidy.open, List.forall_mem_append.mpr ⟨labels, stage.absent⟩,
      List.forall_mem_append.mpr ⟨fun node listed => ?_, fun node seen => ?_⟩⟩
    · exact ⟨(labels _ (awaits node listed)).1, Or.inl (List.mem_append_left _ (awaits node listed))⟩
    · exact ⟨(stage.covered node seen).1, (stage.covered node seen).2.imp_left (List.mem_append_right _)⟩
  gained := fun label _ entered => Or.inl entered
  level := ⟨.empty, state.scopes, [], [], rfl, .refl _, .empty, nofun⟩

/-- The sub-selects in the joins of a query over spaces are those of its tables. -/
theorem joinLevels_joins {outer : List String} {spaces : List TableSpace} :
    joinLevels outer (Select.joins spaces) = joinLevels outer (entries spaces) := by
  cases spaces with
  | nil => rfl
  | cons space rest =>
    rw [entries_cons, TableSpace.entries, List.cons_append, joinLevels]
    rfl

/-- Selections of plain values open no level. -/
theorem selectionLevels_of_values {outer : List String} {selections : List (Sql.Selection Sql.Expr)}
    (values : ∀ selection ∈ selections, selection.expr.isValue = true) :
    selectionLevels outer selections = [] := by
  induction selections with
  | nil => rfl
  | cons selection rest ih =>
    obtain ⟨value, others⟩ := List.forall_mem_cons.mp values
    rw [selectionLevels, Sql.Expr.levels_of_isValue _ value, ih others, List.append_nil]

/-- Sort keys over plain values open no level. -/
theorem sortLevels_of_values {outer : List String} {keys : List (Sql.SortKey Sql.Expr)}
    (values : ∀ key ∈ keys, key.expr.isValue = true) : sortLevels outer keys = [] := by
  induction keys with
  | nil => rfl
  | cons key rest ih =>
    obtain ⟨value, others⟩ := List.forall_mem_cons.mp values
    rw [sortLevels, Sql.Expr.levels_of_isValue _ value, ih others, List.append_nil]

/-- All levels of a query over spaces, if there are no sub-selects in its select list and its sort
keys. -/
theorem queryLevels_toQuery {select : Select} (outer : List String)
    (chosen : ∀ selection ∈ select.selections, selection.expr.isValue = true)
    (sorted : ∀ key ∈ select.order, key.expr.isValue = true) :
    queryLevels outer select.toQuery = ⟨outer, select.toQuery⟩ ::
      (joinLevels (select.toQuery.labels ++ outer) (entries select.spaces) ++
        conditionLevels (select.toQuery.labels ++ outer) select.filter) := by
  rw [← joinLevels_joins]
  simp only [Select.toQuery, queryLevels, selectionLevels_of_values chosen,
    sortLevels_of_values sorted, List.nil_append, List.append_nil]

/-- The query over a level whose from-clause is lowered has all trails settled that were entered at
the level. -/
theorem Built.close {scope : LoweringScope} {outer : List LoweringScope} {count : Nat} {select : Select}
    {more filtered : List Trail} {inner : List (List String)} {sources : List String}
    (built : Built context roots visible outside [] missing known firsts trails layouts
      ⟨scope :: outer, count⟩)
    (joined : ∀ trail ∈ more, Secured missing [] (fun _ => []) (scope :: outer) trail)
    (settled : Settled context roots missing filtered inner sources
      (fun outer => conditionLevels outer select.filter) ⟨scope :: outer, count⟩)
    (spaces : select.spaces = scope.spaces)
    (chosen : ∀ selection ∈ select.selections, selection.expr.isValue = true)
    (sorted : ∀ key ∈ select.order, key.expr.isValue = true)
    (distinct : (known ++ sources).Nodup) (plain : ∀ first ∈ firsts, IsPlainName first) :
    Settled context roots missing (trails ++ more ++ filtered) (firsts :: (layouts ++ inner))
      (known ++ sources) (fun outer => queryLevels outer select.toQuery) ⟨outer, count⟩ := by
  obtain ⟨_, _, own, nested, same, parts, filled, secured⟩ := built.level
  obtain ⟨rfl, rfl⟩ := List.cons.inj same
  have tidy := built.stage.tidy
  have levels (given : List String) : queryLevels given select.toQuery = ⟨given, select.toQuery⟩ ::
      (joinLevels (select.toQuery.labels ++ given) (entries scope.spaces) ++
        conditionLevels (select.toQuery.labels ++ given) select.filter) := by
    rw [← spaces]
    exact queryLevels_toQuery given chosen sorted
  refine ⟨tidy.close, ?_, fun given typed => ?_⟩
  · -- What is entered at the level stands in the query, and all else stays where it is.
    have close {trail : Trail} {somewhere : List (List String)} {nearby : List String → List Level}
        (held : Secured missing somewhere nearby (scope :: outer) trail)
        (among : somewhere ⊆ firsts :: (layouts ++ inner)) (inside : ∀ given,
          nearby (select.toQuery.labels ++ given) ⊆ queryLevels given select.toQuery) :
        Secured missing (firsts :: (layouts ++ inner)) (fun given => queryLevels given select.toQuery)
          outer trail := by
      refine ⟨held.plain, held.present, ?_⟩
      rcases held.found with entered | shelters
      · rw [keys_cons] at entered
        rcases List.mem_append.mp entered with here | around
        · refine Or.inr fun given => (filled.shelters tidy List.mem_cons_self spaces plain held.plain
            here given).mono (by simp) ?_
          rw [levels]
          simp
        · exact Or.inl around
      · exact Or.inr fun given => (shelters (select.toQuery.labels ++ given)).mono among (inside given)
    refine List.forall_mem_append.mpr ⟨List.forall_mem_append.mpr ⟨fun trail member => ?_,
      fun trail member => ?_⟩, fun trail member => ?_⟩
    · refine close (secured trail member) ?_ fun given => ?_
      · exact List.subset_cons_of_subset _ (List.subset_append_left _ _)
      · rw [levels]
        exact List.subset_cons_of_subset _ (List.subset_append_left _ _)
    · exact close (joined trail member) (List.nil_subset _) fun _ => List.nil_subset _
    · refine close (settled.trails trail member) ?_ fun given => ?_
      · exact List.subset_cons_of_subset _ (List.subset_append_right _ _)
      · rw [levels]
        exact List.subset_cons_of_subset _ (List.subset_append_right _ _)
  · obtain ⟨differ, owned⟩ := filled.labels tidy List.mem_cons_self spaces
    have other := filled.isMembership spaces plain given
    have typedInside : ∀ label ∈ select.toQuery.labels ++ given, IsTable context.catalog roots label :=
      List.forall_mem_append.mpr ⟨fun label member => ⟨own, owned label member⟩, typed⟩
    have alone : Neat context.catalog roots own [⟨given, select.toQuery⟩] := by
      have labels : tableLabels [⟨given, select.toQuery⟩] = select.toQuery.labels := by
        simp [tableLabels, other]
      refine ⟨labels ▸ differ, labels ▸ owned, ?_, List.forall_mem_singleton.mpr typed⟩
      exact List.forall_mem_singleton.mpr fun isMember => (Bool.noConfusion (other.symm.trans isMember))
    have apart := List.nodup_append.mp (parts.nodup_iff.mpr (List.nodup_append.mp distinct).1)
    have apartFilter : ∀ source ∈ own ++ nested, source ∉ sources := fun source member listed =>
      (List.nodup_append.mp distinct).2.2 source (parts.mem_iff.mp member) source listed rfl
    have whole := (alone.append (filled.neat _ typedInside) fun source member listed =>
      apart.2.2 source member source listed rfl).append (settled.neat _ typedInside) apartFilter
    rw [levels]
    refine (whole.mono ?_)
    exact append_subset_append parts.subset (List.Subset.refl _)

end ObjectQuery.Lowering
