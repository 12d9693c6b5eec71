import ObjectQuery.Proofs.Lowering.Entered
import ObjectQuery.Proofs.Resolved.Grounded
import ObjectQuery.Proofs.Resolved.Trails
/-!
# Lowering expressions of grounded statements

An expression that is grounded in some sources is lowered where the groups of these sources are
entered, apart from those that are still missing. It fails because it refers to a missing source, or
because it asks for something that cannot be expressed, but never because the model says too little.
If it succeeds, a group is entered for every trail that it goes along.
-/
namespace ObjectQuery

namespace Resolved

open Lowering (Route)

namespace Trail

variable {trail : Trail} {label : String}

/-- The way along the trail. -/
def route (trail : Trail) : Route := trail.path.foldl Route.toOne (.source trail.root)

/-- A trail that has gone nowhere is the route of its root. -/
@[simp] theorem route_start {root : String} : (start root).route = .source root := rfl

/-- A further step of a trail is a further to-one step of its route. -/
@[simp] theorem route_extend : (trail.extend label).route = .toOne trail.route label := by
  simp [route, extend]

/-- A trail and its route are named alike. -/
@[simp] theorem name_route : trail.route.name = trail.name := by
  have along : ∀ (path : List String) (first : Route), (path.foldl Route.toOne first).name =
      path.foldl (fun owner label => owner ++ "." ++ label) first.name := by
    intro path
    induction path with
    | nil => exact fun _ => rfl
    | cons label rest ih => exact fun first => ih (.toOne first label)
  exact along trail.path (.source trail.root)

/-- A trail and its route start at the same root. -/
@[simp] theorem root_route : trail.route.root = trail.root := by
  have along : ∀ (path : List String) (first : Route),
      (path.foldl Route.toOne first).root = first.root := by
    intro path
    induction path with
    | nil => exact fun _ => rfl
    | cons label rest ih => exact fun first => ih (.toOne first label)
  exact along trail.path (.source trail.root)

end Trail

/-- Two lists of nodes follow the trails of both. -/
theorem trailsOf_append {first second : List Expr} :
    trailsOf (first ++ second) = trailsOf first ++ trailsOf second := List.flatMap_append

/-- A path follows the steps its parts join directly. -/
theorem trails_path {source : String} {sourceType type : DataType} {init : List (Segment Expr)}
    {last : Segment Expr} : (Expr.path ⟨source, sourceType, init, last, type⟩).trails =
      (Trail.start source).steps (direct init) ++
        (trailsOf (segmentNodes init) ++ trailsOf (indexNodes last.index)) := by
  obtain ⟨label, declared, index, after⟩ := last
  simp [Expr.trails, Expr.nodes, trailsOf, Expr.ownTrails]

/-- An element by itself follows its own trail and no step. -/
theorem trails_element {label : String} {type : DataType} :
    (Expr.element label type).trails = [.start label] := by
  simp [Expr.trails, Expr.nodes, trailsOf, Expr.ownTrails]

/-- A literal follows no trail. -/
theorem trails_literal {value : Literal} : (Expr.literal value).trails = [] := by
  simp [Expr.trails, Expr.nodes, trailsOf, Expr.ownTrails]

/-- A parameter follows no trail. -/
theorem trails_parameter {bound : Parameter} : (Expr.parameter bound).trails = [] := by
  simp [Expr.trails, Expr.nodes, trailsOf, Expr.ownTrails]

/-- An operation follows the trails of both operands. -/
theorem trails_arithmetic {op : ArithmeticOp} {left right : Expr} {type : Option BasicType} :
    (Expr.arithmetic op left right type).trails = left.trails ++ right.trails := by
  simp [Expr.trails, Expr.nodes, trailsOf, Expr.ownTrails]

/-- A change of sign follows the trails of its operand. -/
theorem trails_negate {operand : Expr} : (Expr.negate operand).trails = operand.trails := by
  simp [Expr.trails, Expr.nodes, trailsOf, Expr.ownTrails]

/-- A call follows the trails of its argument. -/
theorem trails_call {function : Function} {distinct : Bool} {argument : Option Expr}
    {type : Option DataType} :
    (Expr.call function distinct argument type).trails = trailsOf (indexNodes argument) := by
  simp [Expr.trails, Expr.nodes, trailsOf, Expr.ownTrails]

/-- The parts of a path follow the trails of their indices. -/
theorem trailsOf_segmentNodes_cons {segment : Segment Expr} {rest : List (Segment Expr)} :
    trailsOf (segmentNodes (segment :: rest)) =
      trailsOf (indexNodes segment.index) ++ trailsOf (segmentNodes rest) := by
  obtain ⟨label, declared, index, after⟩ := segment
  rw [segmentNodes, trailsOf_append]

/-- Two stretches of a path follow the trails of both. -/
theorem trailsOf_segmentNodes_append {first second : List (Segment Expr)} :
    trailsOf (segmentNodes (first ++ second)) =
      trailsOf (segmentNodes first) ++ trailsOf (segmentNodes second) := by
  induction first with
  | nil => rfl
  | cons segment rest ih =>
    rw [List.cons_append, trailsOf_segmentNodes_cons, trailsOf_segmentNodes_cons, ih,
      List.append_assoc]

end Resolved

namespace Lowering

open Sql
open Resolved (Segment Reference FromNode Trail AreTyped attributeOf? trailsOf segmentNodes indexNodes
  direct IndexGrounded SegmentsGrounded isGrounded_path isGrounded_element isGrounded_arithmetic
  isGrounded_negate isGrounded_call segmentsGrounded_append segmentsGrounded_cons
  trailsOf_segmentNodes_append trails_path trails_element trails_literal
  trails_parameter trails_arithmetic trails_negate trails_call trailsOf_segmentNodes_cons)

variable {context : LoweringContext} {roots : String → Option String} {visible : List FromNode}
  {missing reported : List String} {state after : LoweringState} {scopes later : List LoweringScope}
  {owner label : String} {find? : String → Option DataType} {type : DataType}

/-! ## What may be missing -/

/-- Whom a failure may be blamed on: a missing source among the reported ones, a source that is used
ahead of its join, or something that cannot be expressed. -/
def Blames (missing reported ahead : List String) : LoweringError → Prop
  | .unknownLabel label => label ∈ missing ∧ label ∈ reported ∨ label ∈ ahead
  | .unsupported _ => True
  | .crossJoinCondition _ | .missingShape _ | .unmapped _ _ => False

/-- The groups of the visible sources are entered, apart from the missing ones. -/
structure Stage (context : LoweringContext) (roots : String → Option String)
    (visible : List FromNode) (missing : List String) (state : LoweringState) : Prop where
  tidy : Tidy context roots state
  absent : ∀ label ∈ missing, IsPlainName label ∧ label ∉ keys state.scopes
  covered : ∀ node ∈ visible, IsPlainName node.label ∧ (node.label ∈ missing ∨
    node.label ∈ keys state.scopes ∧ ∃ name, roots node.label = some name ∧
      context.catalog.Offers name node.entity.attribute?)

/-- A stage stays one while the scopes grow. -/
theorem Stage.grows (stage : Stage context roots visible missing state)
    (grows : Grows context state.scopes after.scopes) (tidy : Tidy context roots after) :
    Stage context roots visible missing after := by
  refine ⟨tidy, fun label listed => ?_, fun node seen => ?_⟩
  · obtain ⟨plain, unknown⟩ := stage.absent label listed
    exact ⟨plain, fun known => unknown (grows.mem_keys_of_plain plain known)⟩
  · obtain ⟨plain, awaited | ⟨known, offers⟩⟩ := stage.covered node seen
    · exact ⟨plain, .inl awaited⟩
    · exact ⟨plain, .inr ⟨grows.keys_subset known, offers⟩⟩

/-- The group at the end of the way is entered, and its entity has the attributes. -/
structure Route.Stands (context : LoweringContext) (roots : String → Option String)
    (scopes : List LoweringScope) (find? : String → Option DataType) (route : Route) : Prop where
  plain : route.IsPlain
  known : route.name ∈ keys scopes
  offers : ∃ name, route.entity? context.catalog roots = some name ∧ context.catalog.Offers name find?

/-- The owner is a missing source, or a group with the attributes is entered for it. -/
def Reached (context : LoweringContext) (roots : String → Option String) (missing : List String)
    (scopes : List LoweringScope) (owner : String) (find? : String → Option DataType) : Prop :=
  owner ∈ missing ∨ ∃ route : Route, route.name = owner ∧ route.Stands context roots scopes find?

/-- An owner that is reached stays reached while the scopes grow. -/
theorem Reached.grows (reached : Reached context roots missing scopes owner find?)
    (grows : Grows context scopes later) : Reached context roots missing later owner find? := by
  obtain awaited | ⟨route, named, plain, known, offers⟩ := reached
  · exact .inl awaited
  · exact .inr ⟨route, named, plain, grows.keys_subset known, offers⟩

/-- A visible source can be reached. -/
theorem Stage.reached (stage : Stage context roots visible missing state) {node : FromNode}
    (seen : node ∈ visible) :
    Reached context roots missing state.scopes node.label node.entity.attribute? := by
  obtain ⟨plain, awaited | ⟨known, name, rooted, offers⟩⟩ := stage.covered node seen
  · exact .inl awaited
  · exact .inr ⟨.source node.label, rfl, plain, known, name, rooted, offers⟩

/-- A group is entered for the trail, whose names are plain. -/
structure Joined (scopes : List LoweringScope) (trail : Trail) : Prop where
  plain : trail.route.IsPlain
  known : trail.name ∈ keys scopes

/-- A trail that is joined stays joined while the scopes grow. -/
theorem Joined.grows {trail : Trail} (joined : Joined scopes trail)
    (grows : Grows context scopes later) : Joined later trail :=
  ⟨joined.plain, grows.keys_subset joined.known⟩

/-- What an association or the elements of a collection lead to has the attributes of that entity. -/
theorem offers_attributeOf (mapped : context.catalog.IsMapped) {name target : String}
    {entity : EntityType} (known : context.catalog.entity? name = some entity)
    (typed : entity.attribute? label = some type)
    (leads : type.entity? = some target ∨ type.element?.bind DataType.entity? = some target) :
    ∃ found, context.catalog.entity? target = some found ∧
      context.catalog.Offers target (attributeOf? context.catalog (.entity target)) := by
  obtain ⟨found, answers, resolved⟩ := mapped.linked known typed leads
  refine ⟨found, answers, found, answers, fun property type given => ?_⟩
  change (context.catalog.resolve? target).bind (·.attribute? property) = some type at given
  rw [resolved] at given
  exact given

/-- A type leads to an entity exactly by being one that is not plural. -/
theorem entity?_eq_some {target : String} (leads : type.entity? = some target) :
    type = .entity target ∧ type.isPlural = false := by
  unfold DataType.entity? at leads
  split at leads
  · obtain rfl := Option.some.inj leads
    exact ⟨rfl, rfl⟩
  · cases leads

/-- A label is located exactly when a group is kept under it. -/
theorem isSome_locate? : (locate? scopes label).isSome = true ↔ label ∈ keys scopes := by
  rw [← not_iff_not, Bool.not_eq_true, Option.isSome_eq_false_iff, Option.isNone_iff_eq_none]
  exact locate?_eq_none

/-- A located label is one a group is kept under. -/
theorem mem_keys_of_located {found : Nat × ScopedGroup} (located : locate? scopes label = some found) :
    label ∈ keys scopes := isSome_locate?.mp (located ▸ rfl)

/-! ## Steps along a path -/

/-- A group that is built for the next step of a way is entered with the group of its owner. -/
theorem entered_of_built (mapped : context.catalog.IsMapped) (tidy : Tidy context roots state)
    (route : Route) {before : Route} {level bound : Nat} {found : ScopedGroup} {join : GroupJoin}
    {name : String} {group : TableGroup}
    (located : locate? state.scopes before.name = some (level, found))
    (built : context.tableGroup route.name name = .ok group) (grouped : join.group = group)
    (plain : route.IsPlain) (led : route.owner? = some before) (root : route.root = before.root)
    (leads : route.entity? context.catalog roots = some name) (below : route.Below bound)
    (least : state.indexJoins ≤ bound) (new : route.name ∉ keys state.scopes) :
    Tidy context roots ⟨state.scopes.modify level (·.addJoin found.space join), bound⟩ ∧
      before.name ∈ keys (state.scopes.modify level (·.addJoin found.space join)) ∧
      route.name ∈ keys (state.scopes.modify level (·.addJoin found.space join)) := by
  subst grouped
  obtain ⟨entity, serves⟩ := tableGroup_serves mapped built
  have labelled := tableGroup_label built
  obtain ⟨scope, stored, _⟩ := locate?_mem located
  refine ⟨tidy.addJoin located least plain led root labelled.symm (entity ▸ leads) below
    (tableGroup_coherent built) serves new, ?_, ?_⟩
  · refine (keys_modify stored).mem_iff.mpr (List.mem_cons_of_mem _ (mem_keys_of_located located))
  · rw [(keys_modify stored).mem_iff, labelled]
    exact List.mem_cons_self

/-- The group of an owner that is not missing is found, with what is known about it. -/
theorem group_meets {α : Type} {next : TableGroup → Lowering α}
    {good : α → LoweringState → Prop} {ahead : List String}
    (stage : Stage context roots visible missing state)
    (reached : Reached context roots missing state.scopes owner find?)
    (reports : owner ∈ missing → owner ∈ reported)
    (meets : ∀ (route : Route) (level : Nat) (found : ScopedGroup), route.name = owner →
      route.IsPlain → locate? state.scopes owner = some (level, found) →
      route.entity? context.catalog roots = some found.group.entity →
      found.group.Serves context.catalog → context.catalog.Offers found.group.entity find? →
      Meets (next found.group) state (Blames missing reported ahead) good) :
    Meets (group owner >>= next) state (Blames missing reported ahead) good := by
  refine .bind_group (fun unknown => ?_) fun level found located => ?_
  · rcases reached with awaited | ⟨route, rfl, stands⟩
    · exact .inl ⟨awaited, reports awaited⟩
    · exact (locate?_eq_none.mp unknown stands.known).elim
  · rcases reached with awaited | ⟨route, rfl, plain, _, name, leads, offers⟩
    · have unknown := locate?_eq_none.mpr (stage.absent owner awaited).2
      rw [unknown] at located
      cases located
    · obtain ⟨scope, _, _, serves, reaches⟩ := stage.tidy.located plain located
      obtain rfl : name = found.group.entity := Option.some.inj (leads.symm.trans reaches.entity)
      exact meets route level found rfl plain located leads serves offers

/-- A to-one association is joined, unless its owner is missing. -/
theorem toOneJoin_meets (mapped : context.catalog.IsMapped)
    (stage : Stage context roots visible missing state)
    (reached : Reached context roots missing state.scopes owner find?)
    (reports : owner ∈ missing → owner ∈ reported) (plain : IsPlainName label)
    (typed : find? label = some type) {target : String} (leads : type.entity? = some target) :
    Meets (toOneJoin context owner label) state (Blames missing reported []) fun name after =>
      Tidy context roots after ∧ name = owner ++ "." ++ label ∧ owner ∈ keys after.scopes ∧
        ∃ route : Route, route.name = name ∧
          route.Stands context roots after.scopes (attributeOf? context.catalog type) := by
  obtain ⟨rfl, single⟩ := entity?_eq_some leads
  unfold toOneJoin
  refine .bind_isKnown ?_
  split
  · rename_i sought
    refine .pure ⟨stage.tidy, rfl, ?_⟩
    have entered := isSome_locate?.mp sought
    rcases reached with awaited | ⟨route, rfl, stands⟩
    · -- A group for an association of a missing source cannot have been entered.
      obtain ⟨named, unknown⟩ := stage.absent owner awaited
      have way : (Route.toOne (.source owner) label).IsPlain := ⟨named, plain⟩
      exact (unknown (stage.tidy.root_mem way entered)).elim
    · obtain ⟨name, ledTo, entity, answers, has⟩ := stands.offers
      obtain ⟨_, _, offers⟩ := offers_attributeOf mapped answers (has label _ typed) (.inl leads)
      refine ⟨stands.known, .toOne route label, rfl, ⟨stands.plain, plain⟩, entered, target, ?_, offers⟩
      rw [Route.entity?_toOne ledTo answers (has label _ typed), leads]
  · rename_i unsought
    refine group_meets stage reached reports ?_
    rintro route level ⟨space, ownerGroup⟩ rfl routed located ledTo serves ⟨entity, answers, has⟩
    have typedThere := has label _ typed
    obtain ⟨found, targetKnown, offers⟩ := offers_attributeOf mapped answers typedThere (.inl leads)
    have associated : associationEntity context ownerGroup label = .ok target := by
      simp [associationEntity, answers, typedThere, leads]
    obtain ⟨foreignKey, stored⟩ := columnOf_of_serves serves answers typedThere single
    obtain ⟨group, built⟩ := tableGroup_succeeds mapped targetKnown (route.name ++ "." ++ label)
    obtain ⟨join, joined, grouped⟩ : ∃ join,
        groupJoin .inner group (some (foreignKey.equals group.key)) = .ok join ∧ join.group = group :=
      ⟨_, groupJoin_of_allowed (by simp), rfl⟩
    refine .bind_ok associated (.bind_ok stored (.bind_ok built (.bind_ok joined
      (.bind_attach located (.pure ?_)))))
    have led : (Route.toOne route label).entity? context.catalog roots = some target := by
      rw [Route.entity?_toOne ledTo answers typedThere, leads]
    have way : (Route.toOne route label).IsPlain := ⟨routed, plain⟩
    obtain ⟨_, _, _, _, reaches⟩ := stage.tidy.located routed located
    have new : (Route.toOne route label).name ∉ keys state.scopes :=
      fun entered => unsought (isSome_locate?.mpr entered)
    have below : (Route.toOne route label).Below state.indexJoins := reaches.below
    obtain ⟨tidy, known, entered⟩ := entered_of_built mapped stage.tidy (.toOne route label) located
      built grouped way rfl rfl led below (Nat.le_refl _) new
    exact ⟨tidy, rfl, known, .toOne route label, rfl, way, entered, target, led, offers⟩

/-- The number of an access may be counted on. -/
theorem Stage.count (stage : Stage context roots visible missing state) {bound : Nat}
    (least : state.indexJoins ≤ bound) :
    Stage context roots visible missing { state with indexJoins := bound } :=
  ⟨⟨stage.tidy.distinct, fun scope member entry listed =>
    (stage.tidy.entered scope member entry listed).mono least (List.Subset.refl _)⟩,
    stage.absent, stage.covered⟩

/-- No group has been entered yet under the number that comes next. -/
theorem Tidy.next_new (tidy : Tidy context roots state) {route : Route}
    (plain : (Route.element route label state.indexJoins).IsPlain) :
    (Route.element route label state.indexJoins).name ∉ keys state.scopes := by
  intro entered
  obtain ⟨level, found, located⟩ := locate?_of_mem entered
  obtain ⟨_, _, _, _, reaches⟩ := tidy.located plain located
  exact Nat.lt_irrefl _ reaches.below.2

/-- The element that an index selects is joined, unless the owner of the collection is missing.

Proof: the number of the new join has not been drawn before, so its name is new; its target and the
table of the collection are there because the catalog is mapped. -/
theorem indexJoin_meets (mapped : context.catalog.IsMapped)
    (stage : Stage context roots visible missing state)
    (reached : Reached context roots missing state.scopes owner find?)
    (reports : owner ∈ missing → owner ∈ reported) (plain : IsPlainName label)
    (typed : find? label = some type) {element : DataType} (elements : type.element? = some element)
    {index : Sql.Expr} :
    Meets (indexJoin context owner label type index) state (Blames missing reported [])
      fun name after => Tidy context roots after ∧ owner ∈ keys after.scopes ∧
        ∃ route : Route, route.name = name ∧
          route.Stands context roots after.scopes (attributeOf? context.catalog element) := by
  unfold indexJoin
  refine .bind_lift (fun error failed => ?_) fun target chosen => .bind_nextIndexJoin ?_
  · unfold elementEntity at failed
    split at failed
    · cases failed
    · obtain rfl := Except.error.inj failed
      trivial
  have leads : type.element?.bind DataType.entity? = some target := by
    unfold elementEntity at chosen
    split at chosen
    · rename_i given
      exact given.trans (congrArg some (Except.ok.inj chosen))
    · cases chosen
  obtain ⟨rfl, _⟩ := entity?_eq_some (by simpa [elements] using leads)
  have plural : type.isPlural = true := by
    cases type with
    | simple given => cases elements
    | collection kind given => rfl
  have counted := stage.count (Nat.le_add_right state.indexJoins 1)
  refine group_meets counted reached reports ?_
  rintro route level ⟨space, ownerGroup⟩ rfl routed located ledTo serves ⟨entity, answers, has⟩
  have typedThere := has label _ typed
  obtain ⟨found, targetKnown, offers⟩ := offers_attributeOf mapped answers typedThere (.inr leads)
  obtain ⟨mapping, collected⟩ := collection_of_mapped mapped answers typedThere plural
  refine .bind_ok collected (.bind_lift (fun error failed => ?_) fun column indexed => ?_)
  · unfold indexColumn at failed
    split at failed
    · cases failed
    · obtain rfl := Except.error.inj failed
      trivial
  have way : (Route.element route label state.indexJoins).IsPlain := ⟨routed, plain⟩
  obtain ⟨group, built⟩ := tableGroup_succeeds mapped targetKnown
    (Route.element route label state.indexJoins).name
  obtain ⟨join, joined, grouped⟩ : ∃ join, groupJoin .inner group (some (Sql.Expr.both
      (ownerGroup.key.equals (.tableColumn group.root.label mapping.ownerColumn))
      (Sql.Expr.equals (.tableColumn group.root.label column) index))) = .ok join ∧
        join.group = group := ⟨_, groupJoin_of_allowed (by simp), rfl⟩
  refine .bind_ok built (.bind_ok joined (.bind_attach located (.pure ?_)))
  have led : (Route.element route label state.indexJoins).entity? context.catalog roots =
      some target := by
    rw [Route.entity?_element ledTo answers typedThere, leads]
  obtain ⟨_, _, _, _, reaches⟩ := stage.tidy.located routed located
  have below : (Route.element route label state.indexJoins).Below (state.indexJoins + 1) :=
    ⟨reaches.below.mono (Nat.le_add_right _ _), Nat.lt_succ_self _⟩
  obtain ⟨tidy, known, entered⟩ := entered_of_built mapped counted.tidy
    (.element route label state.indexJoins) located built grouped way rfl rfl led below
    (Nat.le_refl _) (stage.tidy.next_new way)
  exact ⟨tidy, known, .element route label state.indexJoins, rfl, way, entered, target, led, offers⟩

/-- How attributes are found after some segments. -/
def lookupAfter (catalog : Catalog) (find? : String → Option DataType) :
    List (Segment Resolved.Expr) → String → Option DataType
  | [] => find?
  | segment :: rest => lookupAfter catalog (attributeOf? catalog segment.type) rest

/-- A path is typed if its first stretch is and its second is from there. -/
theorem areTyped_append {catalog : Catalog} {init rest : List (Segment Resolved.Expr)}
    {find? : String → Option DataType} : AreTyped catalog find? (init ++ rest) ↔
      AreTyped catalog find? init ∧ AreTyped catalog (lookupAfter catalog find? init) rest := by
  induction init generalizing find? with
  | nil => simp [AreTyped, lookupAfter]
  | cons segment init ih => simp only [List.cons_append, AreTyped, lookupAfter, ih, and_assoc]

/-- A segment that another one follows leads to an entity. -/
theorem leads_of_areTyped {catalog : Catalog} {init rest : List (Segment Resolved.Expr)}
    {find? : String → Option DataType} (typed : AreTyped catalog find? (init ++ rest))
    (further : rest ≠ []) : ∀ segment ∈ init, segment.type.entity?.isSome = true := by
  induction init generalizing find? with
  | nil => simp
  | cons segment init ih =>
    rw [List.cons_append] at typed
    obtain ⟨_, _, others⟩ := typed
    refine List.forall_mem_cons.mpr ⟨?_, ih others⟩
    obtain ⟨next, more, same⟩ := List.exists_cons_of_ne_nil
      (List.append_ne_nil_of_right_ne_nil init further)
    rw [same] at others
    have found := others.1
    unfold attributeOf? at found
    split at found
    · rename_i given
      rw [given]
      rfl
    · cases found

/-- The sources of the trails are reported as far as they are missing. -/
def Reports (missing reported : List String) (trails : List Trail) : Prop :=
  ∀ trail ∈ trails, trail.root ∈ missing → trail.root ∈ reported

/-- Everything is entered properly, and a group is entered for each of the trails. -/
structure Traced (context : LoweringContext) (roots : String → Option String) (trails : List Trail)
    (after : LoweringState) : Prop where
  tidy : Tidy context roots after
  joined : ∀ trail ∈ trails, Joined after.scopes trail

/-- The segments have led from the owner to the group of that name. -/
structure Arrived (context : LoweringContext) (roots : String → Option String)
    (missing reported : List String) (find? : String → Option DataType) (owner : String)
    (segments : List (Segment Resolved.Expr)) (name : String) (after : LoweringState) : Prop where
  traced : Traced context roots (trailsOf (segmentNodes segments)) after
  reached : Reached context roots missing after.scopes name
    (lookupAfter context.catalog find? segments)
  reports : name ∈ missing → name ∈ reported
  /-- If the end is entered, so is everything on the way to it. -/
  steps : name ∈ keys after.scopes → ∀ trail : Trail, trail.name = owner → trail.route.IsPlain →
    ∀ other ∈ trail.steps (direct segments), Joined after.scopes other

/-- Trails that are traced stay traced while the scopes grow. -/
theorem Traced.grows {trails : List Trail} (traced : Traced context roots trails state)
    (grows : Grows context state.scopes after.scopes) (tidy : Tidy context roots after) :
    Traced context roots trails after :=
  ⟨tidy, fun trail member => (traced.joined trail member).grows grows⟩

/-- Trails traced one list behind the other are traced together. -/
theorem Traced.append {first second : List Trail} (traced : Traced context roots first after)
    (further : Traced context roots second after) : Traced context roots (first ++ second) after :=
  ⟨traced.tidy, List.forall_mem_append.mpr ⟨traced.joined, further.joined⟩⟩

/-- Two lists of trails report what either of them does. -/
theorem reports_append {first second : List Trail} : Reports missing reported (first ++ second) ↔
    Reports missing reported first ∧ Reports missing reported second := List.forall_mem_append

/-- A group that stands is not missing. -/
theorem Route.Stands.reports {route : Route} (stage : Stage context roots visible missing state)
    (stands : route.Stands context roots state.scopes find?) :
    route.name ∈ missing → route.name ∈ reported :=
  fun awaited => ((stage.absent _ awaited).2 stands.known).elim

/-- What is entered in the end was entered as soon as it was reached. -/
theorem Reached.known (reached : Reached context roots missing state.scopes owner find?)
    (stage : Stage context roots visible missing state) (grows : Grows context state.scopes later)
    (known : owner ∈ keys later) : owner ∈ keys state.scopes := by
  obtain awaited | ⟨route, rfl, stands⟩ := reached
  · exact grows.mem_keys_of_plain (stage.absent owner awaited).1 known
  · exact stands.known

/-- The element or the entity that a segment leads to is joined. -/
theorem step_meets (mapped : context.catalog.IsMapped)
    (stage : Stage context roots visible missing state) {segment : Segment Resolved.Expr}
    (reached : Reached context roots missing state.scopes owner find?)
    (reports : owner ∈ missing → owner ∈ reported) (plain : IsPlainName segment.label)
    (found : find? segment.label = some segment.declared) (typed : segment.IsTyped)
    (leads : segment.type.entity?.isSome = true) {index : Option Sql.Expr}
    (same : index.isSome = segment.index.isSome) :
    Meets (step context owner segment.label segment.declared index) state
      (Blames missing reported []) fun name after => Tidy context roots after ∧
        owner ∈ keys after.scopes ∧ (segment.index = none → name = owner ++ "." ++ segment.label) ∧
        ∃ route : Route, route.name = name ∧ route.Stands context roots after.scopes
          (attributeOf? context.catalog segment.type) := by
  obtain ⟨label, declared, position, after⟩ := segment
  unfold Segment.IsTyped at typed
  cases position with
  | none =>
    obtain rfl : index = none := by simpa using same
    obtain ⟨target, leads⟩ := Option.isSome_iff_exists.mp leads
    have direct : (⟨label, declared, none, after⟩ : Segment Resolved.Expr).type = declared := typed
    rw [direct] at leads ⊢
    refine (toOneJoin_meets mapped stage reached reports plain found leads).weaken
      (fun _ blamed => blamed) fun name after _ ⟨tidy, named, known, stands⟩ => ?_
    exact ⟨tidy, known, fun _ => named, stands⟩
  | some position =>
    obtain ⟨value, rfl⟩ : ∃ value, index = some value := Option.isSome_iff_exists.mp same
    refine (indexJoin_meets mapped stage reached reports plain found typed.2).weaken
      (fun _ blamed => blamed) fun name after _ ⟨tidy, known, stands⟩ => ?_
    exact ⟨tidy, known, nofun, stands⟩

/-! ## Expressions -/

/-- The value of the last attribute of a path is found where its owner is entered. -/
theorem columnValue_meets (stage : Stage context roots visible missing state)
    (reached : Reached context roots missing state.scopes owner find?)
    (reports : owner ∈ missing → owner ∈ reported) (typed : find? label = some type)
    {dotted : String} :
    Meets (columnValue dotted owner label type) state (Blames missing reported []) fun _ after =>
      after = state ∧ owner ∈ keys after.scopes := by
  unfold columnValue
  split
  · exact .throw trivial
  · rename_i single
    refine group_meets stage reached reports ?_
    rintro route level ⟨space, ownerGroup⟩ rfl routed located ledTo serves ⟨entity, answers, has⟩
    obtain ⟨column, stored⟩ := columnOf_of_serves serves answers (has label _ typed)
      (Bool.not_eq_true _ ▸ single)
    rw [stored]
    have known := mem_keys_of_located located
    exact .pure ⟨rfl, known⟩

mutual

/-- An expression fails only for the missing sources it refers to, and it enters groups for its
trails. -/
theorem expr_meets (mapped : context.catalog.IsMapped) : ∀ (given : Resolved.Expr)
    {state : LoweringState}, Stage context roots visible missing state →
      given.IsGrounded context.catalog visible → Reports missing reported given.trails →
        Meets (expr context given) state (Blames missing reported []) fun _ after =>
          Traced context roots given.trails after
  | .path ⟨source, sourceType, init, ⟨label, declared, index, after⟩, type⟩, state, stage, grounded,
      reports => by
    obtain ⟨⟨⟨node, seen, starts, follows⟩, plain, _⟩, inner, inside⟩ := isGrounded_path.mp grounded
    rw [trails_path] at reports ⊢
    obtain ⟨along, reports⟩ := reports_append.mp reports
    obtain ⟨reportsInner, reportsIndex⟩ := reports_append.mp reports
    simp only at starts
    subst starts
    have named := (stage.covered node seen).1
    obtain ⟨typedInit, found, typedLast, _⟩ := areTyped_append.mp follows
    have plainInit := fun segment member => plain segment (List.mem_append_left _ member)
    have plainLast := plain _ (List.mem_append_right init List.mem_cons_self)
    rw [expr]
    refine .bind (navigate_meets mapped init stage (stage.reached seen) (along _ Trail.mem_steps)
      plainInit typedInit (leads_of_areTyped follows (by simp)) inner reportsInner)
      fun owner walked ranPath arrived => ?_
    have walk := navigate_grows init node.label stage.tidy.coherent ranPath
    have stageWalked := stage.grows walk arrived.traced.tidy
    refine .bind (optional_meets mapped index stageWalked inside reportsIndex)
      fun position indexed ranIndex ⟨place, same⟩ => ?_
    have grown := optional_lowered index stageWalked.tidy.coherent ranIndex
    have stageIndexed := stageWalked.grows grown.1 place.tidy
    have reachedIndexed := arrived.reached.grows grown.1
    -- The owner is entered before anything is joined to it, so all the trails have been gone along.
    have done {last : LoweringState} (tidy : Tidy context roots last)
        (further : Grows context indexed.scopes last.scopes) (known : owner ∈ keys walked.scopes) :
        Traced context roots ((Trail.start node.label).steps (direct init) ++
          (trailsOf (segmentNodes init) ++ trailsOf (indexNodes index))) last := by
      have steps : Traced context roots ((Trail.start node.label).steps (direct init)) walked :=
        ⟨arrived.traced.tidy, arrived.steps known _ rfl named⟩
      have whole := grown.1.trans further
      exact (steps.grows whole tidy).append
        ((arrived.traced.grows whole tidy).append (place.grows further tidy))
    cases position with
    | some value =>
      have element : declared.element? = some after := by
        rw [Segment.IsTyped, ← same] at typedLast
        exact typedLast.2
      refine .bind (indexJoin_meets mapped stageIndexed reachedIndexed arrived.reports plainLast found
        element) fun name joined ranJoin ⟨tidy, known, route, standing, stands⟩ => ?_
      have raise := indexJoin_grows (grown.2 value rfl).isValue ranJoin
      have stageJoined := stageIndexed.grows raise tidy
      subst standing
      refine group_meets stageJoined (.inr ⟨route, rfl, stands⟩) (stands.reports stageJoined)
        fun _ _ _ _ _ _ _ _ _ => ?_
      exact .pure (done tidy raise (arrived.reached.known stageWalked (grown.1.trans raise) known))
    | none =>
      refine (columnValue_meets stageIndexed reachedIndexed arrived.reports found).weaken
        (fun _ blamed => blamed) fun _ after _ ⟨unchanged, known⟩ => ?_
      subst unchanged
      exact done place.tidy .refl (arrived.reached.known stageWalked grown.1 known)
  | .element label _, state, stage, grounded, reports => by
    obtain ⟨node, seen, rfl⟩ := isGrounded_element.mp grounded
    rw [trails_element] at reports ⊢
    rw [expr]
    refine group_meets stage (stage.reached seen) (reports _ List.mem_cons_self)
      fun route level found named plain located _ _ _ => .pure ⟨stage.tidy, ?_⟩
    refine List.forall_mem_singleton.mpr ⟨(stage.covered node seen).1, ?_⟩
    exact mem_keys_of_located located
  | .literal given, state, stage, grounded, reports => by
    rw [expr, trails_literal]
    unfold literal
    split
    · split
      · exact .pure ⟨stage.tidy, by simp⟩
      · exact .throw trivial
    · exact .pure ⟨stage.tidy, by simp⟩
  | .parameter bound, state, stage, grounded, reports => by
    rw [expr, trails_parameter]
    exact .pure ⟨stage.tidy, by simp⟩
  | .arithmetic op left right _, state, stage, grounded, reports => by
    obtain ⟨groundedLeft, groundedRight⟩ := isGrounded_arithmetic.mp grounded
    rw [trails_arithmetic] at reports ⊢
    obtain ⟨reportsLeft, reportsRight⟩ := reports_append.mp reports
    rw [expr]
    refine .bind (expr_meets mapped left stage groundedLeft reportsLeft)
      fun _ between ranLeft tracedLeft => ?_
    have grown := (expr_lowered left stage.tidy.coherent ranLeft).grows
    have stage' := stage.grows grown tracedLeft.tidy
    refine .bind (expr_meets mapped right stage' groundedRight reportsRight)
      fun _ after ranRight tracedRight => .pure ?_
    have further := (expr_lowered right stage'.tidy.coherent ranRight).grows
    exact (tracedLeft.grows further tracedRight.tidy).append tracedRight
  | .negate operand, state, stage, grounded, reports => by
    rw [trails_negate] at reports ⊢
    rw [expr]
    exact .bind (expr_meets mapped operand stage (isGrounded_negate.mp grounded) reports)
      fun _ _ _ traced => .pure traced
  | .call function distinct argument _, state, stage, grounded, reports => by
    rw [trails_call] at reports ⊢
    rw [expr]
    refine .bind (optional_meets mapped argument stage (isGrounded_call.mp grounded) reports)
      fun value _ _ ⟨traced, _⟩ => ?_
    unfold call
    split
    · exact .pure traced
    · split
      · exact .pure traced
      · exact .throw trivial

/-- So does an index or an argument, if there is one. -/
theorem optional_meets (mapped : context.catalog.IsMapped) : ∀ (given : Option Resolved.Expr)
    {state : LoweringState}, Stage context roots visible missing state →
      IndexGrounded context.catalog visible given →
        Reports missing reported (trailsOf (indexNodes given)) →
          Meets (optional context given) state (Blames missing reported []) fun value after =>
            Traced context roots (trailsOf (indexNodes given)) after ∧ value.isSome = given.isSome
  | none, state, stage, grounded, reports => by
    rw [optional]
    exact .pure ⟨⟨stage.tidy, by simp [indexNodes, trailsOf]⟩, rfl⟩
  | some given, state, stage, grounded, reports => by
    rw [optional]
    exact .bind (expr_meets mapped given stage grounded reports)
      fun _ _ _ traced => .pure ⟨traced, rfl⟩

/-- The segments of a path lead on from an owner that is reached.

Proof: by induction on the segments. Each step is taken from an owner that is reached or missing,
and it leads to one of which the same holds. -/
theorem navigate_meets (mapped : context.catalog.IsMapped) :
    ∀ (segments : List (Segment Resolved.Expr)) {state : LoweringState} {owner : String}
      {find? : String → Option DataType}, Stage context roots visible missing state →
        Reached context roots missing state.scopes owner find? →
        (owner ∈ missing → owner ∈ reported) → (∀ segment ∈ segments, IsPlainName segment.label) →
        AreTyped context.catalog find? segments →
        (∀ segment ∈ segments, segment.type.entity?.isSome = true) →
        SegmentsGrounded context.catalog visible segments →
        Reports missing reported (trailsOf (segmentNodes segments)) →
          Meets (navigate context segments owner) state (Blames missing reported [])
            (Arrived context roots missing reported find? owner segments)
  | [], state, owner, find?, stage, reached, reportsOwner, plain, typed, leads, grounded, reports => by
    rw [navigate]
    refine .pure ⟨⟨stage.tidy, by simp [segmentNodes, trailsOf]⟩, reached, reportsOwner, ?_⟩
    rintro known trail rfl named other member
    rw [List.mem_singleton.mp member]
    exact ⟨named, known⟩
  | ⟨label, declared, index, after⟩ :: rest, state, owner, find?, stage, reached, reportsOwner, plain,
      typed, leads, grounded, reports => by
    obtain ⟨plainHere, plainRest⟩ := List.forall_mem_cons.mp plain
    obtain ⟨leadsHere, leadsRest⟩ := List.forall_mem_cons.mp leads
    obtain ⟨groundedHere, groundedRest⟩ := segmentsGrounded_cons.mp grounded
    obtain ⟨found, typedHere, typedRest⟩ := typed
    rw [trailsOf_segmentNodes_cons] at reports
    obtain ⟨reportsHere, reportsRest⟩ := reports_append.mp reports
    rw [navigate]
    refine .bind (optional_meets mapped index stage groundedHere reportsHere)
      fun position indexed ranIndex ⟨place, same⟩ => ?_
    have grown := optional_lowered index stage.tidy.coherent ranIndex
    have stageIndexed := stage.grows grown.1 place.tidy
    refine .bind (step_meets mapped stageIndexed (reached.grows grown.1) reportsOwner plainHere found
      typedHere leadsHere same) fun next stepped ranStep ⟨tidy, known, direct, route, named, stands⟩ => ?_
    have step := step_grows (fun value given => (grown.2 value given).isValue) ranStep
    have stageStepped := stageIndexed.grows step tidy
    subst named
    refine (navigate_meets mapped rest stageStepped (.inr ⟨route, rfl, stands⟩)
      (stands.reports stageStepped) plainRest typedRest leadsRest groundedRest reportsRest).weaken
      (fun _ blamed => blamed) fun name after ranRest arrived => ?_
    have walk := navigate_grows rest route.name tidy.coherent ranRest
    refine ⟨?_, arrived.reached, arrived.reports, ?_⟩
    · rw [trailsOf_segmentNodes_cons]
      exact (place.grows (step.trans walk) arrived.traced.tidy).append arrived.traced
    · rintro entered trail rfl way other member
      have here : Joined after.scopes trail := ⟨way, walk.keys_subset known⟩
      cases index with
      | some index => exact List.mem_singleton.mp member ▸ here
      | none =>
        rcases List.mem_cons.mp member with rfl | further
        · exact here
        · refine arrived.steps entered (trail.extend label) ?_ ?_ other further
          · rw [Trail.name_extend, direct rfl]
          · rw [Trail.route_extend]
            exact ⟨way, plainHere⟩

end

end Lowering
end ObjectQuery
