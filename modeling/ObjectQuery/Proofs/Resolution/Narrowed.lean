import ObjectQuery.Proofs.Resolution.Carried
import ObjectQuery.Proofs.Resolution.Registered
/-!
# Resolving with a narrowed root

When every path of a statement starts with a source, the statement can be resolved with its root
narrowed if it can be resolved at all. The result differs in recorded types and in the entity of the
root, and in nothing else.
-/
namespace ObjectQuery.Resolution

open Resolved (Expr Segment Reference FromNode)

variable {entity : EntityType} {names : Names}

/-- The names with the root narrowed to an entity. -/
def Names.narrowed (entity : EntityType) (names : Names) : Names :=
  { names with index := names.index.narrowed entity }

/-! ## Expressions -/

/-- What an attribute is looked up in is the same or has been narrowed. -/
inductive Owner.NarrowsTo (entity : EntityType) : Owner → Owner → Prop
  | source {element other : FromElement} (narrows : element.NarrowsTo entity other) :
    NarrowsTo entity (.source element) (.source other)
  | type (known : DataType) : NarrowsTo entity (.type known) (.type known)

/-- An attribute the wider owner declares has the same type in the narrower one. -/
theorem attributeType_narrowed {owner other : Owner} (narrows : owner.NarrowsTo entity other)
    {name : String} {type : DataType} (typed : attributeType names owner name = .ok type) :
    attributeType (names.narrowed entity) other name = .ok type := by
  cases narrows with
  | type known => exact typed
  | source narrows =>
    rename_i element other
    unfold attributeType at typed ⊢
    obtain ⟨found, looked, typed⟩ := except_bind_ok.mp typed
    obtain rfl := Except.ok.inj looked
    cases known : element.entity.attribute? name with
    | none =>
      rw [known] at typed
      cases typed
    | some declared =>
      rw [known] at typed
      have kept : Owner.attribute? (names.narrowed entity) (.source other) name =
          .ok (some declared) := congrArg Except.ok (narrows.attribute? known)
      exact except_bind_ok.mpr ⟨some declared, kept, typed⟩

/-- A path that starts with a source starts with the same or with the narrowed one. -/
theorem pathSource_narrowed (rooted : names.index.Rooted entity) {clause : Nat} {name : String}
    {indexed : Bool} (visible : (names.index.findVisible? clause name).isSome) {source : FromElement}
    {isSource : Bool} (found : pathSource names clause name indexed = .ok (source, isSource)) :
    isSource = true ∧ ∃ other, source.NarrowsTo entity other ∧
      pathSource (names.narrowed entity) clause name indexed = .ok (other, true) := by
  have narrows := FromIndex.findVisible?_narrowed rooted clause name
  have index : (names.narrowed entity).index = names.index.narrowed entity := rfl
  unfold pathSource at found ⊢
  rw [index]
  generalize names.index.findVisible? clause name = before,
    (names.index.narrowed entity).findVisible? clause name = after at found visible narrows ⊢
  cases narrows with
  | none => cases visible
  | some narrows =>
    cases indexed with
    | true => cases found
    | false =>
      obtain ⟨rfl, rfl⟩ := Prod.mk.inj (Except.ok.inj found)
      exact ⟨rfl, _, narrows, rfl⟩

/-- The segments differ only in types recorded in their indices. -/
def SegmentsAlike (first second : List (Segment Expr)) : Prop :=
  Resolved.strippedSegments second = Resolved.strippedSegments first

/-- Alike parts from alike sources make alike paths. -/
theorem pathOf_alike {source other : FromElement} (narrows : source.NarrowsTo entity other)
    {first second : List (Segment Expr)} (alike : SegmentsAlike first second) :
    Alike (pathOf source first) (pathOf other second) := by
  unfold SegmentsAlike at alike
  rw [Resolved.strippedSegments_eq_map, Resolved.strippedSegments_eq_map] at alike
  have lasts : second.getLast?.map Segment.stripped = first.getLast?.map Segment.stripped := by
    rw [← List.getLast?_map, ← List.getLast?_map, alike]
  have inits : second.dropLast.map Segment.stripped = first.dropLast.map Segment.stripped := by
    rw [List.map_dropLast, List.map_dropLast, alike]
  unfold pathOf
  rw [narrows.label]
  cases ends : first.getLast? with
  | none =>
    rw [ends, Option.map_none, Option.map_eq_none_iff] at lasts
    rw [lasts]
    exact ⟨by simp, .entities _ _⟩
  | some last =>
    rw [ends, Option.map_some, Option.map_eq_some_iff] at lasts
    obtain ⟨other, found, same⟩ := lasts
    rw [found]
    have types : other.type = last.type := by
      rw [← other.type_stripped, same, last.type_stripped]
    constructor
    · rw [Expr.stripped_path, Expr.stripped_path]
      unfold Reference.stripped
      rw [Resolved.strippedSegments_eq_map, Resolved.strippedSegments_eq_map, inits, same, types]
    · change TypesAlike (some last.type) (some other.type)
      rw [types]
      exact .same _

/-- Alike indices are equal without their types. -/
theorem strippedIndex_alike {first second : Option Expr} (alike : Option.Rel Alike first second) :
    Resolved.strippedIndex second = Resolved.strippedIndex first := by
  cases alike with
  | none => rfl
  | some alike => exact congrArg some alike.stripped

mutual

/-- A qualified expression is resolved alike over the narrower root.

Proof: by recursion over the expression. A qualified path names its source, so narrowing the root
cannot make it start anywhere else. -/
theorem expr_narrowed (rooted : names.index.Rooted entity) (clause : Nat) :
    ∀ given : Grammar.Expr, given.isQualified names.index clause = true →
      Carries Alike (expr names clause given) (expr (names.narrowed entity) clause given)
  | .path route, qualified => by
    rw [Grammar.Expr.isQualified] at qualified
    rw [expr, expr]
    exact path_narrowed rooted clause route qualified
  | .literal _ value, _ => by
    rw [expr, expr]
    exact .pure (.refl _)
  | .named _ name, _ => by
    rw [expr, expr]
    exact .pure (.refl _)
  | .positional _ position, _ => by
    rw [expr, expr]
    refine .weaken (.same _) fun value other equal => ?_
    subst equal
    exact .refl _
  | .arithmetic _ op left right, qualified => by
    rw [Grammar.Expr.isQualified, Bool.and_eq_true] at qualified
    rw [expr, expr]
    refine .bind (expr_narrowed rooted clause left qualified.1) fun _ _ alikeLeft => ?_
    refine .bind (expr_narrowed rooted clause right qualified.2) fun _ _ alikeRight => ?_
    refine .bindLift (fun type => arithmeticType_alike alikeLeft alikeRight) fun type => ?_
    refine .pure ⟨?_, .same _⟩
    simp [alikeLeft.stripped, alikeRight.stripped]
  | .negate _ operand, qualified => by
    rw [Grammar.Expr.isQualified] at qualified
    rw [expr, expr]
    refine .bind (expr_narrowed rooted clause operand qualified) fun _ _ alike => ?_
    refine .bindLift (fun type => numericOperand_alike alike) fun _ => .pure ⟨?_, alike.types⟩
    simp [alike.stripped]
  | .call _ name distinct argument, qualified => by
    rw [Grammar.Expr.isQualified] at qualified
    rw [expr, expr]
    refine .bindSame fun function => .bindSame fun _ => ?_
    refine .bind (optional_narrowed rooted clause argument qualified) fun _ _ alike => ?_
    refine .bind (.lift fun type => callType_alike alike) fun type other types => ?_
    refine .pure ⟨?_, types⟩
    simp [strippedIndex_alike alike]

/-- A qualified index that may be left out is resolved alike over the narrower root. -/
theorem optional_narrowed (rooted : names.index.Rooted entity) (clause : Nat) :
    ∀ given : Option Grammar.Expr, Grammar.optionalQualified names.index clause given = true →
      Carries (Option.Rel Alike) (optional names clause given)
        (optional (names.narrowed entity) clause given)
  | none, _ => by
    rw [optional, optional]
    exact .pure .none
  | some given, qualified => by
    rw [Grammar.optionalQualified] at qualified
    rw [optional, optional]
    exact .bind (expr_narrowed rooted clause given qualified) fun _ _ alike => .pure (.some alike)

/-- A qualified path is resolved alike over the narrower root. -/
theorem path_narrowed (rooted : names.index.Rooted entity) (clause : Nat) :
    ∀ route : Grammar.Path Grammar.Expr, Grammar.pathQualified names.index clause route = true →
      Carries Alike (path names clause route) (path (names.narrowed entity) clause route)
  | ⟨⟨name, position⟩, rest, _⟩, qualified => by
    rw [Grammar.pathQualified, Bool.and_eq_true, Bool.and_eq_true] at qualified
    obtain ⟨⟨visible, _⟩, qualified⟩ := qualified
    rw [path, path]
    refine .bind (.lift (?_ : ∀ found : FromElement × Bool, _ → ∃ other : FromElement × Bool, _ ∧
      found.2 = true ∧ other.2 = true ∧ found.1.NarrowsTo entity other.1)) fun found other start => ?_
    · rintro ⟨source, isSource⟩ found
      obtain ⟨whole, other, narrows, foundOther⟩ := pathSource_narrowed rooted visible found
      exact ⟨(other, true), foundOther, whole, rfl, narrows⟩
    · obtain ⟨source, isSource⟩ := found
      obtain ⟨other, isOther⟩ := other
      obtain ⟨rfl, rfl, narrows⟩ := start
      refine .bind (parts_narrowed rooted clause (.source narrows) rest qualified) fun _ _ alike => ?_
      exact .pure (pathOf_alike narrows alike)

/-- One part of a path is resolved alike from the narrower owner. -/
theorem part_narrowed (rooted : names.index.Rooted entity) (clause : Nat) {owner other : Owner}
    (narrows : owner.NarrowsTo entity other) :
    ∀ given : Grammar.PathPart Grammar.Expr,
      Grammar.optionalQualified names.index clause given.index = true →
        Carries (fun first second : Segment Expr => second.stripped = first.stripped)
          (part names clause owner given) (part (names.narrowed entity) clause other given)
  | ⟨name, position⟩, qualified => by
    rw [part, part]
    refine .bindLift (fun type => attributeType_narrowed narrows) fun type => .bindSame fun _ => ?_
    refine .bind (optional_narrowed rooted clause position qualified) fun _ _ alike => .pure ?_
    simp [strippedIndex_alike alike]

/-- The parts of a path are resolved alike from the narrower owner. -/
theorem parts_narrowed (rooted : names.index.Rooted entity) (clause : Nat) {owner other : Owner}
    (narrows : owner.NarrowsTo entity other) :
    ∀ given : List (Grammar.PathPart Grammar.Expr),
      Grammar.partsQualified names.index clause given = true →
        Carries SegmentsAlike (parts names clause owner given)
          (parts (names.narrowed entity) clause other given)
  | [], _ => by
    rw [parts, parts]
    exact .pure rfl
  | ⟨name, position⟩ :: rest, qualified => by
    rw [Grammar.partsQualified, Bool.and_eq_true] at qualified
    rw [parts, parts]
    refine .bind (part_narrowed rooted clause narrows ⟨name, position⟩ qualified.1)
      fun segment other same => ?_
    have types : other.type = segment.type := by
      rw [← other.type_stripped, same, segment.type_stripped]
    rw [types]
    refine .bind (parts_narrowed rooted clause (.type segment.type) rest qualified.2)
      fun segments others alike => .pure ?_
    unfold SegmentsAlike at alike ⊢
    rw [Resolved.strippedSegments_eq_map, Resolved.strippedSegments_eq_map] at alike ⊢
    rw [List.map_cons, List.map_cons, same, alike]

end

/-! ## Predicates and queries -/

/-- What is registered for these places is not the root. -/
def Apart (entity : EntityType) (names : Names) (places : List Span) : Prop :=
  ∀ span ∈ places, nodeAt (names.narrowed entity) span = nodeAt names span

/-- Two lists of places keep away from the root if both do. -/
theorem apart_append {first second : List Span} :
    Apart entity names (first ++ second) ↔ Apart entity names first ∧ Apart entity names second :=
  List.forall_mem_append

/-- A list of places keeps away from the root if its first place and the rest do. -/
theorem apart_cons {span : Span} {rest : List Span} :
    Apart entity names (span :: rest) ↔
      nodeAt (names.narrowed entity) span = nodeAt names span ∧ Apart entity names rest :=
  List.forall_mem_cons

/-- Qualified values are resolved alike over the narrower root. -/
theorem exprs_narrowed (rooted : names.index.Rooted entity) (clause : Nat)
    {given : List Grammar.Expr} (qualified : given.all (·.isQualified names.index clause) = true) :
    Carries (fun first second => second.map Expr.stripped = first.map Expr.stripped)
      (given.mapM (expr names clause)) (given.mapM (expr (names.narrowed entity) clause)) := by
  apply Carries.mapM
  intro item member
  have carries := expr_narrowed rooted clause item (List.all_eq_true.mp qualified item member)
  exact carries.weaken fun _ _ alike => alike.stripped

/-- Qualified selections are resolved alike over the narrower root. -/
theorem selections_narrowed (rooted : names.index.Rooted entity) (clause : Nat)
    {given : List Grammar.Selection}
    (qualified : given.all (·.expr.isQualified names.index clause) = true) :
    Carries (fun first second => second.map Resolved.Selection.stripped =
        first.map Resolved.Selection.stripped)
      (selections names clause given) (selections (names.narrowed entity) clause given) := by
  apply Carries.mapM
  intro item member
  have carries := expr_narrowed rooted clause item.expr (List.all_eq_true.mp qualified item member)
  exact .bind carries fun _ _ alike => .pure (by simp [alike.stripped])

/-- What is like a path is a path. -/
theorem path_alike {reference : Reference Expr} {second : Expr}
    (alike : Alike (.path reference) second) :
    ∃ other, second = .path other ∧ other.stripped = reference.stripped := by
  have same := alike.stripped
  cases second with
  | path other =>
    rw [Expr.stripped_path, Expr.stripped_path] at same
    exact ⟨other, rfl, Expr.path.inj same⟩
  | _ => simp at same

/-- A qualified path to a collection is resolved alike over the narrower root. -/
theorem collection_narrowed (rooted : names.index.Rooted entity) (clause : Nat)
    {route : Grammar.Path Grammar.Expr}
    (qualified : Grammar.pathQualified names.index clause route = true) :
    Carries (fun first second => second.stripped = first.stripped)
      (collection names clause route) (collection (names.narrowed entity) clause route) := by
  unfold collection
  refine .bind (path_narrowed rooted clause route qualified) fun first second alike => ?_
  cases first with
  | path reference =>
    obtain ⟨other, rfl, same⟩ := path_alike alike
    have types : other.type = reference.type := by
      rw [← other.type_stripped, same, reference.type_stripped]
    simp only [types]
    split
    · exact .pure same
    · exact .throw
  | _ => exact .throw

/-- A filter stays where it was given. -/
theorem strippedFilter_isSome (given : Option Resolved.Predicate) :
    (Resolved.strippedFilter given).isSome = given.isSome := by
  cases given <;> rfl

/-- Whether a join can be made depends on its condition only as far as there is one. -/
theorem joinMake_narrowed {kind : JoinKind} {fetch : Bool} {target : FromNode}
    {first second : Option Resolved.Predicate} {join : Resolved.Join Resolved.Predicate}
    (same : Resolved.strippedFilter second = Resolved.strippedFilter first)
    (made : Resolved.Join.make kind fetch target first = .ok join) :
    ∃ other, Resolved.Join.make kind fetch target second = .ok other ∧
      join = ⟨kind, fetch, target, first⟩ ∧ other = ⟨kind, fetch, target, second⟩ := by
  have present : second.isSome = first.isSome := by
    rw [← strippedFilter_isSome, same, strippedFilter_isSome]
  unfold Resolved.Join.make at made ⊢
  rw [present]
  split at made
  · cases made
  · rename_i allowed
    rw [if_neg allowed]
    split at made
    · cases made
    · obtain rfl := Except.ok.inj made
      exact ⟨_, rfl, rfl, rfl⟩

/-- A scope is found at the same place whether or not the root is narrowed. -/
theorem Carries.bindScope {β γ : Type} {related : β → γ → Prop} {span : Span}
    {next : Nat → Resolving β} {image : Nat → Resolving γ}
    (later : ∀ clause, names.index.scopeAt? span = some clause →
      Carries related (next clause) (image clause)) :
    Carries related (liftM (scopeAt names span) >>= next)
      (liftM (scopeAt (names.narrowed entity) span) >>= image) := by
  have lifted : Carries (fun first second => second = first ∧
      names.index.scopeAt? span = some first) (liftM (scopeAt names span))
      (liftM (scopeAt (names.narrowed entity) span)) := by
    refine .lift fun clause found => ⟨clause, found, rfl, ?_⟩
    unfold scopeAt at found
    split at found
    · obtain rfl := Except.ok.inj found
      assumption
    · cases found
  refine .bind lifted fun clause other ⟨same, place⟩ => ?_
  subst same
  exact later _ place

/-- What is selected without a select list depends on the names of the first sources alone. -/
theorem defaultSelections_alike {first second : List (Resolved.FromSpace Resolved.Predicate)}
    (same : second.map (·.root.label) = first.map (·.root.label)) :
    (defaultSelections second).map Resolved.Selection.stripped =
      (defaultSelections first).map Resolved.Selection.stripped := by
  have named : ∀ spaces : List (Resolved.FromSpace Resolved.Predicate),
      (defaultSelections spaces).map Resolved.Selection.stripped =
        (spaces.map (·.root.label)).map fun label => ⟨.element label Resolved.noType, none⟩ := by
    intro spaces
    simp [defaultSelections]
  rw [named, named, same]

/-- Taking the types off spaces leaves the labels of their roots. -/
theorem labels_stripped (spaces : List (Resolved.FromSpace Resolved.Predicate)) :
    (Resolved.strippedSpaces spaces).map (·.root.label) = spaces.map (·.root.label) := by
  induction spaces with
  | nil => rfl
  | cons space rest ih => simp [ih]

mutual

/-- A qualified predicate is resolved alike over the narrower root.

Proof: by recursion over the predicate, along the second walk. A source that is not the root is
found as before, and a path from the root goes on with attributes that the narrower entity has as
well. -/
theorem predicate_narrowed (rooted : names.index.Rooted entity) (clause : Nat) :
    ∀ given : Grammar.Predicate, given.isQualified names.index clause = true →
      Apart entity names given.places →
        Carries (fun first second => second.stripped = first.stripped)
          (predicate names clause given) (predicate (names.narrowed entity) clause given)
  | .and _ left right, qualified, apart | .or _ left right, qualified, apart => by
    rw [Grammar.Predicate.isQualified, Bool.and_eq_true] at qualified
    rw [Grammar.Predicate.places, apart_append] at apart
    rw [predicate, predicate]
    refine .bind (predicate_narrowed rooted clause left qualified.1 apart.1) fun _ _ sameLeft => ?_
    refine .bind (predicate_narrowed rooted clause right qualified.2 apart.2) fun _ _ sameRight => ?_
    exact .pure (by simp [sameLeft, sameRight])
  | .not _ operand, qualified, apart => by
    rw [Grammar.Predicate.isQualified] at qualified
    rw [Grammar.Predicate.places] at apart
    rw [predicate, predicate]
    refine .bind (predicate_narrowed rooted clause operand qualified apart) fun _ _ same => ?_
    exact .pure (by simp [same])
  | .compare _ op left right, qualified, _ => by
    rw [Grammar.Predicate.isQualified, Bool.and_eq_true] at qualified
    rw [predicate, predicate]
    refine .bind (expr_narrowed rooted clause left qualified.1) fun _ _ alikeLeft => ?_
    refine .bind (expr_narrowed rooted clause right qualified.2) fun _ _ alikeRight => ?_
    exact .pure (by simp [alikeLeft.stripped, alikeRight.stripped])
  | .inList _ test values negated, qualified, _ => by
    rw [Grammar.Predicate.isQualified, Bool.and_eq_true] at qualified
    rw [predicate, predicate]
    refine .bind (expr_narrowed rooted clause test qualified.1) fun _ _ alike => ?_
    refine .bind (exprs_narrowed rooted clause qualified.2) fun _ _ same => ?_
    exact .pure (by simp [alike.stripped, same])
  | .inQuery _ test query negated, qualified, apart => by
    rw [Grammar.Predicate.isQualified, Bool.and_eq_true] at qualified
    rw [Grammar.Predicate.places] at apart
    rw [predicate, predicate]
    refine .bind (expr_narrowed rooted clause test qualified.1) fun _ _ alike => ?_
    refine .bind (querySpec_narrowed rooted query qualified.2 apart) fun _ _ same => ?_
    exact .pure (by simp [alike.stripped, same])
  | .memberOf _ element route negated, qualified, _ => by
    rw [Grammar.Predicate.isQualified, Bool.and_eq_true] at qualified
    rw [predicate, predicate]
    refine .bind (expr_narrowed rooted clause element qualified.1) fun _ _ alike => ?_
    refine .bind (collection_narrowed rooted clause qualified.2) fun _ _ same => .pure ?_
    rw [Resolved.Predicate.stripped, Resolved.Predicate.stripped, alike.stripped, same]
  | .isNull _ operand negated, qualified, _ => by
    rw [Grammar.Predicate.isQualified] at qualified
    rw [predicate, predicate]
    refine .bind (expr_narrowed rooted clause operand qualified) fun _ _ alike => ?_
    exact .pure (by simp [alike.stripped])
  | .like _ operand pattern negated, qualified, _ => by
    rw [Grammar.Predicate.isQualified, Bool.and_eq_true] at qualified
    rw [predicate, predicate]
    refine .bind (expr_narrowed rooted clause operand qualified.1) fun _ _ alike => ?_
    refine .bind (expr_narrowed rooted clause pattern qualified.2) fun _ _ alikePattern => ?_
    exact .pure (by simp [alike.stripped, alikePattern.stripped])
  | .between _ operand low high negated, qualified, _ => by
    rw [Grammar.Predicate.isQualified, Bool.and_eq_true, Bool.and_eq_true] at qualified
    rw [predicate, predicate]
    refine .bind (expr_narrowed rooted clause operand qualified.1.1) fun _ _ alike => ?_
    refine .bind (expr_narrowed rooted clause low qualified.1.2) fun _ _ alikeLow => ?_
    refine .bind (expr_narrowed rooted clause high qualified.2) fun _ _ alikeHigh => ?_
    exact .pure (by simp [alike.stripped, alikeLow.stripped, alikeHigh.stripped])

/-- A qualified filter is resolved alike over the narrower root. -/
theorem filter_narrowed (rooted : names.index.Rooted entity) (clause : Nat) :
    ∀ given : Option Grammar.Predicate, Grammar.filterQualified names.index clause given = true →
      Apart entity names (Grammar.filterPlaces given) →
        Carries (fun first second =>
            Resolved.strippedFilter second = Resolved.strippedFilter first)
          (filter names clause given) (filter (names.narrowed entity) clause given)
  | none, _, _ => by
    rw [filter, filter]
    exact .pure rfl
  | some given, qualified, apart => by
    rw [Grammar.filterQualified] at qualified
    rw [Grammar.filterPlaces] at apart
    rw [filter, filter]
    refine .bind (predicate_narrowed rooted clause given qualified apart) fun _ _ same => ?_
    exact .pure (by simp [same])

/-- Qualified joins are resolved alike over the narrower root. -/
theorem joins_narrowed (rooted : names.index.Rooted entity) (clause : Nat) :
    ∀ given : List (Grammar.Join Grammar.Predicate),
      Grammar.joinsQualified names.index clause given = true →
      Apart entity names (Grammar.joinPlaces given) →
        Carries (fun first second =>
            Resolved.strippedJoins second = Resolved.strippedJoins first)
          (joins names clause given) (joins (names.narrowed entity) clause given)
  | [], _, _ => by
    rw [joins, joins]
    exact .pure rfl
  | ⟨kind, fetch, _, _, condition, span⟩ :: rest, qualified, apart => by
    rw [Grammar.joinsQualified, Bool.and_eq_true] at qualified
    rw [Grammar.joinPlaces, apart_cons, apart_append] at apart
    rw [joins, joins, apart.1]
    refine .bindSame fun target => ?_
    refine .bind (filter_narrowed rooted clause condition qualified.1 apart.2.1) fun _ _ same => ?_
    refine .bind (.lift fun join => joinMake_narrowed same) fun join other made => ?_
    obtain ⟨rfl, rfl⟩ := made
    refine .bind (joins_narrowed rooted clause rest qualified.2 apart.2.2) fun _ _ sameRest => ?_
    exact .pure (by simp [same, sameRest])

/-- Qualified spaces are resolved alike over the narrower root. -/
theorem spaces_narrowed (rooted : names.index.Rooted entity) (clause : Nat) :
    ∀ given : List (Grammar.FromSpace Grammar.Predicate),
      Grammar.spacesQualified names.index clause given = true →
      Apart entity names (Grammar.spacePlaces given) →
        Carries (fun first second =>
            Resolved.strippedSpaces second = Resolved.strippedSpaces first)
          (spaces names clause given) (spaces (names.narrowed entity) clause given)
  | [], _, _ => by
    rw [spaces, spaces]
    exact .pure rfl
  | ⟨root, joined, _⟩ :: rest, qualified, apart => by
    rw [Grammar.spacesQualified, Bool.and_eq_true] at qualified
    rw [Grammar.spacePlaces, apart_cons, apart_append] at apart
    rw [spaces, spaces, apart.1]
    refine .bindSame fun node => ?_
    refine .bind (joins_narrowed rooted clause joined qualified.1 apart.2.1) fun _ _ same => ?_
    refine .bind (spaces_narrowed rooted clause rest qualified.2 apart.2.2) fun _ _ sameRest => ?_
    exact .pure (by simp [same, sameRest])

/-- A qualified query is resolved alike over the narrower root. -/
theorem querySpec_narrowed (rooted : names.index.Rooted entity) :
    ∀ given : Grammar.Query Grammar.Predicate, Grammar.queryQualified names.index given = true →
      Apart entity names (Grammar.queryPlaces given) →
        Carries (fun first second =>
            Resolved.strippedQuery second = Resolved.strippedQuery first)
          (querySpec names given) (querySpec (names.narrowed entity) given)
  | ⟨select, ⟨items, span⟩, condition, _⟩, qualified, apart => by
    rw [Grammar.queryQualified] at qualified
    rw [Grammar.queryPlaces, apart_append] at apart
    rw [querySpec, querySpec]
    refine .bindScope fun clause place => ?_
    rw [place, Option.any_some, Bool.and_eq_true, Bool.and_eq_true] at qualified
    refine .bind (selections_narrowed rooted clause qualified.1.1) fun _ _ sameChosen => ?_
    refine .bind (spaces_narrowed rooted clause items qualified.1.2 apart.1) fun _ _ sameItems => ?_
    refine .bind (filter_narrowed rooted clause condition qualified.2 apart.2) fun _ _ same => ?_
    refine .pure ?_
    simp only [Resolved.strippedQuery, sameItems, same]
    split
    · rw [sameChosen]
    · rw [defaultSelections_alike]
      rw [← labels_stripped, sameItems, labels_stripped]

end

end ObjectQuery.Resolution
