import ObjectQuery.Proofs.Grammar.Asked
import ObjectQuery.Proofs.Resolution.Counted
/-!
# Numbers for parameters

Resolving a tree meets the parameters of the tree one after the other in the order of the text, and the
expressions of the result are in the same order. Each parameter is one step of the numbering: a name
stays as it is, and a parameter without a position takes the next one. No run of such steps takes
parameters with a position and parameters without.
-/
namespace ObjectQuery

/-- What the numbering makes of one parameter. -/
inductive Numbering.Step : Numbering → Asked → ParameterKind → Numbering → Prop
  | named (numbering : Numbering) (name : String) :
    Step numbering (.named name) (.named name) numbering
  | first : Step .unused (.positional none) (.positional 1) (.counted 1)
  | next (last : Nat) :
    Step (.counted last) (.positional none) (.positional (last + 1)) (.counted (last + 1))
  | given (numbering : Numbering) (position : Nat) (uncounted : ∀ last, numbering ≠ .counted last) :
    Step numbering (.positional (some position)) (.positional position) .given

/-- What the numbering makes of parameters, one after the other. -/
inductive Numbering.Takes : Numbering → List (Spanned Asked) → List ParameterKind → Numbering → Prop
  | nil (numbering : Numbering) : Takes numbering [] [] numbering
  | cons {before between after : Numbering} {parameter : Spanned Asked} {kind : ParameterKind}
    {rest : List (Spanned Asked)} {kinds : List ParameterKind}
    (step : Step before parameter.value kind between) (run : Takes between rest kinds after) :
    Takes before (parameter :: rest) (kind :: kinds) after

/-- The kinds of parameters if those without a position are counted on from the last one counted. -/
def Asked.kindsFrom : Nat → List (Spanned Asked) → List ParameterKind
  | _, [] => []
  | last, ⟨.named name, _⟩ :: rest => .named name :: kindsFrom last rest
  | last, ⟨.positional (some position), _⟩ :: rest => .positional position :: kindsFrom last rest
  | last, ⟨.positional none, _⟩ :: rest => .positional (last + 1) :: kindsFrom (last + 1) rest

/-- The parameter has a question mark and no position. -/
def Asked.isBare : Asked → Bool
  | .positional none => true
  | _ => false

/-- The parameter has a question mark and a position. -/
def Asked.isGiven : Asked → Bool
  | .positional (some _) => true
  | _ => false

/-- Some parameter has no position, and some parameter has one. -/
def Asked.Mixed (asked : List (Spanned Asked)) : Prop :=
  (∃ parameter ∈ asked, parameter.value.isBare = true) ∧
    ∃ parameter ∈ asked, parameter.value.isGiven = true

instance (asked : List (Spanned Asked)) : Decidable (Asked.Mixed asked) :=
  decidable_of_iff (asked.any (·.value.isBare) = true ∧ asked.any (·.value.isGiven) = true)
    (and_congr List.any_eq_true List.any_eq_true)

namespace Numbering

variable {before between after : Numbering} {asked later : List (Spanned Asked)}
  {kinds more : List ParameterKind}

/-- One parameter is taken in one step. -/
theorem Takes.one {parameter : Spanned Asked} {kind : ParameterKind}
    (step : Step before parameter.value kind after) : Takes before [parameter] [kind] after :=
  .cons step (.nil after)

/-- Parameters in a row are taken one after the other. -/
theorem Takes.append (first : Takes before asked kinds between)
    (second : Takes between later more after) : Takes before (asked ++ later) (kinds ++ more) after := by
  induction first with
  | nil => exact second
  | cons step _ inductionHypothesis => exact .cons step (inductionHypothesis second)

/-- The last position counted. -/
def last : Numbering → Nat
  | .counted last => last
  | _ => 0

/-- A step gives out the next number if its parameter needs one. -/
theorem Step.kindsFrom {parameter : Spanned Asked} {kind : ParameterKind}
    (step : Step before parameter.value kind after) (rest : List (Spanned Asked)) :
    Asked.kindsFrom before.last (parameter :: rest) = kind :: Asked.kindsFrom after.last rest := by
  obtain ⟨value, span⟩ := parameter
  cases step with
  | given _ position uncounted =>
    cases before with
    | counted last => exact absurd rfl (uncounted last)
    | _ => rfl
  | _ => rfl

/-- Parameters without a position are counted in their order. -/
theorem Takes.kinds_eq (run : Takes before asked kinds after) :
    kinds = Asked.kindsFrom before.last asked := by
  induction run with
  | nil => rfl
  | cons step _ inductionHypothesis => rw [step.kindsFrom, ← inductionHypothesis]

/-- Positions have been counted. -/
def Counts (numbering : Numbering) : Prop := ∃ last, numbering = .counted last

section Steps

variable {parameter : Asked} {kind : ParameterKind} (step : Step before parameter kind after)

include step

/-- A question mark alone makes the numbering count. -/
theorem Step.counts_of_bare (bare : parameter.isBare = true) : after.Counts := by
  cases step with
  | first => exact ⟨1, rfl⟩
  | next last => exact ⟨last + 1, rfl⟩
  | _ => cases bare

/-- A given position makes the numbering a given one. -/
theorem Step.given_of_isGiven (given : parameter.isGiven = true) : after = .given := by
  cases step with
  | given => rfl
  | _ => cases given

/-- A numbering that counts goes on counting. -/
theorem Step.counts_of_counts (counts : before.Counts) : after.Counts := by
  obtain ⟨last, rfl⟩ := counts
  cases step with
  | named => exact ⟨last, rfl⟩
  | next => exact ⟨last + 1, rfl⟩
  | given _ _ uncounted => exact absurd rfl (uncounted last)

/-- A given numbering stays a given one. -/
theorem Step.given_of_given (given : before = .given) : after = .given := by
  subst given
  cases step <;> rfl

end Steps

/-- What some parameter brings about and no step undoes holds in the end. -/
theorem Takes.holds (holds : Numbering → Prop) {parameter : Spanned Asked}
    (reached : ∀ {before after kind}, Step before parameter.value kind after → holds after)
    (kept : ∀ {before after parameter kind}, Step before parameter kind after →
      holds before → holds after)
    (run : Takes before asked kinds after) (listed : parameter ∈ asked ∨ holds before) :
    holds after := by
  induction run with
  | nil =>
    obtain listed | held := listed
    · cases listed
    · exact held
  | cons step _ inductionHypothesis =>
    apply inductionHypothesis
    obtain listed | held := listed
    · obtain rfl | listed := List.mem_cons.mp listed
      · exact .inr (reached step)
      · exact .inl listed
    · exact .inr (kept step held)

/-- No run takes parameters with a position and parameters without: in the end positions would have
been both counted and given. -/
theorem Takes.not_mixed (run : Takes before asked kinds after) : ¬ Asked.Mixed asked := by
  rintro ⟨⟨bare, listed, isBare⟩, given, listedToo, isGiven⟩
  have counted : after.Counts :=
    run.holds Counts (·.counts_of_bare isBare) Step.counts_of_counts (.inl listed)
  have told : after = .given :=
    run.holds (· = .given) (·.given_of_isGiven isGiven) Step.given_of_given (.inl listedToo)
  obtain ⟨last, rfl⟩ := counted
  cases told

end Numbering

namespace Resolved

/-- The kinds of the parameters among the expressions, in order. -/
def kindsIn (nodes : List Expr) : List ParameterKind :=
  (nodes.filterMap Expr.parameter?).map (·.kind)

variable {expr : Expr} {nodes later : List Expr}

/-- There are no parameters in no expressions. -/
@[simp] theorem kindsIn_nil : kindsIn [] = [] := rfl

/-- The parameters of a first expression come first. -/
@[simp] theorem kindsIn_cons :
    kindsIn (expr :: nodes) = (expr.parameter?.map (·.kind)).toList ++ kindsIn nodes := by
  unfold kindsIn
  cases expr <;> rfl

/-- The parameters of expressions in a row. -/
@[simp] theorem kindsIn_append : kindsIn (nodes ++ later) = kindsIn nodes ++ kindsIn later := by
  simp [kindsIn]

/-- The parameters of parts are those of each part, one after the other. -/
@[simp] theorem kindsIn_flatMap {α : Type} (items : List α) (parts : α → List Expr) :
    kindsIn (items.flatMap parts) = items.flatMap fun item => kindsIn (parts item) := by
  simp [kindsIn, List.filterMap_flatMap, List.map_flatMap]

/-- The parameters of a path are those in its indices. -/
theorem kindsIn_path (reference : Reference Expr) :
    kindsIn (Expr.path reference).nodes = kindsIn (segmentNodes reference.segments) := by
  obtain ⟨source, sourceType, init, ⟨label, declared, index, after⟩, type⟩ := reference
  simp [Expr.nodes, Expr.parameter?, Reference.segments, segmentNodes_append, segmentNodes]

/-- The kinds of the parameters of a statement and of the targets of its assignments, in order. -/
def Statement.allKinds : Statement → List ParameterKind
  | .update _ assignments filter =>
    (assignments.flatMap fun assignment =>
      kindsIn (Expr.path assignment.target).nodes ++ kindsIn assignment.value.nodes) ++
    kindsIn (filterNodes filter)
  | other => kindsIn other.nodes

end Resolved

namespace Resolution

open Resolved (Expr Segment kindsIn indexNodes segmentNodes queryNodes spaceNodes joinNodes filterNodes)

/-- Every result of the step has the earlier kinds and then those that the numbering makes of the
parameters. -/
def Numbers {α : Type} (step : Resolving α) (earlier : List ParameterKind)
    (asked : List (Spanned Asked)) (kinds : α → List ParameterKind) : Prop :=
  ∀ ⦃numbering value after⦄, step.run numbering = .ok (value, after) →
    ∃ more, kinds value = earlier ++ more ∧ numbering.Takes asked more after

namespace Numbers

variable {α β : Type} {earlier : List ParameterKind} {asked later : List (Spanned Asked)}
  {inner : α → List ParameterKind} {kinds : β → List ParameterKind}

/-- A value is given without taking a parameter. -/
theorem pure {value : β} (same : kinds value = earlier) :
    Numbers (Pure.pure value) earlier [] kinds := by
  intro numbering result after ran
  obtain ⟨rfl, rfl⟩ := Prod.mk.inj (Except.ok.inj ran)
  exact ⟨[], by rw [same, List.append_nil], .nil numbering⟩

/-- A failure takes nothing. -/
theorem throw {error : ResolutionError} :
    Numbers (MonadExcept.throw error : Resolving β) earlier asked kinds := by
  intro numbering result after ran
  cases ran

/-- Steps in a row take their parameters one after the other. -/
theorem bind {step : Resolving α} {next : α → Resolving β} (numbers : Numbers step [] asked inner)
    (further : ∀ value, Numbers (next value) (earlier ++ inner value) later kinds) :
    Numbers (step >>= next) earlier (asked ++ later) kinds := by
  intro numbering result after ran
  rw [StateT.run_bind] at ran
  obtain ⟨⟨value, between⟩, started, ran⟩ := except_bind_ok.mp ran
  obtain ⟨first, same, begun⟩ := numbers started
  obtain ⟨second, sameToo, ended⟩ := further value ran
  rw [List.nil_append] at same
  exact ⟨first ++ second, by rw [sameToo, same, List.append_assoc], begun.append ended⟩

/-- Nothing more is asked for behind the step. -/
theorem last {step : Resolving α} {next : α → Resolving β} (numbers : Numbers step [] asked inner)
    (further : ∀ value, Numbers (next value) (earlier ++ inner value) [] kinds) :
    Numbers (step >>= next) earlier asked kinds := by
  have whole := bind numbers further
  rwa [List.append_nil] at whole

/-- A check does not touch the numbering. -/
theorem check {result : Except ResolutionError α} {next : α → Resolving β}
    (further : ∀ value, result = .ok value → Numbers (next value) earlier asked kinds) :
    Numbers (liftM result >>= next) earlier asked kinds := by
  intro numbering value after ran
  cases result with
  | error failure => cases ran
  | ok found => exact further found rfl ran

/-- A step for each item takes the parameters of the items in order. -/
theorem mapM {step : α → Resolving β} {wanted : α → List (Spanned Asked)}
    (numbers : ∀ item, Numbers (step item) [] (wanted item) kinds) :
    ∀ items : List α, Numbers (items.mapM step) [] (items.flatMap wanted) (List.flatMap kinds)
  | [] => by
    rw [List.mapM_nil]
    exact pure rfl
  | item :: rest => by
    rw [List.mapM_cons]
    refine bind (numbers item) fun first => last (mapM numbers rest) fun others => pure ?_
    rw [List.flatMap_cons, List.nil_append]

end Numbers

variable (names : Names) (clause : Nat)

/-! ## Expressions -/

/-- A parameter with a question mark is one step of the numbering. -/
theorem positional_numbers (span : Span) (position : Option Nat) :
    Numbers (positional position) [] [⟨.positional position, span⟩] fun found => kindsIn found.nodes := by
  intro numbering value after ran
  cases position with
  | none =>
    cases numbering with
    | unused =>
      cases ran
      exact ⟨_, rfl, .one .first⟩
    | counted last =>
      cases ran
      exact ⟨_, rfl, .one (.next last)⟩
    | given => cases ran
  | some position =>
    cases numbering with
    | counted last => cases ran
    | _ =>
      cases ran
      refine ⟨_, rfl, .one (.given _ position ?_)⟩
      intro last
      simp

/-- A named parameter has its name. -/
theorem named_numbers (span : Span) (name : String) :
    Numbers (Pure.pure (untyped (.named name))) [] [⟨.named name, span⟩] fun found =>
      kindsIn found.nodes := by
  intro numbering value after ran
  cases ran
  exact ⟨_, rfl, .one (.named _ name)⟩

/-- The parameters of a path that is put together are those of its segments. -/
theorem pathOf_kindsIn (source : FromElement) (segments : List (Segment Expr)) :
    kindsIn (pathOf source segments).nodes = kindsIn (segmentNodes segments) := by
  unfold pathOf
  split
  · rename_i empty
    obtain rfl := List.getLast?_eq_none_iff.mp empty
    rfl
  · rename_i last ends
    obtain ⟨init, rfl⟩ := List.getLast?_eq_some_iff.mp ends
    rw [List.dropLast_concat, Resolved.kindsIn_path]
    rfl

mutual

/-- Resolving an expression takes its parameters in the order of the text. -/
theorem expr_numbers : ∀ given : Grammar.Expr,
    Numbers (expr names clause given) [] given.asked fun found => kindsIn found.nodes
  | .path route => by
    rw [expr, Grammar.Expr.asked]
    exact path_numbers route
  | .literal _ value => by
    rw [expr, Grammar.Expr.asked]
    exact .pure rfl
  | .named span name => by
    rw [expr, Grammar.Expr.asked]
    exact named_numbers span name
  | .positional span position => by
    rw [expr, Grammar.Expr.asked]
    exact positional_numbers span position
  | .arithmetic _ op left right => by
    rw [expr, Grammar.Expr.asked]
    refine .bind (expr_numbers left) fun left => .last (expr_numbers right) fun right => ?_
    refine .check fun type _ => .pure ?_
    simp [Expr.nodes, Expr.parameter?]
  | .negate _ operand => by
    rw [expr, Grammar.Expr.asked]
    refine .last (expr_numbers operand) fun operand => .check fun _ _ => .pure ?_
    simp [Expr.nodes, Expr.parameter?]
  | .call _ name distinct argument => by
    rw [expr, Grammar.Expr.asked]
    refine .check fun function _ => .check fun _ _ => ?_
    refine .last (optional_numbers argument) fun argument => .check fun type _ => .pure ?_
    simp [Expr.nodes, Expr.parameter?]

/-- So it is for an index or argument. -/
theorem optional_numbers : ∀ given : Option Grammar.Expr,
    Numbers (optional names clause given) [] (Grammar.optionalAsked given) fun found =>
      kindsIn (indexNodes found)
  | none => by
    rw [optional, Grammar.optionalAsked]
    exact .pure rfl
  | some given => by
    rw [optional, Grammar.optionalAsked]
    exact .last (expr_numbers given) fun found => .pure rfl

/-- So it is for a path. -/
theorem path_numbers : ∀ route : Grammar.Path Grammar.Expr,
    Numbers (path names clause route) [] (Grammar.pathAsked route) fun found => kindsIn found.nodes
  | ⟨⟨name, index⟩, rest, _⟩ => by
    rw [path, Grammar.pathAsked]
    refine .check fun (source, isSource) sought => ?_
    cases isSource with
    | true =>
      -- The name of a source leaves no segment behind, and an index there has been refused.
      have plain := index_of_pathSource sought
      rw [Option.isSome_eq_false_iff, Option.isNone_iff_eq_none] at plain
      simp only at plain
      rw [plain, Grammar.optionalAsked, List.nil_append]
      exact .last (parts_number (.source source) rest) fun segments => .pure (pathOf_kindsIn _ segments)
    | false =>
      refine .bind (part_numbers (.source source) ⟨name, index⟩) fun segment => ?_
      refine .last (parts_number (.type segment.type) rest) fun segments => .pure ?_
      obtain ⟨label, declared, value, after⟩ := segment
      rw [pathOf_kindsIn, segmentNodes, Resolved.kindsIn_append]
      rfl

/-- So it is for a part of a path. -/
theorem part_numbers (owner : Owner) : ∀ given : Grammar.PathPart Grammar.Expr,
    Numbers (part names clause owner given) [] (Grammar.optionalAsked given.index) fun found =>
      kindsIn (indexNodes found.index)
  | ⟨name, index⟩ => by
    rw [part]
    refine .check fun type _ => .check fun _ _ => ?_
    exact .last (optional_numbers index) fun found => .pure rfl

/-- So it is for further parts. -/
theorem parts_number (owner : Owner) : ∀ given : List (Grammar.PathPart Grammar.Expr),
    Numbers (parts names clause owner given) [] (Grammar.partsAsked given) fun found =>
      kindsIn (segmentNodes found)
  | [] => by
    rw [parts, Grammar.partsAsked]
    exact .pure rfl
  | ⟨name, index⟩ :: rest => by
    rw [parts, Grammar.partsAsked]
    refine .bind (part_numbers owner ⟨name, index⟩) fun segment => ?_
    refine .last (parts_number (.type segment.type) rest) fun segments => .pure ?_
    obtain ⟨label, declared, value, after⟩ := segment
    rw [segmentNodes, Resolved.kindsIn_append]
    rfl

end

/-! ## Conditions and queries -/

/-- So it is for a select list. -/
theorem selections_number (given : List Grammar.Selection) :
    Numbers (selections names clause given) [] (given.flatMap (·.expr.asked)) fun found =>
      kindsIn (found.flatMap fun selection => selection.expr.nodes) := by
  have one : ∀ selection : Grammar.Selection,
      Numbers (do
        let resolved ← expr names clause selection.expr
        return (⟨resolved, selection.label.map (·.value)⟩ : Resolved.Selection)) []
        selection.expr.asked fun found => kindsIn found.expr.nodes := fun selection =>
    .last (expr_numbers names clause selection.expr) fun found => .pure rfl
  simp only [Resolved.kindsIn_flatMap]
  exact .mapM one given

/-- A select list that is left out has no parameters. -/
theorem defaultSelections_kindsIn (items : List (Resolved.FromSpace Resolved.Predicate)) :
    kindsIn ((defaultSelections items).flatMap fun selection => selection.expr.nodes) = [] := by
  simp [defaultSelections, Expr.nodes, Expr.parameter?]

/-- Resolving the path to a collection takes its parameters in order. -/
theorem collection_numbers (route : Grammar.Path Grammar.Expr) :
    Numbers (collection names clause route) [] (Grammar.pathAsked route) fun found =>
      kindsIn (Expr.path found).nodes := by
  unfold collection
  refine .last (path_numbers names clause route) fun found => ?_
  split
  · split
    · exact .pure rfl
    · exact .throw
  · exact .throw

mutual

/-- Resolving a predicate takes its parameters in the order of the text.

Proof: by recursion over the predicate. The walk goes from left to right as the text does, and each
bare question mark takes the next number. -/
theorem predicate_numbers (clause : Nat) : ∀ given : Grammar.Predicate, given.JoinsPlainly →
    Numbers (predicate names clause given) [] given.asked fun found => kindsIn found.nodes
  | .and _ left right, plain | .or _ left right, plain => by
    rw [predicate, Grammar.Predicate.asked]
    refine .bind (predicate_numbers clause left plain.1) fun left => ?_
    refine .last (predicate_numbers clause right plain.2) fun right => .pure ?_
    exact Resolved.kindsIn_append
  | .not _ operand, plain => by
    rw [predicate, Grammar.Predicate.asked]
    exact .last (predicate_numbers clause operand plain) fun operand => .pure rfl
  | .compare _ op left right, _ => by
    rw [predicate, Grammar.Predicate.asked]
    refine .bind (expr_numbers names clause left) fun left => ?_
    refine .last (expr_numbers names clause right) fun right => .pure ?_
    exact Resolved.kindsIn_append
  | .inList _ test values negated, _ => by
    rw [predicate, Grammar.Predicate.asked]
    refine .bind (expr_numbers names clause test) fun test => ?_
    refine .last (.mapM (expr_numbers names clause) values) fun found => .pure ?_
    simp [Resolved.Predicate.nodes]
  | .inQuery _ test query negated, plain => by
    rw [predicate, Grammar.Predicate.asked]
    refine .bind (expr_numbers names clause test) fun test => ?_
    refine .last (querySpec_numbers query plain) fun query => .pure ?_
    exact Resolved.kindsIn_append
  | .memberOf _ element route negated, _ => by
    rw [predicate, Grammar.Predicate.asked]
    refine .bind (expr_numbers names clause element) fun element => ?_
    refine .last (collection_numbers names clause route) fun reference => .pure ?_
    exact Resolved.kindsIn_append
  | .isNull _ operand negated, _ => by
    rw [predicate, Grammar.Predicate.asked]
    exact .last (expr_numbers names clause operand) fun operand => .pure rfl
  | .like _ operand pattern negated, _ => by
    rw [predicate, Grammar.Predicate.asked]
    refine .bind (expr_numbers names clause operand) fun operand => ?_
    refine .last (expr_numbers names clause pattern) fun pattern => .pure ?_
    exact Resolved.kindsIn_append
  | .between _ operand low high negated, _ => by
    rw [predicate, Grammar.Predicate.asked, List.append_assoc]
    refine .bind (expr_numbers names clause operand) fun operand => ?_
    refine .bind (expr_numbers names clause low) fun low => ?_
    refine .last (expr_numbers names clause high) fun high => .pure ?_
    simp [Resolved.Predicate.nodes]

/-- So it is for a condition that may be absent. -/
theorem filter_numbers (clause : Nat) : ∀ given : Option Grammar.Predicate,
    Grammar.FilterJoinsPlainly given →
      Numbers (filter names clause given) [] (Grammar.filterAsked given) fun found =>
        kindsIn (filterNodes found)
  | none, _ => by
    rw [filter, Grammar.filterAsked]
    exact .pure rfl
  | some condition, plain => by
    rw [filter, Grammar.filterAsked]
    exact .last (predicate_numbers clause condition plain) fun found => .pure rfl

/-- So it is for joins along plain paths. -/
theorem joins_number (clause : Nat) : ∀ given : List (Grammar.Join Grammar.Predicate),
    Grammar.JoinsArePlain given →
      Numbers (joins names clause given) [] (Grammar.joinsAsked given) fun found =>
        kindsIn (joinNodes found)
  | [], _ => by
    rw [joins, Grammar.joinsAsked]
    exact .pure rfl
  | ⟨kind, fetch, route, label, condition, span⟩ :: rest, plain => by
    -- The path of the join is not in the result, and has no parameters.
    rw [joins, Grammar.joinsAsked, Grammar.pathAsked_of_plain plain.1, List.nil_append]
    refine .check fun target _ => ?_
    refine .bind (filter_numbers clause condition plain.2.1) fun found => ?_
    refine .check fun join made => .last (joins_number clause rest plain.2.2) fun others => .pure ?_
    have same := predicate_of_make made
    obtain ⟨_, _, _, predicate⟩ := join
    obtain rfl : predicate = found := same
    exact Resolved.kindsIn_append

/-- So it is for the items of a from-clause. -/
theorem spaces_number (clause : Nat) : ∀ given : List (Grammar.FromSpace Grammar.Predicate),
    Grammar.SpacesJoinPlainly given →
      Numbers (spaces names clause given) [] (Grammar.spacesAsked given) fun found =>
        kindsIn (spaceNodes found)
  | [], _ => by
    rw [spaces, Grammar.spacesAsked]
    exact .pure rfl
  | ⟨root, joined, _⟩ :: rest, plain => by
    rw [spaces, Grammar.spacesAsked]
    refine .check fun target _ => .bind (joins_number clause joined plain.1) fun joined => ?_
    refine .last (spaces_number clause rest plain.2) fun others => .pure ?_
    exact Resolved.kindsIn_append

/-- So it is for a query. -/
theorem querySpec_numbers : ∀ given : Grammar.Query Grammar.Predicate,
    Grammar.QueryJoinsPlainly given →
      Numbers (querySpec names given) [] (Grammar.queryAsked given) fun found =>
        kindsIn (queryNodes found)
  | ⟨select, ⟨items, span⟩, condition, _⟩, plain => by
    rw [querySpec, Grammar.queryAsked, List.append_assoc]
    refine .check fun clause _ => ?_
    cases select with
    | none =>
      have nothing : selections names clause [] = Pure.pure [] := List.mapM_nil
      simp only [Option.map_none, Option.getD_none, nothing, pure_bind, Grammar.selectAsked,
        List.flatMap_nil, List.nil_append]
      refine .bind (spaces_number clause items plain.1) fun items => ?_
      refine .last (filter_numbers clause condition plain.2) fun condition => .pure ?_
      rw [queryNodes, Resolved.kindsIn_append, Resolved.kindsIn_append, if_neg (by simp),
        defaultSelections_kindsIn]
    | some select =>
      refine .bind (selections_number names clause _) fun chosen => ?_
      refine .bind (spaces_number clause items plain.1) fun items => ?_
      refine .last (filter_numbers clause condition plain.2) fun condition => .pure ?_
      rw [queryNodes, Resolved.kindsIn_append, Resolved.kindsIn_append]
      rfl

end

/-! ## Statements -/

/-- So it is for an assignment, target first. -/
theorem assignment_numbers (target : Resolved.FromNode) (given : Grammar.Assignment) :
    Numbers (assignment names clause target given) [] given.asked fun found =>
      kindsIn (Expr.path found.target).nodes ++ kindsIn found.value.nodes := by
  unfold assignment Grammar.Assignment.asked
  refine .bind (path_numbers names clause given.target) fun found => ?_
  split
  · split
    · exact .last (expr_numbers names clause given.value) fun value => .pure rfl
    · exact .throw
  · exact .throw

/-- Resolving a tree numbers its parameters in the order of the text. -/
theorem statement_numbers : ∀ given : Grammar.Statement, given.JoinsPlainly →
    Numbers (statement names given) [] given.asked Resolved.Statement.allKinds
  | .select query order, plain => by
    rw [statement, Grammar.Statement.asked]
    have key : ∀ key : Grammar.SortSpec, Numbers (do
        let clause ← scopeAt names query.sources.span
        sortKey names clause key) [] key.expr.asked fun found => kindsIn found.expr.nodes := fun key =>
      .check fun clause _ => .last (expr_numbers names clause key.expr) fun found => .pure rfl
    refine .bind (querySpec_numbers names query plain) fun query => ?_
    refine .last (.mapM key order) fun keys => .pure ?_
    simp [Resolved.Statement.allKinds, Resolved.Statement.nodes]
  | .update target assignments condition, plain => by
    rw [statement, Grammar.Statement.asked]
    refine .check fun clause _ => .check fun node _ => ?_
    refine .bind (.mapM (assignment_numbers names clause node) assignments) fun found => ?_
    exact .last (filter_numbers names clause condition plain) fun condition => .pure rfl
  | .delete target condition, plain => by
    rw [statement, Grammar.Statement.asked]
    refine .check fun clause _ => .check fun node _ => ?_
    exact .last (filter_numbers names clause condition plain) fun condition => .pure rfl

end Resolution
end ObjectQuery
