import Mathlib.Data.List.Basic
import ObjectQuery.Proofs.Grammar.Sources
import ObjectQuery.Proofs.Resolution.Tables
/-!
# How the index grows

A walk over a part of a statement registers one element for each source, in the order of the text and
with the place of the source, and one scope for each from-clause. The elements of the items and joins
of a from-clause are in its scope; all others are in scopes that the walk has opened itself.

So the index of a whole statement mirrors its queries: the scope of a query is inside that of the
query around it, and its elements are the sources that its from-clause names.
-/
namespace ObjectQuery

namespace Registering

variable {α β : Type} {registry after : Registry}

/-- Started with `registry`, the step succeeds with `value` and leaves `after`. -/
def Yields (step : Registering α) (registry : Registry) (value : α) (after : Registry) : Prop :=
  step.run.run registry = (.ok value, after)

/-- A value is given without registering anything. -/
theorem yields_pure {value result : α} :
    Yields (pure value) registry result after ↔ result = value ∧ after = registry := by
  change (Except.ok value, registry) = (Except.ok result, after) ↔ _
  rw [Prod.mk.injEq, Except.ok.injEq]
  exact and_congr eq_comm eq_comm

/-- Steps in a row start where the step before has ended. -/
theorem yields_bind {first : Registering α} {next : α → Registering β} {value : β} :
    Yields (first >>= next) registry value after ↔
      ∃ middle between, Yields first registry middle between ∧
        Yields (next middle) between value after := by
  constructor
  · intro ran
    unfold Yields at ran ⊢
    rw [ExceptT.run_bind, StateT.run_bind] at ran
    cases started : first.run.run registry with
    | mk outcome between =>
      rw [started] at ran
      cases outcome with
      | error failure => cases ran
      | ok middle => exact ⟨middle, between, rfl, ran⟩
  · rintro ⟨middle, between, started, ran⟩
    unfold Yields at started ran ⊢
    rw [ExceptT.run_bind, StateT.run_bind, started]
    exact ran

/-- A result that is there already registers nothing. -/
theorem yields_lift {result : Except ResolutionError α} {value : α} :
    Yields (Sources.addRoot.liftExcept result) registry value after ↔
      result = .ok value ∧ after = registry := by
  change (result, registry) = (Except.ok value, after) ↔ _
  rw [Prod.mk.injEq]
  exact and_congr_right' eq_comm

/-- The registry is given as it is. -/
theorem yields_get {found : Registry} :
    Yields get registry found after ↔ found = registry ∧ after = registry := by
  change (Except.ok registry, registry) = (Except.ok found, after) ↔ _
  rw [Prod.mk.injEq, Except.ok.injEq]
  exact and_congr eq_comm eq_comm

/-- The registry is replaced. -/
theorem yields_set {new : Registry} {value : PUnit} :
    Yields (set new) registry value after ↔ after = new := by
  change (Except.ok PUnit.unit, new) = (Except.ok value, after) ↔ _
  rw [Prod.mk.injEq]
  exact ⟨fun same => same.2.symm, fun same => ⟨rfl, same.symm⟩⟩

/-- A failure gives nothing. -/
theorem not_yields_throw {error : ResolutionError} {value : α} :
    ¬ Yields (throw error) registry value after := by
  intro ran
  cases ran

/-- A call to the index gives its number if it is not refused. -/
theorem yields_changeIndex {call : Indexing Nat} {number : Nat} :
    Yields (changeIndex call) registry number after ↔
      ∃ index, call.on registry.index = .ok (index, number) ∧
        after = { registry with index := index } := by
  unfold Yields Indexing.on
  rw [run_changeIndex]
  obtain ⟨outcome, index⟩ := call.run.run registry.index
  change (outcome, Registry.mk index registry.generated) = (Except.ok number, after) ↔ _
  rw [Prod.mk.injEq]
  cases outcome with
  | error refusal => simp
  | ok number => simp [eq_comm, and_comm]

/-- A new scope gets the number of scopes so far. -/
theorem yields_addScope {parent : Option Nat} {span : Span} {number : Nat} :
    Yields (addScope parent span) registry number after ↔
      number = registry.index.scopes.length ∧
        after = { registry with index := (registry.index.addScope parent span).1 } := by
  rw [addScope, yields_changeIndex, Indexing.on_addScope, FromIndex.addScope_eq]
  simp [eq_comm, and_comm]

/-- A new space gets the number that the index gives to it. -/
theorem yields_addSpace {clause number : Nat} :
    Yields (addSpace clause) registry number after ↔
      ∃ index, registry.index.addSpace clause = .ok (index, number) ∧
        after = { registry with index := index } := yields_changeIndex

/-- The name of an element, whether it is generated, and how many names are then generated. -/
def nameFor : Option (Spanned String) → Nat → String × Bool × Nat
  | some label, count => (label.value, false, count)
  | none, count => (generatedLabel count, true, count + 1)

/-- A source is registered under its name, or under a generated one. -/
theorem yields_addElement {label : Option (Spanned String)} {reference : EntityReference}
    {origin : FromOrigin} {clause space : Nat} {span : Span} {value : Unit} :
    Yields (addElement label reference origin clause space span) registry value after ↔
      ∃ index number, registry.index.register
          ⟨(nameFor label registry.generated).1, (nameFor label registry.generated).2.1, reference,
            origin, clause, space, span⟩ = .ok (index, number) ∧
        after = ⟨index, (nameFor label registry.generated).2.2⟩ := by
  cases label with
  | some label =>
    simp only [addElement, yields_bind, yields_changeIndex, yields_pure, nameFor]
    constructor
    · rintro ⟨_, _, ⟨rfl, rfl⟩, number, _, ⟨index, registered, rfl⟩, _, rfl⟩
      exact ⟨index, number, registered, rfl⟩
    · rintro ⟨index, number, registered, rfl⟩
      exact ⟨_, _, ⟨rfl, rfl⟩, number, _, ⟨index, registered, rfl⟩, trivial, rfl⟩
  | none =>
    simp only [addElement, nextLabel, yields_bind, yields_get, yields_set, yields_changeIndex,
      yields_pure, nameFor]
    constructor
    · rintro ⟨_, _, ⟨_, _, ⟨rfl, rfl⟩, _, _, rfl, rfl, rfl⟩, _, _, ⟨rfl, rfl⟩, number, _,
        ⟨index, registered, rfl⟩, _, rfl⟩
      exact ⟨index, number, registered, rfl⟩
    · rintro ⟨index, number, registered, rfl⟩
      exact ⟨_, _, ⟨_, _, ⟨rfl, rfl⟩, ⟨⟩, _, rfl, rfl, rfl⟩, _, _, ⟨rfl, rfl⟩, number, _,
        ⟨index, registered, rfl⟩, trivial, rfl⟩

end Registering

/-! ## What a walk adds -/

namespace FromIndex

variable {scope : Option Nat} {own ownLater places later clauses clausesLater : List Span}
  {before middle after : FromIndex}

/-- The elements of a scope, as they were registered. -/
def members (index : FromIndex) (clause : Nat) : List FromElement :=
  index.elements.filter (·.clause == clause)

/-- Every element is in a scope that is there. -/
def IsBounded (index : FromIndex) : Prop :=
  ∀ element ∈ index.elements, element.clause < index.scopes.length

/-- A walk in the scope has registered elements at `places` and has opened scopes at `clauses`. The
elements at `own` are in the scope itself and the others in scopes opened meanwhile. -/
structure Grows (scope : Option Nat) (own places clauses : List Span)
    (before after : FromIndex) : Prop where
  mirrored : before.IsMirrored → after.IsMirrored
  elements : ∃ added, after.elements = before.elements ++ added ∧ added.map (·.span) = places ∧
    (added.filter (some ·.clause == scope)).map (·.span) = own ∧
    ∀ element ∈ added, some element.clause = scope ∨
      before.scopes.length ≤ element.clause ∧ element.clause < after.scopes.length
  scopes : ∃ opened, after.headings = before.headings ++ opened ∧ opened.map (·.2) = clauses

namespace Grows

/-- Scopes are only added. -/
theorem length_le (grows : Grows scope own places clauses before after) :
    before.scopes.length ≤ after.scopes.length := by
  obtain ⟨opened, headings, _⟩ := grows.scopes
  rw [← length_headings, ← length_headings, headings, List.length_append]
  omega

/-- Nothing has to be registered. -/
theorem refl (index : FromIndex) : Grows scope [] [] [] index index :=
  ⟨id, ⟨[], by simp⟩, ⟨[], by simp⟩⟩

/-- What is registered in a row is registered together. -/
theorem trans (first : Grows scope own places clauses before middle)
    (second : Grows scope ownLater later clausesLater middle after) :
    Grows scope (own ++ ownLater) (places ++ later) (clauses ++ clausesLater) before after := by
  have shorter := first.length_le
  have shorterToo := second.length_le
  obtain ⟨added, extended, spans, owned, inside⟩ := first.elements
  obtain ⟨further, extendedToo, furtherSpans, furtherOwned, furtherInside⟩ := second.elements
  obtain ⟨opened, headings, openedSpans⟩ := first.scopes
  obtain ⟨openedToo, furtherHeadings, openedTooSpans⟩ := second.scopes
  refine ⟨second.mirrored ∘ first.mirrored, ⟨added ++ further, ?_, ?_, ?_, ?_⟩,
    ⟨opened ++ openedToo, ?_, ?_⟩⟩
  · rw [extendedToo, extended, List.append_assoc]
  · rw [List.map_append, spans, furtherSpans]
  · rw [List.filter_append, List.map_append, owned, furtherOwned]
  · intro element member
    rcases List.mem_append.mp member with early | late
    · rcases inside element early with same | ⟨low, high⟩
      · exact .inl same
      · exact .inr ⟨low, by omega⟩
    · rcases furtherInside element late with same | ⟨low, high⟩
      · exact .inl same
      · exact .inr ⟨by omega, high⟩
  · rw [furtherHeadings, headings, List.append_assoc]
  · rw [List.map_append, openedSpans, openedTooSpans]

/-- If the walk stays among the scopes that are there, all places stay in them. -/
theorem isBounded (grows : Grows scope own places clauses before after)
    (there : ∀ clause ∈ scope, clause < before.scopes.length) (bounded : before.IsBounded) :
    after.IsBounded := by
  have shorter := grows.length_le
  obtain ⟨added, extended, _, _, inside⟩ := grows.elements
  intro element member
  rw [extended] at member
  rcases List.mem_append.mp member with early | late
  · have := bounded element early
    omega
  · rcases inside element late with same | ⟨_, high⟩
    · have := there element.clause same.symm
      omega
    · exact high

end Grows

/-- What is registered after `index` goes into no scope from `low` on that `index` has. -/
structure Continues (low : Nat) (index final : FromIndex) : Prop where
  elements : ∃ later, final.elements = index.elements ++ later ∧
    ∀ element ∈ later, element.clause < low ∨ index.scopes.length ≤ element.clause
  scopes : ∃ opened, final.headings = index.headings ++ opened

namespace Continues

variable {low : Nat} {final : FromIndex}

/-- An index continues itself. -/
theorem refl (index : FromIndex) : Continues low index index := ⟨⟨[], by simp⟩, ⟨[], by simp⟩⟩

/-- What a walk adds in a scope below `low` may come before what is registered later. -/
theorem before_grows (there : ∀ clause ∈ scope, clause < low)
    (grows : Grows scope own places clauses before after) (continues : Continues low after final) :
    Continues low before final := by
  have shorter := grows.length_le
  obtain ⟨added, extended, _, _, inside⟩ := grows.elements
  obtain ⟨later, extendedToo, outside⟩ := continues.elements
  obtain ⟨opened, headings, _⟩ := grows.scopes
  obtain ⟨openedToo, furtherHeadings⟩ := continues.scopes
  refine ⟨⟨added ++ later, ?_, ?_⟩, ⟨opened ++ openedToo, ?_⟩⟩
  · rw [extendedToo, extended, List.append_assoc]
  · intro element member
    rcases List.mem_append.mp member with early | late
    · rcases inside element early with same | ⟨above, _⟩
      · exact .inl (there element.clause same.symm)
      · exact .inr above
    · rcases outside element late with below | above
      · exact .inl below
      · exact .inr (by omega)
  · rw [furtherHeadings, headings, List.append_assoc]

/-- An index that continues another above some scope does so above later scopes. -/
theorem mono {lower : Nat} (less : lower ≤ low) (continues : Continues lower after final) :
    Continues low after final := by
  obtain ⟨⟨later, extended, outside⟩, scopes⟩ := continues
  refine ⟨⟨later, extended, fun element member => ?_⟩, scopes⟩
  rcases outside element member with below | above
  · exact .inl (by omega)
  · exact .inr above

end Continues

/-! ## Opening a scope -/

section Opened

variable {index final : FromIndex} {span : Span}

/-- A scope is added. -/
@[simp] theorem length_addScope :
    (index.addScope scope span).1.scopes.length = index.scopes.length + 1 := by
  rw [← length_headings, headings_addScope, List.length_append, length_headings]
  rfl

/-- A new scope has no elements. -/
@[simp] theorem elements_addScope : (index.addScope scope span).1.elements = index.elements := by
  rw [addScope_eq]

/-- A new scope leaves all places among the scopes. -/
theorem isBounded_addScope (bounded : index.IsBounded) :
    (index.addScope scope span).1.IsBounded := by
  intro element member
  rw [elements_addScope] at member
  have := bounded element member
  rw [length_addScope]
  omega

variable (grows : Grows (some index.scopes.length) own places clauses (index.addScope scope span).1 after)

include grows

/-- A walk in a new scope adds nothing to the scopes before it. -/
theorem Grows.around_opened (there : ∀ clause ∈ scope, clause < index.scopes.length) :
    Grows scope [] places (span :: clauses) index after := by
  have longer := grows.length_le
  rw [length_addScope] at longer
  obtain ⟨added, extended, spans, _, inside⟩ := grows.elements
  obtain ⟨opened, headings, openedSpans⟩ := grows.scopes
  have within : ∀ element ∈ added,
      index.scopes.length ≤ element.clause ∧ element.clause < after.scopes.length := by
    intro element member
    rw [length_addScope] at inside
    rcases inside element member with same | ⟨low, high⟩
    · have := Option.some.inj same
      omega
    · omega
  rw [elements_addScope] at extended
  refine ⟨fun mirrored => grows.mirrored (mirrored.addScope scope span),
    ⟨added, extended, spans, ?_, fun element member => .inr (within element member)⟩,
    ⟨(scope, span) :: opened, ?_, ?_⟩⟩
  · rw [List.map_eq_nil_iff, List.filter_eq_nil_iff]
    intro element member inScope
    have below := there element.clause (beq_iff_eq.mp inScope).symm
    have above := within element member
    omega
  · rw [headings, headings_addScope, List.append_assoc]
    rfl
  · rw [List.map_cons, openedSpans]

/-- Whatever is registered afterwards, the elements of the new scope are those of the walk in it. -/
theorem Grows.members_opened (bounded : index.IsBounded)
    (continues : Continues index.scopes.length after final) :
    final.headings[index.scopes.length]? = some (scope, span) ∧
      (final.members index.scopes.length).map (·.span) = own := by
  have longer := grows.length_le
  rw [length_addScope] at longer
  obtain ⟨added, extended, _, owned, _⟩ := grows.elements
  obtain ⟨opened, headings, _⟩ := grows.scopes
  obtain ⟨later, extendedToo, outside⟩ := continues.elements
  obtain ⟨openedLater, headingsLater⟩ := continues.scopes
  constructor
  · rw [headingsLater, headings, headings_addScope, ← length_headings]
    simp
  · have early : index.elements.filter (·.clause == index.scopes.length) = [] := by
      rw [List.filter_eq_nil_iff]
      intro element member same
      have := bounded element member
      have := beq_iff_eq.mp same
      omega
    have late : later.filter (·.clause == index.scopes.length) = [] := by
      rw [List.filter_eq_nil_iff]
      intro element member same
      have := beq_iff_eq.mp same
      rcases outside element member with below | above <;> omega
    rw [members, extendedToo, extended, elements_addScope, List.filter_append, List.filter_append,
      early, late]
    simpa using owned

end Opened

/-! ## The index mirrors the queries -/

open Grammar (ownPlaces)

mutual

/-- The scope of each query in the predicate is inside the scope, with the sources it names. -/
def MirrorsPredicate (index : FromIndex) (clause : Nat) : Grammar.Predicate → Prop
  | .and _ left right | .or _ left right =>
    MirrorsPredicate index clause left ∧ MirrorsPredicate index clause right
  | .not _ operand => MirrorsPredicate index clause operand
  | .inQuery _ _ query _ => MirrorsQuery index (some clause) query
  | _ => True

/-- A scope at the place of the from-clause is inside the scope around the query. Its elements are the
sources that the from-clause names, and the index mirrors the queries in it. -/
def MirrorsQuery (index : FromIndex) (parent : Option Nat) :
    Grammar.Query Grammar.Predicate → Prop
  | ⟨_, ⟨spaces, span⟩, filter, _⟩ => ∃ clause, index.headings[clause]? = some (parent, span) ∧
      (index.members clause).map (·.span) = ownPlaces spaces ∧
      MirrorsSpaces index clause spaces ∧ MirrorsFilter index clause filter

/-- The same for the queries in the items of a from-clause. -/
def MirrorsSpaces (index : FromIndex) (clause : Nat) :
    List (Grammar.FromSpace Grammar.Predicate) → Prop
  | [] => True
  | ⟨_, joins, _⟩ :: rest => MirrorsJoins index clause joins ∧ MirrorsSpaces index clause rest

/-- The same for the queries in the conditions of joins. -/
def MirrorsJoins (index : FromIndex) (clause : Nat) :
    List (Grammar.Join Grammar.Predicate) → Prop
  | [] => True
  | ⟨_, _, _, _, predicate, _⟩ :: rest =>
    MirrorsFilter index clause predicate ∧ MirrorsJoins index clause rest

/-- The same for the queries in a condition that may be absent. -/
def MirrorsFilter (index : FromIndex) (clause : Nat) : Option Grammar.Predicate → Prop
  | none => True
  | some predicate => MirrorsPredicate index clause predicate

end

/-- The index mirrors all queries of a statement. The target of a change is in a scope of its own. -/
def Mirrors (index : FromIndex) : Grammar.Statement → Prop
  | .select query _ => index.MirrorsQuery none query
  | .update target _ filter | .delete target filter => ∃ clause,
    index.headings[clause]? = some (none, target.span) ∧
      (index.members clause).map (·.span) = [target.span] ∧ index.MirrorsFilter clause filter

end FromIndex

namespace Registering

variable {α β : Type} {scope : Option Nat} {own ownLater places later clauses clausesLater : List Span}
  {mirrors mirrorsLater : FromIndex → Prop}

/-- Every successful run of the step in a scope grows the index in this way, and whatever is
registered afterwards, the index mirrors what the step is about. -/
def Walks (scope : Option Nat) (step : Registering α) (own places clauses : List Span)
    (mirrors : FromIndex → Prop) : Prop :=
  ∀ ⦃registry value after⦄, Yields step registry value after →
    (∀ clause ∈ scope, clause < registry.index.scopes.length) → registry.index.IsBounded →
    FromIndex.Grows scope own places clauses registry.index after.index ∧
      ∀ final, FromIndex.Continues registry.index.scopes.length after.index final → mirrors final

namespace Walks

/-- A value is given without registering anything. -/
theorem pure (value : α) : Walks scope (Pure.pure value : Registering α) [] [] [] fun _ => True := by
  intro registry result after ran there bounded
  obtain ⟨rfl, rfl⟩ := yields_pure.mp ran
  exact ⟨.refl _, fun _ _ => trivial⟩

/-- A result that is there already registers nothing. -/
theorem lift (result : Except ResolutionError α) :
    Walks scope (Sources.addRoot.liftExcept result) [] [] [] fun _ => True := by
  intro registry value after ran there bounded
  obtain ⟨_, rfl⟩ := yields_lift.mp ran
  exact ⟨.refl _, fun _ _ => trivial⟩

/-- Steps in a row register what each of them does, in order. -/
theorem bind {first : Registering α} {next : α → Registering β}
    (walks : Walks scope first own places clauses mirrors)
    (walksNext : ∀ value, Walks scope (next value) ownLater later clausesLater mirrorsLater) :
    Walks scope (first >>= next) (own ++ ownLater) (places ++ later) (clauses ++ clausesLater)
      fun final => mirrors final ∧ mirrorsLater final := by
  intro registry result after ran there bounded
  obtain ⟨middle, between, started, ran⟩ := yields_bind.mp ran
  obtain ⟨grows, mirrored⟩ := walks started there bounded
  have less := grows.length_le
  have thereToo : ∀ clause ∈ scope, clause < between.index.scopes.length := fun clause inside =>
    Nat.lt_of_lt_of_le (there clause inside) less
  obtain ⟨growsToo, mirroredToo⟩ := walksNext middle ran thereToo (grows.isBounded there bounded)
  refine ⟨grows.trans growsToo, fun final continues => ⟨mirrored final ?_, mirroredToo final ?_⟩⟩
  · exact .before_grows there growsToo continues
  · exact continues.mono less

/-- A step that is about no query may come first. -/
theorem cons {first : Registering α} {next : α → Registering β}
    (walks : Walks scope first own places clauses fun _ => True)
    (walksNext : ∀ value, Walks scope (next value) ownLater later clausesLater mirrors) :
    Walks scope (first >>= next) (own ++ ownLater) (places ++ later) (clauses ++ clausesLater)
      mirrors := by
  intro registry result after ran there bounded
  obtain ⟨grows, mirrored⟩ := bind walks walksNext ran there bounded
  exact ⟨grows, fun final continues => (mirrored final continues).2⟩

/-- A space is neither an element nor a scope. -/
theorem addSpace (clause : Nat) : Walks scope (addSpace clause) [] [] [] fun _ => True := by
  intro registry number after ran there bounded
  obtain ⟨index, opened, rfl⟩ := yields_addSpace.mp ran
  obtain ⟨elements, headings⟩ := FromIndex.addSpace_keeps opened
  exact ⟨⟨fun mirrored => mirrored.addSpace opened, ⟨[], by simp [elements]⟩, ⟨[], by simp [headings]⟩⟩,
    fun _ _ => trivial⟩

/-- An element is registered with its place in its scope. -/
theorem addElement (label : Option (Spanned String)) (reference : EntityReference)
    (origin : FromOrigin) (clause space : Nat) (span : Span) :
    Walks (some clause) (addElement label reference origin clause space span) [span] [span] []
      fun _ => True := by
  intro registry value after ran there bounded
  obtain ⟨index, number, registered, rfl⟩ := yields_addElement.mp ran
  obtain ⟨elements, headings⟩ := FromIndex.register_adds registered
  exact ⟨⟨fun mirrored => mirrored.register registered, ⟨_, elements, rfl, by simp, by simp⟩,
    ⟨[], by simp [headings]⟩⟩, fun _ _ => trivial⟩

/-- Opening a scope and walking on in it is a walk in the scope around it. -/
theorem addScope {span : Span} {next : Nat → Registering α} {mirrors : Nat → FromIndex → Prop}
    (walks : ∀ clause, Walks (some clause) (next clause) own places clauses (mirrors clause)) :
    Walks scope (do let clause ← addScope scope span; next clause) [] places (span :: clauses)
      fun final => ∃ clause, final.headings[clause]? = some (scope, span) ∧
        (final.members clause).map (·.span) = own ∧ mirrors clause final := by
  intro registry result after ran there bounded
  obtain ⟨clause, between, opened, ran⟩ := yields_bind.mp ran
  obtain ⟨rfl, rfl⟩ := yields_addScope.mp opened
  obtain ⟨grows, mirrored⟩ := walks _ ran (by simp) (FromIndex.isBounded_addScope bounded)
  refine ⟨grows.around_opened there, fun final continues => ?_⟩
  obtain ⟨heading, owned⟩ := grows.members_opened bounded continues
  exact ⟨_, heading, owned, mirrored final (continues.mono (by simp))⟩

end Walks
end Registering

namespace Sources

open Grammar (RootRef Path)
open Registering

variable {catalog : Catalog}

/-- The root of an item is registered. -/
theorem addRoot_walks (clause space : Nat) (root : RootRef) :
    Walks (some clause) (addRoot catalog clause space root) [root.span] [root.span] []
      fun _ => True :=
  .cons (.lift _) fun reference => .addElement root.label reference .root clause space root.span

/-- The target of a join is registered. -/
theorem addJoin_walks (clause space : Nat) (target : Path Grammar.Expr)
    (label : Option (Spanned String)) (span : Span) :
    Walks (some clause) (addJoin catalog clause space target label span) [span] [span] []
      fun _ => True := by
  have looked : Walks (some clause) (get : Registering Registry) [] [] [] fun _ => True := by
    intro registry found after ran there bounded
    obtain ⟨_, rfl⟩ := yields_get.mp ran
    exact ⟨.refl _, fun _ _ => trivial⟩
  exact .cons looked fun registry => .cons (.lift _) fun (reference, origin) =>
    .addElement label reference origin clause space span

mutual

/-- A query is registered with a scope of its own. -/
theorem addQuery_walks (parent : Option Nat) : ∀ query : Grammar.Query Grammar.Predicate,
    Walks parent (addQuery catalog parent query) [] (Grammar.queryPlaces query)
      (Grammar.queryClauses query) fun final => final.MirrorsQuery parent query
  | ⟨select, ⟨spaces, span⟩, filter, whole⟩ => by
    rw [addQuery, Grammar.queryPlaces, Grammar.queryClauses]
    refine .addScope fun clause => ?_
    rw [← List.append_nil (Grammar.ownPlaces spaces)]
    exact .bind (addSpaces_walks clause spaces) fun _ => addFilter_walks clause filter

/-- The items of a from-clause are registered in order. -/
theorem addSpaces_walks (clause : Nat) :
    ∀ spaces : List (Grammar.FromSpace Grammar.Predicate),
      Walks (some clause) (addSpaces catalog clause spaces) (Grammar.ownPlaces spaces)
        (Grammar.spacePlaces spaces) (Grammar.spaceClauses spaces)
        fun final => final.MirrorsSpaces clause spaces
  | [] => by
    rw [addSpaces, Grammar.spacePlaces, Grammar.spaceClauses]
    exact .pure ()
  | ⟨root, joins, _⟩ :: rest => by
    rw [addSpaces, Grammar.spacePlaces, Grammar.spaceClauses]
    exact .cons (.addSpace clause) fun space => .cons (addRoot_walks clause space root) fun _ =>
      .bind (addJoins_walks clause space joins) fun _ => addSpaces_walks clause rest

/-- Joins are registered in order, each before the queries in its condition. -/
theorem addJoins_walks (clause space : Nat) :
    ∀ joins : List (Grammar.Join Grammar.Predicate),
      Walks (some clause) (addJoins catalog clause space joins) (joins.map (·.span))
        (Grammar.joinPlaces joins) (Grammar.joinClauses joins)
        fun final => final.MirrorsJoins clause joins
  | [] => by
    rw [addJoins, Grammar.joinPlaces, Grammar.joinClauses]
    exact .pure ()
  | ⟨_, _, target, label, predicate, span⟩ :: rest => by
    rw [addJoins, Grammar.joinPlaces, Grammar.joinClauses]
    exact .cons (addJoin_walks clause space target label span) fun _ =>
      .bind (addFilter_walks clause predicate) fun _ => addJoins_walks clause space rest

/-- The queries in a condition that may be absent are registered. -/
theorem addFilter_walks (clause : Nat) : ∀ filter : Option Grammar.Predicate,
    Walks (some clause) (addFilter catalog clause filter) [] (Grammar.filterPlaces filter)
      (Grammar.filterClauses filter) fun final => final.MirrorsFilter clause filter
  | none => by
    rw [addFilter, Grammar.filterPlaces, Grammar.filterClauses]
    exact .pure ()
  | some predicate => by
    rw [addFilter, Grammar.filterPlaces, Grammar.filterClauses]
    exact addPredicate_walks clause predicate

/-- The queries in a predicate are registered in order. -/
theorem addPredicate_walks (clause : Nat) : ∀ predicate : Grammar.Predicate,
    Walks (some clause) (addPredicate catalog clause predicate) [] predicate.places
      predicate.clauses fun final => final.MirrorsPredicate clause predicate
  | .and _ left right | .or _ left right => by
    rw [addPredicate, Grammar.Predicate.places, Grammar.Predicate.clauses]
    exact .bind (addPredicate_walks clause left) fun _ => addPredicate_walks clause right
  | .not _ operand => by
    rw [addPredicate, Grammar.Predicate.places, Grammar.Predicate.clauses]
    exact addPredicate_walks clause operand
  | .inQuery _ _ query _ => by
    rw [addPredicate, Grammar.Predicate.places, Grammar.Predicate.clauses]
    exact addQuery_walks (some clause) query
  | .compare _ _ _ _ | .inList _ _ _ _ | .memberOf _ _ _ _ | .isNull _ _ _ | .like _ _ _ _
  | .between _ _ _ _ _ => .pure ()

end

/-- The target of a change is the one source of a scope of its own. -/
theorem addTarget_walks (target : RootRef) (filter : Option Grammar.Predicate) :
    Walks none (do let clause ← addTarget catalog target; addFilter catalog clause filter) []
      (target.span :: Grammar.filterPlaces filter) (target.span :: Grammar.filterClauses filter)
      fun final => ∃ clause, final.headings[clause]? = some (none, target.span) ∧
        (final.members clause).map (·.span) = [target.span] ∧ final.MirrorsFilter clause filter := by
  simp only [addTarget, bind_assoc, pure_bind]
  exact .addScope fun clause => .cons (.addSpace clause) fun space =>
    .cons (addRoot_walks clause space target) fun _ => addFilter_walks clause filter

/-- A whole statement is registered in the order of the text. -/
theorem addStatement_walks : ∀ statement : Grammar.Statement,
    Walks none (addStatement catalog statement) [] statement.places statement.clauses
      fun final => final.Mirrors statement
  | .select query _ => addQuery_walks none query
  | .update target _ filter | .delete target filter => addTarget_walks target filter

/-- The index of a statement is what the walk leaves behind. -/
theorem ofStatement_ok {statement : Grammar.Statement} {index : FromIndex} :
    ofStatement catalog statement = .ok index ↔
      ∃ after, Yields (addStatement catalog statement) Registry.empty () after ∧
        after.index = index := by
  unfold ofStatement register Yields
  generalize (addStatement catalog statement).run.run Registry.empty = ran
  obtain ⟨outcome, after⟩ := ran
  cases outcome with
  | error failure =>
    constructor
    · intro impossible
      cases impossible
    · rintro ⟨_, impossible, _⟩
      cases impossible
  | ok value =>
    constructor
    · intro same
      exact ⟨after, rfl, Except.ok.inj same⟩
    · rintro ⟨_, same, rfl⟩
      rw [(Prod.mk.inj same).2]

/-- The tables of the index of a statement agree. -/
theorem ofStatement_isMirrored {statement : Grammar.Statement} {index : FromIndex}
    (registered : ofStatement catalog statement = .ok index) : index.IsMirrored := by
  obtain ⟨after, ran, rfl⟩ := ofStatement_ok.mp registered
  obtain ⟨grows, _⟩ := addStatement_walks statement ran (by simp)
    (by simp [FromIndex.IsBounded, Registry.empty, FromIndex.empty])
  exact grows.mirrored FromIndex.isMirrored_empty

/-- The index of a statement holds its sources and from-clauses in the order of the text and mirrors
its queries. -/
theorem ofStatement_mirrors {statement : Grammar.Statement} {index : FromIndex}
    (registered : ofStatement catalog statement = .ok index) :
    index.elements.map (·.span) = statement.places ∧
      index.scopes.map (·.span) = statement.clauses ∧ index.Mirrors statement := by
  obtain ⟨after, ran, rfl⟩ := ofStatement_ok.mp registered
  obtain ⟨grows, mirrored⟩ := addStatement_walks statement ran (by simp)
    (by simp [FromIndex.IsBounded, Registry.empty, FromIndex.empty])
  obtain ⟨added, extended, spans, _⟩ := grows.elements
  obtain ⟨opened, headings, openedSpans⟩ := grows.scopes
  refine ⟨?_, ?_, mirrored after.index (.refl _)⟩
  · rw [extended]
    exact spans
  · have places : after.index.scopes.map (·.span) = after.index.headings.map (·.2) := by
      simp [FromIndex.headings]
    rw [places, headings]
    exact openedSpans

end Sources
end ObjectQuery
