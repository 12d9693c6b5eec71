import ObjectQuery.Proofs.Outcome
import ObjectQuery.Proofs.Resolved.Stripped
import ObjectQuery.Resolution.Statement
/-!
# Results that carry over

A step of the resolution carries over to another if the other succeeds wherever the step does, meets
the same parameters, and gives a related result. There is one rule for each way to build a step.

Expressions are alike if they differ only in recorded types and if their own types differ at most in
the name of an entity. No check of the resolution tells such types apart.
-/
namespace ObjectQuery.Resolution

open Resolved (Expr)

variable {α β γ δ : Type}

/-- Wherever the step succeeds, `image` succeeds as well, with the same numbering of parameters and a
related result. -/
def Carries (related : α → β → Prop) (step : Resolving α) (image : Resolving β) : Prop :=
  ∀ ⦃numbering value after⦄, step.run numbering = .ok (value, after) →
    ∃ other, image.run numbering = .ok (other, after) ∧ related value other

namespace Carries

variable {related : α → β → Prop} {fine : γ → δ → Prop}

/-- Related values are carried into each other. -/
theorem pure {value : α} {other : β} (relates : related value other) :
    Carries related (Pure.pure value) (Pure.pure other) := by
  intro numbering result after ran
  obtain ⟨rfl, rfl⟩ := Prod.mk.inj (Except.ok.inj ran)
  exact ⟨other, rfl, relates⟩

/-- A failure carries into anything. -/
theorem throw {error : ResolutionError} {image : Resolving β} :
    Carries related (MonadExcept.throw error) image := by
  intro numbering result after ran
  cases ran

/-- Steps in a row carry if each of them does. -/
theorem bind {first : Resolving α} {image : Resolving β} {next : α → Resolving γ}
    {nextImage : β → Resolving δ} (carries : Carries related first image)
    (later : ∀ value other, related value other → Carries fine (next value) (nextImage other)) :
    Carries fine (first >>= next) (image >>= nextImage) := by
  intro numbering result after ran
  rw [StateT.run_bind] at ran
  obtain ⟨⟨value, between⟩, started, ran⟩ := except_bind_ok.mp ran
  obtain ⟨other, startedOther, relates⟩ := carries started
  obtain ⟨otherResult, ranOther, fits⟩ := later value other relates ran
  refine ⟨otherResult, ?_, fits⟩
  rw [StateT.run_bind, startedOther]
  exact ranOther

/-- A computation that meets no parameters carries over to one that succeeds where it does. -/
theorem lift {result : Except ResolutionError α} {image : Except ResolutionError β}
    (succeeds : ∀ value, result = .ok value → ∃ other, image = .ok other ∧ related value other) :
    Carries related (liftM result) (liftM image) := by
  intro numbering value after ran
  cases result with
  | error failure => cases ran
  | ok given =>
    obtain ⟨rfl, rfl⟩ := Prod.mk.inj (Except.ok.inj ran)
    obtain ⟨other, rfl, relates⟩ := succeeds given rfl
    exact ⟨other, rfl, relates⟩

/-- Every step carries over to itself. -/
theorem same (step : Resolving α) : Carries Eq step step := by
  intro numbering value after ran
  exact ⟨value, ran, rfl⟩

/-- Less may be said of the values. -/
theorem weaken {step : Resolving α} {image : Resolving β} {weaker : α → β → Prop}
    (carries : Carries related step image)
    (enough : ∀ value other, related value other → weaker value other) :
    Carries weaker step image := by
  intro numbering value after ran
  obtain ⟨other, ranOther, relates⟩ := carries ran
  exact ⟨other, ranOther, enough value other relates⟩

/-- What does not depend on the sources gives the same result. -/
theorem bindSame {first : Resolving α} {next : α → Resolving γ} {nextImage : α → Resolving δ}
    (later : ∀ value, Carries fine (next value) (nextImage value)) :
    Carries fine (first >>= next) (first >>= nextImage) := by
  refine bind (same first) fun value other equal => ?_
  subst equal
  exact later value

/-- A computation that meets no parameters and gives the same result on both sides. -/
theorem bindLift {result image : Except ResolutionError α} {next : α → Resolving γ}
    {nextImage : α → Resolving δ} (succeeds : ∀ value, result = .ok value → image = .ok value)
    (later : ∀ value, Carries fine (next value) (nextImage value)) :
    Carries fine (liftM result >>= next) (liftM image >>= nextImage) := by
  have lifted : Carries Eq (liftM result) (liftM image) := by
    refine lift fun value given => ?_
    exact ⟨value, succeeds value given, rfl⟩
  refine bind lifted fun value other equal => ?_
  subst equal
  exact later value

/-- Steps whose results have the same view give lists whose elements have. -/
theorem mapM {step image : α → Resolving β} {view : β → γ} :
    ∀ {items : List α},
      (∀ item ∈ items, Carries (fun first second => view second = view first) (step item)
        (image item)) →
      Carries (fun first second => second.map view = first.map view) (items.mapM step)
        (items.mapM image)
  | [], _ => by
    rw [List.mapM_nil, List.mapM_nil]
    exact pure rfl
  | item :: rest, carries => by
    rw [List.mapM_cons, List.mapM_cons]
    refine bind (carries item List.mem_cons_self) fun value other sameView => ?_
    refine bind (mapM fun later member => carries later (List.mem_cons_of_mem _ member))
      fun values others sameViews => pure ?_
    rw [List.map_cons, List.map_cons, sameView, sameViews]

end Carries

/-- Two types, as far as they are known, are the same or are both entities. -/
inductive TypesAlike : Option DataType → Option DataType → Prop
  | same (type : Option DataType) : TypesAlike type type
  | entities (first second : String) : TypesAlike (some (.entity first)) (some (.entity second))

/-- Two expressions differ only in recorded types, and as for their own types at most in the name of
an entity. -/
structure Alike (first second : Expr) : Prop where
  stripped : second.stripped = first.stripped
  types : TypesAlike first.type? second.type?

/-- A value is alike itself. -/
theorem Alike.refl (expr : Expr) : Alike expr expr := ⟨rfl, .same _⟩

/-- A number is a number on both sides, and of the same type. -/
theorem numericOperand_alike {operation : String} {first second : Expr} (alike : Alike first second)
    {type : Option BasicType} (numeric : numericOperand operation first = .ok type) :
    numericOperand operation second = .ok type := by
  have types := alike.types
  unfold numericOperand at numeric ⊢
  generalize first.type? = known, second.type? = other at numeric types ⊢
  cases types with
  | same => exact numeric
  | entities => cases numeric

/-- Alike operands have the same type together. -/
theorem arithmeticType_alike {left right left' right' : Expr} (alikeLeft : Alike left left')
    (alikeRight : Alike right right') {type : Option BasicType}
    (typed : arithmeticType left right = .ok type) : arithmeticType left' right' = .ok type := by
  unfold arithmeticType at typed ⊢
  obtain ⟨leftType, numericLeft, typed⟩ := except_bind_ok.mp typed
  obtain ⟨rightType, numericRight, typed⟩ := except_bind_ok.mp typed
  exact except_bind_ok.mpr ⟨leftType, numericOperand_alike alikeLeft numericLeft,
    except_bind_ok.mpr ⟨rightType, numericOperand_alike alikeRight numericRight, typed⟩⟩

/-- Of two alike arguments both are numeric or neither is. -/
theorem checkNumeric_alike {operation : String} {first second : Option Expr}
    (alike : Option.Rel Alike first second) (checked : checkNumeric operation first = .ok ()) :
    checkNumeric operation second = .ok () := by
  cases alike with
  | none => rfl
  | some alike =>
    obtain ⟨type, numeric, _⟩ := except_bind_ok.mp checked
    exact except_bind_ok.mpr ⟨type, numericOperand_alike alike numeric, rfl⟩

/-- The type of an argument. -/
theorem argumentType_alike {first second : Option Expr} (alike : Option.Rel Alike first second) :
    TypesAlike (first.bind Expr.type?) (second.bind Expr.type?) := by
  cases alike with
  | none => exact .same none
  | some alike => exact alike.types

/-- Alike arguments make calls of one type. -/
theorem callType_alike {function : Function} {first second : Option Expr}
    (alike : Option.Rel Alike first second) {type : Option DataType}
    (typed : callType function first = .ok type) :
    ∃ other, callType function second = .ok other ∧ TypesAlike type other := by
  have types := argumentType_alike alike
  cases function with
  | count | upper | lower | length =>
    obtain rfl := Except.ok.inj typed
    exact ⟨_, rfl, .same _⟩
  | avg =>
    obtain ⟨_, checked, same⟩ := except_bind_ok.mp typed
    obtain rfl := Except.ok.inj same
    exact ⟨_, except_bind_ok.mpr ⟨(), checkNumeric_alike alike checked, rfl⟩, .same _⟩
  | sum | abs =>
    obtain ⟨_, checked, same⟩ := except_bind_ok.mp typed
    obtain rfl := Except.ok.inj same
    exact ⟨_, except_bind_ok.mpr ⟨(), checkNumeric_alike alike checked, rfl⟩, types⟩
  | min | max =>
    obtain rfl := Except.ok.inj typed
    exact ⟨_, rfl, types⟩

end ObjectQuery.Resolution
