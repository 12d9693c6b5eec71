import Mathlib.Data.List.Basic
import Mathlib.Data.List.Forall2
/-!
# Computations that may fail

What a success of a sequence, of a fold or of a map over a list says about the successes of its parts.
-/
namespace ObjectQuery

variable {α β ε : Type}

/-- A result of a sequence is the result of its second part after its first part has succeeded. -/
theorem except_bind_ok {first : Except ε α} {next : α → Except ε β} {value : β} :
    first >>= next = .ok value ↔ ∃ middle, first = .ok middle ∧ next middle = .ok value := by
  cases first <;> simp [Bind.bind, Except.bind]

/-- A changed result succeeds with the change of what it succeeded with. -/
theorem except_map_ok {change : α → β} {first : Except ε α} {value : β} :
    first.map change = .ok value ↔ ∃ middle, first = .ok middle ∧ change middle = value := by
  cases first <;> simp [Except.map]

/-- What every step keeps, a fold keeps. -/
theorem foldlM_keeps {step : β → α → Except ε β} {holds : β → Prop}
    (keeps : ∀ start item next, holds start → step start item = .ok next → holds next) :
    ∀ {items : List α} {start last : β}, holds start → items.foldlM step start = .ok last → holds last
  | [], start, last, begun, folded => by
    obtain rfl := Except.ok.inj folded
    exact begun
  | item :: rest, start, last, begun, folded => by
    rw [List.foldlM_cons, except_bind_ok] at folded
    obtain ⟨next, stepped, remaining⟩ := folded
    exact foldlM_keeps keeps (keeps start item next begun stepped) remaining

/-- A fold over one more item ends with one more step. -/
theorem foldlM_snoc_ok {step : β → α → Except ε β} {items : List α} {item : α} {start last : β} :
    (items ++ [item]).foldlM step start = .ok last ↔
      ∃ middle, items.foldlM step start = .ok middle ∧ step middle item = .ok last := by
  simp only [List.foldlM_append, List.foldlM_cons, List.foldlM_nil, bind_pure, except_bind_ok]

/-- If every step relates what it starts from to what it ends with by the part of its item, and such
relations compose, a fold relates its start to its end by the parts of all items. -/
theorem foldlM_composes {γ : Type} {step : β → α → Except ε β} {holds : β → Prop}
    (related : List γ → β → β → Prop) (part : α → List γ) (unmoved : ∀ value, related [] value value)
    (composes : ∀ {parts others : List γ} {start middle last : β}, related parts start middle →
      related others middle last → related (parts ++ others) start last)
    (steps : ∀ start item next, holds start → step start item = .ok next →
      holds next ∧ related (part item) start next) :
    ∀ {items : List α} {start last : β}, holds start → items.foldlM step start = .ok last →
      holds last ∧ related (items.flatMap part) start last
  | [], start, last, begun, folded => by
    obtain rfl := Except.ok.inj folded
    exact ⟨begun, unmoved start⟩
  | item :: rest, start, last, begun, folded => by
    rw [List.foldlM_cons, except_bind_ok] at folded
    obtain ⟨next, stepped, remaining⟩ := folded
    obtain ⟨kept, first⟩ := steps start item next begun stepped
    obtain ⟨ended, others⟩ := foldlM_composes related part unmoved composes steps kept remaining
    exact ⟨ended, composes first others⟩

/-- If every step appends the part of its item to what is seen of the value, a fold appends the parts
of all items in their order. -/
theorem foldlM_appends {γ : Type} {step : β → α → Except ε β} (view : β → List γ) {part : α → List γ}
    (appends : ∀ start item next, step start item = .ok next → view next = view start ++ part item) :
    ∀ {items : List α} {start last : β}, items.foldlM step start = .ok last →
      view last = view start ++ items.flatMap part
  | [], start, last, folded => by
    obtain rfl := Except.ok.inj folded
    simp
  | item :: rest, start, last, folded => by
    rw [List.foldlM_cons, except_bind_ok] at folded
    obtain ⟨next, stepped, remaining⟩ := folded
    rw [foldlM_appends view appends remaining, appends start item next stepped, List.flatMap_cons,
      List.append_assoc]

/-- A fold succeeds as another does if each of its steps does. -/
theorem foldlM_ok_of {step other : β → α → Except ε β}
    (succeeds : ∀ start item next, step start item = .ok next → other start item = .ok next) :
    ∀ {items : List α} {start last : β}, items.foldlM step start = .ok last →
      items.foldlM other start = .ok last
  | [], start, last, folded => folded
  | item :: rest, start, last, folded => by
    rw [List.foldlM_cons, except_bind_ok] at folded ⊢
    obtain ⟨next, stepped, remaining⟩ := folded
    exact ⟨next, succeeds start item next stepped, foldlM_ok_of succeeds remaining⟩

/-- Folds with steps that agree on all items agree. -/
theorem foldlM_congr {step other : β → α → Except ε β} : ∀ {items : List α} (start : β),
    (∀ item ∈ items, ∀ value, step value item = other value item) →
      items.foldlM step start = items.foldlM other start
  | [], start, _ => rfl
  | item :: rest, start, agree => by
    rw [List.forall_mem_cons] at agree
    rw [List.foldlM_cons, List.foldlM_cons, agree.1]
    exact congrArg _ (funext fun next => foldlM_congr next agree.2)

/-- A step that can only fail or give what `value` says gives that for every element of a list. -/
theorem mapM_eq_map {step : α → Except ε β} {value : α → β}
    (determined : ∀ item result, step item = .ok result → result = value item) :
    ∀ {items : List α} {results : List β}, items.mapM step = .ok results →
      results = items.map value
  | [], results, mapped => by
    simp only [List.mapM_nil, pure, Except.pure, Except.ok.injEq] at mapped
    simp [← mapped]
  | item :: rest, results, mapped => by
    simp only [List.mapM_cons, except_bind_ok, pure, Except.pure, Except.ok.injEq] at mapped
    obtain ⟨first, given, others, remaining, rfl⟩ := mapped
    rw [List.map_cons, determined item first given, mapM_eq_map determined remaining]

/-- Every element of a list that is paired with another has its partner there. -/
theorem exists_of_forall₂ {related : α → β → Prop} {items : List α} {images : List β}
    (paired : List.Forall₂ related items images) {image : β} (listed : image ∈ images) :
    ∃ item ∈ items, related item image := by
  induction paired with
  | nil => cases listed
  | cons first _ ih =>
    rcases List.mem_cons.mp listed with rfl | further
    · exact ⟨_, List.mem_cons_self, first⟩
    · obtain ⟨item, member, same⟩ := ih further
      exact ⟨item, List.mem_cons_of_mem _ member, same⟩

/-- A partner for each element makes a list of partners. -/
theorem exists_forall₂ {related : α → β → Prop} : ∀ {items : List α},
    (∀ item ∈ items, ∃ image, related item image) → ∃ images, List.Forall₂ related items images
  | [], _ => ⟨[], .nil⟩
  | item :: rest, paired => by
    rw [List.forall_mem_cons] at paired
    obtain ⟨⟨image, first⟩, others⟩ := paired
    obtain ⟨images, remaining⟩ := exists_forall₂ others
    exact ⟨image :: images, .cons first remaining⟩

/-- A map over a list succeeds with the results of the step on each element in turn. -/
theorem mapM_ok_iff {step : α → Except ε β} : ∀ {items : List α} {results : List β},
    items.mapM step = .ok results ↔
      List.Forall₂ (fun item result => step item = .ok result) items results
  | [], results => by
    rw [List.mapM_nil, List.forall₂_nil_left_iff]
    exact ⟨fun same => (Except.ok.inj same).symm, fun same => congrArg Except.ok same.symm⟩
  | item :: rest, results => by
    rw [List.mapM_cons, List.forall₂_cons_left_iff]
    simp only [except_bind_ok, mapM_ok_iff]
    constructor
    · rintro ⟨first, given, others, remaining, same⟩
      exact ⟨first, others, given, remaining, (Except.ok.inj same).symm⟩
    · rintro ⟨first, others, given, remaining, rfl⟩
      exact ⟨first, given, others, remaining, rfl⟩

/-- The results of a step over a list are results of the step on elements of the list. -/
theorem mem_of_mapM_ok {step : α → Except ε β} {items : List α} {results : List β}
    (mapped : items.mapM step = .ok results) :
    ∀ result ∈ results, ∃ item ∈ items, step item = .ok result :=
  fun _ member => exists_of_forall₂ (mapM_ok_iff.mp mapped) member

/-- A map over a list succeeds if the step succeeds on each element. -/
theorem mapM_succeeds {step : α → Except ε β} : ∀ {items : List α},
    (∃ results, items.mapM step = .ok results) ↔ ∀ item ∈ items, ∃ result, step item = .ok result
  | [] => by simp [pure, Except.pure]
  | item :: rest => by
    rw [List.forall_mem_cons, ← mapM_succeeds, List.mapM_cons]
    simp only [except_bind_ok]
    constructor
    · rintro ⟨_, first, given, others, remaining, _⟩
      exact ⟨⟨first, given⟩, others, remaining⟩
    · rintro ⟨⟨first, given⟩, others, remaining⟩
      exact ⟨first :: others, first, given, others, remaining, rfl⟩

/-- A map over a list fails as the step does on the first element where it fails. -/
theorem mapM_error {step : α → Except ε β} {failure : ε} : ∀ {items : List α},
    items.mapM step = .error failure → ∃ before failing behind, items = before ++ failing :: behind ∧
      (∀ item ∈ before, ∃ result, step item = .ok result) ∧ step failing = .error failure
  | [], failed => by cases failed
  | item :: rest, failed => by
    rw [List.mapM_cons] at failed
    cases given : step item with
    | error other =>
      rw [given] at failed
      obtain rfl := Except.error.inj failed
      exact ⟨[], item, rest, rfl, by simp, given⟩
    | ok first =>
      have later : rest.mapM step = .error failure := by
        rw [given] at failed
        cases remaining : rest.mapM step with
        | error other =>
          rw [remaining] at failed
          exact failed
        | ok others =>
          rw [remaining] at failed
          cases failed
      obtain ⟨before, failing, behind, rfl, fine, broken⟩ := mapM_error later
      exact ⟨item :: before, failing, behind, rfl,
        List.forall_mem_cons.mpr ⟨⟨first, given⟩, fine⟩, broken⟩

/-- A map over a list fails where the step fails for the first time. -/
theorem mapM_stops {step : α → Except ε β} {failure : ε} {failing : α} {behind : List α}
    (broken : step failing = .error failure) : ∀ {before : List α},
    (∀ item ∈ before, ∃ result, step item = .ok result) →
      (before ++ failing :: behind).mapM step = .error failure
  | [], _ => by
    rw [List.nil_append, List.mapM_cons, broken]
    rfl
  | item :: before, fine => by
    rw [List.forall_mem_cons] at fine
    obtain ⟨⟨first, given⟩, others⟩ := fine
    rw [List.cons_append, List.mapM_cons, given, mapM_stops broken others]
    rfl

/-- A view of all results is a view of each. -/
theorem mapM_view {γ : Type} {step : α → Except ε β} (view : β → γ) : ∀ items : List α,
    (items.mapM step).map (List.map view) = items.mapM fun item => (step item).map view
  | [] => rfl
  | item :: rest => by
    rw [List.mapM_cons, List.mapM_cons, ← mapM_view view rest]
    cases step item with
    | error failure => rfl
    | ok first => cases rest.mapM step <;> rfl

/-- Steps whose outcomes have the same view on related elements give outcomes of the same view. -/
theorem mapM_view_congr {γ δ : Type} {step : α → Except ε β} {other : γ → Except ε β} {view : β → δ}
    {items : List α} {others : List γ}
    (related : List.Forall₂ (fun item image => (step item).map view = (other image).map view)
      items others) :
    (items.mapM step).map (List.map view) = (others.mapM other).map (List.map view) := by
  rw [mapM_view, mapM_view]
  induction related with
  | nil => rfl
  | cons first _ ih => rw [List.mapM_cons, List.mapM_cons, first, ih]

/-- Outcomes of the same view are both successes or both the same failure. -/
theorem ok_of_view {first second : Except ε α} {view : α → β}
    (same : first.map view = second.map view) {value : α} (given : first = .ok value) :
    ∃ other, second = .ok other ∧ view value = view other := by
  subst given
  obtain ⟨other, found, alike⟩ := except_map_ok.mp same.symm
  exact ⟨other, found, alike.symm⟩

/-- Two results seen alike fail alike. -/
theorem error_of_view {first second : Except ε α} {view : α → β}
    (same : first.map view = second.map view) {failure : ε} (given : first = .error failure) :
    second = .error failure := by
  subst given
  cases second with
  | error other => exact congrArg _ (Except.error.inj same).symm
  | ok value => cases same

/-- Changing the failure leaves what succeeds. -/
theorem mapError_ok {ε' : Type} {result : Except ε α} {change : ε → ε'} {value : α}
    (mapped : result.mapError change = .ok value) : result = .ok value := by
  cases result with
  | error failure => cases mapped
  | ok found =>
    obtain rfl := Except.ok.inj mapped
    rfl

end ObjectQuery
