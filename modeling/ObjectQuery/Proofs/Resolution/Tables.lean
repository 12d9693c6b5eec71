import Mathlib.Data.List.Induction
import Mathlib.Data.List.Nodup
import ObjectQuery.Resolution.Sources
/-!
# The tables of an index

An index holds the same facts several times. Each call that changes it enters a number in every table
that the number belongs to. This module says what a call does to an index, and that the tables always
agree with the lists of scopes and elements: a table of numbers is the history of its list, a space
lists the elements that say they are in it, and a scope lists the scopes that say they are inside it.
A call that is refused has changed nothing.
-/
namespace ObjectQuery

/-! ## Numbers by key -/

section Listing

variable {α κ : Type} {key : α → κ} {items others : List α}

/-- What stands in a list with one more item stood there before, or is that item. -/
theorem getElem?_concat_eq_some {last item : α} {number : Nat} :
    (items ++ [last])[number]? = some item ↔
      items[number]? = some item ∨ number = items.length ∧ last = item := by
  rcases Nat.lt_trichotomy number items.length with inside | rfl | outside
  · simp [List.getElem?_append_left inside, Nat.ne_of_lt inside]
  · simp
  · have nothing : items[number]? = none := List.getElem?_eq_none (Nat.le_of_lt outside)
    have nothingToo : (items ++ [last])[number]? = none :=
      List.getElem?_eq_none (by simpa using Nat.succ_le_of_lt outside)
    simp [nothing, nothingToo, Nat.ne_of_gt outside]

/-- The numbers of items under their keys, the last item first. -/
def listing (key : α → κ) (items : List α) : List (κ × Nat) :=
  (items.zipIdx.map fun (item, number) => (key item, number)).reverse

/-- One more item has one more entry, before those of the items that were there. -/
theorem listing_concat (items : List α) (item : α) :
    listing key (items ++ [item]) = (key item, items.length) :: listing key items := by
  simp [listing, List.zipIdx_append]

/-- The entries depend on the keys of the items alone. -/
theorem listing_congr (same : items.map key = others.map key) :
    listing key items = listing key others := by
  have keyed : ∀ given : List α, listing key given = listing id (given.map key) := by
    intro given
    simp [listing, List.zipIdx_map, Function.comp_def, Prod.map]
  rw [keyed, keyed, same]

variable [BEq κ] [LawfulBEq κ] {wanted : κ} {number : Nat}

/-- A key is looked up to the number of the last item that has it. -/
theorem lookup_listing : ∀ {items : List α}, (listing key items).lookup wanted = some number ↔
    (∃ item, items[number]? = some item ∧ key item = wanted) ∧
      ∀ later other, number < later → items[later]? = some other → key other ≠ wanted := by
  intro items
  induction items using List.reverseRecOn with
  | nil => simp [listing]
  | append_singleton before last ih =>
    rw [listing_concat, List.lookup_cons]
    cases same : wanted == key last with
    | true =>
      obtain rfl := eq_of_beq same
      constructor
      · intro found
        obtain rfl : before.length = number := Option.some.inj found
        refine ⟨⟨last, by simp, rfl⟩, fun later other behind there => ?_⟩
        have short := (List.getElem?_eq_some_iff.mp there).1
        simp only [List.length_append, List.length_singleton] at short
        omega
      · rintro ⟨⟨item, there, _⟩, latest⟩
        rcases getElem?_concat_eq_some.mp there with early | ⟨rfl, _⟩
        · have inside := (List.getElem?_eq_some_iff.mp early).1
          exact absurd rfl (latest before.length last inside (by simp))
        · rfl
    | false =>
      have different : key last ≠ wanted := fun equal => by simp [equal] at same
      simp only [ih, getElem?_concat_eq_some]
      constructor
      · rintro ⟨⟨item, there, named⟩, latest⟩
        refine ⟨⟨item, .inl there, named⟩, fun later other behind thereToo => ?_⟩
        rcases thereToo with early | ⟨_, rfl⟩
        · exact latest later other behind early
        · exact different
      · rintro ⟨⟨item, there | ⟨_, rfl⟩, named⟩, latest⟩
        · exact ⟨⟨item, there, named⟩, fun later other behind there =>
            latest later other behind (.inl there)⟩
        · exact absurd named different

/-- A key is in the table if an item has it. -/
theorem isSome_lookup_listing :
    ((listing key items).lookup wanted).isSome = true ↔ wanted ∈ items.map key := by
  rw [Option.isSome_iff_exists]
  constructor
  · rintro ⟨number, found⟩
    obtain ⟨item, there, rfl⟩ := (lookup_listing.mp found).1
    exact List.mem_map_of_mem (List.mem_of_getElem? there)
  · intro listed
    by_contra absent
    have unknown := List.lookup_eq_none_iff.mp
      (Option.eq_none_iff_forall_ne_some.mpr (by simpa using absent))
    obtain ⟨item, member, rfl⟩ := List.mem_map.mp listed
    obtain ⟨number, there⟩ := List.getElem?_of_mem member
    have entry : (key item, number) ∈ listing key items := by
      refine List.mem_reverse.mpr (List.mem_map.mpr ⟨(item, number), ?_, rfl⟩)
      exact List.mem_zipIdx_iff_getElem?.mpr there
    simpa using unknown _ entry

/-- If no two items have the same key, a key is looked up to the number of its item. -/
theorem lookup_listing_of_nodup (distinct : (items.map key).Nodup) :
    (listing key items).lookup wanted = some number ↔
      ∃ item, items[number]? = some item ∧ key item = wanted := by
  refine lookup_listing.trans (and_iff_left_of_imp ?_)
  rintro ⟨item, there, rfl⟩ later other behind thereToo same
  have short : later < (items.map key).length := by
    simpa using (List.getElem?_eq_some_iff.mp thereToo).1
  apply List.nodup_iff_getElem?_ne_getElem?.mp distinct number later behind short
  simp [there, thereToo, same]

end Listing

/-! ## What the calls do -/

namespace FromIndex

variable {index after : FromIndex}

/-- What stays of a scope once it is opened: the scope around it and its place. -/
def headings (index : FromIndex) : List (Option Nat × Span) :=
  index.scopes.map fun opened => (opened.parent, opened.span)

/-- There is one heading for each scope. -/
theorem length_headings (index : FromIndex) : index.headings.length = index.scopes.length :=
  List.length_map _

/-- The scope around a scope is known from the headings. -/
theorem parent?_eq (index : FromIndex) (clause : Nat) :
    index.parent? clause = index.headings[clause]?.bind Prod.fst := by
  rw [headings, List.getElem?_map, Option.bind_map]
  rfl

/-- The scopes with one of them changed. -/
def withScope (index : FromIndex) (clause : Nat) (change : FromScope → FromScope) : FromIndex :=
  { index with scopes := index.scopes.modify clause change }

/-- A scope that is inside no other and in which nothing has been opened. -/
def opened (parent : Option Nat) (span : Span) : FromScope := ⟨parent, [], [], span⟩

/-- The scopes with a new one, which the scope around it lists. -/
def scopesWith (index : FromIndex) (parent : Option Nat) (span : Span) : List FromScope :=
  let scopes := index.scopes ++ [opened parent span]
  match parent with
  | none => scopes
  | some outer => scopes.modify outer fun scope =>
    { scope with children := scope.children ++ [index.scopes.length] }

/-- The index with an element that the space of the element lists. -/
def withElement (index : FromIndex) (element : FromElement) : FromIndex where
  scopes := index.scopes.modify element.clause fun scope =>
    { scope with spaces := scope.spaces.modify element.space (· ++ [index.elements.length]) }
  elements := index.elements ++ [element]
  labels := (element.label, index.elements.length) :: index.labels
  scopePlaces := index.scopePlaces
  elementPlaces := (element.span, index.elements.length) :: index.elementPlaces

/-- Opening a scope adds it to the scopes and enters its place. -/
theorem addScope_eq (parent : Option Nat) (span : Span) :
    index.addScope parent span = ({ index with
      scopes := index.scopesWith parent span
      scopePlaces := (span, index.scopes.length) :: index.scopePlaces }, index.scopes.length) := by
  cases parent <;> rfl

end FromIndex

namespace Indexing

variable {index : FromIndex}

/-- A scope is found if it is there. -/
theorem run_scope (clause : Nat) : (scope clause).run.run index =
    match index.scopes[clause]? with
    | some found => (.ok found, index)
    | none => (.error (.misuse (.unknownClause clause)), index) := by
  change StateT.run (ExceptT.run (match index.scopes[clause]? with
    | some found => pure found
    | none => throw (ResolutionError.misuse (.unknownClause clause)) : Indexing FromScope)) index = _
  cases index.scopes[clause]? <;> rfl

/-- A scope is always opened. -/
theorem on_addScope (parent : Option Nat) (span : Span) :
    (liftM (addScope parent span) : Indexing Nat).on index = .ok (index.addScope parent span) := by
  cases parent <;> rfl

/-- A space is opened in a scope that is there. -/
theorem run_addSpace (clause : Nat) : (addSpace clause).run.run index =
    match index.scopes[clause]? with
    | some found => (.ok found.spaces.length,
        index.withScope clause fun scope => { scope with spaces := scope.spaces ++ [[]] })
    | none => (.error (.misuse (.unknownClause clause)), index) := by
  unfold addSpace
  rw [ExceptT.run_bind, StateT.run_bind, run_scope]
  cases index.scopes[clause]? <;> rfl

/-- An element is registered under a new name in a space that is there. -/
theorem run_register (element : FromElement) : (register element).run.run index =
    if (index.labels.lookup element.label).isSome then
      (.error (.duplicateAlias element.label), index)
    else match index.scopes[element.clause]? with
      | some home =>
        if element.space < home.spaces.length then
          (.ok index.elements.length, index.withElement element)
        else (.error (.misuse (.unknownSpace element.space)), index)
      | none => (.error (.misuse (.unknownClause element.clause)), index) := by
  change StateT.run (ExceptT.run (if (index.labels.lookup element.label).isSome then _ else _)) index = _
  split
  · rfl
  · change StateT.run (ExceptT.run (scope element.clause >>= _)) index = _
    rw [ExceptT.run_bind, StateT.run_bind, run_scope]
    cases index.scopes[element.clause]? with
    | none => rfl
    | some home =>
      change StateT.run (ExceptT.run (if element.space < home.spaces.length then _ else _)) index = _
      split
      · rename_i small
        exact (if_pos small).symm
      · rename_i large
        exact (if_neg large).symm

/-- A call that is refused has changed nothing. -/
def IsSafe (call : Indexing Nat) : Prop :=
  ∀ ⦃index refusal after⦄, call.run.run index = (.error refusal, after) → after = index

/-- Opening a scope is never refused. -/
theorem addScope_isSafe (parent : Option Nat) (span : Span) :
    IsSafe (liftM (addScope parent span)) := by
  intro index refusal after refused
  cases refused

/-- A space is refused before anything is changed. -/
theorem addSpace_isSafe (clause : Nat) : IsSafe (addSpace clause) := by
  intro index refusal after refused
  rw [run_addSpace] at refused
  split at refused
  · cases refused
  · exact (Prod.mk.inj refused).2.symm

/-- An element is refused before anything is changed. -/
theorem register_isSafe (element : FromElement) : IsSafe (register element) := by
  intro index refusal after refused
  rw [run_register] at refused
  split at refused
  · exact (Prod.mk.inj refused).2.symm
  · split at refused
    · split at refused
      · cases refused
      · exact (Prod.mk.inj refused).2.symm
    · exact (Prod.mk.inj refused).2.symm

end Indexing

namespace FromIndex

variable {index after : FromIndex}

/-- The index after a space has been opened has one more in the scope. -/
theorem addSpace_ok {clause number : Nat} :
    index.addSpace clause = .ok (after, number) ↔ ∃ found, index.scopes[clause]? = some found ∧
      number = found.spaces.length ∧
      after = index.withScope clause fun scope => { scope with spaces := scope.spaces ++ [[]] } := by
  unfold addSpace Indexing.on
  rw [Indexing.run_addSpace]
  cases index.scopes[clause]? with
  | none => simp
  | some found => simp [eq_comm, and_comm]

/-- An element is registered exactly if its name is new and its space is there. -/
theorem register_ok {element : FromElement} {number : Nat} :
    index.register element = .ok (after, number) ↔
      (index.labels.lookup element.label = none ∧ ∃ home, index.scopes[element.clause]? = some home ∧
        element.space < home.spaces.length) ∧
      number = index.elements.length ∧ after = index.withElement element := by
  unfold register Indexing.on
  rw [Indexing.run_register]
  cases index.labels.lookup element.label with
  | some taken => simp
  | none =>
    cases index.scopes[element.clause]? with
    | none => simp
    | some home =>
      by_cases small : element.space < home.spaces.length
      · simp [small, eq_comm, and_comm]
      · simp [small]

/-- An element is refused for its name only if the name is taken. -/
theorem register_duplicate {element : FromElement} {label : String}
    (refused : index.register element = .error (.duplicateAlias label)) :
    label = element.label ∧ (index.labels.lookup element.label).isSome := by
  unfold register Indexing.on at refused
  rw [Indexing.run_register] at refused
  split at refused
  · cases refused
  · rename_i refusal kept ran
    obtain rfl := Except.error.inj refused
    split at ran
    · rename_i taken
      obtain ⟨same, _⟩ := Prod.mk.inj ran
      exact ⟨(ResolutionError.duplicateAlias.inj (Except.error.inj same)).symm, taken⟩
    · split at ran
      · split at ran <;> cases ran
      · cases ran

/-! ## What every call keeps -/

/-- The numbers of the elements that say they are in the space. -/
def spaceElements (index : FromIndex) (clause space : Nat) : List Nat :=
  index.elements.zipIdx.filterMap fun (element, number) =>
    if element.clause = clause ∧ element.space = space then some number else none

/-- The numbers of the scopes that say they are inside the scope. A scope that is named as one around
another before it is opened does not gain it by being opened. -/
def scopesInside (index : FromIndex) (clause : Nat) : List Nat :=
  (index.scopes.map (·.parent)).zipIdx.filterMap fun (parent, number) =>
    if parent = some clause ∧ clause ≤ number then some number else none

/-- The tables agree with the lists of scopes and elements. -/
structure IsMirrored (index : FromIndex) : Prop where
  labels : index.labels = listing (·.label) index.elements
  elementPlaces : index.elementPlaces = listing (·.span) index.elements
  scopePlaces : index.scopePlaces = listing (·.span) index.scopes
  /-- No name is taken twice. -/
  distinct : (index.elements.map (·.label)).Nodup
  /-- Elements are in spaces that are there. -/
  housed : ∀ element ∈ index.elements, ∃ home, index.scopes[element.clause]? = some home ∧
    element.space < home.spaces.length
  /-- A space lists the elements that say they are in it. -/
  spaces : ∀ clause scope, index.scopes[clause]? = some scope →
    scope.spaces = (List.range scope.spaces.length).map (index.spaceElements clause)
  /-- A scope lists the scopes that say they are inside it. -/
  children : ∀ clause scope, index.scopes[clause]? = some scope →
    scope.children = index.scopesInside clause

/-- There is nothing to disagree about. -/
theorem isMirrored_empty : empty.IsMirrored where
  labels := rfl
  elementPlaces := rfl
  scopePlaces := rfl
  distinct := List.nodup_nil
  housed := by simp [empty]
  spaces := by simp [empty]
  children := by simp [empty]

/-- What stands under a number after one scope has been changed. -/
theorem getElem?_withScope (clause : Nat) (change : FromScope → FromScope) (number : Nat) :
    (index.withScope clause change).scopes[number]? =
      index.scopes[number]?.map fun scope => if clause = number then change scope else scope := by
  rw [withScope, List.getElem?_modify]
  rfl

/-- What stands under a number after a scope has been opened. -/
theorem getElem?_scopesWith (parent : Option Nat) (span : Span) (number : Nat) :
    (index.scopesWith parent span)[number]? =
      (index.scopes ++ [opened parent span])[number]?.map fun scope =>
        if parent = some number then
          { scope with children := scope.children ++ [index.scopes.length] }
        else scope := by
  cases parent with
  | none => simp [scopesWith]
  | some outer =>
    simp only [scopesWith, List.getElem?_modify, Option.some.injEq]
    rfl

/-- A change of one scope that leaves the scope around it and its place leaves the headings. -/
theorem headings_withScope (index : FromIndex) (clause : Nat) (change : FromScope → FromScope)
    (parent : ∀ scope, (change scope).parent = scope.parent)
    (span : ∀ scope, (change scope).span = scope.span) :
    (index.withScope clause change).headings = index.headings := by
  refine List.ext_getElem? fun number => ?_
  rw [headings, List.getElem?_map, getElem?_withScope, headings, List.getElem?_map, Option.map_map]
  refine congrArg (Option.map · _) (funext fun scope => ?_)
  simp only [Function.comp_apply]
  split
  · rw [parent, span]
  · rfl

/-- A new scope has the last heading. -/
theorem headings_addScope (index : FromIndex) (parent : Option Nat) (span : Span) :
    (index.addScope parent span).1.headings = index.headings ++ [(parent, span)] := by
  have whole : index.headings ++ [(parent, span)] =
      (index.scopes ++ [opened parent span]).map fun opened => (opened.parent, opened.span) := by
    simp [headings, opened]
  rw [addScope_eq, whole, headings]
  refine List.ext_getElem? fun number => ?_
  rw [List.getElem?_map, getElem?_scopesWith, List.getElem?_map, Option.map_map]
  refine congrArg (Option.map · _) (funext fun scope => ?_)
  simp only [Function.comp_apply]
  split <;> rfl

/-- A new space is neither an element nor a scope. -/
theorem addSpace_keeps {clause number : Nat} (opened : index.addSpace clause = .ok (after, number)) :
    after.elements = index.elements ∧ after.headings = index.headings := by
  obtain ⟨found, _, _, rfl⟩ := addSpace_ok.mp opened
  exact ⟨rfl, headings_withScope index clause _ (fun _ => rfl) fun _ => rfl⟩

/-- Registering adds an element and no scope. -/
theorem register_adds {element : FromElement} {number : Nat}
    (registered : index.register element = .ok (after, number)) :
    after.elements = index.elements ++ [element] ∧ after.headings = index.headings := by
  obtain ⟨_, _, rfl⟩ := register_ok.mp registered
  have headings := headings_withScope index element.clause (fun scope =>
    { scope with spaces := scope.spaces.modify element.space (· ++ [index.elements.length]) })
    (fun _ => rfl) fun _ => rfl
  exact ⟨rfl, headings⟩

/-- The scopes inside a scope are known from the headings. -/
theorem scopesInside_eq (index : FromIndex) (clause : Nat) : index.scopesInside clause =
    index.headings.zipIdx.filterMap fun (heading, number) =>
      if heading.1 = some clause ∧ clause ≤ number then some number else none := by
  simp only [scopesInside, headings, List.zipIdx_map, List.filterMap_map]
  rfl

/-- The places of scopes are known from the headings. -/
theorem listing_scopes (index : FromIndex) :
    listing FromScope.span index.scopes = listing Prod.snd index.headings := by
  have spans : index.scopes.map (·.span) = index.headings.map Prod.snd := by
    simp [headings]
  simp only [listing, headings, List.zipIdx_map, List.map_map]
  rfl

/-- Nothing is inside a scope that is still to be opened. -/
theorem scopesInside_eq_nil {clause : Nat} (fresh : index.scopes.length ≤ clause) :
    index.scopesInside clause = [] := by
  rw [scopesInside, List.filterMap_eq_nil_iff]
  rintro ⟨parent, number⟩ listed
  have short := (List.getElem?_eq_some_iff.mp (List.mem_zipIdx_iff_getElem?.mp listed)).1
  rw [List.length_map] at short
  exact if_neg fun inside => by omega

/-- A new scope is listed by the scope around it and is where its place leads. -/
theorem IsMirrored.addScope (mirrored : index.IsMirrored) (parent : Option Nat) (span : Span) :
    (index.addScope parent span).1.IsMirrored := by
  have headings := index.headings_addScope parent span
  have inside (clause : Nat) : (index.addScope parent span).1.scopesInside clause =
      index.scopesInside clause ++
        if parent = some clause ∧ clause ≤ index.scopes.length then [index.scopes.length] else [] := by
    rw [scopesInside_eq, headings, List.zipIdx_append, List.filterMap_append, ← scopesInside_eq]
    simp [length_headings]
    split <;> simp [*]
  have places := listing_scopes (index.addScope parent span).1
  rw [headings, listing_concat, ← listing_scopes, length_headings, ← mirrored.scopePlaces] at places
  rw [addScope_eq] at inside places ⊢
  refine ⟨mirrored.labels, mirrored.elementPlaces, places.symm, mirrored.distinct, ?_, ?_, ?_⟩
  · intro element listed
    obtain ⟨home, there, small⟩ := mirrored.housed element listed
    have short := (List.getElem?_eq_some_iff.mp there).1
    rw [getElem?_scopesWith, List.getElem?_append_left short, there]
    refine ⟨_, rfl, ?_⟩
    split <;> exact small
  · intro clause scope there
    rw [getElem?_scopesWith, Option.map_eq_some_iff] at there
    obtain ⟨found, there, rfl⟩ := there
    have same : found.spaces = (List.range found.spaces.length).map (index.spaceElements clause) := by
      rcases getElem?_concat_eq_some.mp there with early | ⟨_, rfl⟩
      · exact mirrored.spaces clause found early
      · rfl
    split <;> exact same
  · intro clause scope there
    rw [getElem?_scopesWith, Option.map_eq_some_iff] at there
    obtain ⟨found, there, rfl⟩ := there
    have bound : clause ≤ index.scopes.length := by
      have short := (List.getElem?_eq_some_iff.mp there).1
      rw [List.length_append, List.length_singleton] at short
      omega
    have before : found.children = index.scopesInside clause := by
      rcases getElem?_concat_eq_some.mp there with early | ⟨atEnd, rfl⟩
      · exact mirrored.children clause found early
      · exact (scopesInside_eq_nil (Nat.le_of_eq atEnd.symm)).symm
    rw [inside]
    split
    · rename_i named
      rw [if_pos ⟨named, bound⟩, before]
    · rename_i unnamed
      rw [if_neg fun listed => unnamed listed.1, List.append_nil, before]

/-- What is kept by a change of one scope that leaves the scope around it, its place and the scopes
inside it. -/
theorem scopesInside_withScope (index : FromIndex) (clause : Nat) (change : FromScope → FromScope)
    (parent : ∀ scope, (change scope).parent = scope.parent)
    (span : ∀ scope, (change scope).span = scope.span) :
    (index.withScope clause change).scopesInside = index.scopesInside ∧
      listing FromScope.span (index.withScope clause change).scopes =
        listing FromScope.span index.scopes := by
  have headings := headings_withScope index clause change parent span
  refine ⟨funext fun other => ?_, ?_⟩
  · rw [scopesInside_eq, scopesInside_eq, headings]
  · rw [listing_scopes, listing_scopes, headings]

/-- An element keeps its home when a change of one scope leaves it at least as many spaces. -/
theorem housed_withScope {clause : Nat} {change : FromScope → FromScope}
    (larger : ∀ scope, scope.spaces.length ≤ (change scope).spaces.length) {element : FromElement}
    (housed : ∃ home, index.scopes[element.clause]? = some home ∧ element.space < home.spaces.length) :
    ∃ home, (index.withScope clause change).scopes[element.clause]? = some home ∧
      element.space < home.spaces.length := by
  obtain ⟨home, here, small⟩ := housed
  rw [getElem?_withScope, here]
  refine ⟨_, rfl, ?_⟩
  split
  · exact Nat.lt_of_lt_of_le small (larger home)
  · exact small

/-- A change of one scope that leaves the scopes around and inside it leaves the lists of scopes as
they should be. -/
theorem IsMirrored.children_withScope (mirrored : index.IsMirrored) {clause : Nat}
    {change : FromScope → FromScope} (parent : ∀ scope, (change scope).parent = scope.parent)
    (span : ∀ scope, (change scope).span = scope.span)
    (children : ∀ scope, (change scope).children = scope.children) (place : Nat) (scope : FromScope)
    (here : (index.withScope clause change).scopes[place]? = some scope) :
    scope.children = (index.withScope clause change).scopesInside place := by
  rw [getElem?_withScope, Option.map_eq_some_iff] at here
  obtain ⟨before, here, rfl⟩ := here
  rw [(scopesInside_withScope index clause change parent span).1]
  split
  · exact (children before).trans (mirrored.children place before here)
  · exact mirrored.children place before here

/-- A new space has no elements. -/
theorem IsMirrored.addSpace (mirrored : index.IsMirrored) {clause number : Nat}
    (opened : index.addSpace clause = .ok (after, number)) : after.IsMirrored := by
  obtain ⟨found, there, rfl, rfl⟩ := addSpace_ok.mp opened
  have places := (scopesInside_withScope index clause
    (fun scope => { scope with spaces := scope.spaces ++ [[]] }) (fun _ => rfl) fun _ => rfl).2
  have unused : index.spaceElements clause found.spaces.length = [] := by
    rw [spaceElements, List.filterMap_eq_nil_iff]
    rintro ⟨element, place⟩ listed
    obtain ⟨home, here, small⟩ := mirrored.housed element (List.fst_mem_of_mem_zipIdx listed)
    refine if_neg fun ⟨same, last⟩ => ?_
    rw [same, there] at here
    obtain rfl := Option.some.inj here
    omega
  refine ⟨mirrored.labels, mirrored.elementPlaces, mirrored.scopePlaces.trans places.symm,
    mirrored.distinct, fun element listed => housed_withScope (by simp) (mirrored.housed element listed),
    ?_, mirrored.children_withScope (fun _ => rfl) (fun _ => rfl) fun _ => rfl⟩
  · intro place scope here
    rw [getElem?_withScope, Option.map_eq_some_iff] at here
    obtain ⟨before, here, rfl⟩ := here
    have listed := mirrored.spaces place before here
    split
    · rename_i same
      subst same
      obtain rfl := Option.some.inj (there.symm.trans here)
      change found.spaces ++ [[]] =
        (List.range (found.spaces ++ [[]]).length).map (index.spaceElements clause)
      rw [List.length_append, List.length_singleton, List.range_succ, List.map_append, ← listed,
        List.map_singleton, unused]
    · exact listed

/-- A new element is the last one in its space. -/
theorem spaceElements_withElement (element : FromElement) (clause space : Nat) :
    (index.withElement element).spaceElements clause space = index.spaceElements clause space ++
      if element.clause = clause ∧ element.space = space then [index.elements.length] else [] := by
  have last : [(element, index.elements.length)].filterMap (fun (element, number) =>
      if element.clause = clause ∧ element.space = space then some number else none) =
        if element.clause = clause ∧ element.space = space then [index.elements.length] else [] := by
    by_cases inside : element.clause = clause ∧ element.space = space <;> simp [inside]
  simp only [spaceElements, withElement, List.zipIdx_append, List.filterMap_append,
    List.zipIdx_singleton, Nat.zero_add, last]

/-- A list of lists, of which one gains an item, lists what it did with that item. -/
theorem modify_listed {spaces : List (List Nat)} {space number : Nat} {before after : Nat → List Nat}
    (listed : spaces = (List.range spaces.length).map before)
    (gains : ∀ other, after other = before other ++ if space = other then [number] else []) :
    spaces.modify space (· ++ [number]) =
      (List.range (spaces.modify space (· ++ [number])).length).map after := by
  refine List.ext_getElem? fun other => ?_
  rw [List.length_modify, List.getElem?_modify, listed, List.length_map, List.length_range,
    List.getElem?_map, List.getElem?_map]
  rcases Nat.lt_or_ge other spaces.length with short | long
  · rw [List.getElem?_range short, Option.map_some, Option.map_some, gains, Option.map_eq_map,
      Option.map_some]
    by_cases here : space = other <;> simp [here]
  · rw [List.getElem?_eq_none (by simpa using long)]
    rfl

/-- The spaces of every scope list their elements, the new one as well. -/
theorem IsMirrored.spaces_withElement (mirrored : index.IsMirrored) (element : FromElement)
    (place : Nat) (scope : FromScope) (here : (index.withElement element).scopes[place]? = some scope) :
    scope.spaces =
      (List.range scope.spaces.length).map ((index.withElement element).spaceElements place) := by
  have changed := @getElem?_withScope index element.clause (fun scope =>
    { scope with spaces := scope.spaces.modify element.space (· ++ [index.elements.length]) }) place
  obtain ⟨before, there, rfl⟩ := Option.map_eq_some_iff.mp (changed.symm.trans here)
  have listed := mirrored.spaces place before there
  split
  · rename_i same
    refine modify_listed listed fun space => ?_
    simp only [spaceElements_withElement, same, true_and]
  · rename_i other
    have unchanged : (index.withElement element).spaceElements place = index.spaceElements place := by
      funext space
      rw [spaceElements_withElement, if_neg fun here => other here.1, List.append_nil]
    rw [unchanged]
    exact listed

/-- A new element is listed in its space and is where its name and its place lead. -/
theorem IsMirrored.register (mirrored : index.IsMirrored) {element : FromElement} {number : Nat}
    (registered : index.register element = .ok (after, number)) : after.IsMirrored := by
  obtain ⟨⟨new, home, there, small⟩, rfl, rfl⟩ := register_ok.mp registered
  have places := (scopesInside_withScope index element.clause (fun scope =>
    { scope with spaces := scope.spaces.modify element.space (· ++ [index.elements.length]) })
    (fun _ => rfl) fun _ => rfl).2
  have kept {given : FromElement} (housed : ∃ home, index.scopes[given.clause]? = some home ∧
      given.space < home.spaces.length) : ∃ home,
      (index.withElement element).scopes[given.clause]? = some home ∧
        given.space < home.spaces.length :=
    housed_withScope (fun scope => Nat.le_of_eq (by rw [List.length_modify])) housed
  refine ⟨?_, ?_, mirrored.scopePlaces.trans places.symm, ?_, ?_, mirrored.spaces_withElement element,
    mirrored.children_withScope (fun _ => rfl) (fun _ => rfl) fun _ => rfl⟩
  · exact (congrArg _ mirrored.labels).trans (listing_concat index.elements element).symm
  · exact (congrArg _ mirrored.elementPlaces).trans (listing_concat index.elements element).symm
  · have unknown : element.label ∉ index.elements.map (·.label) := by
      rw [← isSome_lookup_listing, ← mirrored.labels, new]
      simp
    simpa [withElement, List.nodup_append] using ⟨mirrored.distinct, by simpa using unknown⟩
  · exact List.forall_mem_append.mpr ⟨fun given listed => kept (mirrored.housed given listed),
      List.forall_mem_singleton.mpr (kept ⟨home, there, small⟩)⟩

/-! ## Looking up -/

/-- What is found by its name is registered. -/
theorem mem_of_find? {label : String} {element : FromElement}
    (found : index.find? label = some element) : element ∈ index.elements := by
  obtain ⟨number, _, there⟩ := Option.bind_eq_some_iff.mp found
  exact List.mem_of_getElem? there

namespace IsMirrored

variable (mirrored : index.IsMirrored)

include mirrored

/-- A name leads to the number of the element that has it. -/
theorem lookup_label {label : String} {number : Nat} :
    index.labels.lookup label = some number ↔
      ∃ element, index.elements[number]? = some element ∧ element.label = label := by
  rw [mirrored.labels, lookup_listing_of_nodup mirrored.distinct]

/-- A name is taken if an element has it. -/
theorem lookup_label_eq_none {label : String} :
    index.labels.lookup label = none ↔ label ∉ index.elements.map (·.label) := by
  rw [mirrored.labels, ← isSome_lookup_listing, Option.isSome_iff_ne_none, not_not]

/-- An element is found by its name. -/
theorem find?_eq_some_iff {label : String} {element : FromElement} :
    index.find? label = some element ↔ element ∈ index.elements ∧ element.label = label := by
  simp only [find?, Option.bind_eq_some_iff, mirrored.lookup_label]
  constructor
  · rintro ⟨number, ⟨other, there, named⟩, thereToo⟩
    obtain rfl := Option.some.inj (there.symm.trans thereToo)
    exact ⟨List.mem_of_getElem? there, named⟩
  · rintro ⟨listed, named⟩
    obtain ⟨number, there⟩ := List.getElem?_of_mem listed
    exact ⟨number, ⟨element, there, named⟩, there⟩

/-- A place leads to the last scope that was opened for it. -/
theorem scopeAt?_eq_some_iff {span : Span} {number : Nat} :
    index.scopeAt? span = some number ↔
      (∃ scope, index.scopes[number]? = some scope ∧ scope.span = span) ∧
        ∀ later other, number < later → index.scopes[later]? = some other → other.span ≠ span := by
  rw [scopeAt?, mirrored.scopePlaces, lookup_listing]

/-- A place leads to the last element that was registered for it. -/
theorem elementAt?_eq_some_iff {span : Span} {element : FromElement} :
    index.elementAt? span = some element ↔
      ∃ number : Nat, index.elements[number]? = some element ∧ element.span = span ∧
        ∀ (later : Nat) (other : FromElement), number < later →
          index.elements[later]? = some other → other.span ≠ span := by
  simp only [elementAt?, Option.bind_eq_some_iff, mirrored.elementPlaces, lookup_listing]
  constructor
  · rintro ⟨number, ⟨⟨other, there, placed⟩, latest⟩, thereToo⟩
    obtain rfl := Option.some.inj (there.symm.trans thereToo)
    exact ⟨number, there, placed, latest⟩
  · rintro ⟨number, there, placed, latest⟩
    exact ⟨number, ⟨⟨element, there, placed⟩, latest⟩, there⟩

/-- The spaces of a scope list the elements that say they are in them. -/
theorem spaces_eq (clause : Nat) : index.spaces clause =
    (List.range (index.spaces clause).length).map (index.spaceElements clause) := by
  unfold FromIndex.spaces scope?
  cases there : index.scopes[clause]? with
  | none => rfl
  | some scope => exact mirrored.spaces clause scope there

/-- A scope lists the scopes that say they are inside it, if it is there. -/
theorem children_eq {clause : Nat} (there : clause < index.scopes.length) :
    index.children clause = index.scopesInside clause := by
  unfold FromIndex.children scope?
  rw [List.getElem?_eq_getElem there]
  exact mirrored.children clause _ (List.getElem?_eq_getElem there)

end IsMirrored

/-- Numbers of items that are picked out in the order of the items rise. -/
theorem pairwise_numbers {α : Type} (items : List α) (picks : α → Nat → Prop)
    [∀ item number, Decidable (picks item number)] :
    (items.zipIdx.filterMap fun (item, number) =>
      if picks item number then some number else none).Pairwise (· < ·) := by
  have rising : items.zipIdx.Pairwise fun first second => first.2 < second.2 := by
    rw [← List.pairwise_map, List.zipIdx_map_snd]
    exact List.pairwise_lt_range'
  refine List.pairwise_filterMap.mpr (rising.imp ?_)
  rintro ⟨_, first⟩ ⟨_, second⟩ smaller number here other there
  simp only [Option.ite_none_right_eq_some, Option.some.injEq] at here there
  rw [← here.2, ← there.2]
  exact smaller

/-- The elements of a space are numbered in the order in which they came. -/
theorem pairwise_spaceElements (clause space : Nat) :
    (index.spaceElements clause space).Pairwise (· < ·) :=
  pairwise_numbers index.elements fun element _ => element.clause = clause ∧ element.space = space

/-- The scopes inside a scope are numbered in the order in which they were opened. -/
theorem pairwise_scopesInside (clause : Nat) : (index.scopesInside clause).Pairwise (· < ·) :=
  pairwise_numbers (index.scopes.map FromScope.parent) fun parent number =>
    parent = some clause ∧ clause ≤ number

/-- The elements listed for a space are those registered there. -/
theorem mem_spaceElements {clause space number : Nat} :
    number ∈ index.spaceElements clause space ↔
      ∃ element, index.elements[number]? = some element ∧ element.clause = clause ∧
        element.space = space := by
  simp only [spaceElements, List.mem_filterMap, Prod.exists, List.mem_zipIdx_iff_getElem?,
    Option.ite_none_right_eq_some, Option.some.injEq]
  constructor
  · rintro ⟨element, _, there, inside, rfl⟩
    exact ⟨element, there, inside⟩
  · rintro ⟨element, there, inside⟩
    exact ⟨element, number, there, inside, rfl⟩

/-- The numbers in the spaces of a scope are those of its elements. -/
theorem IsMirrored.mem_spaces (mirrored : index.IsMirrored) {clause number : Nat} :
    number ∈ (index.spaces clause).flatten ↔
      ∃ element, index.elements[number]? = some element ∧ element.clause = clause := by
  rw [mirrored.spaces_eq]
  simp only [List.mem_flatten, List.mem_map, List.mem_range, exists_exists_and_eq_and,
    mem_spaceElements]
  constructor
  · rintro ⟨_, _, element, there, same, _⟩
    exact ⟨element, there, same⟩
  · rintro ⟨element, there, rfl⟩
    obtain ⟨home, here, small⟩ := mirrored.housed element (List.mem_of_getElem? there)
    exact ⟨element.space, by simpa [FromIndex.spaces, scope?, here] using small, element, there, rfl, rfl⟩

/-- The elements of a scope are those that say they are in it. -/
theorem IsMirrored.mem_elementsOf_iff (mirrored : index.IsMirrored) {clause : Nat}
    {element : FromElement} :
    element ∈ index.elementsOf clause ↔ element ∈ index.elements ∧ element.clause = clause := by
  simp only [elementsOf, List.mem_filterMap, mirrored.mem_spaces]
  constructor
  · rintro ⟨number, ⟨other, there, same⟩, found⟩
    obtain rfl := Option.some.inj (there.symm.trans found)
    exact ⟨List.mem_of_getElem? there, same⟩
  · rintro ⟨listed, same⟩
    obtain ⟨number, there⟩ := List.getElem?_of_mem listed
    exact ⟨number, ⟨element, there, same⟩, there⟩

end FromIndex

namespace Registering

/-- A call is made on the index of a registry and leaves the rest as it is. -/
theorem run_changeIndex (call : Indexing Nat) (registry : Registry) :
    (changeIndex call).run.run registry =
      ((call.run.run registry.index).1,
        { registry with index := (call.run.run registry.index).2 }) := by
  have started (next : Registry → Registering Nat) :
      (get >>= next).run.run registry = (next registry).run.run registry := rfl
  unfold changeIndex
  rw [started]
  cases call.run.run registry.index with
  | mk outcome index => cases outcome <;> rfl

/-- A call that is safe leaves the whole registry as it is when it is refused. -/
theorem run_changeIndex_of_isSafe {call : Indexing Nat} (safe : call.IsSafe) (registry : Registry) :
    (changeIndex call).run.run registry =
      match call.on registry.index with
      | .error refusal => (.error refusal, registry)
      | .ok (index, number) => (.ok number, { registry with index := index }) := by
  rw [run_changeIndex]
  unfold Indexing.on
  cases ran : call.run.run registry.index with
  | mk outcome index =>
    cases outcome with
    | error refusal =>
      obtain rfl := safe ran
      rfl
    | ok number => rfl

end Registering
end ObjectQuery
