import Mathlib.Logic.Relation
import ObjectQuery.Proofs.Resolution.Tables
/-!
# What calls can make of an index

An index is changed by three kinds of calls: to open a scope, to open a space and to register an
element. Whoever makes them knows a scope only by the number that the call to open it has returned. In
whatever order such calls come, and whether or not they are refused, the tables agree with the lists of
scopes and elements, and every scope comes after the scope around it.

That is all there is to know: the names and elements, the elements and spaces, and the scopes and
their children then answer to each other, and looking up a name or an attribute sees exactly the scopes
around the place that asks, the nearest first.
-/
namespace ObjectQuery

/-! ## Calls -/

/-- A change of the index that can be asked for. -/
inductive IndexCall where
  | addScope (parent : Option Nat) (span : Span)
  | addSpace (clause : Nat)
  | register (element : FromElement)

namespace IndexCall

/-- What carries out the call. -/
def change : IndexCall → Indexing Nat
  | addScope parent span => liftM (Indexing.addScope parent span)
  | addSpace clause => Indexing.addSpace clause
  | register element => Indexing.register element

/-- The scopes that the call names. -/
def clauses : IndexCall → List Nat
  | addScope parent _ => parent.toList
  | addSpace clause => [clause]
  | register element => [element.clause]

/-- The outcome of the call and the index it leaves. -/
def run (call : IndexCall) (index : FromIndex) : Except ResolutionError Nat × FromIndex :=
  StateT.run (ExceptT.run call.change) index

/-- The scope that the call makes known. -/
def opens : IndexCall → Except ResolutionError Nat → List Nat
  | addScope _ _, .ok number => [number]
  | _, _ => []

/-- Calls of all kinds are refused before they change anything. -/
theorem change_isSafe : ∀ call : IndexCall, call.change.IsSafe
  | addScope parent span => Indexing.addScope_isSafe parent span
  | addSpace clause => Indexing.addSpace_isSafe clause
  | register element => Indexing.register_isSafe element

/-- A call that is refused leaves the index as it is. -/
theorem run_error {call : IndexCall} {index : FromIndex} {refusal : ResolutionError}
    (refused : (call.run index).1 = .error refusal) : (call.run index).2 = index :=
  call.change_isSafe (Prod.ext refused rfl)

end IndexCall

/-- The scopes that are known to whoever makes the calls, and the index. -/
structure Exchange where
  known : List Nat
  index : FromIndex

namespace Exchange

/-- Nothing has been called. -/
def start : Exchange := ⟨[], .empty⟩

/-- What a call leads to. It may be refused. -/
def next (exchange : Exchange) (call : IndexCall) : Exchange :=
  ⟨exchange.known ++ call.opens (call.run exchange.index).1, (call.run exchange.index).2⟩

/-- What calls lead to that name only scopes that are known. -/
inductive IsReached : Exchange → Prop
  | start : IsReached start
  | next {exchange : Exchange} (reached : IsReached exchange) (call : IndexCall)
    (known : ∀ clause ∈ call.clauses, clause ∈ exchange.known) : IsReached (exchange.next call)

end Exchange

namespace FromIndex

variable {index after : FromIndex}

/-! ## What every call keeps -/

/-- The tables agree with the lists, and scopes are inside scopes that have been opened before them. -/
structure IsTidy (index : FromIndex) : Prop where
  mirrored : index.IsMirrored
  earlier : ∀ child parent, index.parent? child = some parent → parent < child

/-- Nothing is inside anything. -/
theorem isTidy_empty : IsTidy empty := ⟨isMirrored_empty, by simp [empty, parent?, scope?]⟩

/-- A new scope is inside the scope that the call names. -/
theorem parent?_addScope {parent : Option Nat} {span : Span} (child : Nat) :
    (index.addScope parent span).1.parent? child =
      if child = index.scopes.length then parent else index.parent? child := by
  rw [parent?_eq, parent?_eq, headings_addScope, ← length_headings]
  rcases Nat.lt_trichotomy child index.headings.length with inside | rfl | outside
  · rw [if_neg (Nat.ne_of_lt inside), List.getElem?_append_left inside]
  · simp
  · rw [if_neg (Nat.ne_of_gt outside), List.getElem?_eq_none (Nat.le_of_lt outside),
      List.getElem?_eq_none (by simpa using Nat.succ_le_of_lt outside)]

/-- A scope that is opened inside one that is there comes after it. -/
theorem IsTidy.addScope (tidy : index.IsTidy) {parent : Option Nat} (span : Span)
    (known : ∀ scope ∈ parent, scope < index.scopes.length) :
    (index.addScope parent span).1.IsTidy := by
  refine ⟨tidy.mirrored.addScope parent span, fun child scope inside => ?_⟩
  rw [parent?_addScope] at inside
  split at inside
  · rename_i new
    exact new ▸ known scope inside
  · exact tidy.earlier child scope inside

/-- A call that opens no scope keeps what is inside what. -/
theorem IsTidy.of_headings (tidy : index.IsTidy) (mirrored : after.IsMirrored)
    (same : after.headings = index.headings) :
    after.IsTidy ∧ after.scopes.length = index.scopes.length := by
  refine ⟨⟨mirrored, fun child parent inside => tidy.earlier child parent ?_⟩, ?_⟩
  · rw [parent?_eq, ← same, ← parent?_eq]
    exact inside
  · rw [← length_headings, same, length_headings]

/-! ## Names, spaces and scopes -/

/-- Entering numbers under their keys gives every number one entry. -/
theorem map_snd_listing {α κ : Type} (key : α → κ) (items : List α) :
    (listing key items).map Prod.snd = (List.range items.length).reverse := by
  simp only [listing, List.map_reverse, List.map_map]
  exact congrArg List.reverse ((List.zipIdx_map_snd 0 items).trans List.range_eq_range'.symm)

/-- The keys of the entries are those of the items. -/
theorem map_fst_listing {α κ : Type} (key : α → κ) (items : List α) :
    (listing key items).map Prod.fst = (items.map key).reverse := by
  simp only [listing, List.map_reverse, List.map_map]
  refine congrArg List.reverse ?_
  conv_rhs => rw [← List.zipIdx_map_fst 0 items, List.map_map]
  rfl

/-- The table of names gives each name one number and each number one name. -/
theorem IsTidy.labels_bijective (tidy : index.IsTidy) :
    (index.labels.map Prod.fst).Nodup ∧
      (index.labels.map Prod.snd).Perm (List.range index.elements.length) := by
  rw [tidy.mirrored.labels, map_fst_listing, map_snd_listing, List.nodup_reverse]
  exact ⟨tidy.mirrored.distinct, List.reverse_perm _⟩

/-- Each element is in one space of one scope, and there once. -/
theorem IsTidy.spaces_perm (tidy : index.IsTidy) :
    ((List.range index.scopes.length).flatMap fun clause => (index.spaces clause).flatten).Perm
      (List.range index.elements.length) := by
  have apart : ∀ clause, ((index.spaces clause).flatten).Nodup := by
    intro clause
    rw [tidy.mirrored.spaces_eq, ← List.flatMap_def, List.nodup_flatMap]
    refine ⟨fun space _ => (pairwise_spaceElements clause space).imp Nat.ne_of_lt, ?_⟩
    refine List.nodup_range.imp fun {first second} different number here there => ?_
    obtain ⟨element, known, _, rfl⟩ := mem_spaceElements.mp here
    obtain ⟨other, knownToo, _, rfl⟩ := mem_spaceElements.mp there
    exact different (congrArg FromElement.space (Option.some.inj (known.symm.trans knownToo)))
  refine (List.perm_ext_iff_of_nodup ?_ List.nodup_range).mpr fun number => ?_
  · refine List.nodup_flatMap.mpr ⟨fun clause _ => apart clause, ?_⟩
    refine List.nodup_range.imp fun {first second} different number here there => ?_
    obtain ⟨element, known, rfl⟩ := tidy.mirrored.mem_spaces.mp here
    obtain ⟨other, knownToo, rfl⟩ := tidy.mirrored.mem_spaces.mp there
    exact different (congrArg FromElement.clause (Option.some.inj (known.symm.trans knownToo)))
  · simp only [List.mem_flatMap, List.mem_range, tidy.mirrored.mem_spaces]
    constructor
    · rintro ⟨_, _, element, there, _⟩
      exact (List.getElem?_eq_some_iff.mp there).1
    · intro short
      obtain ⟨scope, home, _⟩ := tidy.mirrored.housed _ (List.getElem_mem short)
      exact ⟨_, (List.getElem?_eq_some_iff.mp home).1, _, List.getElem?_eq_getElem short, rfl⟩

/-- An element is listed by the space it says. -/
theorem IsTidy.housed_at (tidy : index.IsTidy) {number : Nat} {element : FromElement}
    (there : index.elements[number]? = some element) :
    ∃ space, (index.spaces element.clause)[element.space]? = some space ∧ number ∈ space := by
  obtain ⟨scope, home, small⟩ := tidy.mirrored.housed element (List.mem_of_getElem? there)
  refine ⟨index.spaceElements element.clause element.space, ?_,
    mem_spaceElements.mpr ⟨element, there, rfl, rfl⟩⟩
  have short : element.space < (index.spaces element.clause).length := by
    simpa [spaces, scope?, home] using small
  rw [tidy.mirrored.spaces_eq, List.getElem?_map, List.getElem?_range short, Option.map_some]

/-- A scope lists the scopes that are directly inside it. -/
theorem IsTidy.mem_children (tidy : index.IsTidy) {clause child : Nat} :
    child ∈ index.children clause ↔ index.parent? child = some clause := by
  have inside : child ∈ index.scopesInside clause ↔ index.parent? child = some clause := by
    simp only [scopesInside, List.mem_filterMap, Prod.exists, List.mem_zipIdx_iff_getElem?,
      Option.ite_none_right_eq_some, Option.some.injEq, List.getElem?_map, Option.map_eq_some_iff]
    constructor
    · rintro ⟨_, _, ⟨scope, there, rfl⟩, ⟨named, _⟩, rfl⟩
      simp [parent?, scope?, there, named]
    · intro named
      have small := tidy.earlier child clause named
      obtain ⟨scope, there, parent⟩ := Option.bind_eq_some_iff.mp named
      exact ⟨_, child, ⟨scope, there, rfl⟩, ⟨parent, Nat.le_of_lt small⟩, rfl⟩
  rcases Nat.lt_or_ge clause index.scopes.length with there | absent
  · rw [tidy.mirrored.children_eq there, inside]
  · have nothing : index.children clause = [] := by
      simp [children, scope?, List.getElem?_eq_none absent]
    rw [← inside, nothing, scopesInside_eq_nil absent]

/-- A scope lists the scopes inside it in the order in which they were opened. -/
theorem IsTidy.pairwise_children (tidy : index.IsTidy) (clause : Nat) :
    (index.children clause).Pairwise (· < ·) := by
  rcases Nat.lt_or_ge clause index.scopes.length with there | absent
  · rw [tidy.mirrored.children_eq there]
    exact pairwise_scopesInside clause
  · have nothing : index.children clause = [] := by
      simp [children, scope?, List.getElem?_eq_none absent]
    rw [nothing]
    exact List.Pairwise.nil

/-! ## The scopes around a scope -/

/-- The one scope is directly inside the other. -/
def IsInside (index : FromIndex) (child parent : Nat) : Prop := index.parent? child = some parent

/-- The clauses around a clause are found with any fuel above its number. -/
theorem IsTidy.enclosingWithin_eq (tidy : index.IsTidy) : ∀ {fuel other clause : Nat},
    clause < fuel → clause < other →
      index.enclosingWithin fuel clause = index.enclosingWithin other clause
  | fuel + 1, other + 1, clause, less, lessToo => by
    rw [enclosingWithin, enclosingWithin]
    cases inside : index.parent? clause with
    | none => rfl
    | some parent =>
      have before := tidy.earlier clause parent inside
      exact congrArg (clause :: ·) (tidy.enclosingWithin_eq (by omega) (by omega))

/-- The walk outwards goes on until there is no scope around. -/
theorem IsTidy.enclosing_eq (tidy : index.IsTidy) (clause : Nat) :
    index.enclosing clause = clause :: ((index.parent? clause).map index.enclosing).getD [] := by
  unfold enclosing
  rw [enclosingWithin]
  cases inside : index.parent? clause with
  | none => rfl
  | some parent =>
    obtain ⟨scope, there, _⟩ := Option.bind_eq_some_iff.mp inside
    have short := (List.getElem?_eq_some_iff.mp there).1
    have before := tidy.earlier clause parent inside
    exact congrArg (clause :: ·) (tidy.enclosingWithin_eq (by omega) (by omega))

/-- A clause is around another if it is reached going outwards. -/
theorem IsTidy.mem_enclosing_iff (tidy : index.IsTidy) {clause scope : Nat} :
    scope ∈ index.enclosing clause ↔ Relation.ReflTransGen index.IsInside clause scope := by
  induction clause using Nat.strongRecOn with
  | ind clause ih =>
    rw [tidy.enclosing_eq, List.mem_cons, Relation.ReflTransGen.cases_head_iff]
    refine or_congr eq_comm ?_
    cases inside : index.parent? clause with
    | none => simp [IsInside, inside]
    | some parent => simp [IsInside, inside, ih parent (tidy.earlier clause parent inside)]

/-- A label is found at the nearest clause that has it. -/
theorem IsTidy.findVisible?_eq_some_iff (tidy : index.IsTidy) {clause : Nat} {label : String}
    {element : FromElement} : index.findVisible? clause label = some element ↔
      (element ∈ index.elements ∧ element.label = label) ∧
        Relation.ReflTransGen index.IsInside clause element.clause := by
  rw [findVisible?, Option.filter_eq_some_iff, tidy.mirrored.find?_eq_some_iff, List.contains_iff_mem,
    tidy.mem_enclosing_iff]

/-! ## The nearest scope that has an attribute -/

/-- Some element of the scope has the attribute. -/
def Exposes (index : FromIndex) (name : String) (clause : Nat) : Prop :=
  ∃ element ∈ index.elements, element.clause = clause ∧ element.exposes name = true

/-- From a scope outwards, the first one where some element has the attribute. -/
inductive Nearest (index : FromIndex) (name : String) : Nat → Nat → Prop
  | here {clause : Nat} (exposed : index.Exposes name clause) : Nearest index name clause clause
  | outside {clause parent scope : Nat} (hidden : ¬ index.Exposes name clause)
    (inside : index.IsInside clause parent) (further : Nearest index name parent scope) :
    Nearest index name clause scope

/-- The items of the numbers that are picked out are those that are kept. -/
theorem filterMap_numbers {α : Type} (items : List α) (picks : α → Bool) :
    (items.zipIdx.filterMap fun (item, number) =>
      if picks item then some number else none).filterMap (items[·]?) = items.filter picks := by
  have found : ∀ numbered ∈ items.zipIdx,
      (if picks numbered.1 then some numbered.2 else none).bind (items[·]?) =
        Option.guard picks numbered.1 := by
    rintro ⟨item, number⟩ listed
    have there := List.mem_zipIdx_iff_getElem?.mp listed
    cases picked : picks item <;> simp [picked, there, Option.guard]
  calc
    _ = items.zipIdx.filterMap fun numbered =>
        (if picks numbered.1 then some numbered.2 else none).bind (items[·]?) :=
      List.filterMap_filterMap
    _ = items.zipIdx.filterMap fun numbered => Option.guard picks numbered.1 :=
      List.filterMap_congr found
    _ = (items.zipIdx.map Prod.fst).filterMap (Option.guard picks) := by
      rw [List.filterMap_map]
      rfl
    _ = items.filter picks := by rw [List.zipIdx_map_fst, List.filterMap_eq_filter]

/-- The elements of a scope are listed space by space, and in a space in the order of registration. -/
theorem IsTidy.elementsOf_eq (tidy : index.IsTidy) (clause : Nat) :
    index.elementsOf clause = (List.range (index.spaces clause).length).flatMap fun space =>
      index.elements.filter fun element => element.clause = clause ∧ element.space = space := by
  have listed : ∀ space, (index.spaceElements clause space).filterMap (index.elements[·]?) =
      index.elements.filter fun element => element.clause = clause ∧ element.space = space := by
    intro space
    rw [← filterMap_numbers]
    simp [spaceElements]
  calc index.elementsOf clause
    _ = ((List.range (index.spaces clause).length).flatMap
          (index.spaceElements clause)).filterMap (index.elements[·]?) := by
      rw [elementsOf, List.flatMap_def, ← tidy.mirrored.spaces_eq]
    _ = _ := by
      rw [List.filterMap_flatMap]
      simp only [listed]

/-- The elements of the scope that have the attribute. -/
def exposing (index : FromIndex) (name : String) (clause : Nat) : List FromElement :=
  (index.elementsOf clause).filter (·.exposes name)

/-- No source of a clause exposes a name exactly where the clause does not. -/
theorem IsTidy.exposing_eq_nil_iff (tidy : index.IsTidy) {name : String} {clause : Nat} :
    index.exposing name clause = [] ↔ ¬ index.Exposes name clause := by
  simp only [exposing, Exposes, List.filter_eq_nil_iff, tidy.mirrored.mem_elementsOf_iff, not_exists,
    not_and, and_imp]

/-- What a scope answers if some of its elements have the attribute. -/
def answer (name : String) : List FromElement → Except ResolutionError (Option FromElement)
  | [element] => .ok (some element)
  | elements => .error (.ambiguousAttribute name (elements.map (·.label)))

/-- An attribute is looked for from the inside out, and the first clause exposing it answers. -/
theorem findExposing_eq (index : FromIndex) (clause : Nat) (name : String) :
    index.findExposing clause name =
      ((((index.enclosing clause).map (index.exposing name)).find? (!·.isEmpty)).map
        (answer name)).getD (.ok none) := by
  have same : index.exposing name = fun scope =>
      (index.elementsOf scope).filter (·.exposes name) := rfl
  simp only [findExposing, same]
  generalize ((index.enclosing clause).map _).find? _ = found
  match found with
  | none | some [] | some [_] | some (_ :: _ :: _) => rfl

/-- A clause that exposes a name answers for it itself. -/
theorem IsTidy.findExposing_here (tidy : index.IsTidy) {name : String} {clause : Nat}
    (exposed : index.Exposes name clause) :
    index.findExposing clause name = answer name (index.exposing name clause) := by
  have filled : index.exposing name clause ≠ [] :=
    fun empty => tidy.exposing_eq_nil_iff.mp empty exposed
  simp [findExposing_eq, tidy.enclosing_eq clause, filled]

/-- A clause that does not expose a name leaves the answer to the one around it. -/
theorem IsTidy.findExposing_outside (tidy : index.IsTidy) {name : String} {clause : Nat}
    (hidden : ¬ index.Exposes name clause) : index.findExposing clause name =
      ((index.parent? clause).map fun parent => index.findExposing parent name).getD (.ok none) := by
  have empty := tidy.exposing_eq_nil_iff.mpr hidden
  simp only [findExposing_eq]
  rw [tidy.enclosing_eq clause, List.map_cons, List.find?_cons, empty]
  cases index.parent? clause <;> rfl

/-- The nearest clause that exposes a name answers for it. -/
theorem IsTidy.findExposing_of_nearest (tidy : index.IsTidy) {name : String} {clause scope : Nat}
    (nearest : index.Nearest name clause scope) :
    index.findExposing clause name = answer name (index.exposing name scope) := by
  induction nearest with
  | here exposed => exact tidy.findExposing_here exposed
  | outside hidden inside _ ih =>
    rw [tidy.findExposing_outside hidden, inside]
    exact ih

/-- There is a nearest scope, unless no scope around has the attribute. -/
theorem IsTidy.exists_nearest (tidy : index.IsTidy) (name : String) (clause : Nat) :
    (∃ scope, index.Nearest name clause scope) ∨
      index.findExposing clause name = .ok none ∧ ∀ scope,
        Relation.ReflTransGen index.IsInside clause scope → ¬ index.Exposes name scope := by
  induction clause using Nat.strongRecOn with
  | ind clause ih =>
    by_cases exposed : index.Exposes name clause
    · exact .inl ⟨clause, .here exposed⟩
    · rw [tidy.findExposing_outside exposed]
      cases inside : index.parent? clause with
      | none =>
        refine .inr ⟨rfl, fun scope around => ?_⟩
        rcases Relation.ReflTransGen.cases_head_iff.mp around with rfl | ⟨parent, there, _⟩
        · exact exposed
        · cases inside.symm.trans there
      | some parent =>
        refine (ih parent (tidy.earlier clause parent inside)).imp ?_ ?_
        · rintro ⟨scope, nearest⟩
          exact ⟨scope, .outside exposed inside nearest⟩
        · rintro ⟨nothing, hidden⟩
          refine ⟨nothing, fun scope around => ?_⟩
          rcases Relation.ReflTransGen.cases_head_iff.mp around with rfl | ⟨next, there, further⟩
          · exact exposed
          · obtain rfl := Option.some.inj (inside.symm.trans there)
            exact hidden scope further

/-- The nearest clause is around and exposes the name. -/
theorem Nearest.around {name : String} {clause scope : Nat} (nearest : index.Nearest name clause scope) :
    Relation.ReflTransGen index.IsInside clause scope ∧ index.Exposes name scope := by
  induction nearest with
  | here exposed => exact ⟨.refl, exposed⟩
  | outside _ inside _ ih => exact ⟨.head inside ih.1, ih.2⟩

/-- Looking for an attribute finds the only element of the nearest scope that has it, complains about
all of them if there are several, and finds nothing if no scope around has it. -/
structure FindsNearest (index : FromIndex) (clause : Nat) (name : String) : Prop where
  only : ∀ element, index.findExposing clause name = .ok (some element) ↔
    ∃ scope, index.Nearest name clause scope ∧ index.exposing name scope = [element]
  several : ∀ failure, index.findExposing clause name = .error failure ↔
    ∃ scope, index.Nearest name clause scope ∧ 2 ≤ (index.exposing name scope).length ∧
      failure = .ambiguousAttribute name ((index.exposing name scope).map (·.label))
  absent : index.findExposing clause name = .ok none ↔
    ∀ scope, Relation.ReflTransGen index.IsInside clause scope → ¬ index.Exposes name scope

/-- A clause answers with a source if just one exposes the name. -/
theorem answer_eq_ok {name : String} {elements : List FromElement} {found : Option FromElement} :
    answer name elements = .ok found ↔ ∃ element, found = some element ∧ elements = [element] := by
  match elements with
  | [] => simp [answer]
  | [element] => simp [answer, eq_comm]
  | first :: second :: rest => simp [answer]

/-- A clause refuses a name that two of its sources expose. -/
theorem answer_eq_error {name : String} {elements : List FromElement} {failure : ResolutionError}
    (filled : elements ≠ []) : answer name elements = .error failure ↔
      2 ≤ elements.length ∧ failure = .ambiguousAttribute name (elements.map (·.label)) := by
  match elements with
  | [] => exact absurd rfl filled
  | [element] => simp [answer]
  | first :: second :: rest => simp [answer, eq_comm]

/-- A tidy index finds every name at its nearest clause. -/
theorem IsTidy.findsNearest (tidy : index.IsTidy) (clause : Nat) (name : String) :
    index.FindsNearest clause name := by
  have filled {scope : Nat} (nearest : index.Nearest name clause scope) :
      index.exposing name scope ≠ [] :=
    fun empty => tidy.exposing_eq_nil_iff.mp empty nearest.around.2
  rcases tidy.exists_nearest name clause with ⟨scope, nearest⟩ | ⟨nothing, hidden⟩
  · have found := tidy.findExposing_of_nearest nearest
    refine ⟨fun element => ⟨fun looked => ?_, ?_⟩, fun failure => ⟨fun looked => ?_, ?_⟩,
      fun looked => ?_, fun hidden => absurd nearest.around.2 (hidden scope nearest.around.1)⟩
    · obtain ⟨_, same, single⟩ := answer_eq_ok.mp (found.symm.trans looked)
      exact ⟨scope, nearest, Option.some.inj same ▸ single⟩
    · rintro ⟨other, near, single⟩
      rw [tidy.findExposing_of_nearest near, single]
      rfl
    · exact ⟨scope, nearest, (answer_eq_error (filled nearest)).mp (found.symm.trans looked)⟩
    · rintro ⟨other, near, several⟩
      rw [tidy.findExposing_of_nearest near]
      exact (answer_eq_error (filled near)).mpr several
    · obtain ⟨_, same, _⟩ := answer_eq_ok.mp (found.symm.trans looked)
      cases same
  · have nowhere {scope : Nat} (nearest : index.Nearest name clause scope) : False :=
      hidden scope nearest.around.1 nearest.around.2
    refine ⟨fun element => ⟨fun looked => ?_, ?_⟩, fun failure => ⟨fun looked => ?_, ?_⟩,
      fun _ => hidden, fun _ => nothing⟩
    · cases nothing.symm.trans looked
    · rintro ⟨scope, nearest, _⟩
      exact (nowhere nearest).elim
    · cases nothing.symm.trans looked
    · rintro ⟨scope, nearest, _⟩
      exact (nowhere nearest).elim

/-! ## All calls together -/

/-- The tables of an index answer to each other, and look-ups see the scopes around a scope. -/
structure IsConsistent (index : FromIndex) : Prop where
  /-- The table of names holds the name of each element once, and the number of each element once. -/
  named : ∀ label number, index.labels.lookup label = some number ↔
    ∃ element, index.elements[number]? = some element ∧ element.label = label
  names : (index.labels.map Prod.fst).Nodup
  numbers : (index.labels.map Prod.snd).Perm (List.range index.elements.length)
  /-- A name belongs to one element, and the element is found by it. -/
  found : ∀ label element,
    index.find? label = some element ↔ element ∈ index.elements ∧ element.label = label
  /-- A place leads to the latest scope, and to the latest element, that it was given for. -/
  scopePlaced : ∀ span number, index.scopeAt? span = some number ↔
    (∃ scope, index.scopes[number]? = some scope ∧ scope.span = span) ∧
      ∀ later other, number < later → index.scopes[later]? = some other → other.span ≠ span
  elementPlaced : ∀ span element, index.elementAt? span = some element ↔
    ∃ number : Nat, index.elements[number]? = some element ∧ element.span = span ∧
      ∀ (later : Nat) (other : FromElement), number < later →
        index.elements[later]? = some other → other.span ≠ span
  /-- Over all spaces of all scopes every element is listed once, and where it says. -/
  listed : ((List.range index.scopes.length).flatMap fun clause => (index.spaces clause).flatten).Perm
    (List.range index.elements.length)
  housed : ∀ (number : Nat) (element : FromElement), index.elements[number]? = some element →
    ∃ space, (index.spaces element.clause)[element.space]? = some space ∧ number ∈ space
  /-- Scopes are inside earlier ones, which list them in their order. -/
  earlier : ∀ child parent, index.parent? child = some parent → parent < child
  children : ∀ clause child, child ∈ index.children clause ↔ index.parent? child = some clause
  rising : ∀ clause, (index.children clause).Pairwise (· < ·)
  /-- Walks outwards end only where there is no scope around. -/
  walk : ∀ clause,
    index.enclosing clause = clause :: ((index.parent? clause).map index.enclosing).getD []
  visible : ∀ clause label element, index.findVisible? clause label = some element ↔
    (element ∈ index.elements ∧ element.label = label) ∧
      Relation.ReflTransGen index.IsInside clause element.clause
  ordered : ∀ clause, index.elementsOf clause =
    (List.range (index.spaces clause).length).flatMap fun space =>
      index.elements.filter fun element => element.clause = clause ∧ element.space = space
  exposed : ∀ clause name, index.FindsNearest clause name

/-- Tables that agree with the lists answer to each other. -/
theorem IsTidy.isConsistent (tidy : index.IsTidy) : index.IsConsistent where
  named _ _ := tidy.mirrored.lookup_label
  names := tidy.labels_bijective.1
  numbers := tidy.labels_bijective.2
  found _ _ := tidy.mirrored.find?_eq_some_iff
  scopePlaced _ _ := tidy.mirrored.scopeAt?_eq_some_iff
  elementPlaced _ _ := tidy.mirrored.elementAt?_eq_some_iff
  listed := tidy.spaces_perm
  housed _ _ := tidy.housed_at
  earlier := tidy.earlier
  children _ _ := tidy.mem_children
  rising := tidy.pairwise_children
  walk := tidy.enclosing_eq
  visible _ _ _ := tidy.findVisible?_eq_some_iff
  ordered := tidy.elementsOf_eq
  exposed := tidy.findsNearest

end FromIndex

namespace Exchange

variable {exchange : Exchange}

/-- What the calls so far keep: the index is tidy, and the known scopes are those that are there. -/
structure IsFair (exchange : Exchange) : Prop where
  tidy : exchange.index.IsTidy
  known : exchange.known = List.range exchange.index.scopes.length

/-- A call that opens no scope keeps what holds, whether or not it is refused. -/
theorem IsFair.change (fair : exchange.IsFair) {call : IndexCall}
    (keeps : ∀ after number, call.change.on exchange.index = .ok (after, number) →
      after.IsMirrored ∧ after.headings = exchange.index.headings) :
    IsFair ⟨exchange.known, (call.run exchange.index).2⟩ := by
  cases ran : call.run exchange.index with
  | mk outcome after =>
    cases outcome with
    | error refusal =>
      obtain rfl : after = exchange.index := call.change_isSafe ran
      exact fair
    | ok number =>
      have done : call.change.on exchange.index = .ok (after, number) := by
        unfold Indexing.on
        rw [show call.change.run.run exchange.index = _ from ran]
      obtain ⟨mirrored, headings⟩ := keeps after number done
      obtain ⟨tidy, length⟩ := fair.tidy.of_headings mirrored headings
      exact ⟨tidy, by rw [fair.known, length]⟩

/-- Every call keeps what holds. -/
theorem IsFair.next (fair : exchange.IsFair) {call : IndexCall}
    (known : ∀ clause ∈ call.clauses, clause ∈ exchange.known) : (exchange.next call).IsFair := by
  cases call with
  | addScope parent span =>
    have there : ∀ scope ∈ parent, scope < exchange.index.scopes.length := by
      intro scope named
      have listed := known scope (Option.mem_toList.mpr named)
      rwa [fair.known, List.mem_range] at listed
    have tidy := fair.tidy.addScope span there
    have ran : (IndexCall.addScope parent span).run exchange.index =
        (.ok exchange.index.scopes.length, (exchange.index.addScope parent span).1) := by
      cases parent <;> rfl
    have longer : (exchange.index.addScope parent span).1.scopes.length =
        exchange.index.scopes.length + 1 := by
      rw [← FromIndex.length_headings, FromIndex.headings_addScope, List.length_append,
        FromIndex.length_headings, List.length_singleton]
    rw [Exchange.next, ran]
    refine ⟨tidy, ?_⟩
    rw [IndexCall.opens, fair.known, longer, List.range_succ]
  | addSpace clause =>
    change IsFair ⟨exchange.known ++ [], _⟩
    rw [List.append_nil]
    refine fair.change fun after number opened => ?_
    exact ⟨fair.tidy.mirrored.addSpace opened, (FromIndex.addSpace_keeps opened).2⟩
  | register element =>
    change IsFair ⟨exchange.known ++ [], _⟩
    rw [List.append_nil]
    refine fair.change fun after number registered => ?_
    exact ⟨fair.tidy.mirrored.register registered, (FromIndex.register_adds registered).2⟩

/-- Whatever has been called, the index is tidy. -/
theorem IsReached.isFair (reached : exchange.IsReached) : exchange.IsFair := by
  induction reached with
  | start => exact ⟨FromIndex.isTidy_empty, rfl⟩
  | next _ call known fair => exact fair.next known

/-- Whatever has been called, the index is consistent, the known scopes are those that are there, and
a call that is refused leaves the index as it was. -/
theorem index_isConsistent (reached : exchange.IsReached) :
    exchange.index.IsConsistent ∧
    exchange.known = List.range exchange.index.scopes.length ∧
    ∀ call refusal, (IndexCall.run call exchange.index).1 = .error refusal →
      (exchange.next call).index = exchange.index :=
  ⟨reached.isFair.tidy.isConsistent, reached.isFair.known, fun _ _ => IndexCall.run_error⟩

/-- A source of an entity that has an identifier and one more attribute. -/
def sample (label other : String) (clause space : Nat) : FromElement :=
  ⟨label, false, .concrete ⟨label, none, none, [], [⟨"id", .basic .long⟩, ⟨other, .basic .string⟩]⟩,
    .root, clause, space, ⟨0, 0⟩⟩

/-- Two items of a from-clause, a sub-query with one, and another try to take the first name. -/
def sampleCalls : List IndexCall := [
  .addScope none ⟨0, 9⟩, .addSpace 0, .register (sample "a" "owner" 0 0), .addScope (some 0) ⟨4, 8⟩,
  .addSpace 0, .addSpace 1, .register (sample "f" "manager" 0 1), .register (sample "o" "total" 1 0),
  .register (sample "a" "total" 1 0)]

/-- Whether all calls name only scopes that are known. -/
def namesKnown (exchange : Exchange) : List IndexCall → Bool
  | [] => true
  | call :: rest =>
    call.clauses.all (exchange.known.contains ·) && namesKnown (exchange.next call) rest

/-- Calls that name known scopes lead to what is reached. -/
theorem IsReached.calls {exchange : Exchange} (reached : exchange.IsReached) :
    ∀ {calls : List IndexCall}, exchange.namesKnown calls = true →
      (calls.foldl Exchange.next exchange).IsReached
  | [], _ => reached
  | call :: rest, named => by
    obtain ⟨first, others⟩ := Bool.and_eq_true_iff.mp named
    refine (reached.next call fun clause listed => ?_).calls others
    exact List.contains_iff_mem.mp (List.all_eq_true.mp first clause listed)

/-- The calls of the example are answered one by one, and the last is refused. -/
theorem index_isConsistent_sample : ∃ exchange : Exchange, exchange.IsReached ∧
    exchange.index.IsConsistent ∧
    exchange.index.elements.map (·.label) = ["a", "f", "o"] ∧
    exchange.index.findExposing 1 "total" = .ok (some (sample "o" "total" 1 0)) ∧
    exchange.index.findExposing 0 "id" = .error (.ambiguousAttribute "id" ["a", "f"]) ∧
    (exchange.next (.register (sample "a" "total" 1 0))).index = exchange.index := by
  have reached : (sampleCalls.foldl Exchange.next start).IsReached :=
    IsReached.start.calls (by decide +kernel)
  obtain ⟨consistent, _, refused⟩ := index_isConsistent reached
  exact ⟨_, reached, consistent, by decide +kernel, by decide +kernel, by decide +kernel,
    refused _ (.duplicateAlias "a") (by decide +kernel)⟩

end Exchange
end ObjectQuery
