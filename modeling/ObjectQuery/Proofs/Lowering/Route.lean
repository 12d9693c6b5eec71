import ObjectQuery.Proofs.PlainName
import ObjectQuery.Proofs.Sql.JoinOrder
/-!
# How groups are named

A group is reached from a source by associations and by elements of collections, and its name spells
the way. Since sources and attributes have plain names, the name tells the way, and the name of a
table tells the group and the position of the table in it.
-/
namespace ObjectQuery.Lowering

open Sql (TableGroup)

/-- The way to a group: a source, an association of another group, or an element of a collection of
another group with the number of its join. -/
inductive Route where
  | source (label : String)
  | toOne (owner : Route) (label : String)
  | element (owner : Route) (label : String) (number : Nat)
  deriving DecidableEq, Repr

namespace Route

/-- The name of the group at the end of the way. -/
def name : Route → String
  | source label => label
  | toOne owner label => owner.name ++ "." ++ label
  | element owner label number => owner.name ++ "." ++ label ++ "[" ++ toString number ++ "]"

/-- The source that the way starts from. -/
def root : Route → String
  | source label => label
  | toOne owner _ | element owner _ _ => owner.root

/-- The way without its last step. -/
def owner? : Route → Option Route
  | source _ => none
  | toOne owner _ | element owner _ _ => some owner

/-- The number of the join of the element at the end of the way. -/
def number? : Route → Option Nat
  | source _ | toOne _ _ => none
  | element _ _ number => some number

/-- All names on the way are plain. -/
def IsPlain : Route → Prop
  | source label => IsPlainName label
  | toOne owner label | element owner label _ => owner.IsPlain ∧ IsPlainName label

variable {route other : Route}

/-- What stands behind the last dot of the name of a group. -/
def tail : Route → List Char
  | source label | toOne _ label => label.toList
  | element _ label number => label.toList ++ '[' :: ((toString number).toList ++ [']'])

/-- The name of a route is that of its owner, a dot and its own last part. -/
theorem toList_name {owner : Route} (ledFrom : route.owner? = some owner) :
    route.name.toList = owner.name.toList ++ '.' :: route.tail := by
  cases route with
  | source label => cases ledFrom
  | toOne owner label =>
    obtain rfl := Option.some.inj ledFrom
    simp [name, tail]
  | element owner label number =>
    obtain rfl := Option.some.inj ledFrom
    simp [name, tail]

/-- A plain name holds no character that joins names. -/
theorem not_mem_of_isPlainName {label : String} (plain : IsPlainName label) {c : Char}
    (joins : isJoiner c = true) : c ∉ label.toList := by
  intro member
  rw [plain c member] at joins
  cases joins

/-- The digits of a number hold no other character. -/
theorem not_mem_toString {number : Nat} {c : Char} (other : c.isDigit = false) :
    c ∉ (toString number).toList := by
  intro member
  rw [isDigit_of_mem_toString member] at other
  cases other

/-- There is no dot behind the last dot. -/
theorem dot_not_mem_tail (plain : route.IsPlain) : '.' ∉ route.tail := by
  cases route with
  | source label => exact not_mem_of_isPlainName plain rfl
  | toOne owner label => exact not_mem_of_isPlainName plain.2 rfl
  | element owner label number =>
    simp only [tail, List.mem_append, List.mem_cons, not_or]
    exact ⟨not_mem_of_isPlainName plain.2 rfl, by decide, not_mem_toString (by decide), by decide,
      by simp⟩

/-- What stands behind the last dot tells whether the way ends with an element, and which one. -/
theorem tail_inj {label label' : String} {number : Nat} (plain' : IsPlainName label') :
    label.toList ++ '[' :: ((toString number).toList ++ [']']) ≠ label'.toList ∧
      ∀ number', label.toList ++ '[' :: ((toString number).toList ++ [']']) =
        label'.toList ++ '[' :: ((toString number').toList ++ [']']) →
          label = label' ∧ number = number' := by
  refine ⟨?_, ?_⟩
  · intro same
    exact not_mem_of_isPlainName plain' (c := '[') rfl (same ▸ by simp)
  · intro number' same
    have unmarked (given : Nat) : '[' ∉ (toString given).toList ++ [']'] := by
      simp only [List.mem_append, not_or]
      exact ⟨not_mem_toString (by decide), by decide⟩
    obtain ⟨labels, numbers⟩ := append_mark_inj (unmarked number) (unmarked number') same
    exact ⟨String.toList_inj.mp labels, toString_inj (List.append_cancel_right numbers)⟩

/-- A way with a step has a dot in its name, and a source has none. -/
theorem name_ne_source {owner : Route} {label : String} (plain : IsPlainName label)
    (ledFrom : route.owner? = some owner) : route.name ≠ label := by
  intro same
  refine not_mem_of_isPlainName plain (c := '.') rfl ?_
  rw [← same, toList_name ledFrom]
  simp

/-- The name of a way with a step tells the name of its owner and the step. -/
theorem name_split {owner owner' : Route} (plain : route.IsPlain) (plain' : other.IsPlain)
    (ledFrom : route.owner? = some owner) (ledFrom' : other.owner? = some owner')
    (same : route.name = other.name) : owner.name = owner'.name ∧ route.tail = other.tail := by
  have lists := congrArg String.toList same
  rw [toList_name ledFrom, toList_name ledFrom'] at lists
  obtain ⟨owners, tails⟩ := append_mark_inj (dot_not_mem_tail plain) (dot_not_mem_tail plain') lists
  exact ⟨String.toList_inj.mp owners, tails⟩

/-- The name of a group tells the way to it. -/
theorem name_inj (plain : route.IsPlain) (plain' : other.IsPlain) (same : route.name = other.name) :
    route = other := by
  induction route generalizing other with
  | source label =>
    cases other with
    | source label' => exact congrArg _ same
    | toOne owner label' => exact (name_ne_source plain rfl same.symm).elim
    | element owner label' number => exact (name_ne_source plain rfl same.symm).elim
  | toOne owner label ih =>
    cases other with
    | source label' => exact (name_ne_source plain' rfl same).elim
    | toOne owner' label' =>
      obtain ⟨owners, tails⟩ := name_split plain plain' rfl rfl same
      rw [ih plain.1 plain'.1 owners, String.toList_inj.mp tails]
    | element owner' label' number =>
      obtain ⟨_, tails⟩ := name_split plain plain' rfl rfl same
      exact ((tail_inj plain.2).1 tails.symm).elim
  | element owner label number ih =>
    cases other with
    | source label' => exact (name_ne_source plain' rfl same).elim
    | toOne owner' label' =>
      obtain ⟨_, tails⟩ := name_split plain plain' rfl rfl same
      exact ((tail_inj plain'.2).1 tails).elim
    | element owner' label' number' =>
      obtain ⟨owners, tails⟩ := name_split plain plain' rfl rfl same
      obtain ⟨rfl, rfl⟩ := (tail_inj plain'.2).2 number' tails
      rw [ih plain.1 plain'.1 owners]

end Route

/-- The name of a table tells its group and its position. -/
theorem tableLabel_inj {label label' : String} {position position' : Nat}
    (same : TableGroup.tableLabel label position = TableGroup.tableLabel label' position') :
    label = label' ∧ position = position' := by
  have lists := congrArg String.toList same
  simp only [TableGroup.tableLabel, String.toList_append, List.append_assoc] at lists
  obtain ⟨labels, positions⟩ := append_mark_inj (Route.not_mem_toString (by decide))
    (Route.not_mem_toString (by decide)) (show _ ++ '_' :: _ = _ ++ '_' :: _ from lists)
  exact ⟨String.toList_inj.mp labels, toString_inj positions⟩

/-- The tables of a source have no dots in their names. -/
theorem isImplicit_tableLabel {label : String} {position : Nat} :
    Sql.isImplicit (TableGroup.tableLabel label position) = Sql.isImplicit label := by
  have digits : '.' ∉ (toString position).toList := Route.not_mem_toString (by decide)
  simp only [Sql.isImplicit, TableGroup.tableLabel, String.toList_append, List.contains_eq_mem,
    List.mem_append, decide_eq_decide]
  constructor
  · rintro ((inside | mark) | digit)
    · exact inside
    · exact absurd mark (by decide)
    · exact (digits digit).elim
  · exact fun inside => Or.inl (Or.inl inside)

/-- A plain name is no implicit label. -/
theorem isImplicit_of_isPlainName {label : String} (plain : IsPlainName label) :
    Sql.isImplicit label = false := by
  simpa [Sql.isImplicit] using Route.not_mem_of_isPlainName plain (c := '.') rfl

/-- The name of a route that leads on is an implicit label. -/
theorem Route.isImplicit_name {route owner : Route} (ledFrom : route.owner? = some owner) :
    Sql.isImplicit route.name = true := by
  simp [Sql.isImplicit, Route.toList_name ledFrom]

end ObjectQuery.Lowering
