import ObjectQuery.Resolved.Visit
/-!
# Addresses in a statement

A statement consists of queries, conditions and expressions, which consist of further ones. An address
says which part to take at each step inwards, so that equal expressions at two addresses are told apart.
In the order of the alphabet a part comes before those inside it, and these come in the order of the
text.

The expressions of a statement are listed once for each address that leads to one, in that order.
-/
namespace ObjectQuery.Resolved

/-- The numbers of the parts to take, from the outermost one inwards. -/
abbrev Address := List Nat

/-- What a statement consists of. -/
inductive Fragment where
  | statement (statement : Statement)
  | query (query : QuerySpec)
  | condition (predicate : Predicate)
  | expr (expr : Expr)

namespace Fragment

/-- The expressions, conditions and queries directly inside a part, in the order of the text. A select
list stands in front of the from-clause. What an update assigns to is no expression. -/
def parts : Fragment → List Fragment
  | statement (.select selected order) => query selected :: order.map fun key => expr key.expr
  | statement (.update _ assignments filter) =>
    (assignments.map fun assignment => expr assignment.value) ++ filter.toList.map condition
  | statement (.delete _ filter) => filter.toList.map condition
  | query ⟨spaces, _, selections, filter⟩ =>
    (selections.map fun selection => expr selection.expr) ++
      (spaces.flatMap fun space => space.joins.filterMap (·.predicate)).map condition ++
      filter.toList.map condition
  | condition (.and left right) | condition (.or left right) => [condition left, condition right]
  | condition (.not operand) => [condition operand]
  | condition (.compare _ left right) => [expr left, expr right]
  | condition (.inList test values _) => expr test :: values.map expr
  | condition (.inQuery test selected _) => [expr test, query selected]
  | condition (.memberOf element collection _) => [expr element, expr (.path collection)]
  | condition (.isNull operand _) => [expr operand]
  | condition (.like operand pattern _) => [expr operand, expr pattern]
  | condition (.between operand low high _) => [expr operand, expr low, expr high]
  | expr (.path reference) => (reference.segments.filterMap (·.index)).map expr
  | expr (.arithmetic _ left right _) => [expr left, expr right]
  | expr (.negate operand) => [expr operand]
  | expr (.call _ _ argument _) => argument.toList.map expr
  | expr (.element _ _) | expr (.literal _) | expr (.parameter _) => []

/-- The part at an address. -/
def at? : Fragment → Address → Option Fragment
  | part, [] => some part
  | part, number :: inwards => part.parts[number]?.bind (·.at? inwards)

/-- The part at an address that starts with the number of one of the parts. -/
def among? (parts : List Fragment) : Address → Option Fragment
  | [] => none
  | number :: inwards => parts[number]?.bind (·.at? inwards)

variable {parts further : List Fragment} {address : Address} {part : Fragment}

/-- Inside a part, one of its own parts is found first. -/
theorem at?_eq (start : address ≠ []) : part.at? address = among? part.parts address := by
  cases address with
  | nil => exact absurd rfl start
  | cons number inwards => rfl

/-- What is found among parts is found with more parts behind. -/
theorem among?_append (found : among? parts address = some part) :
    among? (parts ++ further) address = some part := by
  cases address with
  | nil => cases found
  | cons number inwards =>
    obtain ⟨listed, atNumber, onwards⟩ := Option.bind_eq_some_iff.mp found
    obtain ⟨inside, -⟩ := List.getElem?_eq_some_iff.mp atNumber
    simp [among?, List.getElem?_append_left inside, atNumber, onwards]

/-- The parts behind others are found under greater numbers. -/
theorem among?_further (parts further : List Fragment) (address : Address) :
    among? (parts ++ further) (address.modifyHead (· + parts.length)) = among? further address := by
  cases address with
  | nil => rfl
  | cons number inwards => simp [among?, List.getElem?_append_right]

/-- What is found among two lists of parts is found in one of them. -/
theorem among?_cases (found : among? (parts ++ further) address = some part) :
    among? parts address = some part ∨
      ∃ inner, address = inner.modifyHead (· + parts.length) ∧ among? further inner = some part := by
  cases address with
  | nil => cases found
  | cons number inwards =>
    by_cases inside : number < parts.length
    · left
      simpa [among?, List.getElem?_append_left inside] using found
    · right
      refine ⟨(number - parts.length) :: inwards, by simp; omega, ?_⟩
      simpa [among?, List.getElem?_append_right (Nat.le_of_not_lt inside)] using found

end Fragment

/-! ## Lists of expressions -/

open Fragment (among?)

/-- The expressions are those that addresses lead to, each address once and in the order of the
alphabet. -/
def LeadsTo (look : Address → Option Fragment) (exprs : List Expr) : Prop :=
  ∃ addresses : List Address, addresses.Pairwise (List.Lex (· < ·)) ∧
    (∀ address, address ∈ addresses ↔ ∃ expr, look address = some (.expr expr)) ∧
    addresses.map look = exprs.map fun expr => some (.expr expr)

namespace LeadsTo

variable {part : Fragment} {parts further : List Fragment} {expr : Expr} {exprs others : List Expr}

/-- No parts lead to nothing. -/
theorem nil : LeadsTo (among? []) [] := by
  refine ⟨[], .nil, fun address => ?_, rfl⟩
  cases address <;> simp [among?]

/-- Addresses keep their order when their first steps are moved along. -/
theorem lex_modifyHead (count : Nat) {first second : Address} (before : List.Lex (· < ·) first second) :
    List.Lex (· < ·) (first.modifyHead (· + count)) (second.modifyHead (· + count)) := by
  cases before with
  | nil => exact .nil
  | cons rest => exact .cons rest
  | rel less => exact .rel (Nat.add_lt_add_right less count)

/-- Every number that leads to one of the parts is smaller than those that lead to further ones. -/
theorem append (first : LeadsTo (among? parts) exprs) (second : LeadsTo (among? further) others) :
    LeadsTo (among? (parts ++ further)) (exprs ++ others) := by
  obtain ⟨here, ordered, leads, found⟩ := first
  obtain ⟨there, orderedThere, leadsThere, foundThere⟩ := second
  refine ⟨here ++ there.map (List.modifyHead (· + parts.length)), ?_, fun address => ?_, ?_⟩
  · refine List.pairwise_append.mpr ⟨ordered, ?_, ?_⟩
    · exact List.pairwise_map.mpr (orderedThere.imp (lex_modifyHead parts.length))
    · intro address member later mapped
      obtain ⟨inner, listed, rfl⟩ := List.mem_map.mp mapped
      obtain ⟨expr, leadsTo⟩ := (leads address).mp member
      obtain ⟨other, leadsToOther⟩ := (leadsThere inner).mp listed
      cases address with
      | nil => cases leadsTo
      | cons number inwards =>
        cases inner with
        | nil => cases leadsToOther
        | cons later onwards =>
          obtain ⟨_, atNumber, _⟩ := Option.bind_eq_some_iff.mp leadsTo
          obtain ⟨inside, -⟩ := List.getElem?_eq_some_iff.mp atNumber
          exact .rel (Nat.lt_add_left later inside)
  · simp only [List.mem_append, List.mem_map]
    constructor
    · rintro (member | ⟨inner, listed, rfl⟩)
      · obtain ⟨expr, leadsTo⟩ := (leads address).mp member
        exact ⟨expr, Fragment.among?_append leadsTo⟩
      · obtain ⟨expr, leadsTo⟩ := (leadsThere inner).mp listed
        exact ⟨expr, (Fragment.among?_further parts further inner).trans leadsTo⟩
    · rintro ⟨expr, leadsTo⟩
      rcases Fragment.among?_cases leadsTo with leadsHere | ⟨inner, rfl, leadsOn⟩
      · exact .inl ((leads address).mpr ⟨expr, leadsHere⟩)
      · exact .inr ⟨inner, (leadsThere inner).mpr ⟨expr, leadsOn⟩, rfl⟩
  · have same : here.map (among? (parts ++ further)) = here.map (among? parts) := by
      refine List.map_congr_left fun address member => ?_
      obtain ⟨expr, leadsTo⟩ := (leads address).mp member
      rw [leadsTo, Fragment.among?_append leadsTo]
    simp [same, found, ← foundThere, Function.comp_def, Fragment.among?_further]

/-- A single part leads to what it does. -/
theorem single (leads : LeadsTo part.at? exprs) : LeadsTo (among? [part]) exprs := by
  obtain ⟨addresses, ordered, leads, found⟩ := leads
  refine ⟨addresses.map (0 :: ·), List.pairwise_map.mpr (ordered.imp .cons), fun address => ?_, ?_⟩
  · cases address with
    | nil => simp [among?]
    | cons number inwards =>
      cases number <;> simp [among?, leads]
  · simp [← found, Function.comp_def, among?]

/-- A first part leads to its nodes in front of those of the rest. -/
theorem cons (first : LeadsTo part.at? exprs) (rest : LeadsTo (among? parts) others) :
    LeadsTo (among? (part :: parts)) (exprs ++ others) :=
  first.single.append rest

/-- Parts lead to the nodes of each of them in order. -/
theorem map {α : Type} {part : α → Fragment} {exprs : α → List Expr}
    (each : ∀ item, LeadsTo (part item).at? (exprs item)) (items : List α) :
    LeadsTo (among? (items.map part)) (items.flatMap exprs) := by
  induction items with
  | nil => exact nil
  | cons item rest ih => exact (each item).cons ih

/-- The part itself is not among what is inside it. -/
theorem start_not_mem {addresses : List Address}
    (leads : ∀ address, address ∈ addresses ↔ ∃ expr, among? parts address = some (.expr expr)) :
    ∀ address ∈ addresses, address ≠ [] := by
  rintro _ member rfl
  obtain ⟨_, leadsTo⟩ := (leads []).mp member
  cases leadsTo

/-- A part that is no expression adds nothing to what is inside it. -/
theorem ofParts (other : ∀ expr, part ≠ .expr expr) (leads : LeadsTo (among? part.parts) exprs) :
    LeadsTo part.at? exprs := by
  obtain ⟨addresses, ordered, leads, found⟩ := leads
  have inside := start_not_mem leads
  refine ⟨addresses, ordered, fun address => ?_, ?_⟩
  · by_cases start : address = []
    · subst start
      have outside : [] ∉ addresses := fun member => inside [] member rfl
      simp [Fragment.at?, other, outside]
    · rw [leads, Fragment.at?_eq start]
  · rw [← found]
    exact List.map_congr_left fun address member => Fragment.at?_eq (inside address member)

/-- An expression comes before what is inside it. -/
theorem ofExpr (leads : LeadsTo (among? (Fragment.expr expr).parts) exprs) :
    LeadsTo (Fragment.expr expr).at? (expr :: exprs) := by
  obtain ⟨addresses, ordered, leads, found⟩ := leads
  have inside := start_not_mem leads
  refine ⟨[] :: addresses, List.pairwise_cons.mpr ⟨fun address member => ?_, ordered⟩,
    fun address => ?_, ?_⟩
  · obtain ⟨number, inwards, rfl⟩ := List.exists_cons_of_ne_nil (inside address member)
    exact .nil
  · by_cases start : address = []
    · subst start
      simp [Fragment.at?]
    · rw [List.mem_cons, or_iff_right start, leads, Fragment.at?_eq start]
  · rw [List.map_cons, List.map_cons, ← found]
    exact congrArg (some (Fragment.expr expr) :: ·)
      (List.map_congr_left fun address member => Fragment.at?_eq (inside address member))

end LeadsTo

/-! ## The expressions of a statement -/

/-- The parts of a path are its indices. -/
theorem Fragment.parts_path (reference : Reference Expr) : (Fragment.expr (.path reference)).parts =
    (reference.init.filterMap (·.index)).map .expr ++ reference.last.index.toList.map .expr := by
  cases stands : reference.last.index <;> simp [Fragment.parts, Reference.segments, stands]

mutual

/-- The addresses in an expression lead to its nodes, each once. -/
theorem Expr.leadsTo : ∀ expr : Expr, LeadsTo (Fragment.expr expr).at? expr.nodes
  | .path ⟨source, sourceType, init, ⟨label, declared, index, after⟩, type⟩ => by
    refine LeadsTo.ofExpr ?_
    rw [Fragment.parts_path]
    exact (segmentNodes_leadsTo init).append (indexNodes_leadsTo index)
  | .element _ _ | .literal _ | .parameter _ => LeadsTo.ofExpr LeadsTo.nil
  | .arithmetic op left right type =>
    LeadsTo.ofExpr (left.leadsTo.cons right.leadsTo.single)
  | .negate operand => LeadsTo.ofExpr operand.leadsTo.single
  | .call function distinct argument type => LeadsTo.ofExpr (indexNodes_leadsTo argument)

/-- The addresses in an index lead to its nodes. -/
theorem indexNodes_leadsTo : ∀ index : Option Expr,
    LeadsTo (among? (index.toList.map .expr)) (indexNodes index)
  | none => LeadsTo.nil
  | some index => index.leadsTo.single

/-- The addresses in a path lead to the nodes of its indices. -/
theorem segmentNodes_leadsTo : ∀ segments : List (Segment Expr),
    LeadsTo (among? ((segments.filterMap (·.index)).map .expr)) (segmentNodes segments)
  | [] => LeadsTo.nil
  | ⟨label, declared, index, after⟩ :: rest => by
    cases index with
    | none => exact segmentNodes_leadsTo rest
    | some index => exact index.leadsTo.cons (segmentNodes_leadsTo rest)

end

mutual

/-- The addresses in a predicate lead to its nodes, each once. -/
theorem Predicate.leadsTo : ∀ predicate : Predicate,
    LeadsTo (Fragment.condition predicate).at? predicate.nodes
  | .and left right | .or left right =>
    LeadsTo.ofParts (fun _ => nofun) (left.leadsTo.cons right.leadsTo.single)
  | .not operand => LeadsTo.ofParts (fun _ => nofun) operand.leadsTo.single
  | .compare op left right =>
    LeadsTo.ofParts (fun _ => nofun) (left.leadsTo.cons right.leadsTo.single)
  | .inList test values negated =>
    LeadsTo.ofParts (fun _ => nofun) (test.leadsTo.cons (LeadsTo.map Expr.leadsTo values))
  | .inQuery test query negated =>
    LeadsTo.ofParts (fun _ => nofun) (test.leadsTo.cons (queryNodes_leadsTo query).single)
  | .memberOf element collection negated =>
    LeadsTo.ofParts (fun _ => nofun) (element.leadsTo.cons (Expr.path collection).leadsTo.single)
  | .isNull operand negated => LeadsTo.ofParts (fun _ => nofun) operand.leadsTo.single
  | .like operand pattern negated =>
    LeadsTo.ofParts (fun _ => nofun) (operand.leadsTo.cons pattern.leadsTo.single)
  | .between operand low high negated => by
    rw [Predicate.nodes, List.append_assoc]
    exact LeadsTo.ofParts (fun _ => nofun)
      (operand.leadsTo.cons (low.leadsTo.cons high.leadsTo.single))

/-- The addresses in a query lead to its nodes. -/
theorem queryNodes_leadsTo : ∀ query : Query Predicate,
    LeadsTo (Fragment.query query).at? (queryNodes query)
  | ⟨spaces, _, selections, filter⟩ =>
    LeadsTo.ofParts (fun _ => nofun)
      (((LeadsTo.map (fun selection => selection.expr.leadsTo) selections).append
        (spaceNodes_leadsTo spaces)).append (filterNodes_leadsTo filter))

/-- The addresses in spaces lead to the nodes of their conditions. -/
theorem spaceNodes_leadsTo : ∀ spaces : List (FromSpace Predicate),
    LeadsTo (among? ((spaces.flatMap fun space => space.joins.filterMap (·.predicate)).map .condition))
      (spaceNodes spaces)
  | [] => LeadsTo.nil
  | ⟨root, joins⟩ :: rest => by
    rw [List.flatMap_cons, List.map_append]
    exact (joinNodes_leadsTo joins).append (spaceNodes_leadsTo rest)

/-- The addresses in joins lead to the nodes of their conditions. -/
theorem joinNodes_leadsTo : ∀ joins : List (Join Predicate),
    LeadsTo (among? ((joins.filterMap (·.predicate)).map .condition)) (joinNodes joins)
  | [] => LeadsTo.nil
  | ⟨_, _, _, none⟩ :: rest => joinNodes_leadsTo rest
  | ⟨_, _, _, some predicate⟩ :: rest =>
    predicate.leadsTo.cons (joinNodes_leadsTo rest)

/-- The addresses in a filter lead to its nodes. -/
theorem filterNodes_leadsTo : ∀ filter : Option Predicate,
    LeadsTo (among? (filter.toList.map .condition)) (filterNodes filter)
  | none => LeadsTo.nil
  | some predicate => predicate.leadsTo.single

end

/-- The expressions of a statement are those that its addresses lead to. -/
theorem Statement.leadsTo : ∀ statement : Statement,
    LeadsTo (Fragment.statement statement).at? statement.nodes
  | .select query order =>
    LeadsTo.ofParts (fun _ => nofun)
      ((queryNodes_leadsTo query).cons (LeadsTo.map (fun key => key.expr.leadsTo) order))
  | .update _ assignments filter =>
    LeadsTo.ofParts (fun _ => nofun)
      ((LeadsTo.map (fun assignment => assignment.value.leadsTo) assignments).append
        (filterNodes_leadsTo filter))
  | .delete _ filter => LeadsTo.ofParts (fun _ => nofun) (filterNodes_leadsTo filter)

end ObjectQuery.Resolved
