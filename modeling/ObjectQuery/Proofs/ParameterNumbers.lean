import ObjectQuery.Proofs.Resolution.Numbered
import ObjectQuery.Proofs.Resolved.Filled
import ObjectQuery.Proofs.Supplied
/-!
# Numbers of question marks

A parameter may be a question mark alone. Such parameters are numbered, and three walks have to agree
about their order: the one that reads the text, the one that resolves the tree and counts, and the one
that lists the expressions of the result. All three follow the text. So the first question mark is the
first positional parameter that is met, and has the number one, and so on to the last. A text that also
gives positions to parameters has no meaning.
-/
namespace ObjectQuery

/-- The position of a parameter that has one. -/
def ParameterKind.position? : ParameterKind → Option Nat
  | .named _ => none
  | .positional position => some position

/-- Where the question marks of a text stand. -/
def Lexeme.questions (lexemes : List Lexeme) : List Nat :=
  lexemes.filterMap fun lexeme =>
    if lexeme.token = .mark .question then some lexeme.span.start else none

/-! ## Positions of parameters -/

namespace Asked

variable {asked : List (Spanned Asked)}

/-- The number of parameters without a position. -/
def bareCount (asked : List (Spanned Asked)) : Nat := asked.countP (·.value.isBare)

/-- Where the parameters with a question mark begin. -/
def marked (asked : List (Spanned Asked)) : List Nat :=
  asked.filterMap fun parameter => match parameter.value with
    | .named _ => none
    | .positional _ => some parameter.span.start

/-- The parameters that are counted have consecutive positions. -/
theorem positions_kindsFrom {last : Nat}
    (counted : ∀ parameter ∈ asked, parameter.value.isGiven = false) :
    (kindsFrom last asked).filterMap ParameterKind.position? =
      List.range' (last + 1) (bareCount asked) := by
  fun_induction kindsFrom last asked with
  | case1 => rfl
  | case2 last name span rest inductionHypothesis =>
    exact inductionHypothesis (List.forall_mem_cons.mp counted).2
  | case3 last position span rest inductionHypothesis =>
    have given := (List.forall_mem_cons.mp counted).1
    cases given
  | case4 last span rest inductionHypothesis =>
    have others := inductionHypothesis (List.forall_mem_cons.mp counted).2
    have oneMore : bareCount (⟨.positional none, span⟩ :: rest) = bareCount rest + 1 :=
      List.countP_cons_of_pos rfl
    rw [List.filterMap_cons, others, oneMore, List.range'_succ]
    rfl

/-- Each question mark has the position that is its number among the question marks. -/
theorem places_kindsFrom {last : Nat}
    (counted : ∀ parameter ∈ asked, parameter.value.isGiven = false) :
    ((asked.zip (kindsFrom last asked)).filterMap fun (parameter, kind) =>
      kind.position?.map fun position => (parameter.span.start, position)) =
      (marked asked).zipIdx (last + 1) := by
  fun_induction kindsFrom last asked with
  | case1 => rfl
  | case2 last name span rest inductionHypothesis =>
    exact inductionHypothesis (List.forall_mem_cons.mp counted).2
  | case3 last position span rest inductionHypothesis =>
    have given := (List.forall_mem_cons.mp counted).1
    cases given
  | case4 last span rest inductionHypothesis =>
    have others := inductionHypothesis (List.forall_mem_cons.mp counted).2
    rw [List.zip_cons_cons, List.filterMap_cons, others]
    rfl

/-- The marked parameters are as many as the bare ones. -/
theorem length_marked (counted : ∀ parameter ∈ asked, parameter.value.isGiven = false) :
    (marked asked).length = bareCount asked := by
  rw [marked, List.length_filterMap_eq_countP]
  apply List.countP_congr
  intro parameter listed
  obtain ⟨value, span⟩ := parameter
  have ungiven := counted _ listed
  rcases value with name | _ | position
  · rfl
  · rfl
  · cases ungiven

/-- If some parameter has no position, none has one unless both are there. -/
theorem ungiven_of_not_mixed (unmixed : ¬ Mixed asked) (bare : bareCount asked ≠ 0) :
    ∀ parameter ∈ asked, parameter.value.isGiven = false := by
  intro parameter listed
  rw [Bool.eq_false_iff]
  intro given
  have some := List.countP_pos_iff.mp (Nat.pos_of_ne_zero bare)
  exact unmixed ⟨some, parameter, listed, given⟩

end Asked

/-- The question marks of a text are those of the parameters in its tree. -/
theorem Grammar.questions_of_shows {lexemes : List Lexeme} {asked : List (Spanned Asked)}
    (shows : Grammar.Shows lexemes asked) : Lexeme.questions lexemes = Asked.marked asked := by
  let start? : Nat × Mark → Option Nat := fun (start, sign) =>
    if sign = .question then some start else none
  have inText : (Grammar.signs lexemes).filterMap start? = Lexeme.questions lexemes := by
    rw [Grammar.signs, Lexeme.questions, List.filterMap_filterMap]
    apply List.filterMap_congr
    intro lexeme _
    unfold Grammar.sign?
    split
    · rename_i question
      rw [question]
      rfl
    · rename_i colon
      rw [colon]
      rfl
    · rename_i other _
      rw [if_neg other]
      rfl
  have inTree : (asked.map fun parameter => (parameter.span.start, parameter.value.sign)).filterMap
      start? = Asked.marked asked := by
    rw [List.filterMap_map]
    apply List.filterMap_congr
    rintro ⟨value, span⟩ _
    cases value <;> rfl
  rw [← inText, ← inTree, show Grammar.signs lexemes = _ from shows]

/-! ## From the text to the numbers -/

namespace Resolved

/-- If what is assigned has no index, all parameters of a statement are listed. -/
theorem Statement.allKinds_eq {statement : Statement}
    (plain : ∀ assignment ∈ statement.assignments,
      assignment.target.segments = [assignment.target.last] ∧ assignment.target.last.index = none) :
    statement.allKinds = statement.occurrences.map (·.kind) := by
  cases statement with
  | update target assignments filter =>
    have silent : ∀ assignment ∈ assignments, kindsIn (Expr.path assignment.target).nodes = [] := by
      intro assignment listed
      obtain ⟨segments, indexless⟩ := plain assignment listed
      apply List.eq_nil_of_length_eq_zero
      exact (countOf_path assignment.target).trans (segments ▸ countOf_segment indexless)
    have values : assignments.flatMap (fun assignment =>
        kindsIn (Expr.path assignment.target).nodes ++ kindsIn assignment.value.nodes) =
          assignments.flatMap fun assignment => kindsIn assignment.value.nodes := by
      apply List.flatMap_congr
      intro assignment listed
      rw [silent assignment listed, List.nil_append]
    rw [allKinds, values, ← kindsIn_flatMap, ← kindsIn_append]
    rfl
  | _ => rfl

/-- Typing parameters keeps them in their order. -/
theorem Statement.kinds_infer (statement : Statement) :
    statement.infer.occurrences.map (·.kind) = statement.occurrences.map (·.kind) := by
  have locally := statement.fills_inferLocally.occurrences
  rw [occurrences_infer, List.map_map]
  exact Resolution.map_of_forall₂ (locally.imp fun _ _ filled => filled.kind)

/-- The parameters that are met in a statement are those of the text, in the order of the text. -/
structure Statement.NumberedAs (statement : Statement) (lexemes : List Lexeme)
    (tree : Grammar.Statement) : Prop where
  /-- Each parameter of the tree begins with a sign of the text, in the order of the text. -/
  shown : Grammar.Shows lexemes tree.asked
  /-- The parameters that are met are those of the tree, named ones by their names. -/
  met : statement.occurrences.map (·.kind) = Asked.kindsFrom 0 tree.asked
  /-- Positions are not both counted and given. -/
  unmixed : ¬ Asked.Mixed tree.asked
  /-- If parameters are counted, positions are met from one to their number, which is that of the
  question marks. -/
  counted : Asked.bareCount tree.asked ≠ 0 →
    statement.occurrences.filterMap (·.kind.position?) = List.range' 1 (Asked.bareCount tree.asked) ∧
      (Lexeme.questions lexemes).length = Asked.bareCount tree.asked
  /-- And each is met with the number of its question mark. -/
  placed : Asked.bareCount tree.asked ≠ 0 →
    ((tree.asked.zip statement.occurrences).filterMap fun (parameter, found) =>
      found.kind.position?.map fun position => (parameter.span.start, position)) =
        (Lexeme.questions lexemes).zipIdx 1
  /-- A counter of 32 bits is wide enough for the positions if it is for the number of question
  marks. -/
  fits : Asked.bareCount tree.asked ≠ 0 → (Lexeme.questions lexemes).length < 2 ^ 32 →
    ∀ position ∈ statement.occurrences.filterMap (·.kind.position?), position < 2 ^ 32

/-- What three walks agree about, put together. -/
theorem Statement.numberedAs {statement : Statement} {lexemes : List Lexeme}
    {tree : Grammar.Statement} (shown : Grammar.Shows lexemes tree.asked)
    (met : statement.occurrences.map (·.kind) = Asked.kindsFrom 0 tree.asked)
    (unmixed : ¬ Asked.Mixed tree.asked) : statement.NumberedAs lexemes tree := by
  have questions := Grammar.questions_of_shows shown
  have positions (bare : Asked.bareCount tree.asked ≠ 0) :
      statement.occurrences.filterMap (·.kind.position?) =
        List.range' 1 (Asked.bareCount tree.asked) := by
    rw [← Asked.positions_kindsFrom (Asked.ungiven_of_not_mixed unmixed bare), ← met,
      List.filterMap_map]
    rfl
  have number (bare : Asked.bareCount tree.asked ≠ 0) :
      (Lexeme.questions lexemes).length = Asked.bareCount tree.asked := by
    rw [questions, Asked.length_marked (Asked.ungiven_of_not_mixed unmixed bare)]
  refine ⟨shown, met, unmixed, fun bare => ⟨positions bare, number bare⟩, fun bare => ?_,
    fun bare few position listed => ?_⟩
  · rw [questions, ← Asked.places_kindsFrom (Asked.ungiven_of_not_mixed unmixed bare), ← met,
      List.zip_map_right, List.filterMap_map]
    rfl
  · have last := (List.mem_range'_1.mp (positions bare ▸ listed)).2
    have many := number bare
    omega

end Resolved

variable {parser : SqlParser} {definitions : List EntityDefinition} {model : Model} {source : String}

/-- The parameters of what a text means have been made of those of the text, one after the other. -/
theorem takes_of_interpret {statement : Resolved.Statement}
    (accepted : Model.build parser definitions = .ok model)
    (interpreted : interpret model.catalog source = .ok statement) :
    ∃ tree after, parse source = .ok tree ∧
      Numbering.unused.Takes tree.asked (statement.occurrences.map (·.kind)) after := by
  obtain ⟨tree, index, resolved, after, parsed, registered, ran, rfl⟩ := interpret_ok interpreted
  have plain := (Sources.ofStatement_admits registered).1
  have fills := Grammar.parse_fillsLists (mapError_ok parsed)
  have within := (resolved_of_parsed parsed registered ran).1
  have basic := (Resolution.statement_counts _ tree plain fills ran).2.2
  have holds : ∀ node ∈ resolved.sources, ∀ label type,
      node.entity.attribute? label = some type → type.HoldsEntities := by
    intro node listed label type typed
    obtain ⟨name, found⟩ := known_of_parsed parsed registered ran node listed
    exact Model.holdsEntities_of_resolve? accepted found typed
  -- Targets of assignments are not listed, but have no parameters either.
  have all : resolved.allKinds = resolved.occurrences.map (·.kind) := by
    apply Resolved.Statement.allKinds_eq
    intro assignment listed
    exact Resolved.Statement.target_isPlain holds within basic listed
  obtain ⟨kinds, same, run⟩ := Resolution.statement_numbers _ tree plain ran
  rw [List.nil_append, all] at same
  rw [resolved.kinds_infer, same]
  exact ⟨tree, after, parsed, run⟩

/-- Question marks are numbered in the order of the text. What a text means has the parameters of the
text, and if there are question marks alone, the positions that are met are their numbers, which fit
into 32 bits for fewer than 2 ^ 32 question marks. A text with positions for some of its question marks
and not for others means nothing. -/
theorem questions_are_numbered (accepted : Model.build parser definitions = .ok model) :
    (∀ statement, interpret model.catalog source = .ok statement →
      ∃ lexemes tree, Lexeme.read source = .ok lexemes ∧ parse source = .ok tree ∧
        statement.NumberedAs lexemes tree) ∧
    ∀ tree, parse source = .ok tree → Asked.Mixed tree.asked →
      ∀ statement, interpret model.catalog source ≠ .ok statement := by
  constructor
  · intro statement interpreted
    obtain ⟨tree, after, parsed, run⟩ := takes_of_interpret accepted interpreted
    obtain ⟨lexemes, read, shown⟩ := Grammar.parse_shows (mapError_ok parsed)
    exact ⟨lexemes, tree, read, parsed,
      Resolved.Statement.numberedAs shown run.kinds_eq run.not_mixed⟩
  · intro tree parsed mixed statement interpreted
    obtain ⟨same, after, parsedToo, run⟩ := takes_of_interpret accepted interpreted
    obtain rfl := Except.ok.inj (parsed.symm.trans parsedToo)
    exact run.not_mixed mixed

/-- Whether the definitions make a model in which the text means a statement with parameters of these
kinds. -/
def meets (definitions : List EntityDefinition) (source : String) (kinds : List ParameterKind) : Bool :=
  match Model.ofDefinitions definitions with
  | .error _ => false
  | .ok model =>
    match interpret model.catalog source with
    | .error _ => false
    | .ok statement => statement.occurrences.map (·.kind) = kinds

/-- The check on a text finds the kinds of its parameters. -/
theorem exists_of_meets {kinds : List ParameterKind} (passed : meets definitions source kinds = true) :
    ∃ model statement, Model.ofDefinitions definitions = .ok model ∧
      interpret model.catalog source = .ok statement ∧ statement.occurrences.map (·.kind) = kinds := by
  unfold meets at passed
  split at passed
  · cases passed
  · rename_i model accepted
    split at passed
    · cases passed
    · rename_i statement interpreted
      exact ⟨model, statement, accepted, interpreted, of_decide_eq_true passed⟩

/-- Whether the text can be read and gives positions to some of its question marks. -/
def mixesPositions (source : String) : Bool :=
  match parse source with
  | .error _ => false
  | .ok tree => Asked.Mixed tree.asked

/-- The check on a text finds both forms of parameters in it. -/
theorem exists_of_mixesPositions (passed : mixesPositions source = true) :
    ∃ tree, parse source = .ok tree ∧ Asked.Mixed tree.asked := by
  unfold mixesPositions at passed
  split at passed
  · cases passed
  · rename_i tree parsed
    exact ⟨tree, parsed, of_decide_eq_true passed⟩

/-- A text with question marks in the select list, in the condition of a join, in a query inside the
condition and in a sort key, and with a name among them. -/
def officesAsked : String :=
  "select p.offices[?].city from Party p join p.home h on h.city = ? or h.city = :city " ++
  "where p.name in (select a.city from Address a where a.id = ?) order by p.offices[?].city"

/-- The question marks count up, and a text with both forms of parameters is refused. -/
theorem questions_are_numbered_officesAsked : ∃ model statement tree,
    Model.ofDefinitions parties = .ok model ∧
    interpret model.catalog officesAsked = .ok statement ∧
    statement.occurrences.map (·.kind) =
      [.positional 1, .positional 2, .named "city", .positional 3, .positional 4] ∧
    (∃ lexemes tree, Lexeme.read officesAsked = .ok lexemes ∧ parse officesAsked = .ok tree ∧
      statement.NumberedAs lexemes tree) ∧
    parse "from Party p where p.name in (?, ?2)" = .ok tree ∧ Asked.Mixed tree.asked ∧
    ∀ statement, interpret model.catalog "from Party p where p.name in (?, ?2)" ≠ .ok statement := by
  have numbered : meets parties officesAsked
      [.positional 1, .positional 2, .named "city", .positional 3, .positional 4] = true := by
    decide +kernel
  have mixes : mixesPositions "from Party p where p.name in (?, ?2)" = true := by decide +kernel
  obtain ⟨model, statement, accepted, interpreted, kinds⟩ := exists_of_meets numbered
  obtain ⟨tree, parsed, mixed⟩ := exists_of_mixesPositions mixes
  exact ⟨model, statement, tree, accepted, interpreted, kinds,
    (questions_are_numbered accepted).1 statement interpreted, parsed, mixed,
    (questions_are_numbered accepted).2 tree parsed mixed⟩

end ObjectQuery
