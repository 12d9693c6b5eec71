import ObjectQuery.Proofs.Grammar.Mirrors
/-!
# Statements with other names are read in step

Every reader of the language reads from lexemes that answer each other the same tree, but for the names
and the places. Each lemma follows the reader it is about, step by step.
-/
namespace ObjectQuery.Grammar

open Reader Naming

variable {α : Type}

/-- The names are all that it takes to make the second value of the first. -/
abbrev Respelling (respell : α → Naming α) (names : List String) (value given : α) : Prop :=
  Consumes (respell value) names given

/-- The reader goes in step with itself. -/
abbrev InStep (shift : Nat → Nat) (reader : Reader α) (tells : List String → α → α → Prop) : Prop :=
  Mirrors shift reader reader tells

/-- The names are all that it takes to make the second value of the first where the places move. -/
abbrev Respells (shift : Nat → Nat) (respell : (Span → Span) → α → Naming α) :
    List String → α → α → Prop :=
  Respelling (respell (Span.moved shift))

/-- Items that are respelled one by one use up the names one by one. -/
theorem each_consumes {respell : α → Naming α} {names : List String} {values answers : List α}
    (told : Each (Respelling respell) names values answers) :
    Consumes (Naming.each (values.map respell)) names answers := by
  induction told with
  | nil => exact .pure []
  | cons told _ inductionHypothesis => exact told.bind inductionHypothesis.map

/-- What may be left out uses up the names of what is there. -/
theorem perhaps_consumes {respell : α → Naming α} {names : List String} {value answer : Option α}
    (told : Perhaps (Respelling respell) names value answer) :
    Consumes (Naming.optional (value.map respell)) names answer := by
  cases told with
  | none => exact .pure none
  | some told => exact told.map

variable {shift : Nat → Nat} (origin : shift 0 = 0)

/-- What has been read is put together from the left. -/
theorem foldl_consumes {β : Type} {respell : α → Naming α} {tells : List String → β → β → Prop}
    {join : α → β → α} {items answers : List β} {more : List String}
    (told : Each tells more items answers)
    (step : ∀ {value given : α} {item answer : β} {names more : List String},
      Consumes (respell value) names given → tells more item answer →
        Consumes (respell (join value item)) (names ++ more) (join given answer))
    {value given : α} {names : List String} (taken : Consumes (respell value) names given) :
    Consumes (respell (items.foldl join value)) (names ++ more) (answers.foldl join given) := by
  induction told generalizing value given names with
  | nil => rwa [List.append_nil]
  | cons told _ inductionHypothesis =>
    rw [← List.append_assoc]
    exact inductionHypothesis (step taken told)

include origin in
/-- An operand is read with any number of signs before it. -/
theorem signs_inStep {respell : α → Naming α} {operand : Reader α} {sign : Token}
    {wrap : Unit × Span → α → α} (nameless : sign.name? = none)
    (mirrors : InStep shift operand (Respelling respell))
    (wraps : ∀ {value answer : α} {names : List String} (place : Span),
      Consumes (respell value) names answer →
        Consumes (respell (wrap ((), place) value)) names (wrap ((), place.moved shift) answer)) :
    InStep shift (do
        let signs ← many (spanned (token sign))
        let operand ← operand
        return signs.foldr wrap operand) (Respelling respell) := by
  refine .bind (.many (.spanned origin (.token nameless))) fun signs answers none told => ?_
  refine .map mirrors fun value answer names taken => ?_
  induction told with
  | nil => exact taken
  | @cons first others found given signs answers told _ inductionHypothesis =>
    obtain ⟨⟨rfl, _⟩, moved⟩ := told
    obtain ⟨_, place⟩ := found
    obtain ⟨_, placeToo⟩ := given
    obtain rfl : placeToo = place.moved shift := moved
    exact wraps place inductionHypothesis

include origin in
/-- A name is replaced by the next one. -/
theorem name_inStep : InStep shift name (Respells shift respelledName) := by
  refine .placed origin (Mirrors.identifier.weaken fun names value given told span => ?_)
  rw [told.1]
  exact (Consumes.next given).map

/-! ## Expressions -/

section Expressions

variable {inner : Reader Expr}
  (mirrors : InStep shift inner (Respells shift Expr.respelled))

include origin mirrors in
/-- A part of a path is respelled in step. -/
theorem part_inStep : InStep shift (path.part inner) (Respells shift PathPart.respelled) := by
  refine .bind (name_inStep origin) fun name given names named => ?_
  refine .map (.optional (.between _ _ mirrors)) fun index answer more told => ?_
  exact named.bind (perhaps_consumes told).map

include origin mirrors in
/-- A path is respelled in step. -/
theorem path_inStep : InStep shift (path inner) (Respells shift respelledPath) := by
  have parts := part_inStep origin mirrors
  refine .placed origin (.bind parts fun first given names begun => ?_)
  refine .map (.many (.behind rfl parts)) fun rest answers more told span => ?_
  rw [Respells, Respelling, respelledPath_eq]
  exact begun.bind (each_consumes told).map

include origin in
/-- A literal has no names. -/
theorem literal_inStep : InStep shift literal (Respells shift Expr.respelled) := by
  refine .placed origin ((Mirrors.item fun _ => rfl).weaken fun names value given told span => ?_)
  obtain ⟨rfl, rfl⟩ := told
  exact .pure _

include origin in
/-- A named parameter is respelled in step. -/
theorem namedParameter_inStep : InStep shift namedParameter (Respells shift Expr.respelled) := by
  refine .placed origin (.behind rfl (Mirrors.identifier.weaken fun names value given told span => ?_))
  rw [told.1]
  exact (Consumes.next given).map

/-- The position of a parameter has no names. -/
theorem ordinal_inStep : InStep shift ordinal Unnamed := by
  intro input other parallel
  cases parallel with
  | nil => exact .refused rfl rfl
  | @cons lexeme answer rest left answers further =>
    obtain ⟨token, text, span⟩ := lexeme
    obtain ⟨tokenToo, textToo, spanToo⟩ := answer
    rcases answers.token with ⟨same, unnamed⟩ | ⟨name, given, named, _, namedToo⟩
    · obtain rfl : tokenToo = token := same
      cases tokenToo with
      | number digits =>
        cases denoted : positionOf digits.toList with
        | error reason =>
          have refuses : ∀ text span rest, Refuses ordinal (⟨.number digits, text, span⟩ :: rest) := by
            simp [Refuses, ordinal, denoted]
          exact .refused (refuses _ _ _) (refuses _ _ _)
        | ok position =>
          have reads : ∀ text span rest,
              Reads ordinal (⟨.number digits, text, span⟩ :: rest) position rest := by
            simp [Reads, ordinal, denoted]
          exact .read (.cons answers .nil) further rfl rfl (reads _ _ _) (reads _ _ _) ⟨rfl, rfl⟩
      | _ => exact .refused rfl rfl
    · obtain rfl : token = .identifier name := named
      obtain rfl : tokenToo = .identifier given := namedToo
      exact .refused rfl rfl

include origin in
/-- A positional parameter has no names. -/
theorem positionalParameter_inStep : InStep shift positionalParameter
      (Respells shift Expr.respelled) := by
  refine .placed origin (.behind rfl ((Mirrors.optional ordinal_inStep).weaken
    fun names value given told span => ?_))
  cases told with
  | none => exact .pure _
  | some told =>
    obtain ⟨rfl, rfl⟩ := told
    exact .pure _

include origin mirrors in
/-- A call is respelled in step. -/
theorem call_inStep : InStep shift (call inner) (Respells shift Expr.respelled) := by
  have star : InStep shift (do mark .star; pure (none : Option Expr))
      (Perhaps (Respells shift Expr.respelled)) := by
    refine .map (.token rfl) fun _ _ names told => ?_
    rw [told.1]
    exact .none
  have argument := star.orElse (.map mirrors fun _ _ _ told => .some told)
  refine .placed origin (.bind (name_inStep origin) fun name given names named => .behind rfl ?_)
  refine .bind (.flag _) fun distinct same none unnamed => ?_
  obtain ⟨rfl, rfl⟩ := unnamed
  refine .bind argument fun argument answer more told => .map (.token rfl) fun _ _ ending closed span => ?_
  obtain ⟨rfl, _⟩ := closed
  rw [List.nil_append, List.append_nil]
  have taken := perhaps_consumes told
  rw [← respelledOptional_eq] at taken
  exact named.bind taken.map

include origin mirrors in
/-- An atom is respelled in step. -/
theorem atom_inStep : InStep shift (atom inner) (Respells shift Expr.respelled) := by
  have route : InStep shift (do let path ← path inner; pure (Expr.path path))
      (Respells shift Expr.respelled) :=
    .map (path_inStep origin mirrors) fun _ _ _ told => told.map
  exact .orElse (literal_inStep origin) (.orElse (namedParameter_inStep origin)
    (.orElse (positionalParameter_inStep origin) (.orElse (call_inStep origin mirrors)
      (.orElse route (.between _ _ mirrors)))))

/-- The place of a respelled expression is the moved place. -/
theorem span_of_consumes {expr answer : Expr} {names : List String}
    (told : Respells shift Expr.respelled names expr answer) :
    answer.span = expr.span.moved shift := by
  have moved := Expr.span_respelled (Span.moved shift) expr (names ++ [])
  rwa [told []] at moved

include origin mirrors in
/-- An operand with signs in front is respelled in step. -/
theorem unary_inStep : InStep shift (unary inner) (Respells shift Expr.respelled) := by
  refine signs_inStep origin rfl (atom_inStep origin mirrors) fun place taken => ?_
  dsimp only
  rw [span_of_consumes taken]
  exact taken.map

/-- A row of operands is respelled in step if no operator is a name. -/
theorem leftAssociative_inStep {op? : Token → Option ArithmeticOp} {operand : Reader Expr}
    (nameless : ∀ name, op? (.identifier name) = none)
    (mirrors : InStep shift operand (Respells shift Expr.respelled)) :
    InStep shift (leftAssociative (item op?) operand) (Respells shift Expr.respelled) := by
  have further : InStep shift (do let op ← item op?; let right ← operand; pure (op, right))
      fun names found given =>
        given.1 = found.1 ∧ Consumes (found.2.respelled (Span.moved shift)) names given.2 := by
    refine .bind (.item nameless) fun op same none told => .map mirrors fun right answer names taken => ?_
    obtain ⟨rfl, rfl⟩ := told
    exact ⟨rfl, taken⟩
  refine .bind mirrors fun first given names taken => .map (.many further) fun rest answers more told => ?_
  refine foldl_consumes told ?_ taken
  rintro left leftToo ⟨op, right⟩ ⟨opToo, rightToo⟩ names more taken ⟨rfl, takenToo⟩
  dsimp only
  rw [operation, operation, span_of_consumes taken, span_of_consumes takenToo]
  exact taken.bind takenToo.map

include origin mirrors in
/-- A sum is respelled in step. -/
theorem sum_inStep : InStep shift (sum inner) (Respells shift Expr.respelled) :=
  leftAssociative_inStep (fun _ => rfl)
    (leftAssociative_inStep (fun _ => rfl) (unary_inStep origin mirrors))

end Expressions

include origin in
/-- Every expression is respelled in step. -/
theorem expression_inStep : InStep shift expression (Respells shift Expr.respelled) :=
  .nested fun _ mirrors => sum_inStep origin mirrors

/-! ## Clauses without conditions -/

/-- A keyword is no name. -/
theorem keyword_inStep (word : Keyword) : InStep shift (keyword word) Unnamed := .token rfl

include origin in
/-- A label is respelled in step. -/
theorem label_inStep : InStep shift (Reader.optional label) (Respells shift respelledLabel) := by
  have spoken : InStep shift label (Respells shift respelledName) := by
    refine .bind (.optional (.token rfl)) fun mark same names told => ?_
    cases told with
    | none => exact name_inStep origin
    | some told =>
      rw [told.1]
      exact name_inStep origin
  exact spoken.optional.weaken fun _ _ _ told => perhaps_consumes told

/-- The parts of an entity are counted in its name. -/
theorem length_entityNames {parts : List String} (some : parts ≠ [])
    (dotless : ∀ part ∈ parts, '.' ∉ part.toList) :
    (entityNames (".".intercalate parts)).length = parts.length := by
  have split : (List.intercalate ['.'] (parts.map String.toList)).splitOn '.' = parts.map String.toList :=
    List.splitOn_intercalate '.' (by simpa using dotless) (by simpa using some)
  have dot : ".".toList = ['.'] := rfl
  rw [entityNames, List.length_map, String.toList_intercalate, dot, split, List.length_map]

include origin in
/-- The root of an item is respelled in step. -/
theorem rootRef_inStep : InStep shift rootRef (Respells shift RootRef.respelled) := by
  have parts : InStep shift
      (do let first ← identifier; let rest ← many (do mark .dot; identifier); pure (first :: rest))
      fun names value given => names = given ∧ given.length = value.length ∧ value ≠ [] ∧
        ∀ part ∈ value, '.' ∉ part.toList := by
    refine .bind .identifier fun first given names named => ?_
    refine .map (.many (.behind rfl .identifier)) fun rest answers more told => ?_
    obtain ⟨rfl, dotless⟩ := named
    suffices further : more = answers ∧ answers.length = rest.length ∧
        ∀ part ∈ rest, '.' ∉ part.toList by
      obtain ⟨rfl, counted, dotlessToo⟩ := further
      exact ⟨rfl, congrArg (· + 1) counted, List.cons_ne_nil _ _,
        List.forall_mem_cons.mpr ⟨dotless, dotlessToo⟩⟩
    induction told with
    | nil => exact ⟨rfl, rfl, by simp⟩
    | cons told _ inductionHypothesis =>
      obtain ⟨rfl, dotless⟩ := told
      obtain ⟨rfl, counted, dotlessToo⟩ := inductionHypothesis
      exact ⟨rfl, congrArg (· + 1) counted, List.forall_mem_cons.mpr ⟨dotless, dotlessToo⟩⟩
  refine .placed origin (.bind (.spanned origin parts) ?_)
  rintro ⟨value, place⟩ ⟨given, placeToo⟩ names ⟨⟨rfl, counted, some, dotless⟩, moved⟩
  refine .map (label_inStep origin) fun label answer more labelled span => ?_
  obtain rfl : placeToo = place.moved shift := moved
  have several := Consumes.several (counted.trans (length_entityNames some dotless).symm)
  exact several.bind labelled.map

include origin in
/-- An item of a select list is respelled in step. -/
theorem selection_inStep : InStep shift selection (Respells shift Selection.respelled) := by
  refine .placed origin (.bind (expression_inStep origin) fun expr given names selected => ?_)
  refine .map (label_inStep origin) fun label answer more labelled span => ?_
  exact selected.bind labelled.map

include origin in
/-- A select list is respelled in step. -/
theorem selectClause_inStep :
    InStep shift selectClause (Respells shift SelectClause.respelled) := by
  refine .placed origin (.behind rfl (.bind (.flag _) fun distinct same none unnamed => ?_))
  obtain ⟨rfl, rfl⟩ := unnamed
  refine .map (.commaSeparated (selection_inStep origin)) fun selections answers names told span => ?_
  exact (each_consumes told).map

/-- The words for the kind of a join are no names. -/
theorem joinKind_inStep : InStep shift joinKind Unnamed := by
  have single : ∀ (word : Keyword) (kind : JoinKind), InStep shift (do keyword word; pure kind) Unnamed :=
    fun word kind => .map (keyword_inStep word) fun _ _ _ told => ⟨told.1, rfl⟩
  have leftOuter : InStep shift
      (do keyword .left; let _ ← Reader.optional (keyword .outer); pure JoinKind.leftOuter) Unnamed := by
    refine .behind rfl (.map (.optional (keyword_inStep .outer)) fun _ _ names told => ?_)
    cases told with
    | none => exact ⟨rfl, rfl⟩
    | some told => exact ⟨told.1, rfl⟩
  have spoken := ((single .inner .inner).orElse (leftOuter.orElse (single .cross .cross))).optional
  refine .map spoken fun kind answer names told => ?_
  cases told with
  | none => exact ⟨rfl, rfl⟩
  | some told =>
    obtain ⟨rfl, rfl⟩ := told
    exact ⟨rfl, rfl⟩

/-! ## Conditions -/

section Conditions

variable {inner : Reader Predicate}
  (mirrors : InStep shift inner (Respells shift Predicate.respelled))

include origin mirrors in
/-- A join is respelled in step. -/
theorem join_inStep : InStep shift (join inner) (Respells shift Join.respelled) := by
  have introduced : InStep shift (do keyword .withKw <|> keyword .onKw; inner)
      (Respells shift Predicate.respelled) := by
    refine .bind ((keyword_inStep .withKw).orElse (keyword_inStep .onKw)) fun _ _ names told => ?_
    rw [told.1]
    exact mirrors
  refine .placed origin (.bind joinKind_inStep fun kind same none unnamed => ?_)
  obtain ⟨rfl, rfl⟩ := unnamed
  refine .behind rfl (.bind (.flag _) fun fetch same none unnamed => ?_)
  obtain ⟨rfl, rfl⟩ := unnamed
  refine .bind (path_inStep origin (expression_inStep origin)) fun target given names followed => ?_
  refine .bind (label_inStep origin) fun label answer more labelled => ?_
  refine .map (.optional introduced) fun condition holds further told span => ?_
  exact followed.bind (labelled.bind (perhaps_consumes told).map)

include origin mirrors in
/-- An item of a from-clause is respelled in step. -/
theorem fromSpace_inStep : InStep shift (fromSpace inner) (Respells shift FromSpace.respelled) := by
  refine .placed origin (.bind (rootRef_inStep origin) fun root given names begun => ?_)
  refine .map (.many (join_inStep origin mirrors)) fun joins answers more told span => ?_
  exact begun.bind (each_consumes told).map

include origin mirrors in
/-- A from-clause is respelled in step, with its place moved. -/
theorem fromClause_inStep : InStep shift (fromClause inner)
    fun names clause answer => answer.span = clause.span.moved shift ∧
      Consumes (respelledSpaces (Span.moved shift) clause.spaces) names answer.spaces := by
  refine .placed origin (.behind rfl ((Mirrors.commaSeparated (fromSpace_inStep origin mirrors)).weaken
    fun names spaces answers told span => ⟨rfl, ?_⟩))
  rw [respelledSpaces_eq]
  exact each_consumes told

include mirrors in
/-- A condition that may be left out is respelled in step. -/
theorem condition_inStep :
    InStep shift (Reader.optional (condition inner)) (Respells shift respelledFilter) := by
  refine (Mirrors.optional (.behind rfl mirrors)).weaken fun names filter answer told => ?_
  rw [Respells, Respelling, respelledFilter_eq]
  exact perhaps_consumes told

include origin mirrors in
/-- A query is respelled in step. -/
theorem query_inStep : InStep shift (query inner) (Respells shift respelledQuery) := by
  refine .placed origin (.bind (.optional (selectClause_inStep origin))
    fun select given names selected => ?_)
  refine .bind (fromClause_inStep origin mirrors) fun sources answer more told => ?_
  refine .map (condition_inStep mirrors) fun filter holds further filtered span => ?_
  obtain ⟨spaces, place⟩ := sources
  obtain ⟨spacesToo, placeToo⟩ := answer
  obtain ⟨rfl, listed⟩ := told
  exact (perhaps_consumes selected).bind (listed.bind filtered.map)

/-- What the names make of a tail depends on the expression before it as on the names before its own. -/
def TellsTail (shift : Nat → Nat) (names : List String) (tail answer : Tail) : Prop :=
  ∀ {left given : Expr} {before : List String} (span : Span),
    Consumes (left.respelled (Span.moved shift)) before given →
      Consumes ((tail span left).respelled (Span.moved shift)) (before ++ names)
        (answer (span.moved shift) given)

include origin in
/-- The rest of a comparison is respelled in step. -/
theorem comparisonTail_inStep : InStep shift comparisonTail (TellsTail shift) := by
  refine .bind (.item fun _ => rfl) fun op same none unnamed => ?_
  obtain ⟨rfl, rfl⟩ := unnamed
  refine .map (expression_inStep origin) fun right answer names told => ?_
  exact fun span taken => taken.bind told.map

/-- The rest of a test for null is respelled in step. -/
theorem nullTail_inStep : InStep shift nullTail (TellsTail shift) := by
  refine .behind rfl (.bind (.flag _) fun negated same none unnamed => ?_)
  obtain ⟨rfl, rfl⟩ := unnamed
  refine .map (keyword_inStep .null) fun _ _ names told => ?_
  obtain ⟨rfl, _⟩ := told
  intro left given before span taken
  rw [List.nil_append, List.append_nil]
  exact taken.map

include origin mirrors in
/-- The rest of a test against a list or a query is respelled in step. -/
theorem inTail_inStep (negated : Bool) : InStep shift (inTail inner negated) (TellsTail shift) := by
  refine .behind rfl (.orElse ?_ ?_)
  · refine .map (.between _ _ (query_inStep origin mirrors)) fun query answer names told => ?_
    exact fun span taken => taken.bind told.map
  · refine .map (.between _ _ (.commaSeparated (expression_inStep origin)))
      fun values answers names told => ?_
    exact fun span taken => taken.bind (each_consumes told).map

include origin in
/-- The rest of a test for membership is respelled in step. -/
theorem memberTail_inStep (negated : Bool) :
    InStep shift (memberTail negated) (TellsTail shift) := by
  refine .behind rfl (.bind (.optional (keyword_inStep .ofKw)) fun _ _ none told => ?_)
  have unnamed : none = [] := by
    cases told with
    | none => rfl
    | some told => exact told.1
  subst unnamed
  refine .map (path_inStep origin (expression_inStep origin)) fun collection answer names told => ?_
  exact fun span taken => taken.bind told.map

include origin in
/-- The rest of a test against a pattern is respelled in step. -/
theorem likeTail_inStep (negated : Bool) : InStep shift (likeTail negated) (TellsTail shift) := by
  refine .behind rfl (.map (expression_inStep origin) fun pattern answer names told => ?_)
  exact fun span taken => taken.bind told.map

include origin in
/-- The rest of a test against a range is respelled in step. -/
theorem betweenTail_inStep (negated : Bool) :
    InStep shift (betweenTail negated) (TellsTail shift) := by
  refine .behind rfl (.bind (expression_inStep origin) fun low answer names told => .behind rfl ?_)
  refine .map (expression_inStep origin) fun high answerHigh more toldHigh => ?_
  exact fun span taken => taken.bind (told.bind toldHigh.map)

include origin mirrors in
/-- So is each of those behind a negation. -/
theorem negatableTail_inStep : InStep shift (negatableTail inner) (TellsTail shift) := by
  refine .bind (.flag _) fun spelled negated none unnamed => ?_
  obtain ⟨rfl, rfl⟩ := unnamed
  exact .orElse (inTail_inStep origin mirrors negated) (.orElse (memberTail_inStep origin negated)
    (.orElse (likeTail_inStep origin negated) (betweenTail_inStep origin negated)))

include origin mirrors in
/-- A test is respelled in step. -/
theorem simplePredicate_inStep : InStep shift (simplePredicate inner)
    (Respells shift Predicate.respelled) := by
  have tails := (comparisonTail_inStep origin).orElse
    (nullTail_inStep.orElse (negatableTail_inStep origin mirrors))
  refine .placed origin (.bind (expression_inStep origin) fun left given names taken => ?_)
  exact .map tails fun tail answer more told span => told span taken

/-- The place of a respelled predicate is the moved place. -/
theorem predicate_span_of_consumes {predicate answer : Predicate} {names : List String}
    (told : Respells shift Predicate.respelled names predicate answer) :
    answer.span = predicate.span.moved shift := by
  have moved := Predicate.span_respelled (Span.moved shift) predicate (names ++ [])
  rwa [told []] at moved

include origin mirrors in
/-- A negation is respelled in step. -/
theorem negation_inStep : InStep shift (negation inner) (Respells shift Predicate.respelled) := by
  have primary : InStep shift (primaryPredicate inner) (Respells shift Predicate.respelled) :=
    (simplePredicate_inStep origin mirrors).orElse (.between _ _ mirrors)
  refine signs_inStep origin rfl primary fun place taken => ?_
  dsimp only
  rw [predicate_span_of_consumes taken]
  exact taken.map

/-- Operands with a word in between are respelled in step. -/
theorem connected_inStep {word : Keyword} {combine : Span → Predicate → Predicate → Predicate}
    {operand : Reader Predicate}
    (mirrors : InStep shift operand (Respells shift Predicate.respelled))
    (combines : ∀ span left right, (combine span left right).respelled (Span.moved shift) = (do
      let left ← left.respelled (Span.moved shift)
      let right ← right.respelled (Span.moved shift)
      return combine (span.moved shift) left right)) :
    InStep shift (connected word combine operand) (Respells shift Predicate.respelled) := by
  refine .bind mirrors fun first given names taken => ?_
  refine .map (.many (.behind rfl mirrors)) fun rest answers more told => ?_
  refine foldl_consumes told ?_ taken
  intro left leftToo right rightToo names more taken takenToo
  rw [combines, predicate_span_of_consumes taken, predicate_span_of_consumes takenToo]
  exact taken.bind takenToo.map

include origin mirrors in
/-- A disjunction is respelled in step. -/
theorem disjunction_inStep : InStep shift (disjunction inner)
    (Respells shift Predicate.respelled) :=
  connected_inStep (connected_inStep (negation_inStep origin mirrors) fun _ _ _ => rfl)
    fun _ _ _ => rfl

end Conditions

include origin in
/-- Every predicate is respelled in step. -/
theorem predicate_inStep : InStep shift predicate (Respells shift Predicate.respelled) :=
  .nested fun _ mirrors => disjunction_inStep origin mirrors

/-! ## Statements -/

include origin in
/-- A sort key is respelled in step. -/
theorem sortSpec_inStep : InStep shift sortSpec (Respells shift SortSpec.respelled) := by
  have direction : ∀ (word : Keyword) (order : SortOrder),
      InStep shift (do keyword word; pure order) Unnamed :=
    fun word order => .map (keyword_inStep word) fun _ _ _ told => ⟨told.1, rfl⟩
  refine .placed origin (.bind (expression_inStep origin) fun expr given names taken => ?_)
  refine .map (.optional ((direction .asc .ascending).orElse (direction .desc .descending)))
    fun order answer more told span => ?_
  cases told with
  | none =>
    rw [List.append_nil]
    exact taken.map
  | some told =>
    obtain ⟨rfl, rfl⟩ := told
    rw [List.append_nil]
    exact taken.map

include origin in
/-- An assignment is respelled in step. -/
theorem assignment_inStep : InStep shift assignment (Respells shift Assignment.respelled) := by
  refine .placed origin (.bind (path_inStep origin (expression_inStep origin))
    fun target given names followed => .behind rfl ?_)
  refine .map (expression_inStep origin) fun value answer more told span => ?_
  exact followed.bind told.map

include origin in
/-- A query is respelled in step as a statement. -/
theorem selectStatement_inStep : InStep shift selectStatement
    (Respells shift Statement.respelled) := by
  have ordered : InStep shift (do keyword .order; keyword .byKw; commaSeparated sortSpec)
      (Each (Respells shift SortSpec.respelled)) :=
    .behind rfl (.behind rfl (.commaSeparated (sortSpec_inStep origin)))
  refine .bind (query_inStep origin (predicate_inStep origin)) fun query given names taken => ?_
  refine .map (.optional ordered) fun order answer more told => ?_
  cases told with
  | none => exact taken.bind (Consumes.pure ([] : List SortSpec)).map
  | some told => exact taken.bind (each_consumes told).map

include origin in
/-- An update is respelled in step. -/
theorem updateStatement_inStep : InStep shift updateStatement
    (Respells shift Statement.respelled) := by
  refine .behind rfl (.bind (rootRef_inStep origin) fun target given names begun => .behind rfl ?_)
  refine .bind (.commaSeparated (assignment_inStep origin)) fun assignments answers more assigned => ?_
  refine .map (condition_inStep (predicate_inStep origin)) fun filter answer further told => ?_
  exact begun.bind ((each_consumes assigned).bind told.map)

include origin in
/-- A removal is respelled in step. -/
theorem deleteStatement_inStep : InStep shift deleteStatement
    (Respells shift Statement.respelled) := by
  refine .behind rfl (.bind (.optional (keyword_inStep .fromKw)) fun _ _ none told => ?_)
  have unnamed : none = [] := by
    cases told with
    | none => rfl
    | some told => exact told.1
  subst unnamed
  refine .bind (rootRef_inStep origin) fun target given names begun => ?_
  refine .map (condition_inStep (predicate_inStep origin)) fun filter answer more told => ?_
  exact begun.bind told.map

/-- The end of the text has no names. -/
theorem finish_inStep : InStep shift finish Unnamed := by
  intro input other parallel
  cases parallel with
  | nil => exact .read .nil .nil rfl rfl rfl rfl ⟨rfl, rfl⟩
  | cons _ _ => exact .refused rfl rfl

include origin in
/-- Every statement is respelled in step. -/
theorem statement_inStep : InStep shift statement (Respells shift Statement.respelled) := by
  refine .bind ((selectStatement_inStep origin).orElse ((updateStatement_inStep origin).orElse
    (deleteStatement_inStep origin))) fun tree answer names told => ?_
  refine .map finish_inStep fun _ _ more ending => ?_
  rw [ending.1, List.append_nil]
  exact told

end ObjectQuery.Grammar
