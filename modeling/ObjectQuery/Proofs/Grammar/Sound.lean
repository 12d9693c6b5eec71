import ObjectQuery.Proofs.Grammar.Readings
import ObjectQuery.Proofs.Grammar.Rules
/-!
# What is read follows the rules

Whatever the readers read, the rules derive from the tokens that were read. Each lemma follows the
reader it is about, step by step.
-/
namespace ObjectQuery.Grammar

open Reader

variable {α : Type}

/-- The tokens stand for the value without its places. -/
def Derives (phrase : Phrase α) (view : α → α) (used : List Lexeme) (value : α) : Prop :=
  phrase (tokens used) (view value)

/-! ## Readers of any phrase -/

/-- What stands between two marks is told of the lexemes inside. -/
theorem between_gives {reader : Reader α} {tells : List Lexeme → α → Prop} (opening closing : Mark)
    (gives : Gives reader tells) :
    Gives (Reader.between opening closing reader) fun used value => ∃ inside, tells inside value ∧
      tokens used = .mark opening :: tokens inside ++ [.mark closing] := by
  refine .bind (.token _) fun _ opened beginning => .bind gives fun value inside told => ?_
  refine .map (.token _) fun closed _ ending => ?_
  exact ⟨inside, told, by simp [beginning, ending]⟩

/-- A list of derived items with commas is derived. -/
theorem commaSeparated_gives {reader : Reader α} {phrase : Phrase α} {view : α → α}
    (gives : Gives reader (Derives phrase view)) :
    Gives (commaSeparated reader) fun used values =>
      IsSeparated phrase (tokens used) (values.map view) := by
  have further : ∀ {values : List α} {first : List Lexeme} {value : α} {used : List Lexeme},
      Derives phrase view first value →
      Successively (Behind (.mark .comma) (Derives phrase view)) used values →
      IsSeparated phrase (tokens (first ++ used)) ((value :: values).map view) := by
    intro values
    induction values with
    | nil =>
      rintro first value used begun rfl
      rw [List.append_nil]
      exact .one begun
    | cons next values ih =>
      rintro first value used begun ⟨_, others, rfl, ⟨inside, told, spelled⟩, rest⟩
      rw [tokens_append, tokens_append, spelled, List.cons_append, ← tokens_append]
      exact .more begun (ih told rest)
  refine .bind gives fun value first begun => ?_
  exact .map (.many _ (.behind _ gives)) fun used values rest => further begun rest

/-- A name is one identifier. -/
theorem name_gives : Gives name fun used found => tokens used = [.identifier found.value] := by
  refine .bind (.spanned _ .identifier) fun ⟨value, span⟩ used told => .pure ?_
  simpa using told.1

/-! ## Expressions -/

section Expressions

variable {inner : Reader Expr} (gives : Gives inner (Derives IsSum Expr.unplaced))

include gives in
/-- A part of a path is derived. -/
theorem part_gives : Gives (path.part inner) (Derives IsPart PathPart.unplaced) := by
  refine .bind name_gives fun name used named => ?_
  refine .map (.optional (between_gives _ _ gives)) fun further index told => ?_
  cases index with
  | none =>
    obtain rfl := told
    rw [List.append_nil, Derives, named]
    exact .plain name.value
  | some index =>
    obtain ⟨inside, derived, spelled⟩ := told
    rw [Derives, tokens_append, spelled, named]
    exact .indexed name.value derived

include gives in
/-- A path is derived. -/
theorem path_gives : Gives (path inner) (Derives IsPath unplacedPath) := by
  have parts : ∀ {rest : List (PathPart Expr)} {used : List Lexeme},
      Successively (Behind (.mark .dot) (Derives IsPart PathPart.unplaced)) used rest →
      IsParts (tokens used) (unplacedParts rest) := by
    intro rest
    induction rest with
    | nil =>
      rintro used rfl
      exact .nil
    | cons part rest ih =>
      rintro used ⟨_, others, rfl, ⟨inside, derived, spelled⟩, follows⟩
      rw [tokens_append, spelled]
      exact .cons derived (ih follows)
  refine .bind (.spanned (fun used found => IsPath (tokens used)
    (unplacedPath ⟨found.1, found.2, .nowhere⟩)) ?_) fun ⟨⟨first, rest⟩, span⟩ used told => .pure ?_
  · refine .bind (part_gives gives) fun first used begun => ?_
    refine .map (.many _ (.behind _ (part_gives gives))) fun further rest told => ?_
    rw [tokens_append]
    exact .mk begun (parts told)
  · rw [List.append_nil]
    exact told.1

/-- A literal is derived as an atom. -/
theorem literal_gives : Gives literal (Derives IsAtom Expr.unplaced) := by
  refine .bind (.spanned _ (.item _)) fun ⟨value, span⟩ used told => .pure ?_
  obtain ⟨⟨token, spelled, denotes⟩, _⟩ := told
  rw [List.append_nil, Derives, spelled]
  exact .literal denotes

/-- A named parameter is derived as an atom. -/
theorem namedParameter_gives : Gives namedParameter (Derives IsAtom Expr.unplaced) := by
  refine .bind (.spanned _ (.behind _ .identifier)) fun ⟨name, span⟩ used told => .pure ?_
  obtain ⟨⟨inside, named, spelled⟩, _⟩ := told
  rw [List.append_nil, Derives, spelled, named]
  exact .named name

/-- A position is written with digits that denote it. -/
theorem ordinal_gives :
    Gives ordinal fun used position => ∃ digits, tokens used = [.number digits] ∧
      positionOf digits.toList = .ok position := by
  intro input position rest taken
  unfold Reads ordinal at taken
  split at taken
  · rename_i digits text span others
    split at taken
    · rename_i found denotes
      obtain ⟨rfl, rfl⟩ := Prod.mk.inj (Option.some.inj taken)
      exact ⟨[⟨.number digits, text, span⟩], rfl, digits, rfl, denotes⟩
    · cases taken
  · cases taken

/-- A positional parameter is derived as an atom. -/
theorem positionalParameter_gives : Gives positionalParameter (Derives IsAtom Expr.unplaced) := by
  refine .bind (.spanned _ (.behind _ (.optional ordinal_gives))) fun ⟨position, span⟩ used told => .pure ?_
  obtain ⟨⟨inside, numbered, spelled⟩, _⟩ := told
  rw [List.append_nil, Derives, spelled]
  cases position with
  | none =>
    obtain rfl := numbered
    exact .unnumbered
  | some position =>
    obtain ⟨digits, named, denotes⟩ := numbered
    rw [named]
    exact .numbered denotes

include gives in
/-- A call is derived as an atom. -/
theorem call_gives : Gives (call inner) (Derives IsAtom Expr.unplaced) := by
  refine .bind (.spanned (fun used found => IsAtom (tokens used)
    (Expr.call .nowhere found.1 found.2.1 found.2.2).unplaced) ?_)
    fun ⟨⟨name, distinct, argument⟩, span⟩ used told => .pure ?_
  · refine .bind name_gives fun name used named => .bind (.token _) fun _ opened opening => ?_
    refine .bind (.flag _) fun distinct marked spelled => ?_
    have star : Gives (do mark .star; pure (none : Option Expr)) fun used argument =>
        argument = none ∧ tokens used = [.mark .star] :=
      .map (.token _) fun used _ starred => ⟨rfl, starred⟩
    have value : Gives (do let argument ← inner; pure (some argument)) fun used argument =>
        ∃ found, argument = some found ∧ Derives IsSum Expr.unplaced used found :=
      .map gives fun used found derived => ⟨found, rfl, derived⟩
    refine .bind (.either star value) fun argument inside told => .map (.token _) fun closed _ closing => ?_
    rcases told with ⟨rfl, starred⟩ | ⟨found, rfl, derived⟩
    · have word : tokens (used ++ (opened ++ (marked ++ (inside ++ closed)))) =
          .identifier name.value ::
            parenthesised (tokenIf distinct (.keyword .distinct) ++ [.mark .star]) := by
        simp [named, opening, spelled, starred, closing, parenthesised, tokenIf]
      rw [word]
      exact .callStar name.value distinct
    · have word : tokens (used ++ (opened ++ (marked ++ (inside ++ closed)))) =
          .identifier name.value ::
            parenthesised (tokenIf distinct (.keyword .distinct) ++ tokens inside) := by
        simp [named, opening, spelled, closing, parenthesised, tokenIf]
      rw [word]
      exact .call name.value distinct derived
  · rw [List.append_nil]
    exact told.1

include gives in
/-- An atom is derived. -/
theorem atom_gives : Gives (atom inner) (Derives IsAtom Expr.unplaced) := by
  have route : Gives (do let path ← path inner; pure (Expr.path path)) (Derives IsAtom Expr.unplaced) :=
    .map (path_gives gives) fun used path derived => .path derived
  have grouped : Gives (Reader.between .leftParen .rightParen inner) (Derives IsAtom Expr.unplaced) := by
    refine (between_gives _ _ gives).weaken fun used expr told => ?_
    obtain ⟨inside, derived, spelled⟩ := told
    rw [Derives, spelled]
    exact .grouped derived
  exact .orElse literal_gives (.orElse namedParameter_gives (.orElse positionalParameter_gives
    (.orElse (call_gives gives) (.orElse route grouped))))

include gives in
/-- A signed operand is derived. -/
theorem unary_gives : Gives (unary inner) (Derives IsSigned Expr.unplaced) := by
  refine .bind (.many _ (.spanned _ (.token _))) fun signs before minuses => ?_
  refine .map (atom_gives gives) fun used operand derived => ?_
  induction signs generalizing before with
  | nil =>
    obtain rfl := minuses
    exact .atom derived
  | cons sign signs ih =>
    obtain ⟨first, others, rfl, ⟨minus, _⟩, rest⟩ := minuses
    have word : tokens (first ++ others ++ used) = .mark .minus :: tokens (others ++ used) := by
      simp [minus]
    rw [Derives, word]
    exact .negate (ih others rest)

/-- A row of operands with operators of one strength between them. -/
theorem leftAssociative_gives {phrase row : Phrase Expr} {op? : Token → Option ArithmeticOp}
    {operand : Reader Expr} (operands : Gives operand (Derives phrase Expr.unplaced))
    (one : ∀ {word expr}, phrase word expr → row word expr)
    (more : ∀ {word others left right token op}, row word left → op? token = some op →
      phrase others right → row (word ++ token :: others) (.arithmetic .nowhere op left right)) :
    Gives (leftAssociative (item op?) operand) (Derives row Expr.unplaced) := by
  refine .bind operands fun first used begun => ?_
  refine .map (.many (fun used found => ∃ token inside, op? token = some found.1 ∧
    Derives phrase Expr.unplaced inside found.2 ∧ tokens used = token :: tokens inside) ?_)
    fun further rest told => ?_
  · refine .bind (.item _) fun op before spelled => .map operands fun inside right derived => ?_
    obtain ⟨token, named, operator⟩ := spelled
    exact ⟨token, inside, operator, derived, by simp [named]⟩
  · have begins : row (tokens used) first.unplaced := one begun
    clear begun
    induction rest generalizing first used further with
    | nil =>
      obtain rfl := told
      rw [List.append_nil]
      exact begins
    | cons next rest ih =>
      obtain ⟨before, others, rfl, ⟨token, inside, operator, derived, spelled⟩, follows⟩ := told
      have longer : row (tokens (used ++ before)) (operation first next.1 next.2).unplaced := by
        rw [tokens_append, spelled]
        exact more begins operator derived
      rw [← List.append_assoc]
      exact ih (operation first next.1 next.2) (used ++ before) others follows longer

include gives in
/-- A sum is derived. -/
theorem sum_gives : Gives (sum inner) (Derives IsSum Expr.unplaced) :=
  leftAssociative_gives (leftAssociative_gives (unary_gives gives) .one .more) .one .more

end Expressions

/-- Every expression that is read is derived. -/
theorem expression_gives : Gives expression (Derives IsSum Expr.unplaced) :=
  .nested fun _ gives => sum_gives gives

/-! ## Clauses without conditions -/

/-- A label is derived. -/
theorem label_gives :
    Gives (Reader.optional label) fun used found =>
      IsLabel (tokens used) (found.map Spanned.unplaced) := by
  have spoken : Gives label fun used found => ∃ spelled,
      tokens used = tokenIf spelled (.keyword .asKw) ++ [.identifier found.value] := by
    refine .bind (.optional (.token _)) fun mark before spelled => ?_
    refine name_gives.weaken fun used found named => ⟨mark.isSome, ?_⟩
    cases mark with
    | none =>
      obtain rfl := spelled
      simpa [tokenIf] using named
    | some mark =>
      have word : tokens before = [.keyword .asKw] := spelled
      simp [tokenIf, word, named]
  refine (Gives.optional spoken).weaken fun used found told => ?_
  cases found with
  | none =>
    obtain rfl := told
    exact .none
  | some found =>
    obtain ⟨spelled, word⟩ := told
    rw [word]
    exact .some spelled found.value

/-- The root of an item is derived. -/
theorem rootRef_gives : Gives rootRef (Derives IsRoot RootRef.unplaced) := by
  have dotted : ∀ {names : List String} {used : List Lexeme},
      Successively (Behind (.mark .dot) fun used name => tokens used = [.identifier name]) used names →
        tokens used = names.flatMap fun name => [.mark .dot, .identifier name] := by
    intro names
    induction names with
    | nil =>
      rintro used rfl
      rfl
    | cons name names ih =>
      rintro used ⟨first, others, rfl, ⟨inside, named, spelled⟩, rest⟩
      rw [tokens_append, spelled, named, ih rest]
      rfl
  refine .bind (.spanned (fun used found => IsRoot (tokens used)
    (RootRef.unplaced ⟨found.1, found.2, .nowhere⟩)) ?_) fun ⟨⟨entity, label⟩, span⟩ used told => .pure ?_
  · refine .bind (.spanned (fun used parts => ∃ first rest, parts = first :: rest ∧
      tokens used = .identifier first :: rest.flatMap fun name => [.mark .dot, .identifier name]) ?_)
      fun ⟨parts, span⟩ before told => .map label_gives fun used label labelled => ?_
    · refine .bind .identifier fun first before named => ?_
      refine .map (.many _ (.behind _ .identifier)) fun used rest told => ?_
      exact ⟨first, rest, rfl, by simp [named, dotted told]⟩
    · obtain ⟨⟨first, rest, rfl, word⟩, _⟩ := told
      rw [tokens_append, word]
      exact .mk first rest labelled
  · rw [List.append_nil]
    exact told.1

/-- An item of a select list is derived. -/
theorem selection_gives : Gives selection (Derives IsSelection Selection.unplaced) := by
  refine .bind (.spanned (fun used found => IsSelection (tokens used)
    (Selection.unplaced ⟨found.1, found.2, .nowhere⟩)) ?_) fun ⟨⟨expr, label⟩, span⟩ used told => .pure ?_
  · refine .bind expression_gives fun expr before selected => ?_
    refine .map label_gives fun used label labelled => ?_
    rw [tokens_append]
    exact .mk selected labelled
  · rw [List.append_nil]
    exact told.1

/-- A select list is derived. -/
theorem selectClause_gives :
    Gives (Reader.optional selectClause) fun used found =>
      IsSelect (tokens used) (found.map SelectClause.unplaced) := by
  have spoken : Gives selectClause fun used found =>
      IsSelect (tokens used) (some found.unplaced) := by
    refine .bind (.spanned (fun used found => IsSelect (tokens used)
      (some (SelectClause.unplaced ⟨found.1, found.2, .nowhere⟩))) ?_)
      fun ⟨⟨distinct, selections⟩, span⟩ used told => .pure ?_
    · refine .bind (.token _) fun _ first spelled => .bind (.flag _) fun distinct second marked => ?_
      refine .map (commaSeparated_gives selection_gives) fun third selections listed => ?_
      have word : tokens (first ++ (second ++ third)) =
          .keyword .select :: tokenIf distinct (.keyword .distinct) ++ tokens third := by
        simp [spelled, marked, tokenIf]
      rw [word]
      exact .some distinct listed
    · rw [List.append_nil]
      exact told.1
  refine (Gives.optional spoken).weaken fun used found told => ?_
  cases found with
  | none =>
    obtain rfl := told
    exact .none
  | some found => exact told

/-- The kind of a join is derived. -/
theorem joinKind_gives : Gives joinKind fun used kind => IsJoinKind (tokens used) kind := by
  have inner : Gives (do keyword .inner; pure JoinKind.inner) fun used kind =>
      IsJoinKind (tokens used) kind := by
    refine .map (.token _) fun used _ spelled => ?_
    rw [spelled]
    exact .inner
  have leftOuter : Gives (do
      keyword .left
      let _ ← Reader.optional (keyword .outer)
      pure JoinKind.leftOuter) fun used kind => IsJoinKind (tokens used) kind := by
    refine .bind (.token _) fun _ before spelled => ?_
    refine .map (.optional (.token _)) fun used outer told => ?_
    have word : tokens (before ++ used) =
        .keyword .left :: tokenIf outer.isSome (.keyword .outer) := by
      cases outer with
      | none =>
        obtain rfl := told
        simp [spelled, tokenIf]
      | some outer =>
        have second : tokens used = [.keyword .outer] := told
        simp [spelled, second, tokenIf]
    rw [word]
    exact .leftOuter outer.isSome
  have cross : Gives (do keyword .cross; pure JoinKind.cross) fun used kind =>
      IsJoinKind (tokens used) kind := by
    refine .map (.token _) fun used _ spelled => ?_
    rw [spelled]
    exact .cross
  refine .map (.optional (.orElse inner (.orElse leftOuter cross))) fun used kind told => ?_
  cases kind with
  | none =>
    obtain rfl := told
    exact .unspoken
  | some kind => exact told

/-! ## Conditions and queries -/

section Conditions

variable {inner : Reader Predicate} (gives : Gives inner (Derives IsPredicate Predicate.unplaced))

include gives in
/-- The condition of a join is derived. -/
theorem joinCondition_gives :
    Gives (Reader.optional (do keyword .withKw <|> keyword .onKw; inner)) fun used found =>
      IsOn (tokens used) (unplacedFilter found) := by
  have spoken : Gives (do keyword .withKw <|> keyword .onKw; inner) fun used found =>
      IsOn (tokens used) (some found.unplaced) := by
    refine .bind (.either (.token _) (.token _)) fun _ before introduced => ?_
    refine gives.weaken fun used found holds => ?_
    rcases introduced with introduced | introduced
    · rw [tokens_append, introduced]
      exact .some (.inl rfl) holds
    · rw [tokens_append, introduced]
      exact .some (.inr rfl) holds
  refine (Gives.optional spoken).weaken fun used found told => ?_
  cases found with
  | none =>
    obtain rfl := told
    exact .none
  | some found => exact told

include gives in
/-- A join is derived. -/
theorem join_gives : Gives (join inner) (Derives IsJoin Join.unplaced) := by
  refine .bind (.spanned (fun used found => IsJoin (tokens used)
    (Join.unplaced ⟨found.1, found.2.1, found.2.2.1, found.2.2.2.1, found.2.2.2.2, .nowhere⟩)) ?_)
    fun ⟨⟨kind, fetch, target, label, condition⟩, span⟩ used told => .pure ?_
  · refine .bind joinKind_gives fun kind first spoken => .bind (.token _) fun _ second spelled => ?_
    refine .bind (.flag _) fun fetch third marked => ?_
    refine .bind (path_gives expression_gives) fun target fourth followed => ?_
    refine .bind label_gives fun label fifth labelled => ?_
    refine .map (joinCondition_gives gives) fun sixth condition conditioned => ?_
    have word : tokens (first ++ (second ++ (third ++ (fourth ++ (fifth ++ sixth))))) =
        tokens first ++ .keyword .join :: tokenIf fetch (.keyword .fetch) ++ tokens fourth ++
          tokens fifth ++ tokens sixth := by
      simp [spelled, marked, tokenIf]
    rw [word]
    exact .mk fetch spoken followed labelled conditioned
  · rw [List.append_nil]
    exact told.1

include gives in
/-- An item of a from-clause is derived. -/
theorem fromSpace_gives : Gives (fromSpace inner) (Derives IsSpace FromSpace.unplaced) := by
  have joined : ∀ {joins : List (Join Predicate)} {used : List Lexeme},
      Successively (Derives IsJoin Join.unplaced) used joins →
        IsJoins (tokens used) (unplacedJoins joins) := by
    intro joins
    induction joins with
    | nil =>
      rintro used rfl
      exact .nil
    | cons join joins ih =>
      rintro used ⟨first, others, rfl, derived, rest⟩
      rw [tokens_append]
      exact .cons derived (ih rest)
  refine .bind (.spanned (fun used found => IsSpace (tokens used)
    (FromSpace.unplaced ⟨found.1, found.2, .nowhere⟩)) ?_) fun ⟨⟨root, joins⟩, span⟩ used told => .pure ?_
  · refine .bind rootRef_gives fun root before begins => ?_
    refine .map (.many _ (join_gives gives)) fun used joins told => ?_
    rw [tokens_append]
    exact .mk begins (joined told)
  · rw [List.append_nil]
    exact told.1

/-- Items with commas in between are those of a from-clause. -/
theorem isSpaces_of_separated {word : List Token} {spaces : List (FromSpace Predicate)}
    (separated : IsSeparated IsSpace word spaces) : IsSpaces word spaces := by
  induction separated with
  | one first => exact .one first
  | more first _ ih => exact .more first ih

include gives in
/-- A from-clause is derived behind its keyword. -/
theorem fromClause_gives : Gives (fromClause inner) fun used found =>
    ∃ word, tokens used = .keyword .fromKw :: word ∧ IsSpaces word (unplacedSpaces found.spaces) := by
  refine .bind (.spanned _ (.behind _ (commaSeparated_gives (fromSpace_gives gives))))
    fun ⟨spaces, span⟩ used told => .pure ?_
  obtain ⟨⟨inside, separated, spelled⟩, _⟩ := told
  rw [List.append_nil]
  refine ⟨tokens inside, spelled, ?_⟩
  rw [unplacedSpaces_eq_map]
  exact isSpaces_of_separated separated

include gives in
/-- A condition is derived behind its keyword. -/
theorem condition_gives : Gives (Reader.optional (condition inner)) fun used found =>
    IsWhere (tokens used) (unplacedFilter found) := by
  refine (Gives.optional (.behind _ gives)).weaken fun used found told => ?_
  cases found with
  | none =>
    obtain rfl := told
    exact .none
  | some found =>
    obtain ⟨inside, holds, spelled⟩ := told
    rw [spelled]
    exact .some holds

include gives in
/-- A query is derived. -/
theorem query_gives : Gives (query inner) (Derives IsQuery unplacedQuery) := by
  refine .bind (.spanned (fun used found => IsQuery (tokens used)
    (unplacedQuery ⟨found.1, found.2.1, found.2.2, .nowhere⟩)) ?_)
    fun ⟨⟨select, sources, filter⟩, span⟩ used told => .pure ?_
  · refine .bind selectClause_gives fun select first selects => ?_
    refine .bind (fromClause_gives gives) fun sources second told => ?_
    refine .map (condition_gives gives) fun third filter filters => ?_
    obtain ⟨word, spelled, listed⟩ := told
    obtain ⟨spaces, span⟩ := sources
    have whole : tokens (first ++ (second ++ third)) =
        tokens first ++ .keyword .fromKw :: word ++ tokens third := by
      simp [spelled]
    rw [whole]
    exact .mk selects listed filters
  · rw [List.append_nil]
    exact told.1

/-- The tokens, behind those of an expression and the ones given, complete it to a condition. -/
def Completes (between : List Token) (used : List Lexeme) (tail : Tail) : Prop :=
  ∀ ⦃word left⦄, IsSum word (Expr.unplaced left) → ∀ span,
    IsCondition (word ++ between ++ tokens used) (tail span left).unplaced

/-- The rest of a comparison completes its operand. -/
theorem comparisonTail_gives : Gives comparisonTail (Completes []) := by
  refine .bind (.item _) fun op before spelled => ?_
  refine .map expression_gives fun used right second => ?_
  obtain ⟨token, named, operator⟩ := spelled
  intro word left first span
  rw [tokens_append, named, List.append_nil]
  exact .compare first operator second

/-- The rest of a test for null completes its operand. -/
theorem nullTail_gives : Gives nullTail (Completes []) := by
  refine .bind (.token _) fun _ first spelled => .bind (.flag _) fun negated second marked => ?_
  refine .map (.token _) fun third _ ending => ?_
  intro word left tested span
  have whole : word ++ [] ++ tokens (first ++ (second ++ third)) =
      word ++ .keyword .isKw :: tokenIf negated (.keyword .notKw) ++ [.keyword .null] := by
    simp [spelled, marked, ending, tokenIf]
  rw [whole]
  exact .isNull negated tested

include gives in
/-- The rest of a test against a list or a query completes its operand. -/
theorem inTail_gives (negated : Bool) :
    Gives (inTail inner negated) (Completes (tokenIf negated (.keyword .notKw))) := by
  refine .bind (.token _) fun _ before spelled => .orElse ?_ ?_
  · refine .map (between_gives _ _ (query_gives gives)) fun used query told => ?_
    obtain ⟨inside, derived, enclosed⟩ := told
    intro word left tested span
    rw [tokens_append, spelled, enclosed]
    exact .inQuery negated tested derived
  · refine .map (between_gives _ _ (commaSeparated_gives expression_gives)) fun used values told => ?_
    obtain ⟨inside, derived, enclosed⟩ := told
    intro word left tested span
    rw [tokens_append, spelled, enclosed]
    exact .inList negated tested derived

/-- The rest of a test for membership completes its operand. -/
theorem memberTail_gives (negated : Bool) :
    Gives (memberTail negated) (Completes (tokenIf negated (.keyword .notKw))) := by
  refine .bind (.token _) fun _ first spelled => .bind (.optional (.token _)) fun mark second marked => ?_
  refine .map (path_gives expression_gives) fun third collection followed => ?_
  intro word left tested span
  have whole : word ++ tokenIf negated (.keyword .notKw) ++ tokens (first ++ (second ++ third)) =
      word ++ tokenIf negated (.keyword .notKw) ++
        .keyword .member :: tokenIf mark.isSome (.keyword .ofKw) ++ tokens third := by
    cases mark with
    | none =>
      obtain rfl := marked
      simp [spelled, tokenIf]
    | some mark =>
      have spoken : tokens second = [.keyword .ofKw] := marked
      simp [spelled, spoken, tokenIf]
  rw [whole]
  exact .memberOf negated mark.isSome tested followed

/-- The rest of a test against a pattern completes its operand. -/
theorem likeTail_gives (negated : Bool) :
    Gives (likeTail negated) (Completes (tokenIf negated (.keyword .notKw))) := by
  refine .bind (.token _) fun _ before spelled => .map expression_gives fun used pattern matched => ?_
  intro word left tested span
  rw [tokens_append, spelled]
  exact .like negated tested matched

/-- The rest of a test against a range completes its operand. -/
theorem betweenTail_gives (negated : Bool) :
    Gives (betweenTail negated) (Completes (tokenIf negated (.keyword .notKw))) := by
  refine .bind (.token _) fun _ first spelled => .bind expression_gives fun low second least => ?_
  refine .bind (.token _) fun _ third joined => .map expression_gives fun fourth high most => ?_
  intro word left tested span
  have whole : word ++ tokenIf negated (.keyword .notKw) ++
        tokens (first ++ (second ++ (third ++ fourth))) =
      word ++ tokenIf negated (.keyword .notKw) ++
        .keyword .between :: tokens second ++ .keyword .andKw :: tokens fourth := by
    simp [spelled, joined]
  rw [whole]
  exact .between negated tested least most

include gives in
/-- Behind a negation or without one, the rest of a test completes its operand. -/
theorem negatableTail_gives : Gives (negatableTail inner) (Completes []) := by
  refine .bind (.flag _) fun negated before marked => ?_
  refine (Gives.orElse (inTail_gives gives negated) (.orElse (memberTail_gives negated)
    (.orElse (likeTail_gives negated) (betweenTail_gives negated)))).weaken fun used tail completes => ?_
  intro word left tested span
  have word : word ++ [] ++ tokens (before ++ used) =
      word ++ tokenIf negated (.keyword .notKw) ++ tokens used := by
    simp [marked, tokenIf]
  rw [word]
  exact completes tested span

include gives in
/-- A test, or a predicate in parentheses, is derived as a predicate. -/
theorem primaryPredicate_gives :
    Gives (primaryPredicate inner) (Derives IsCondition Predicate.unplaced) := by
  refine .orElse ?_ ?_
  · refine .bind (.spanned (fun used found => ∀ span,
      IsCondition (tokens used) (found.2 span found.1).unplaced) ?_)
      fun ⟨⟨left, tail⟩, span⟩ used told => .pure ?_
    · refine .bind expression_gives fun left before tested => ?_
      refine .map (.orElse comparisonTail_gives (.orElse nullTail_gives (negatableTail_gives gives)))
        fun used tail completes span => ?_
      simpa using completes tested span
    · rw [List.append_nil]
      exact told.1 span
  · refine (between_gives _ _ gives).weaken fun used found told => ?_
    obtain ⟨inside, holds, enclosed⟩ := told
    rw [Derives, enclosed]
    exact .grouped holds

include gives in
/-- A negation is derived. -/
theorem negation_gives : Gives (negation inner) (Derives IsNegation Predicate.unplaced) := by
  refine .bind (.many _ (.spanned _ (.token _))) fun words before negations => ?_
  refine .map (primaryPredicate_gives gives) fun used operand derived => ?_
  induction words generalizing before with
  | nil =>
    obtain rfl := negations
    exact .one derived
  | cons word words ih =>
    obtain ⟨first, others, rfl, ⟨spelled, _⟩, rest⟩ := negations
    have whole : tokens (first ++ others ++ used) = .keyword .notKw :: tokens (others ++ used) := by
      simp [spelled]
    rw [Derives, whole]
    exact .not (ih others rest)

/-- A row of conditions with one keyword between each two. -/
theorem connected_gives {phrase row : Phrase Predicate} {word : Keyword}
    {combine : Span → Predicate → Predicate → Predicate} {operand : Reader Predicate}
    (operands : Gives operand (Derives phrase Predicate.unplaced))
    (one : ∀ {tokens predicate}, phrase tokens predicate → row tokens predicate)
    (more : ∀ {tokens others span left right}, row tokens (Predicate.unplaced left) →
      phrase others (Predicate.unplaced right) →
        row (tokens ++ .keyword word :: others) (combine span left right).unplaced) :
    Gives (connected word combine operand) (Derives row Predicate.unplaced) := by
  refine .bind operands fun first used begun => ?_
  refine .map (.many _ (.behind _ operands)) fun further rest told => ?_
  have begins : row (tokens used) first.unplaced := one begun
  clear begun
  induction rest generalizing first used further with
  | nil =>
    obtain rfl := told
    rw [List.append_nil]
    exact begins
  | cons next rest ih =>
    obtain ⟨before, others, rfl, ⟨inside, derived, spelled⟩, follows⟩ := told
    have longer : row (tokens (used ++ before))
        (combine (first.span.through next.span) first next).unplaced := by
      rw [tokens_append, spelled]
      exact more begins derived
    rw [← List.append_assoc]
    exact ih _ (used ++ before) others follows longer

include gives in
/-- A disjunction is derived. -/
theorem disjunction_gives : Gives (disjunction inner) (Derives IsPredicate Predicate.unplaced) :=
  connected_gives (connected_gives (negation_gives gives) .one .more) .one .more

end Conditions

/-- Every predicate that is read is derived. -/
theorem predicate_gives : Gives predicate (Derives IsPredicate Predicate.unplaced) :=
  .nested fun _ gives => disjunction_gives gives

/-! ## Statements -/

/-- A sort key is derived. -/
theorem sortSpec_gives : Gives sortSpec (Derives IsSortSpec SortSpec.unplaced) := by
  have ascending : Gives (do keyword .asc; pure SortOrder.ascending) fun used order =>
      IsDirection (tokens used) (some order) := by
    refine .map (.token _) fun used _ spelled => ?_
    rw [spelled]
    exact .ascending
  have descending : Gives (do keyword .desc; pure SortOrder.descending) fun used order =>
      IsDirection (tokens used) (some order) := by
    refine .map (.token _) fun used _ spelled => ?_
    rw [spelled]
    exact .descending
  refine .bind (.spanned (fun used found => IsSortSpec (tokens used)
    (SortSpec.unplaced ⟨found.1, found.2, .nowhere⟩)) ?_) fun ⟨⟨expr, order⟩, span⟩ used told => .pure ?_
  · refine .bind expression_gives fun expr before sorted => ?_
    refine .map (.optional (.orElse ascending descending)) fun used order told => ?_
    rw [tokens_append]
    cases order with
    | none =>
      obtain rfl := told
      exact .mk sorted .none
    | some order => exact .mk sorted told
  · rw [List.append_nil]
    exact told.1

/-- A query is derived as a statement. -/
theorem selectStatement_gives : Gives selectStatement (Derives IsStatement Statement.unplaced) := by
  refine .bind (query_gives predicate_gives) fun query before queried => ?_
  refine .map (.optional (.behind _ (.behind _ (commaSeparated_gives sortSpec_gives))))
    fun used order told => ?_
  rw [Derives, tokens_append]
  cases order with
  | none =>
    obtain rfl := told
    exact .select queried .none
  | some order =>
    obtain ⟨inside, ⟨keys, listed, second⟩, first⟩ := told
    rw [first, second]
    exact .select queried (.some listed)

/-- An assignment is derived. -/
theorem assignment_gives : Gives assignment (Derives IsAssignment Assignment.unplaced) := by
  refine .bind (.spanned (fun used found => IsAssignment (tokens used)
    (Assignment.unplaced ⟨found.1, found.2, .nowhere⟩)) ?_)
    fun ⟨⟨target, value⟩, span⟩ used told => .pure ?_
  · refine .bind (path_gives expression_gives) fun target first followed => ?_
    refine .bind (.token _) fun _ second spelled => .map expression_gives fun third value assigned => ?_
    rw [tokens_append, tokens_append, spelled]
    exact .mk followed assigned
  · rw [List.append_nil]
    exact told.1

/-- An update is derived. -/
theorem updateStatement_gives : Gives updateStatement (Derives IsStatement Statement.unplaced) := by
  refine .bind (.token _) fun _ first spelled => .bind rootRef_gives fun target second targeted => ?_
  refine .bind (.token _) fun _ third introduced => ?_
  refine .bind (commaSeparated_gives assignment_gives) fun assignments fourth assigned => ?_
  refine .map (condition_gives predicate_gives) fun fifth filter filters => ?_
  have word : tokens (first ++ (second ++ (third ++ (fourth ++ fifth)))) =
      .keyword .update :: tokens second ++ .keyword .setKw :: tokens fourth ++ tokens fifth := by
    simp [spelled, introduced]
  rw [Derives, word]
  exact .update targeted assigned filters

/-- A removal is derived. -/
theorem deleteStatement_gives : Gives deleteStatement (Derives IsStatement Statement.unplaced) := by
  refine .bind (.token _) fun _ first spelled => .bind (.optional (.token _)) fun mark second marked => ?_
  refine .bind rootRef_gives fun target third targeted => ?_
  refine .map (condition_gives predicate_gives) fun fourth filter filters => ?_
  have word : tokens (first ++ (second ++ (third ++ fourth))) =
      .keyword .delete :: tokenIf mark.isSome (.keyword .fromKw) ++ tokens third ++ tokens fourth := by
    cases mark with
    | none =>
      obtain rfl := marked
      simp [spelled, tokenIf]
    | some mark =>
      have spoken : tokens second = [.keyword .fromKw] := marked
      simp [spelled, spoken, tokenIf]
  rw [Derives, word]
  exact .delete mark.isSome targeted filters

/-- Lexemes have a tree exactly if the rules read one from them. -/
theorem ofLexemes_eq_ok {size : Nat} {lexemes : List Lexeme} {tree : Statement} :
    Statement.ofLexemes size lexemes = .ok tree ↔ ∃ rest, Reads statement lexemes tree rest := by
  unfold Statement.ofLexemes Reads
  rcases statement lexemes with ⟨_ | ⟨found, rest⟩, stop⟩
  · simp
  · simp [eq_comm]

/-- The statement that is read follows the rules, and nothing is left. -/
theorem statement_sound {lexemes rest : List Lexeme} {tree : Statement}
    (taken : Reads statement lexemes tree rest) : IsStatement (tokens lexemes) tree.unplaced := by
  obtain ⟨found, between, first, finished⟩ := reads_bind.mp taken
  obtain ⟨_, _, ended, returned⟩ := reads_bind.mp finished
  obtain ⟨rfl, rfl⟩ := reads_finish.mp ended
  obtain ⟨rfl, rfl⟩ := reads_pure.mp returned
  obtain ⟨used, rfl, derived⟩ := (Gives.orElse selectStatement_gives
    (.orElse updateStatement_gives deleteStatement_gives)) first
  rw [List.append_nil]
  exact derived

end ObjectQuery.Grammar
