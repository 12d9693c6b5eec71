import ObjectQuery.Proofs.Grammar.Sound
import ObjectQuery.Proofs.Token.Softened
/-!
# Where the rules want names

Behind a dot, behind `from`, `fetch` and `update`, and behind a comma between items of a from-clause
the rules have identifiers and nothing else; behind `join` they have `fetch` as well, and behind
`delete` also `from`. So in tokens that form a statement no keyword stands where softening would read a
name.

The rules know which commas stand between items of a from-clause, and softening guesses it from the
levels of parentheses. `Passes` links the two: a phrase leaves the level that it was begun on as it
was, and what is said about a comma inside it depends on that level alone.
-/
namespace ObjectQuery

namespace Token

/-- Whether a token may stand behind `previous`. Where a name is wanted no keyword may, but for the two
that the rules have there. -/
def suits (inFrom : Bool) (previous : Option Token) (token : Token) : Bool :=
  !token.isKeyword || match previous with
    | some (.mark .dot) | some (.keyword .fromKw) | some (.keyword .fetch)
    | some (.keyword .update) => false
    | some (.mark .comma) => !inFrom
    | some (.keyword .join) => token == .keyword .fetch
    | some (.keyword .delete) => token == .keyword .fromKw
    | _ => true

/-- Where a keyword may stand no name is wanted. -/
theorem isNamePosition_of_suits {levels : FromLevels} {previous : Option Token} {token : Token}
    (suited : suits levels.current previous token = true) :
    (Lexeme.isNamePosition levels previous token && token.isKeyword) = false := by
  cases keyword : token.isKeyword with
  | false => rw [Bool.and_false]
  | true =>
    simp only [suits, keyword, Bool.not_true, Bool.false_or] at suited
    rw [Bool.and_true]
    unfold Lexeme.isNamePosition
    split at suited <;> simp_all

end Token

open Token

/-- Each of the tokens may stand where it stands, behind `previous` and on the given levels. -/
def Fits : FromLevels → Option Token → List Token → Prop
  | _, _, [] => True
  | levels, previous, token :: rest =>
    suits levels.current previous token = true ∧ Fits (levels.after token) (some token) rest

/-- Tokens in a row stand where they may if both parts do, the second one behind the first. -/
theorem fits_append {levels : FromLevels} {previous : Option Token} {first second : List Token} :
    Fits levels previous (first ++ second) ↔
      Fits levels previous first ∧ Fits (levels.through first) (lastOf previous first) second := by
  induction first generalizing levels previous with
  | nil => simp [Fits]
  | cons token rest inductionHypothesis =>
    rw [List.cons_append, Fits, Fits, inductionHypothesis, FromLevels.through_cons, lastOf_cons, and_assoc]

/-- Softening leaves tokens alone that stand where they may. -/
theorem Lexeme.softenAfter_of_fits {levels : FromLevels} {previous : Option Token}
    {lexemes : List Lexeme} (fits : Fits levels previous (lexemes.map (·.token))) :
    softenAfter levels previous lexemes = lexemes := by
  induction lexemes generalizing levels previous with
  | nil => rfl
  | cons lexeme rest inductionHypothesis =>
    obtain ⟨suited, others⟩ := fits
    have same : lexeme.softenedIf (isNamePosition levels previous lexeme.token) = lexeme := by
      rw [softenedIf, isNamePosition_of_suits suited, if_neg Bool.false_ne_true]
    rw [softenAfter, same, inductionHypothesis others]

/-- Any token may stand behind `previous`. -/
def Calm (inFrom : Bool) (previous : Option Token) : Prop := ∀ token, suits inFrom previous token = true

/-- The tokens stand where they may if no name is wanted before them, and no name is wanted behind
them. They leave the levels around as they were, and their own as told. -/
structure Passes (inFrom last : Bool) (word : List Token) : Prop where
  fits : ∀ outer previous, Calm inFrom previous → Fits ⟨inFrom, outer⟩ previous word
  level : ∀ outer, FromLevels.through ⟨inFrom, outer⟩ word = ⟨last, outer⟩
  calm : ∀ previous, Calm inFrom previous → Calm last (lastOf previous word)

/-- The tokens begin with a name, and so they stand where they may in any case. -/
def IsNamed (inFrom : Bool) (word : List Token) : Prop :=
  ∃ name rest, word = .identifier name :: rest ∧ Passes inFrom inFrom rest

/-- The token touches no level, and no name is wanted behind it. -/
def Token.isIdle : Token → Bool
  | .mark .leftParen | .mark .rightParen | .mark .dot | .mark .comma => false
  | .keyword .fromKw | .keyword .select | .keyword .whereKw | .keyword .order | .keyword .setKw => false
  | .keyword .join | .keyword .fetch | .keyword .update | .keyword .delete => false
  | _ => true

namespace Passes

variable {inFrom middle last : Bool} {word others : List Token} {token : Token}

/-- No tokens change nothing. -/
theorem nil : Passes inFrom inFrom [] := ⟨fun _ _ _ => trivial, fun _ => rfl, fun _ calm => calm⟩

/-- Tokens in a row pass through the level in between. -/
theorem append (first : Passes inFrom middle word) (second : Passes middle last others) :
    Passes inFrom last (word ++ others) := by
  refine ⟨fun outer previous calm => ?_, fun outer => ?_, fun previous calm => ?_⟩
  · rw [fits_append, first.level]
    exact ⟨first.fits outer previous calm, second.fits outer _ (first.calm previous calm)⟩
  · rw [FromLevels.through_append, first.level, second.level]
  · rw [lastOf_append]
    exact second.calm _ (first.calm previous calm)

/-- A token behind which no name is wanted. -/
theorem single (level : ∀ outer, FromLevels.after ⟨inFrom, outer⟩ token = ⟨last, outer⟩)
    (calm : Calm last (some token)) : Passes inFrom last [token] :=
  ⟨fun _ _ before => ⟨before token, trivial⟩, level, fun _ _ => calm⟩

/-- An idle token leaves its level. -/
theorem idle (harmless : token.isIdle = true) : Passes inFrom inFrom [token] := by
  refine single (fun outer => ?_) fun next => ?_
  · unfold Token.isIdle at harmless
    unfold FromLevels.after
    split at harmless <;> simp_all
  · unfold Token.isIdle at harmless
    unfold suits
    split at harmless <;> simp_all

/-- An idle token may stand in front. -/
theorem behindIdle (harmless : token.isIdle = true) (passes : Passes inFrom last word) :
    Passes inFrom last (token :: word) :=
  (idle harmless).append passes

/-- An idle token may stand or be left out. -/
theorem idleIf (present : Bool) (harmless : token.isIdle = true) :
    Passes inFrom inFrom (Grammar.tokenIf present token) := by
  cases present with
  | false => exact nil
  | true => exact idle harmless

/-- Whatever parentheses enclose has a level of its own. -/
theorem parenthesised (inside : Passes false last word) :
    Passes inFrom inFrom (Grammar.parenthesised word) := by
  have opened : Calm false (some (.mark .leftParen)) := fun token => by simp [suits]
  have closed : Calm inFrom (some (.mark .rightParen)) := fun token => by simp [suits]
  refine ⟨fun outer previous calm => ?_, fun outer => ?_, fun previous _ => ?_⟩
  · refine ⟨calm _, fits_append.mpr ⟨inside.fits _ _ opened, ?_, trivial⟩⟩
    rw [FromLevels.after, inside.level]
    exact inside.calm _ opened _
  · have within : FromLevels.through ⟨inFrom, outer⟩ (.mark .leftParen :: word) =
        ⟨last, inFrom :: outer⟩ := inside.level (inFrom :: outer)
    rw [Grammar.parenthesised, FromLevels.through_append, within]
    rfl
  · rw [Grammar.parenthesised, lastOf_append]
    exact closed

end Passes

/-- Anything may stand behind a name. -/
theorem calm_identifier (inFrom : Bool) (name : String) : Calm inFrom (some (.identifier name)) :=
  fun token => by simp [suits]

namespace IsNamed

variable {inFrom last : Bool} {word others : List Token}

/-- A phrase that begins with a name stands where it may. -/
theorem passes (named : IsNamed inFrom word) : Passes inFrom inFrom word := by
  obtain ⟨name, rest, rfl, passes⟩ := named
  exact passes.behindIdle rfl

/-- What follows a phrase that begins with a name may pass behind it. -/
theorem append (named : IsNamed inFrom word) (passes : Passes inFrom inFrom others) :
    IsNamed inFrom (word ++ others) := by
  obtain ⟨name, rest, rfl, first⟩ := named
  exact ⟨name, rest ++ others, rfl, first.append passes⟩

/-- Behind a token a name may stand in any case. -/
theorem behind {token : Token} (named : IsNamed last word)
    (level : ∀ outer, FromLevels.after ⟨inFrom, outer⟩ token = ⟨last, outer⟩) :
    Passes inFrom last (token :: word) := by
  obtain ⟨name, rest, rfl, passes⟩ := named
  have calm := calm_identifier last name
  refine ⟨fun outer previous before => ⟨before token, rfl, ?_⟩, fun outer => ?_, fun previous _ => ?_⟩
  · rw [level]
    exact passes.fits outer _ calm
  · rw [FromLevels.through_cons, level, FromLevels.through_cons]
    exact passes.level outer
  · rw [lastOf_cons, lastOf_cons]
    exact passes.calm _ calm

/-- Between a token and a name there may be a keyword that the rules have there. -/
theorem behindBoth {first second : Token} (named : IsNamed last word)
    (levelFirst : ∀ outer, FromLevels.after ⟨inFrom, outer⟩ first = ⟨inFrom, outer⟩)
    (suited : suits inFrom (some first) second = true)
    (levelSecond : ∀ outer, FromLevels.after ⟨inFrom, outer⟩ second = ⟨last, outer⟩) :
    Passes inFrom last (first :: second :: word) := by
  have behind : Passes inFrom last (second :: word) := named.behind levelSecond
  obtain ⟨name, rest, rfl, passes⟩ := named
  have calm := calm_identifier last name
  refine ⟨fun outer previous before => ⟨before first, ?_, rfl, ?_⟩, fun outer => ?_, fun previous _ => ?_⟩
  · rwa [levelFirst]
  · rw [levelFirst, levelSecond]
    exact passes.fits outer _ calm
  · rw [FromLevels.through_cons, levelFirst]
    exact behind.level outer
  · rw [lastOf_cons, lastOf_cons, lastOf_cons]
    exact passes.calm _ calm

end IsNamed

namespace Grammar

/-! ## Expressions -/

/-- A literal is an idle token. -/
theorem isIdle_of_literalOf? {token : Token} {value : Literal} (denotes : literalOf? token = some value) :
    token.isIdle = true := by
  unfold literalOf? at denotes
  split at denotes <;> first | rfl | cases denotes

/-- So is an operator of a product. -/
theorem isIdle_of_productOp? {token : Token} {op : ArithmeticOp}
    (operator : productOp? token = some op) : token.isIdle = true := by
  unfold productOp? at operator
  split at operator <;> first | rfl | cases operator

/-- So is an operator of a sum. -/
theorem isIdle_of_sumOp? {token : Token} {op : ArithmeticOp} (operator : sumOp? token = some op) :
    token.isIdle = true := by
  unfold sumOp? at operator
  split at operator <;> first | rfl | cases operator

/-- So is a comparison. -/
theorem isIdle_of_comparisonOp? {token : Token} {op : ComparisonOp}
    (operator : comparisonOp? token = some op) : token.isIdle = true := by
  unfold comparisonOp? at operator
  split at operator <;> first | rfl | cases operator

variable {inFrom : Bool}

mutual

/-- An atom leaves its level. -/
theorem isAtom_passes : ∀ {inFrom : Bool} {word : List Token} {expr : Expr}, IsAtom word expr →
    Passes inFrom inFrom word
  | _, _, _, .literal denotes => .idle (isIdle_of_literalOf? denotes)
  | _, _, _, .named _ => .behindIdle rfl (.idle rfl)
  | _, _, _, .unnumbered => .idle rfl
  | _, _, _, .numbered _ => .behindIdle rfl (.idle rfl)
  | _, _, _, .callStar _ distinct =>
    .behindIdle rfl (.parenthesised (.append (.idleIf distinct rfl) (.idle rfl)))
  | _, _, _, .call _ distinct inside =>
    .behindIdle rfl (.parenthesised (.append (.idleIf distinct rfl) (isSum_passes inside)))
  | _, _, _, .path followed => (isPath_named followed).passes
  | _, _, _, .grouped inside => .parenthesised (isSum_passes inside)

/-- A path begins with a name. -/
theorem isPath_named : ∀ {inFrom : Bool} {word : List Token} {route : Path Expr}, IsPath word route →
    IsNamed inFrom word
  | _, _, _, .mk begins follows => (isPart_named begins).append (isParts_passes follows)

/-- A part of a path begins with a name. -/
theorem isPart_named : ∀ {inFrom : Bool} {word : List Token} {part : PathPart Expr}, IsPart word part →
    IsNamed inFrom word
  | _, _, _, .plain name => ⟨name, [], rfl, .nil⟩
  | _, _, _, .indexed name inside =>
    ⟨name, _, rfl, .behindIdle rfl (.append (isSum_passes inside) (.idle rfl))⟩

/-- Further parts leave their level. -/
theorem isParts_passes : ∀ {inFrom : Bool} {word : List Token} {parts : List (PathPart Expr)},
    IsParts word parts → Passes inFrom inFrom word
  | _, _, _, .nil => .nil
  | _, _, _, .cons first follows =>
    .append ((isPart_named first).behind fun _ => rfl) (isParts_passes follows)

/-- A signed operand leaves its level. -/
theorem isSigned_passes : ∀ {inFrom : Bool} {word : List Token} {expr : Expr}, IsSigned word expr →
    Passes inFrom inFrom word
  | _, _, _, .atom plain => isAtom_passes plain
  | _, _, _, .negate inside => .behindIdle rfl (isSigned_passes inside)

/-- A product leaves its level. -/
theorem isProduct_passes : ∀ {inFrom : Bool} {word : List Token} {expr : Expr}, IsProduct word expr →
    Passes inFrom inFrom word
  | _, _, _, .one single => isSigned_passes single
  | _, _, _, .more first operator second => .append (isProduct_passes first)
    (.behindIdle (isIdle_of_productOp? operator) (isSigned_passes second))

/-- A sum leaves its level. -/
theorem isSum_passes : ∀ {inFrom : Bool} {word : List Token} {expr : Expr}, IsSum word expr →
    Passes inFrom inFrom word
  | _, _, _, .one single => isProduct_passes single
  | _, _, _, .more first operator second => .append (isSum_passes first)
    (.behindIdle (isIdle_of_sumOp? operator) (isProduct_passes second))

end

/-! ## Clauses without conditions -/

/-- Outside from-clauses a comma is like any sign between operands. -/
theorem isSeparated_passes {α : Type} {IsItem : Phrase α} {word : List Token} {items : List α}
    (passes : ∀ ⦃word item⦄, IsItem word item → Passes false false word)
    (separated : IsSeparated IsItem word items) : Passes false false word := by
  have comma : Passes false false [Token.mark .comma] :=
    .single (fun _ => rfl) fun token => by simp [suits]
  induction separated with
  | one first => exact passes first
  | more first _ inductionHypothesis => exact .append (passes first) (comma.append inductionHypothesis)

/-- A label leaves its level. -/
theorem isLabel_passes {word : List Token} {label : Option (Spanned String)}
    (labelled : IsLabel word label) : Passes inFrom inFrom word := by
  cases labelled with
  | none => exact .nil
  | some spelled name => exact .append (.idleIf spelled rfl) (.idle rfl)

/-- A root begins with a name. -/
theorem isRoot_named {word : List Token} {root : RootRef} (rooted : IsRoot word root) :
    IsNamed inFrom word := by
  obtain ⟨first, rest, labelled⟩ := rooted
  have dotted : Passes inFrom inFrom
      (rest.flatMap fun name => [Token.mark .dot, Token.identifier name]) := by
    induction rest with
    | nil => exact .nil
    | cons name rest inductionHypothesis =>
      have part : IsNamed inFrom [Token.identifier name] := ⟨name, [], rfl, .nil⟩
      exact .append (part.behind fun _ => rfl) inductionHypothesis
  exact ⟨first, _, rfl, dotted.append (isLabel_passes labelled)⟩

/-- A select list stands where it may on any level. -/
theorem isSelect_passes {word : List Token} {select : Option SelectClause}
    (selects : IsSelect word select) : ∃ last, Passes inFrom last word := by
  cases selects with
  | none => exact ⟨inFrom, .nil⟩
  | some distinct listed =>
    have keyword : Passes inFrom false [Token.keyword .select] :=
      .single (fun _ => rfl) fun token => by simp [suits]
    have items := isSeparated_passes (fun _ _ selection => by
      obtain ⟨selected, labelled⟩ := selection
      exact (isSum_passes selected).append (isLabel_passes labelled)) listed
    exact ⟨false, .append (.append keyword (.idleIf distinct rfl)) items⟩

/-- The words of a join leave their level. -/
theorem isJoinKind_passes {word : List Token} {kind : JoinKind} (spoken : IsJoinKind word kind) :
    Passes inFrom inFrom word := by
  cases spoken with
  | unspoken => exact .nil
  | inner => exact .idle rfl
  | leftOuter spelled => exact .behindIdle rfl (.idleIf spelled rfl)
  | cross => exact .idle rfl

/-- Behind `join` there is a name, or `fetch` and a name. -/
theorem passes_join (fetch : Bool) {word : List Token} (named : IsNamed inFrom word) :
    Passes inFrom inFrom (.keyword .join :: tokenIf fetch (.keyword .fetch) ++ word) := by
  cases fetch with
  | false => exact named.behind fun _ => rfl
  | true => exact named.behindBoth (fun _ => rfl) rfl fun _ => rfl

/-! ## Conditions and queries -/

/-- What is tested, whether the test is negated, and the word that says what is tested. -/
theorem passes_test {word others : List Token} {tested : Expr} (negated : Bool) {token : Token}
    (first : IsSum word tested) (harmless : token.isIdle = true) (second : Passes inFrom inFrom others) :
    Passes inFrom inFrom (word ++ tokenIf negated (.keyword .notKw) ++ token :: others) :=
  .append (.append (isSum_passes first) (.idleIf negated rfl)) (.behindIdle harmless second)

mutual

/-- A predicate leaves its level. -/
theorem isPredicate_passes : ∀ {inFrom : Bool} {word : List Token} {predicate : Predicate},
    IsPredicate word predicate → Passes inFrom inFrom word
  | _, _, _, .one single => isConjunction_passes single
  | _, _, _, .more first second =>
    .append (isPredicate_passes first) (.behindIdle rfl (isConjunction_passes second))

/-- A conjunction leaves its level. -/
theorem isConjunction_passes : ∀ {inFrom : Bool} {word : List Token} {predicate : Predicate},
    IsConjunction word predicate → Passes inFrom inFrom word
  | _, _, _, .one single => isNegation_passes single
  | _, _, _, .more first second =>
    .append (isConjunction_passes first) (.behindIdle rfl (isNegation_passes second))

/-- A negation leaves its level. -/
theorem isNegation_passes : ∀ {inFrom : Bool} {word : List Token} {predicate : Predicate},
    IsNegation word predicate → Passes inFrom inFrom word
  | _, _, _, .one single => isCondition_passes single
  | _, _, _, .not inside => .behindIdle rfl (isNegation_passes inside)

/-- A condition leaves its level. -/
theorem isCondition_passes : ∀ {inFrom : Bool} {word : List Token} {predicate : Predicate},
    IsCondition word predicate → Passes inFrom inFrom word
  | _, _, _, .grouped inside => .parenthesised (isPredicate_passes inside)
  | _, _, _, .compare first operator second => .append (isSum_passes first)
    (.behindIdle (isIdle_of_comparisonOp? operator) (isSum_passes second))
  | _, _, _, .isNull negated tested =>
    .append (.append (isSum_passes tested) (.behindIdle rfl (.idleIf negated rfl))) (.idle rfl)
  | _, _, _, .inQuery negated tested inside => by
    obtain ⟨last, passes⟩ := isQuery_passes inside
    exact passes_test negated tested rfl (.parenthesised (passes false))
  | _, _, _, .inList negated tested inside =>
    passes_test negated tested rfl
      (.parenthesised (isSeparated_passes (fun _ _ value => isSum_passes value) inside))
  | _, _, _, .memberOf negated spelled tested followed =>
    .append (passes_test negated tested rfl (.idleIf spelled rfl)) (isPath_named followed).passes
  | _, _, _, .like negated tested matched => passes_test negated tested rfl (isSum_passes matched)
  | _, _, _, .between negated tested least most =>
    .append (passes_test negated tested rfl (isSum_passes least))
      (.behindIdle rfl (isSum_passes most))

/-- A query ends on a level that does not depend on the one it begins on. -/
theorem isQuery_passes : ∀ {word : List Token} {query : Query Predicate}, IsQuery word query →
    ∃ last, ∀ inFrom, Passes inFrom last word
  | _, _, .mk selects sources filters => by
    obtain ⟨last, filtered⟩ := @isWhere_passes true _ _ filters
    refine ⟨last, fun inFrom => ?_⟩
    obtain ⟨middle, chosen⟩ := @isSelect_passes inFrom _ _ selects
    have listed : Passes middle true (.keyword .fromKw :: _) := (isSpaces_named sources).behind fun _ => rfl
    exact .append (.append chosen listed) filtered

/-- A where-clause stands where it may. -/
theorem isWhere_passes : ∀ {inFrom : Bool} {word : List Token} {filter : Option Predicate},
    IsWhere word filter → ∃ last, Passes inFrom last word
  | inFrom, _, _, .none => ⟨inFrom, .nil⟩
  | inFrom, _, _, .some holds => by
    have keyword : Passes inFrom false [Token.keyword .whereKw] :=
      .single (fun _ => rfl) fun token => by simp [suits]
    exact ⟨false, keyword.append (isPredicate_passes holds)⟩

/-- The items of a from-clause begin with a name. -/
theorem isSpaces_named : ∀ {word : List Token} {spaces : List (FromSpace Predicate)},
    IsSpaces word spaces → IsNamed true word
  | _, _, .one first => isSpace_named first
  | _, _, .more first rest => (isSpace_named first).append ((isSpaces_named rest).behind fun _ => rfl)

/-- So does each of them. -/
theorem isSpace_named : ∀ {word : List Token} {space : FromSpace Predicate}, IsSpace word space →
    IsNamed true word
  | _, _, .mk begins joined => (isRoot_named begins).append (isJoins_passes joined)

/-- Joins leave the level of their from-clause. -/
theorem isJoins_passes : ∀ {word : List Token} {joins : List (Join Predicate)}, IsJoins word joins →
    Passes true true word
  | _, _, .nil => .nil
  | _, _, .cons first rest => .append (isJoin_passes first) (isJoins_passes rest)

/-- So does each of them. -/
theorem isJoin_passes : ∀ {word : List Token} {join : Join Predicate}, IsJoin word join →
    Passes true true word
  | _, _, .mk fetch spoken followed labelled conditioned => by
    have target := passes_join fetch (@isPath_named true _ _ followed)
    have further := (isLabel_passes labelled).append (isOn_passes conditioned)
    have whole := (isJoinKind_passes spoken).append (target.append further)
    simpa only [List.append_assoc, List.cons_append] using whole

/-- So does the condition of a join. -/
theorem isOn_passes : ∀ {word : List Token} {filter : Option Predicate}, IsOn word filter →
    Passes true true word
  | _, _, .none => .nil
  | _, _, .some introduced holds => by
    refine .behindIdle ?_ (isPredicate_passes holds)
    rcases introduced with rfl | rfl <;> rfl

end

/-! ## Statements -/

/-- Assignments leave their level. -/
theorem isAssignments_passes {word : List Token} {assignments : List Assignment}
    (assigned : IsSeparated IsAssignment word assignments) : Passes false false word :=
  isSeparated_passes (fun _ _ assignment => by
    obtain ⟨followed, value⟩ := assignment
    exact (isPath_named followed).passes.append (.behindIdle rfl (isSum_passes value))) assigned

/-- An order clause stands where it may. -/
theorem isOrder_passes {word : List Token} {keys : List SortSpec} (ordered : IsOrder word keys) :
    ∃ last, Passes inFrom last word := by
  cases ordered with
  | none => exact ⟨inFrom, .nil⟩
  | some listed =>
    have keyword : Passes inFrom false [Token.keyword .order] :=
      .single (fun _ => rfl) fun token => by simp [suits]
    have sorted := isSeparated_passes (fun _ _ key => by
      obtain ⟨sorted, directed⟩ := key
      refine (isSum_passes sorted).append ?_
      cases directed with
      | none => exact .nil
      | ascending => exact .idle rfl
      | descending => exact .idle rfl) listed
    exact ⟨false, keyword.append (.behindIdle rfl sorted)⟩

/-- In a statement no keyword stands where a name is wanted. -/
theorem isStatement_fits {word : List Token} {tree : Statement} (derived : IsStatement word tree) :
    Fits .start none word := by
  have calm : Calm false none := fun token => by simp [suits]
  suffices passes : ∃ last, Passes false last word by
    obtain ⟨last, passes⟩ := passes
    exact passes.fits [] none calm
  cases derived with
  | select queried ordered =>
    obtain ⟨middle, passes⟩ := isQuery_passes queried
    obtain ⟨last, sorted⟩ := isOrder_passes ordered
    exact ⟨last, (passes false).append sorted⟩
  | update targeted assigned filters =>
    have target : Passes false false (.keyword .update :: _) :=
      (isRoot_named targeted).behind fun _ => rfl
    have keyword : Passes false false [Token.keyword .setKw] :=
      .single (fun _ => rfl) fun token => by simp [suits]
    obtain ⟨last, filtered⟩ := @isWhere_passes false _ _ filters
    exact ⟨last, .append (.append target (keyword.append (isAssignments_passes assigned))) filtered⟩
  | delete spelled targeted filters =>
    cases spelled with
    | false =>
      obtain ⟨last, filtered⟩ := @isWhere_passes false _ _ filters
      have target : Passes false false (.keyword .delete :: _) :=
        (isRoot_named targeted).behind fun _ => rfl
      exact ⟨last, target.append filtered⟩
    | true =>
      obtain ⟨last, filtered⟩ := @isWhere_passes true _ _ filters
      have target : Passes false true (.keyword .delete :: .keyword .fromKw :: _) :=
        (isRoot_named targeted).behindBoth (fun _ => rfl) rfl fun _ => rfl
      exact ⟨last, target.append filtered⟩

/-- Lexemes that are read as a statement have no keyword where a name is wanted. -/
theorem fits_of_ofLexemes {size : Nat} {lexemes : List Lexeme} {tree : Statement}
    (read : Statement.ofLexemes size lexemes = .ok tree) :
    Fits .start none (lexemes.map (·.token)) := by
  obtain ⟨rest, taken⟩ := ofLexemes_eq_ok.mp read
  exact isStatement_fits (statement_sound taken)

/-- Softening leaves alone what is a statement already. Of any other tokens it keeps the number, the
places and all that are no keywords; a keyword it may read as the name that is spelled in its place;
and a second time it changes nothing. -/
theorem soften_disturbs_nothing :
    (∀ (size : Nat) (lexemes : List Lexeme) (tree : Statement),
      Statement.ofLexemes size lexemes = .ok tree → Lexeme.soften lexemes = lexemes) ∧
    (∀ (source : String) (lexemes : List Lexeme), Lexeme.scan source = .ok lexemes →
      (Lexeme.soften lexemes).map Lexeme.inPlace =
        Lexeme.softenIn source .start none (lexemes.map Lexeme.inPlace)) ∧
    ∀ (source : String) (tokens : List (Token × Span)),
      List.Forall₂ (Lexeme.MaySoften source) tokens (Lexeme.softenIn source .start none tokens) ∧
      Lexeme.softenIn source .start none (Lexeme.softenIn source .start none tokens) =
        Lexeme.softenIn source .start none tokens := by
  refine ⟨fun size lexemes tree read => ?_, fun source lexemes scanned => ?_, fun source tokens => ?_⟩
  · exact Lexeme.softenAfter_of_fits (fits_of_ofLexemes read)
  · exact Lexeme.softenAfter_inPlace .start none lexemes (Lexeme.scan_part? scanned)
  · exact ⟨Lexeme.softenIn_keeps .start none tokens, Lexeme.softenIn_softenIn .start none tokens⟩

/-- Commas stand here between items of a from-clause and, before a keyword, between values. -/
theorem soften_disturbs_nothing_commas : ∃ lexemes tree,
    Lexeme.scan "from Fund f, Account a where a.open in (f.open, null)" = .ok lexemes ∧
    Statement.ofLexemes 52 lexemes = .ok tree ∧ Lexeme.soften lexemes = lexemes ∧
    (Lexeme.soften lexemes).map Lexeme.inPlace =
      Lexeme.softenIn "from Fund f, Account a where a.open in (f.open, null)" .start none
        (lexemes.map Lexeme.inPlace) := by
  have accepted : ((Lexeme.scan "from Fund f, Account a where a.open in (f.open, null)").bind
      (Statement.ofLexemes 52)).isOk = true := by decide +kernel
  obtain ⟨tree, read⟩ : ∃ tree, (Lexeme.scan "from Fund f, Account a where a.open in (f.open, null)").bind
      (Statement.ofLexemes 52) = .ok tree := by
    generalize (Lexeme.scan _).bind (Statement.ofLexemes 52) = result at accepted ⊢
    cases result with
    | error failure => cases accepted
    | ok tree => exact ⟨tree, rfl⟩
  obtain ⟨lexemes, scanned, formed⟩ := except_bind_ok.mp read
  obtain ⟨spares, agrees, _⟩ := soften_disturbs_nothing
  exact ⟨lexemes, tree, scanned, formed, spares 52 lexemes tree formed, agrees _ lexemes scanned⟩

end Grammar
end ObjectQuery
