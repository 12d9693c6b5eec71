import ObjectQuery.Proofs.Grammar.NamePositions
/-!
# Where sources start

Softening takes a comma to stand between items of a from-clause if the level it is on says so. In a
statement every source of a query starts on a level that is inside a from-clause, whatever the items
before it contain: sub-queries have levels of their own, and no clause of theirs ends that of the
query around them.
-/
namespace ObjectQuery.Grammar

open Reader

/-- The lexemes turn one level into another, and leave those around it alone. Where each of the places
starts the level is inside a from-clause. -/
structure Sited (places : List Span) (inFrom last : Bool) (used : List Lexeme) : Prop where
  level : ∀ outer, FromLevels.through ⟨inFrom, outer⟩ (tokens used) = ⟨last, outer⟩
  starts : ∀ place ∈ places, ∃ before lexeme behind, used = before ++ lexeme :: behind ∧
    lexeme.span.start = place.start ∧
      ∀ outer, (FromLevels.through ⟨inFrom, outer⟩ (tokens before)).current = true

namespace Sited

variable {places others : List Span} {inFrom middle last : Bool} {used further : List Lexeme}

/-- Without sources only the levels matter. -/
theorem plain (level : ∀ outer, FromLevels.through ⟨inFrom, outer⟩ (tokens used) = ⟨last, outer⟩) :
    Sited [] inFrom last used :=
  ⟨level, by simp⟩

/-- No lexemes hold no source. -/
theorem nil : Sited [] inFrom inFrom [] := plain fun _ => rfl

/-- Lexemes that leave the level hold no source. -/
theorem passes (passes : Passes inFrom last (tokens used)) : Sited [] inFrom last used :=
  plain passes.level

/-- A single token that introduces nothing holds no source. -/
theorem token {token : Token} (spelled : tokens used = [token])
    (level : ∀ outer, FromLevels.after ⟨inFrom, outer⟩ token = ⟨last, outer⟩) :
    Sited [] inFrom last used :=
  plain fun outer => by rw [spelled]; exact level outer

/-- Sources are found in two stretches one behind the other. -/
theorem append (first : Sited places inFrom middle used) (second : Sited others middle last further) :
    Sited (places ++ others) inFrom last (used ++ further) := by
  refine ⟨fun outer => ?_, fun place member => ?_⟩
  · rw [tokens_append, FromLevels.through_append, first.level, second.level]
  · rcases List.mem_append.mp member with member | member
    · obtain ⟨before, lexeme, behind, rfl, start, level⟩ := first.starts place member
      exact ⟨before, lexeme, behind ++ further, by simp, start, level⟩
    · obtain ⟨before, lexeme, behind, rfl, start, level⟩ := second.starts place member
      refine ⟨used ++ before, lexeme, behind, by simp, start, fun outer => ?_⟩
      rw [tokens_append, FromLevels.through_append, first.level]
      exact level outer

/-- A stretch without sources in front changes nothing. -/
theorem skip (first : Sited [] inFrom middle used) (second : Sited others middle last further) :
    Sited others inFrom last (used ++ further) :=
  first.append second

/-- The place of all the lexemes starts where the first of them does. -/
theorem whole (nonempty : used ≠ []) (sited : Sited places true last used) :
    Sited (spanOf used :: places) true last used := by
  obtain ⟨first, rest, rfl⟩ := List.exists_cons_of_ne_nil nonempty
  exact ⟨sited.level, List.forall_mem_cons.mpr
    ⟨⟨[], first, rest, rfl, rfl, fun _ => rfl⟩, sited.starts⟩⟩

/-- Parentheses have a level of their own, on which no from-clause has begun. -/
theorem parenthesised {opened closed : List Lexeme} (opening : tokens opened = [.mark .leftParen])
    (inside : Sited places false last used) (closing : tokens closed = [.mark .rightParen]) :
    Sited places inFrom inFrom (opened ++ (used ++ closed)) := by
  refine ⟨fun outer => ?_, fun place member => ?_⟩
  · simp only [tokens_append, FromLevels.through_append, opening, closing]
    exact congrArg (FromLevels.after · (.mark .rightParen)) (inside.level (inFrom :: outer))
  · obtain ⟨before, lexeme, behind, rfl, start, level⟩ := inside.starts place member
    refine ⟨opened ++ before, lexeme, behind ++ closed, by simp, start, fun outer => ?_⟩
    rw [tokens_append, FromLevels.through_append, opening]
    exact level (inFrom :: outer)

end Sited

/-- What stands in parentheses starts outside any clause. -/
theorem parenthesised_sited {α : Type} {reader : Reader α} {places : α → List Span}
    (gives : Gives reader fun used found => ∃ last, Sited (places found) false last used) :
    Gives (Reader.between .leftParen .rightParen reader) fun used found =>
      ∀ inFrom, Sited (places found) inFrom inFrom used := by
  refine .bind (.token _) fun _ opened opening => .bind gives fun found used told => ?_
  refine .map (.token _) fun closed _ closing inFrom => ?_
  obtain ⟨last, inside⟩ := told
  exact .parenthesised opening inside closing

/-! ## Conditions and queries -/

/-- A root is one source. -/
theorem rootRef_sited : Gives rootRef fun used root => Sited [root.span] true true used := by
  refine (rootRef_spans.and rootRef_gives).weaken fun used root told => ?_
  obtain ⟨⟨nonempty, place⟩, rooted⟩ := told
  rw [place]
  exact .whole nonempty (.plain fun outer => (isRoot_named rooted).passes.level outer)

section Conditions

variable {inner : Reader Predicate}
  (gives : Gives inner fun used found => ∀ inFrom, Sited found.places inFrom inFrom used)

include gives in
/-- A filter holds the sources of its sub-queries and ends its clause. -/
theorem filter_sited {opening : Reader Unit} {inFrom middle : Bool}
    (introduced : Gives opening fun used _ => Sited [] inFrom middle used) :
    Gives (Reader.optional (do opening; inner)) fun used found =>
      ∃ last, (last = inFrom ∨ last = middle) ∧ Sited (filterPlaces found) inFrom last used := by
  have spoken : Gives (do opening; inner) fun used found => Sited found.places inFrom middle used :=
    .bind introduced fun _ _ sited => gives.weaken fun _ _ told => sited.skip (told middle)
  refine (Gives.optional spoken).weaken fun used found told => ?_
  cases found with
  | none =>
    obtain rfl := told
    exact ⟨inFrom, .inl rfl, .nil⟩
  | some found => exact ⟨middle, .inr rfl, told⟩

/-- A condition is introduced by a word that leaves a from-clause be, or that ends it. -/
theorem word_sited {inFrom last : Bool} (word : Keyword)
    (level : ∀ outer, FromLevels.after ⟨inFrom, outer⟩ (.keyword word) = ⟨last, outer⟩) :
    Gives (keyword word) fun used _ => Sited [] inFrom last used :=
  (Gives.token _).weaken fun _ _ spelled => .token spelled level

include gives in
/-- A join is one source, with those of its condition behind. -/
theorem join_sited : Gives (join inner) fun used found =>
    Sited (found.span :: filterPlaces found.predicate) true true used := by
  refine .bind (.spanned (fun used found => used ≠ [] ∧
    Sited (filterPlaces found.2.2.2.2) true true used) ?_)
    fun ⟨⟨kind, fetch, target, label, condition⟩, span⟩ used told => .pure ?_
  · refine .bind joinKind_gives fun kind first spoken => .bind (.token _) fun _ second spelled => ?_
    refine .bind (.flag _) fun fetch third marked => ?_
    refine .bind (path_gives expression_gives) fun target fourth followed => ?_
    refine .bind label_gives fun label fifth labelled => ?_
    have introduced := (word_sited .withKw fun _ => rfl).orElse (@word_sited true true .onKw fun _ => rfl)
    refine .map (filter_sited gives introduced) fun sixth condition told => ?_
    obtain ⟨last, same, filtered⟩ := told
    obtain rfl : last = true := by simpa using same
    refine ⟨by simp [ne_nil_of_tokens spelled], ?_⟩
    have word : tokens (second ++ (third ++ fourth)) =
        .keyword .join :: tokenIf fetch (.keyword .fetch) ++ tokens fourth := by
      simp [spelled, marked, tokenIf]
    have joined : Sited [] true true (second ++ (third ++ fourth)) :=
      .passes (word ▸ passes_join fetch (isPath_named followed))
    have behind := joined.skip ((Sited.passes (isLabel_passes labelled)).skip filtered)
    have whole := (Sited.passes (isJoinKind_passes spoken)).skip behind
    simpa only [List.append_assoc] using whole
  · obtain ⟨⟨nonempty, sited⟩, place⟩ := told
    obtain rfl : span = spanOf used := place
    rw [List.append_nil]
    exact .whole nonempty sited

/-- Joins hold their sources in the order they are written. -/
theorem joins_sited : ∀ {joins : List (Join Predicate)} {used : List Lexeme},
    Successively (fun used found => Sited (found.span :: filterPlaces found.predicate) true true used)
      used joins → Sited (joinPlaces joins) true true used
  | [], _, rfl => .nil
  | ⟨_, _, _, _, _, _⟩ :: joins, _, ⟨first, others, rfl, sited, rest⟩ => by
    simpa [joinPlaces] using sited.append (joins_sited rest)

include gives in
/-- A space starts at its root, with those of its joins behind. -/
theorem fromSpace_sited : Gives (fromSpace inner) fun used found =>
    Sited (found.root.span :: joinPlaces found.joins) true true used := by
  refine .bind (.spanned (fun used found =>
    Sited (found.1.span :: joinPlaces found.2) true true used) ?_)
    fun ⟨⟨root, joins⟩, span⟩ used told => .pure ?_
  · refine .bind rootRef_sited fun root before sited => ?_
    exact .map (.many _ (join_sited gives)) fun used joins told => sited.append (joins_sited told)
  · rw [List.append_nil]
    exact told.1

/-- Spaces hold their sources in the order they are written. -/
theorem spaces_sited : ∀ {spaces : List (FromSpace Predicate)} {used : List Lexeme},
    Successively (fun used found => Sited (found.root.span :: joinPlaces found.joins) true true used)
      used spaces → Sited (spacePlaces spaces) true true used
  | [], _, rfl => .nil
  | ⟨_, _, _⟩ :: spaces, _, ⟨first, others, rfl, sited, rest⟩ => by
    simpa [spacePlaces] using sited.append (spaces_sited rest)

include gives in
/-- A clause starts its sources behind `from`. -/
theorem fromClause_sited : Gives (fromClause inner) fun used found =>
    ∀ inFrom, Sited (spacePlaces found.spaces) inFrom true used := by
  have behindComma : Gives (do mark .comma; fromSpace inner) fun used found =>
      Sited (found.root.span :: joinPlaces found.joins) true true used :=
    .bind (.token _) fun _ _ spelled => (fromSpace_sited gives).weaken fun _ _ sited =>
      (Sited.token spelled fun _ => rfl).skip sited
  refine .bind (.spanned (fun used spaces => ∀ inFrom, Sited (spacePlaces spaces) inFrom true used) ?_)
    fun ⟨spaces, span⟩ used told => .pure ?_
  · refine .bind (.token _) fun _ before spelled => .bind (fromSpace_sited gives) fun space used begun => ?_
    refine .map (.many _ behindComma) fun further spaces told inFrom => ?_
    exact (Sited.token spelled fun _ => rfl).skip (spaces_sited ⟨used, further, rfl, begun, told⟩)
  · rw [List.append_nil]
    exact told.1

include gives in
/-- A query holds the sources of its clauses. -/
theorem query_sited : Gives (query inner) fun used found =>
    ∀ inFrom, ∃ last, Sited (queryPlaces found) inFrom last used := by
  refine .bind (.spanned (fun used found => ∀ inFrom, ∃ last, Sited
    (queryPlaces ⟨found.1, found.2.1, found.2.2, .nowhere⟩) inFrom last used) ?_)
    fun ⟨⟨select, sources, filter⟩, span⟩ used told => .pure ?_
  · refine .bind selectClause_gives fun select first selects => ?_
    refine .bind (fromClause_sited gives) fun ⟨spaces, span⟩ second listed => ?_
    refine .map (filter_sited gives (@word_sited true false .whereKw fun _ => rfl))
      fun third filter told inFrom => ?_
    obtain ⟨last, _, filtered⟩ := told
    obtain ⟨middle, chosen⟩ := @isSelect_passes inFrom _ _ selects
    exact ⟨last, (Sited.passes chosen).skip ((listed middle).append filtered)⟩
  · rw [List.append_nil]
    exact told.1

/-- Whatever expression the tail completes, its sources are those of the tail. -/
def SitedTail (used : List Lexeme) (tail : Tail) : Prop :=
  ∀ inFrom span left, Sited (tail span left).places inFrom inFrom used

include gives in
/-- Behind `in` stand the sources of the sub-query. -/
theorem inTail_sited (negated : Bool) : Gives (inTail inner negated) SitedTail := by
  refine .bind (.token _) fun _ before spelled => .orElse ?_ ?_
  · refine .map (parenthesised_sited ((query_sited gives).weaken fun _ _ sited => sited false))
      fun used query sited inFrom span left => ?_
    exact (Sited.token spelled fun _ => rfl).skip (sited inFrom)
  · refine .map (between_gives _ _ (commaSeparated_gives expression_gives)) fun used values told => ?_
    obtain ⟨inside, separated, enclosed⟩ := told
    intro inFrom span left
    have passes := isSeparated_passes (fun _ _ value => isSum_passes value) separated
    refine (Sited.token spelled fun _ => rfl).skip (.passes ?_)
    rw [enclosed]
    exact .parenthesised passes

/-- No other test has sources. -/
theorem otherTail_sited (negated : Bool) :
    Gives (memberTail negated <|> likeTail negated <|> betweenTail negated) SitedTail := by
  refine .orElse ?_ (.orElse ?_ ?_)
  · refine .bind (.token _) fun _ first spelled => .bind (.optional (.token _)) fun mark second marked => ?_
    refine .map (path_gives expression_gives) fun third collection followed inFrom span left => ?_
    have spoken : Sited [] inFrom inFrom second := by
      cases mark with
      | none =>
        obtain rfl := marked
        exact .nil
      | some mark => exact .token marked fun _ => rfl
    exact (Sited.token spelled fun _ => rfl).skip (spoken.skip (.passes (isPath_named followed).passes))
  · refine .bind (.token _) fun _ before spelled => ?_
    refine .map expression_gives fun used pattern matched inFrom span left => ?_
    exact (Sited.token spelled fun _ => rfl).skip (.passes (isSum_passes matched))
  · refine .bind (.token _) fun _ first spelled => .bind expression_gives fun low second least => ?_
    refine .bind (.token _) fun _ third joined => ?_
    refine .map expression_gives fun fourth high most inFrom span left => ?_
    exact (Sited.token spelled fun _ => rfl).skip ((Sited.passes (isSum_passes least)).skip
      ((Sited.token joined fun _ => rfl).skip (.passes (isSum_passes most))))

include gives in
/-- What follows the operand of a condition holds the sources of its sub-query. -/
theorem tail_sited : Gives (comparisonTail <|> nullTail <|> negatableTail inner) SitedTail := by
  refine .orElse ?_ (.orElse ?_ ?_)
  · refine .bind (.item _) fun op before spelled => ?_
    refine .map expression_gives fun used right second inFrom span left => ?_
    obtain ⟨token, named, operator⟩ := spelled
    refine (Sited.passes ?_).skip (.passes (isSum_passes second))
    rw [named]
    exact .idle (isIdle_of_comparisonOp? operator)
  · refine .bind (.token _) fun _ first spelled => .bind (.flag _) fun negated second marked => ?_
    refine .map (.token _) fun third _ ending inFrom span left => ?_
    refine (Sited.token spelled fun _ => rfl).skip ((Sited.passes ?_).skip (.token ending fun _ => rfl))
    rw [marked]
    exact .idleIf negated rfl
  · refine .bind (.flag _) fun negated before marked => ?_
    refine (Gives.orElse (inTail_sited gives negated) (otherTail_sited negated)).weaken
      fun used tail sited inFrom span left => ?_
    refine (Sited.passes ?_).skip (sited inFrom span left)
    rw [marked]
    exact .idleIf negated rfl

include gives in
/-- A simple predicate holds the sources of its sub-queries. -/
theorem primaryPredicate_sited : Gives (primaryPredicate inner) fun used found =>
    ∀ inFrom, Sited found.places inFrom inFrom used := by
  refine .orElse ?_ (parenthesised_sited (gives.weaken fun _ _ sited => ⟨false, sited false⟩))
  refine .bind (.spanned (fun used found => ∀ span inFrom,
    Sited (found.2 span found.1).places inFrom inFrom used) ?_)
    fun ⟨⟨left, tail⟩, span⟩ used told => .pure ?_
  · refine .bind expression_gives fun left before tested => ?_
    refine .map (tail_sited gives) fun used tail sited span inFrom => ?_
    exact (Sited.passes (isSum_passes tested)).skip (sited inFrom span left)
  · rw [List.append_nil]
    exact told.1 span

include gives in
/-- A negated condition holds the sources of its sub-queries. -/
theorem negation_sited : Gives (negation inner) fun used found =>
    ∀ inFrom, Sited found.places inFrom inFrom used := by
  refine .bind (.many _ (.spanned _ (.token _))) fun words before spoken => ?_
  refine .map (primaryPredicate_sited gives) fun used operand sited inFrom => ?_
  induction words generalizing before with
  | nil =>
    obtain rfl := spoken
    exact sited inFrom
  | cons word words inductionHypothesis =>
    obtain ⟨first, others, rfl, ⟨spelled, _⟩, rest⟩ := spoken
    rw [List.append_assoc]
    exact (Sited.token spelled fun _ => rfl).skip (inductionHypothesis others rest)

/-- A row of conditions has the sources of all of them. -/
theorem connected_sited {word : Keyword} {combine : Span → Predicate → Predicate → Predicate}
    {operand : Reader Predicate} (harmless : (Token.keyword word).isIdle = true)
    (operands : Gives operand fun used found => ∀ inFrom, Sited found.places inFrom inFrom used)
    (joined : ∀ span left right, (combine span left right).places = left.places ++ right.places) :
    Gives (connected word combine operand) fun used found =>
      ∀ inFrom, Sited found.places inFrom inFrom used := by
  have behindWord : Gives (do keyword word; operand) fun used found =>
      ∀ inFrom, Sited found.places inFrom inFrom used := by
    refine .bind (.token _) fun _ before spelled => operands.weaken fun _ _ sited inFrom => ?_
    exact (Sited.passes (spelled ▸ .idle harmless)).skip (sited inFrom)
  refine .bind operands fun first used begun => ?_
  refine .map (.many _ behindWord) fun further rest told => ?_
  induction rest generalizing first used further with
  | nil =>
    obtain rfl := told
    rwa [List.append_nil]
  | cons next rest inductionHypothesis =>
    obtain ⟨before, others, rfl, sited, follows⟩ := told
    rw [← List.append_assoc]
    refine inductionHypothesis _ (used ++ before) (fun inFrom => ?_) others follows
    rw [joined _ first next]
    exact (begun inFrom).append (sited inFrom)

end Conditions

/-- A predicate holds the sources of its sub-queries. -/
theorem predicate_sited : Gives predicate fun used found =>
    ∀ inFrom, Sited found.places inFrom inFrom used :=
  .nested fun _ gives => connected_sited rfl
    (connected_sited rfl (negation_sited gives) fun _ _ _ => rfl) fun _ _ _ => rfl

/-! ## Statements -/

/-- Each of the places begins with one of the lexemes, and if this is behind a comma it is inside a
from-clause. -/
def Introduced (places : List Span) (used : List Lexeme) : Prop :=
  ∀ place ∈ places, ∃ before lexeme behind, used = before ++ lexeme :: behind ∧
    lexeme.span.start = place.start ∧ (lastOf none (tokens before) = some (.mark .comma) →
      (FromLevels.start.through (tokens before)).current = true)

/-- Sources found from outside a clause are introduced there. -/
theorem Sited.introduced {places : List Span} {last : Bool} {used : List Lexeme}
    (sited : Sited places false last used) : Introduced places used := by
  intro place member
  obtain ⟨before, lexeme, behind, split, start, level⟩ := sited.starts place member
  exact ⟨before, lexeme, behind, split, start, fun _ => level []⟩

/-- Lexemes behind change nothing about the sources in front. -/
theorem Introduced.stay {places : List Span} {used further : List Lexeme}
    (first : Introduced places used) : Introduced places (used ++ further) := by
  intro place member
  obtain ⟨before, lexeme, behind, rfl, told⟩ := first place member
  exact ⟨before, lexeme, behind ++ further, by simp, told⟩

/-- The target of a change is behind a keyword. -/
theorem target_introduced {root : RootRef} {before used behind : List Lexeme} {word : Keyword}
    {others : List Span} {last : Bool}
    (spoken : lastOf none (tokens before) = some (.keyword word)) (nonempty : used ≠ [])
    (place : root.span = spanOf used) (rest : Sited others false last (before ++ (used ++ behind))) :
    Introduced (root.span :: others) (before ++ (used ++ behind)) := by
  refine List.forall_mem_cons.mpr ⟨?_, rest.introduced⟩
  obtain ⟨lexeme, further, rfl⟩ := List.exists_cons_of_ne_nil nonempty
  refine ⟨before, lexeme, further ++ behind, rfl, by rw [place]; rfl, fun comma => ?_⟩
  rw [spoken] at comma
  cases comma

/-- A statement introduces each of its sources where it is written.

Proof: by cases on the statement. Behind `select` come the items that hold no source, and behind
`update` or `delete` comes the target. -/
theorem statement_introduced : Gives (selectStatement <|> updateStatement <|> deleteStatement)
    fun used found => Introduced found.places used := by
  refine .orElse ?_ (.orElse ?_ ?_)
  · refine .bind (query_sited predicate_sited) fun query before sited => ?_
    obtain ⟨last, sited⟩ := sited false
    exact .map (.optional (.behind _ (.behind _ (commaSeparated_gives sortSpec_gives))))
      fun _ _ _ => sited.introduced.stay
  · refine .bind (.token _) fun _ first spelled => ?_
    refine .bind (rootRef_spans.and rootRef_gives) fun target second told => ?_
    obtain ⟨⟨nonempty, place⟩, rooted⟩ := told
    refine .bind (.token _) fun _ third introduced => ?_
    refine .bind (commaSeparated_gives assignment_gives) fun assignments fourth assigned => ?_
    refine .map (filter_sited predicate_sited (@word_sited false false .whereKw fun _ => rfl))
      fun fifth filter told => ?_
    obtain ⟨last, _, filtered⟩ := told
    have changed : Sited _ false last (third ++ _) := (Sited.token introduced fun _ => rfl).skip
      ((Sited.passes (isAssignments_passes assigned)).skip filtered)
    exact target_introduced (by rw [spelled]; rfl) nonempty place
      ((Sited.token spelled fun _ => rfl).skip ((Sited.passes (isRoot_named rooted).passes).skip changed))
  · refine .bind (.token _) fun _ first spelled => .bind (.optional (.token _)) fun mark second marked => ?_
    have spoken : Sited [] false mark.isSome (first ++ second) ∧
        ∃ word, lastOf none (tokens (first ++ second)) = some (.keyword word) := by
      cases mark with
      | none =>
        obtain rfl := marked
        exact ⟨(Sited.token spelled fun _ => rfl).skip .nil, .delete, by simp [spelled]⟩
      | some mark =>
        have word : tokens second = [.keyword .fromKw] := marked
        exact ⟨(Sited.token spelled fun _ => rfl).skip (.token word fun _ => rfl), .fromKw,
          by simp [spelled, word]⟩
    obtain ⟨begun, word, last⟩ := spoken
    refine .bind (rootRef_spans.and rootRef_gives) fun target third told => ?_
    obtain ⟨⟨nonempty, place⟩, rooted⟩ := told
    refine .map (filter_sited predicate_sited (@word_sited mark.isSome false .whereKw fun _ => rfl))
      fun fourth filter told => ?_
    obtain ⟨final, _, filtered⟩ := told
    have whole := target_introduced last nonempty place
      (begun.skip ((Sited.passes (isRoot_named rooted).passes).skip filtered))
    rwa [List.append_assoc] at whole

/-- The sources of a text start where softening takes a comma to stand between items of a from-clause,
if there is a comma before them at all. -/
theorem parse_introduced {source : String} {tree : Statement}
    (parsed : Statement.parse source = .ok tree) : ∃ lexemes,
      Lexeme.read source = .ok lexemes ∧ Introduced tree.places lexemes :=
  parse_gives statement_introduced parsed

end ObjectQuery.Grammar
