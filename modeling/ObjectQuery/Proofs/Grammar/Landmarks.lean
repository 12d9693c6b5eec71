import ObjectQuery.Proofs.Grammar.Sound
import ObjectQuery.Proofs.Grammar.Sources
import ObjectQuery.Proofs.Outcome
import Mathlib.Data.List.Nodup
/-!
# No two sources share a place

The lexemes of a text start at different bytes. Each from-clause, each root and each join begins with
a lexeme of its own, although it may contain others: a join contains the sub-queries of its
condition. So in the tree of a text no two from-clauses have the same place, and no two sources.
-/
namespace ObjectQuery

/-! ## Lexemes start one after the other -/

/-- A mark that is scanned has a character. -/
theorem Token.scanMark?_pos {cs : List Char} {sign : Mark} {length : Nat}
    (scanned : scanMark? cs = some (sign, length)) : 0 < length := by
  unfold scanMark? at scanned
  grind

/-- A token has characters. -/
theorem Token.scan?_pos {cs : List Char} {token : Token} {length : Nat}
    (scanned : scan? cs = some (token, length)) : 0 < length := by
  cases cs with
  | nil => cases scanned
  | cons c rest =>
    simp only [scan?] at scanned
    split at scanned
    · grind
    split at scanned
    · obtain ⟨taken, closed, given⟩ := Option.map_eq_some_iff.mp scanned
      obtain ⟨_, rfl⟩ := Prod.mk.inj given
      omega
    split at scanned
    · rename_i digit
      obtain ⟨_, rfl⟩ := Prod.mk.inj (Option.some.inj scanned)
      have whole : 0 < ((c :: rest).takeWhile Char.isDigit).length := by simp [digit]
      unfold numberLength
      grind
    · obtain ⟨⟨sign, taken⟩, marked, given⟩ := Option.map_eq_some_iff.mp scanned
      obtain ⟨_, rfl⟩ := Prod.mk.inj given
      exact scanMark?_pos marked

/-- Some text has some bytes. -/
theorem byteLength_pos {cs : List Char} (some : cs ≠ []) : 0 < byteLength cs := by
  cases cs with
  | nil => contradiction
  | cons c rest =>
    have : 0 < c.utf8Size := c.utf8Size_pos
    simp only [byteLength]
    omega

namespace Lexeme

/-- Where lexemes start. -/
def starts (lexemes : List Lexeme) : List Nat := lexemes.map (·.span.start)

/-- Lexemes in a row start where both parts do. -/
theorem starts_append (first second : List Lexeme) :
    starts (first ++ second) = starts first ++ starts second := List.map_append

/-- Each lexeme starts behind the one before it, and none before the text. -/
theorem scanWithin_starts : ∀ {fuel start : Nat} {cs : List Char} {lexemes : List Lexeme},
    scanWithin fuel start cs = .ok lexemes →
      (∀ place ∈ starts lexemes, start ≤ place) ∧ (starts lexemes).Pairwise (· < ·)
  | 0, start, cs, lexemes, scanned => by
    obtain rfl := Except.ok.inj scanned
    simp [starts]
  | fuel + 1, start, cs, lexemes, scanned => by
    simp only [scanWithin] at scanned
    split at scanned
    · obtain rfl := Except.ok.inj scanned
      simp [starts]
    · rename_i characters
      split at scanned
      · cases scanned
      · rename_i token length found
        obtain ⟨rest, scannedRest, rfl⟩ := except_map_ok.mp scanned
        obtain ⟨bound, increasing⟩ := scanWithin_starts scannedRest
        have taken : 0 < byteLength ((cs.drop (Trivia.length cs)).take length) := by
          refine byteLength_pos ?_
          have positive := Token.scan?_pos found
          have : cs.drop (Trivia.length cs) ≠ [] := by simpa using characters
          simp only [ne_eq, List.take_eq_nil_iff, this, or_false]
          omega
        simp only [starts, List.map_cons, List.mem_cons, List.pairwise_cons] at bound increasing ⊢
        refine ⟨?_, fun place later => ?_, increasing⟩
        · rintro place (rfl | later)
          · omega
          · have := bound place later
            omega
        · have := bound place later
          omega

/-- Reading keywords as names leaves the starts. -/
theorem starts_softenAfter : ∀ (levels : FromLevels) (previous : Option Token)
    (lexemes : List Lexeme), starts (softenAfter levels previous lexemes) = starts lexemes
  | _, _, [] => rfl
  | levels, previous, lexeme :: rest => by
    have place : ∀ wanted, (lexeme.softenedIf wanted).span = lexeme.span := by
      intro wanted
      unfold softenedIf
      split <;> rfl
    simp only [softenAfter, starts, List.map_cons, place]
    exact congrArg _ (starts_softenAfter _ _ rest)

/-- The lexemes of a text start one behind the other. -/
theorem read_starts {source : String} {lexemes : List Lexeme} (found : read source = .ok lexemes) :
    (starts lexemes).Pairwise (· < ·) := by
  obtain ⟨scanned, spelled, rfl⟩ := except_map_ok.mp found
  rw [soften, starts_softenAfter]
  exact (scanWithin_starts spelled).2

end Lexeme

namespace Grammar

open Reader

/-! ## Places begin with different lexemes -/

/-- Each of the places begins with one of the lexemes, in this order. -/
def Begin (places : List Span) (used : List Lexeme) : Prop :=
  (places.map (·.start)).Sublist (Lexeme.starts used)

namespace Begin

variable {places later : List Span} {used before behind : List Lexeme}

/-- No places begin anywhere. -/
theorem nil : Begin [] used := List.nil_sublist _

/-- Places of lexemes in a row begin in order. -/
theorem append (first : Begin places used) (second : Begin later behind) :
    Begin (places ++ later) (used ++ behind) := by
  unfold Begin
  rw [List.map_append, Lexeme.starts_append]
  exact List.Sublist.append first second

/-- Lexemes may stand in front. -/
theorem skip (begins : Begin places behind) : Begin places (before ++ behind) :=
  append nil begins

/-- Lexemes may follow. -/
theorem stay (begins : Begin places before) : Begin places (before ++ behind) := by
  have whole : Begin (places ++ []) (before ++ behind) := append begins nil
  rwa [List.append_nil] at whole

/-- The place of all the lexemes begins with the first of them. -/
theorem whole (nonempty : before ≠ []) (begins : Begin places behind) :
    Begin (spanOf (before ++ behind) :: places) (before ++ behind) := by
  obtain ⟨first, others, rfl⟩ := List.exists_cons_of_ne_nil nonempty
  have rest : Begin places (others ++ behind) := Begin.skip begins
  exact List.Sublist.cons_cons _ rest

/-- Places that begin at different lexemes are different. -/
theorem nodup (begins : Begin places used) (ordered : (Lexeme.starts used).Pairwise (· < ·)) :
    places.Nodup := by
  have starts : (places.map (·.start)).Nodup :=
    (ordered.imp fun less => Nat.ne_of_lt less).sublist begins
  exact List.Nodup.of_map _ starts

end Begin

/-- Where there is a token there is a lexeme. -/
theorem ne_nil_of_tokens {used : List Lexeme} {token : Token} {rest : List Token}
    (spelled : tokens used = token :: rest) : used ≠ [] := by
  rintro rfl
  cases spelled

/-- The sources of a part of a statement, and its from-clauses, begin with different lexemes. -/
structure Marked (places clauses : List Span) (used : List Lexeme) : Prop where
  sources : Begin places used
  clauses : Begin clauses used

namespace Marked

variable {places clauses others further : List Span} {used before behind : List Lexeme}

/-- No lexemes have to be marked. -/
theorem nil : Marked [] [] used := ⟨.nil, .nil⟩

/-- The marks of lexemes in a row come in order. -/
theorem append (first : Marked places clauses used) (second : Marked others further behind) :
    Marked (places ++ others) (clauses ++ further) (used ++ behind) :=
  ⟨first.sources.append second.sources, first.clauses.append second.clauses⟩

/-- Lexemes without marks may stand in front. -/
theorem skip (marked : Marked places clauses behind) : Marked places clauses (before ++ behind) :=
  ⟨marked.sources.skip, marked.clauses.skip⟩

/-- Lexemes without marks may follow. -/
theorem stay (marked : Marked places clauses before) : Marked places clauses (before ++ behind) :=
  ⟨marked.sources.stay, marked.clauses.stay⟩

end Marked

/-- If what tells a value may have anything before it, commas may stand between values. -/
theorem commaSeparated_successively {α : Type} {reader : Reader α} {tells : List Lexeme → α → Prop}
    (gives : Gives reader tells)
    (preceded : ∀ before used value, tells used value → tells (before ++ used) value) :
    Gives (commaSeparated reader) (Successively tells) := by
  have behindComma : Gives (do mark .comma; reader) tells := by
    refine .bind (.token _) fun _ before _ => ?_
    exact gives.weaken fun used value told => preceded before used value told
  refine .bind gives fun value used told => ?_
  exact .map (.many _ behindComma) fun further values rest => ⟨used, further, rfl, told, rest⟩

section Conditions

variable {inner : Reader Predicate}
  (gives : Gives inner fun used found => Marked found.places found.clauses used)

/-- An entity and its label are the lexemes that they are read from. -/
theorem rootRef_spans : Gives rootRef fun used root => used ≠ [] ∧ root.span = spanOf used := by
  refine .bind (.spanned (fun used _ => used ≠ []) ?_) fun ⟨⟨entity, label⟩, span⟩ used told => .pure ?_
  · refine .bind (.spanned (fun used _ => used ≠ []) ?_) fun _ before told =>
      .map label_gives fun used _ _ => by simp [told.1]
    refine .bind .identifier fun first before named => ?_
    exact .map (.many _ (.behind _ .identifier)) fun used _ _ => by
      simp [ne_nil_of_tokens named]
  · rwa [List.append_nil]

/-- The root of an item begins with its place. -/
theorem rootRef_marked : Gives rootRef fun used root => Begin [root.span] used := by
  refine rootRef_spans.weaken fun used root told => ?_
  have alone := Begin.whole told.1 (.nil : Begin [] [])
  rwa [List.append_nil, ← told.2] at alone

include gives in
/-- A condition behind its keyword has the places in it. -/
theorem filter_marked {opening : Reader Unit} {tells : List Lexeme → Unit → Prop}
    (introduced : Gives opening tells) :
    Gives (Reader.optional (do opening; inner)) fun used found =>
      Marked (filterPlaces found) (filterClauses found) used := by
  have spoken : Gives (do opening; inner) fun used found =>
      Marked found.places found.clauses used := by
    refine .bind introduced fun _ before _ => ?_
    exact gives.weaken fun used found marked => marked.skip
  refine (Gives.optional spoken).weaken fun used found told => ?_
  cases found with
  | none => exact .nil
  | some found => exact told

include gives in
/-- A join has its own place before those in its condition. -/
theorem join_marked : Gives (join inner) fun used found =>
    Marked (found.span :: filterPlaces found.predicate) (filterClauses found.predicate) used := by
  refine .bind (.spanned (fun used found => ∃ before behind, used = before ++ behind ∧ before ≠ [] ∧
    Marked (filterPlaces found.2.2.2.2) (filterClauses found.2.2.2.2) behind) ?_)
    fun ⟨⟨kind, fetch, target, label, condition⟩, span⟩ used told => .pure ?_
  · refine .bind joinKind_gives fun kind first spoken => .bind (.token _) fun _ second spelled => ?_
    refine .bind (.flag _) fun fetch third marked => ?_
    refine .bind (path_gives expression_gives) fun target fourth followed => ?_
    refine .bind label_gives fun label fifth labelled => ?_
    refine .map (filter_marked gives (.either (.token _) (.token _))) fun sixth condition begins => ?_
    refine ⟨first ++ second ++ third ++ fourth ++ fifth, sixth, by simp, ?_, begins⟩
    simp [ne_nil_of_tokens spelled]
  · obtain ⟨⟨before, behind, rfl, nonempty, marked⟩, place⟩ := told
    obtain rfl : span = spanOf (before ++ behind) := place
    rw [List.append_nil]
    exact ⟨.whole nonempty marked.sources, marked.clauses.skip⟩

/-- Joins have their places in order. -/
theorem joins_marked : ∀ {joins : List (Join Predicate)} {used : List Lexeme},
    Successively (fun used found => Marked (found.span :: filterPlaces found.predicate)
      (filterClauses found.predicate) used) used joins →
    Marked (joinPlaces joins) (joinClauses joins) used
  | [], _, _ => .nil
  | ⟨_, _, _, _, _, _⟩ :: joins, used, ⟨first, others, split, marked, rest⟩ => by
    subst split
    simpa [joinPlaces, joinClauses] using marked.append (joins_marked rest)

include gives in
/-- An item of a from-clause has the place of its root before those of its joins. -/
theorem fromSpace_marked : Gives (fromSpace inner) fun used found =>
    Marked (found.root.span :: joinPlaces found.joins) (joinClauses found.joins) used := by
  refine .bind (.spanned (fun used found =>
    Marked (found.1.span :: joinPlaces found.2) (joinClauses found.2) used) ?_)
    fun ⟨⟨root, joins⟩, span⟩ used told => .pure ?_
  · refine .bind rootRef_marked fun root before begins => ?_
    refine .map (.many _ (join_marked gives)) fun used joins told => ?_
    have joined := joins_marked told
    exact ⟨begins.append joined.sources, joined.clauses.skip⟩
  · rw [List.append_nil]
    exact told.1

/-- The items of a from-clause have their places in order. -/
theorem spaces_marked : ∀ {spaces : List (FromSpace Predicate)} {used : List Lexeme},
    Successively (fun used found => Marked (found.root.span :: joinPlaces found.joins)
      (joinClauses found.joins) used) used spaces →
    Marked (spacePlaces spaces) (spaceClauses spaces) used
  | [], _, _ => .nil
  | ⟨_, _, _⟩ :: spaces, used, ⟨first, others, split, marked, rest⟩ => by
    subst split
    simpa [spacePlaces, spaceClauses] using marked.append (spaces_marked rest)

include gives in
/-- A from-clause has its own place before those of the clauses inside. -/
theorem fromClause_marked : Gives (fromClause inner) fun used found =>
    Marked (spacePlaces found.spaces) (found.span :: spaceClauses found.spaces) used := by
  refine .bind (.spanned (fun used spaces => ∃ before behind, used = before ++ behind ∧ before ≠ [] ∧
    Marked (spacePlaces spaces) (spaceClauses spaces) behind) ?_) fun ⟨spaces, span⟩ used told => .pure ?_
  · refine .bind (.token _) fun _ before spelled => ?_
    refine (commaSeparated_successively (fromSpace_marked gives) fun _ _ _ => .skip).weaken
      fun behind spaces told => ?_
    exact ⟨before, behind, rfl, ne_nil_of_tokens spelled, spaces_marked told⟩
  · obtain ⟨⟨before, behind, rfl, nonempty, marked⟩, place⟩ := told
    obtain rfl : span = spanOf (before ++ behind) := place
    rw [List.append_nil]
    exact ⟨marked.sources.skip, .whole nonempty marked.clauses⟩

include gives in
/-- A query has its places in order. -/
theorem query_marked : Gives (query inner) fun used found =>
    Marked (queryPlaces found) (queryClauses found) used := by
  refine .bind (.spanned (fun used found => Marked
    (queryPlaces ⟨found.1, found.2.1, found.2.2, .nowhere⟩)
    (queryClauses ⟨found.1, found.2.1, found.2.2, .nowhere⟩) used) ?_)
    fun ⟨⟨select, sources, filter⟩, span⟩ used told => .pure ?_
  · refine .bind selectClause_gives fun select first _ => ?_
    refine .bind (fromClause_marked gives) fun ⟨spaces, span⟩ second marked => ?_
    refine .map (filter_marked gives (.token _)) fun third filter filters => ?_
    exact (marked.append filters).skip
  · rw [List.append_nil]
    exact told.1

/-- Whatever expression the tail completes, its places are those of the tail. -/
def MarkedTail (used : List Lexeme) (tail : Tail) : Prop :=
  ∀ span left, Marked (tail span left).places (tail span left).clauses used

include gives in
/-- The rest of a test against a list or a query has the places in it. -/
theorem inTail_marked (negated : Bool) : Gives (inTail inner negated) MarkedTail := by
  refine .bind (.token _) fun _ before _ => .orElse ?_ ?_
  · have enclosed : Gives (Reader.between .leftParen .rightParen (query inner)) fun used found =>
        Marked (queryPlaces found) (queryClauses found) used :=
      .bind (.token _) fun _ _ _ => .bind (query_marked gives) fun _ _ marked =>
        .map (.token _) fun _ _ _ => marked.stay.skip
    exact .map enclosed fun used query marked span left => marked.skip
  · exact .map (between_gives _ _ (commaSeparated_gives expression_gives)) fun _ _ _ _ _ => .nil

/-- No other test has sources. -/
theorem otherTail_marked (negated : Bool) :
    Gives (memberTail negated <|> likeTail negated <|> betweenTail negated) MarkedTail := by
  refine .orElse ?_ (.orElse ?_ ?_)
  · refine .bind (.token _) fun _ _ _ => .bind (.optional (.token _)) fun _ _ _ => ?_
    exact .map (path_gives expression_gives) fun _ _ _ _ _ => .nil
  · exact .bind (.token _) fun _ _ _ => .map expression_gives fun _ _ _ _ _ => .nil
  · refine .bind (.token _) fun _ _ _ => .bind expression_gives fun _ _ _ => ?_
    exact .bind (.token _) fun _ _ _ => .map expression_gives fun _ _ _ _ _ => .nil

include gives in
/-- So has whatever may follow an operand. -/
theorem tail_marked :
    Gives (comparisonTail <|> nullTail <|> negatableTail inner) MarkedTail := by
  refine .orElse ?_ (.orElse ?_ ?_)
  · exact .bind (.item _) fun _ _ _ => .map expression_gives fun _ _ _ _ _ => .nil
  · refine .bind (.token _) fun _ _ _ => .bind (.flag _) fun _ _ _ => ?_
    exact .map (.token _) fun _ _ _ _ _ => .nil
  · refine .bind (.flag _) fun negated before _ => ?_
    refine (Gives.orElse (inTail_marked gives negated) (otherTail_marked negated)).weaken
      fun used tail marked span left => ?_
    exact (marked span left).skip

include gives in
/-- A test, or a predicate in parentheses, has its places in order. -/
theorem primaryPredicate_marked : Gives (primaryPredicate inner) fun used found =>
    Marked found.places found.clauses used := by
  refine .orElse ?_ ?_
  · refine .bind (.spanned (fun used found => ∀ span,
      Marked (found.2 span found.1).places (found.2 span found.1).clauses used) ?_)
      fun ⟨⟨left, tail⟩, span⟩ used told => .pure ?_
    · refine .bind expression_gives fun left before _ => ?_
      exact .map (tail_marked gives) fun used tail marked span => (marked span left).skip
    · rw [List.append_nil]
      exact told.1 span
  · exact .bind (.token _) fun _ _ _ => .bind gives fun _ _ marked =>
      .map (.token _) fun _ _ _ => marked.stay.skip

include gives in
/-- So has a negation. -/
theorem negation_marked : Gives (negation inner) fun used found =>
    Marked found.places found.clauses used := by
  refine .bind (.many _ (.spanned _ (.token _))) fun words before spoken => ?_
  refine .map (primaryPredicate_marked gives) fun used operand marked => ?_
  clear spoken
  induction words with
  | nil => exact marked.skip
  | cons word words ih => exact ih

/-- A row of conditions has the places of all of them. -/
theorem connected_marked {word : Keyword} {combine : Span → Predicate → Predicate → Predicate}
    {operand : Reader Predicate}
    (operands : Gives operand fun used found => Marked found.places found.clauses used)
    (joined : ∀ span left right, (combine span left right).places = left.places ++ right.places ∧
      (combine span left right).clauses = left.clauses ++ right.clauses) :
    Gives (connected word combine operand) fun used found =>
      Marked found.places found.clauses used := by
  have behindWord : Gives (do keyword word; operand) fun used found =>
      Marked found.places found.clauses used :=
    .bind (.token _) fun _ _ _ => operands.weaken fun _ _ marked => marked.skip
  refine .bind operands fun first used begun => ?_
  refine .map (.many _ behindWord) fun further rest told => ?_
  induction rest generalizing first used further with
  | nil =>
    obtain rfl := told
    rwa [List.append_nil]
  | cons next rest ih =>
    obtain ⟨before, others, rfl, marked, follows⟩ := told
    rw [← List.append_assoc]
    refine ih _ (used ++ before) ?_ others follows
    rw [(joined _ first next).1, (joined _ first next).2]
    exact begun.append marked

end Conditions

/-- So has every predicate that is read. -/
theorem predicate_marked : Gives predicate fun used found =>
    Marked found.places found.clauses used :=
  .nested fun _ gives => connected_marked
    (connected_marked (negation_marked gives) fun _ _ _ => ⟨rfl, rfl⟩) fun _ _ _ => ⟨rfl, rfl⟩

/-- The target of a change has its place before those in the condition. -/
theorem target_marked {root : RootRef} {used behind : List Lexeme} {filter : Option Predicate}
    (begins : Begin [root.span] used)
    (filters : Marked (filterPlaces filter) (filterClauses filter) behind) :
    Marked (root.span :: filterPlaces filter) (root.span :: filterClauses filter)
      (used ++ behind) :=
  Marked.append ⟨begins, begins⟩ filters

/-- The places of a statement are in the order of the text. -/
theorem statement_marked : Gives (selectStatement <|> updateStatement <|> deleteStatement)
    fun used found => Marked found.places found.clauses used := by
  refine .orElse ?_ (.orElse ?_ ?_)
  · refine .bind (query_marked predicate_marked) fun query before marked => ?_
    exact .map (.optional (.behind _ (.behind _ (commaSeparated_gives sortSpec_gives))))
      fun _ _ _ => marked.stay
  · refine .bind (.token _) fun _ first _ => .bind rootRef_marked fun target second named => ?_
    refine .bind (.token _) fun _ third _ => ?_
    refine .bind (commaSeparated_gives assignment_gives) fun assignments fourth _ => ?_
    refine .map (filter_marked predicate_marked (.token _)) fun fifth filter filters => ?_
    exact (target_marked named filters.skip.skip).skip
  · refine .bind (.token _) fun _ first _ => .bind (.optional (.token _)) fun _ second _ => ?_
    refine .bind rootRef_marked fun target third named => ?_
    refine .map (filter_marked predicate_marked (.token _)) fun fourth filter filters => ?_
    exact (target_marked named filters).skip.skip

/-- What the lexemes of statements tell holds of a text and its tree. -/
theorem parse_gives {tells : List Lexeme → Statement → Prop}
    (gives : Gives (selectStatement <|> updateStatement <|> deleteStatement) tells)
    {source : String} {tree : Statement} (parsed : Statement.parse source = .ok tree) :
    ∃ lexemes, Lexeme.read source = .ok lexemes ∧ tells lexemes tree := by
  obtain ⟨lexemes, found, formed⟩ := except_bind_ok.mp parsed
  obtain ⟨rest, taken⟩ := ofLexemes_eq_ok.mp formed
  obtain ⟨tree', between, first, finished⟩ := reads_bind.mp taken
  obtain ⟨_, _, ended, returned⟩ := reads_bind.mp finished
  obtain ⟨rfl, rfl⟩ := reads_finish.mp ended
  obtain ⟨rfl, rfl⟩ := reads_pure.mp returned
  obtain ⟨used, rfl, told⟩ := gives first
  rw [List.append_nil] at found
  exact ⟨used, found, told⟩

/-- In the tree of a text no two from-clauses and no two sources have the same place. -/
theorem parse_nodup {source : String} {tree : Statement} (parsed : Statement.parse source = .ok tree) :
    tree.places.Nodup ∧ tree.clauses.Nodup := by
  obtain ⟨lexemes, found, marked⟩ := parse_gives statement_marked parsed
  have ordered := Lexeme.read_starts found
  exact ⟨marked.sources.nodup ordered, marked.clauses.nodup ordered⟩

end Grammar
end ObjectQuery
