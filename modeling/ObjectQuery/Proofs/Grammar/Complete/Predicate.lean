import ObjectQuery.Proofs.Grammar.Complete.Expression
/-!
# What follows the rules is read: conditions and queries

Every condition and query that the rules derive is read in front of anything that does not go on
with it. The first tokens tell the alternatives apart, except that a value in parentheses and a
condition in parentheses begin alike: the reading of the value ends before the test that makes the
condition, so the alternative tried first gives up.
-/
namespace ObjectQuery.Grammar

open Reader

/-! ## Clauses without conditions -/

/-- A label goes on with a name or the word before one. -/
def labelGoesOn : Token → Bool
  | .identifier _ | .keyword .asKw => true
  | _ => false

/-- An entity with its label goes on with a dot or like a label. -/
def rootGoesOn (token : Token) : Bool := labelGoesOn token || token = .mark .dot

/-- An item of a select list goes on like an expression or a label. -/
def selectionGoesOn (token : Token) : Bool := sumGoesOn token || labelGoesOn token

/-- A select list goes on like a list of its items, and none goes on with `select`. -/
def selectGoesOn (token : Token) : Bool :=
  listGoesOn selectionGoesOn token || token = .keyword .select

/-- The words before `join`. -/
def kindGoesOn (token : Token) : Bool :=
  token ∈ [.keyword .inner, .keyword .left, .keyword .outer, .keyword .cross]

/-- A token that may be left out is accepted whether it is there or not. -/
theorem optional_accepts (word : Token) (present : Bool) {rest : List Token}
    (other : word ∉ rest.head?) :
    Accepts (Reader.optional (Reader.token word)) (tokenIf present word) rest fun _ => True := by
  cases present with
  | false => exact (Accepts.absent (.token other)).weaken fun _ _ => trivial
  | true => exact (Accepts.there (.token word)).weaken fun _ _ => trivial

/-- A label is taken back from its words. -/
theorem label_takes (size : Nat) :
    Takes (Reader.optional label) (Option.map Spanned.unplaced) IsLabel labelGoesOn size := by
  intro word found rest derived _ stops
  cases derived with
  | none =>
    have unspoken : Declines label rest := by
      refine .absent (.token (stops.not_head rfl)) (.bind (.spanned (.identifier fun text => ?_)))
      exact stops.not_head rfl
    refine (Accepts.absent unspoken).weaken ?_
    rintro _ rfl
    rfl
  | some spelled text =>
    have other : Token.keyword .asKw ∉ ([Token.identifier text] ++ rest).head? := by simp
    refine (Accepts.there (.bind (optional_accepts _ spelled other) fun _ _ =>
      name_accepts text)).weaken ?_
    rintro _ ⟨value, rfl, same⟩
    exact congrArg some same

/-- A label ends whatever goes on neither with a name nor with its keyword. -/
theorem isLabel_stops {goesOn : Token → Bool} {word : List Token} {label : Option (Spanned String)}
    (labelled : IsLabel word label) (named : ∀ text, goesOn (.identifier text) = false)
    (spoken : goesOn (.keyword .asKw) = false) : Stops goesOn word := by
  rcases labelled with _ | ⟨_ | _, text⟩
  · exact stops_nil goesOn
  · exact stops_cons.mpr (named text)
  · exact stops_cons.mpr spoken

/-- The root of an item is taken back from its words. -/
theorem rootRef_takes (size : Nat) : Takes rootRef RootRef.unplaced IsRoot rootGoesOn size := by
  have identifiers : ∀ size, Takes identifier id (fun word text => word = [.identifier text])
      (fun _ => false) size := by
    rintro size _ text rest rfl _ _
    exact .identifier text
  have dots : Begins (Led (.mark .dot) fun word text => word = [.identifier text])
      fun _ => false = false := by
    rintro _ _ ⟨inside, rfl, _⟩
    exact ⟨_, inside, rfl, rfl⟩
  have dotted : ∀ names : List String, IsSequence (Led (.mark .dot) fun word text =>
      word = [.identifier text]) (names.flatMap fun name => [.mark .dot, .identifier name]) names := by
    intro names
    induction names with
    | nil => exact .nil
    | cons name names ih => exact .cons ⟨_, rfl, rfl⟩ ih
  rintro _ _ rest ⟨first, names, labelled⟩ short stops
  have stopsLabel : Stops labelGoesOn rest := stops.mono fun token => by
    simp +contextual [rootGoesOn]
  have stopsName : Stops (· = .mark .dot) rest := stops.mono fun token => by
    simp +contextual [rootGoesOn]
  have undotted : .mark .dot ∉ (_ ++ rest).head? :=
    ((isLabel_stops labelled (fun _ => rfl) rfl).append stopsName).not_head rfl
  refine .placed (.bind (.spanned (· = first :: names) ?_) fun found same => ?_)
  · refine .step (.identifier first) ?_
    rintro _ rfl
    refine .map (.many (sequence_accepts (led_takes _ (identifiers _)) dots (dotted names)
      (Nat.lt_succ_self _) (fun _ _ => rfl) (.bind (.token undotted)))) ?_
    rintro found same
    rw [List.map_id] at same
    rw [same]
  · refine .map (label_takes _ labelled (Nat.lt_succ_self _) stopsLabel) fun label viewed span => ?_
    rw [RootRef.unplaced, viewed, same]
    rfl

/-- An item of a select list is taken back from its words. -/
theorem selection_takes (size : Nat) :
    Takes selection Selection.unplaced IsSelection selectionGoesOn size := by
  rintro _ _ rest ⟨selected, labelled⟩ short stops
  rw [List.length_append] at short
  have stopsSum : Stops sumGoesOn rest := stops.mono fun token => by
    simp +contextual [selectionGoesOn]
  have stopsLabel : Stops labelGoesOn rest := stops.mono fun token => by
    simp +contextual [selectionGoesOn]
  have ended := (isLabel_stops labelled (fun _ => rfl) rfl).append stopsSum
  refine .placed (.bind (expression_takes size selected (by omega) ended) fun expr viewed =>
    .map (label_takes size labelled (by omega) stopsLabel) fun label same span => ?_)
  rw [Selection.unplaced, viewed, same]

/-- A list with commas begins like its first item. -/
theorem isSeparated_begins {α : Type} {phrase : Phrase α} {first : Token → Prop}
    (begins : Begins phrase first) : Begins (IsSeparated phrase) first := by
  rintro _ _ (single | ⟨single, _⟩)
  · exact begins single
  · obtain ⟨token, others, rfl, starts⟩ := begins single
    exact ⟨token, _, rfl, starts⟩

/-- A select list is taken back from its words. -/
theorem selectClause_takes (size : Nat) :
    Takes (Reader.optional selectClause) (Option.map SelectClause.unplaced) IsSelect selectGoesOn
      size := by
  intro word found rest derived short stops
  cases derived with
  | none =>
    refine (Accepts.absent (.bind (.spanned (.bind (.token (stops.not_head rfl)))))).weaken ?_
    rintro _ rfl
    rfl
  | @some distinct word selections listed =>
    rw [List.cons_append, List.length_cons, List.length_append] at short
    have stopsList : Stops (listGoesOn selectionGoesOn) rest := stops.mono fun token => by
      simp +contextual [selectGoesOn]
    have begins : .keyword .distinct ∉ (word ++ rest).head? := by
      have starts : Begins IsSelection (startsExpr · = true) := by
        rintro _ _ ⟨selected, _⟩
        obtain ⟨token, others, rfl, starts⟩ := isSum_begins selected
        exact ⟨token, _, rfl, starts⟩
      obtain ⟨token, others, rfl, starts⟩ := isSeparated_begins starts listed
      rintro ⟨⟩
      cases starts
    have spoken : Accepts selectClause
        (.keyword .select :: tokenIf distinct (.keyword .distinct) ++ word) rest
        fun found => found.unplaced = ⟨distinct, selections, .nowhere⟩ := by
      refine .placed (.behind (.bind (flag_accepts _ _ begins) ?_))
      rintro _ rfl
      refine .map (commaSeparated_takes (selection_takes size) rfl listed (by omega) stopsList)
        fun found viewed span => ?_
      rw [SelectClause.unplaced, viewed]
    refine (Accepts.there spoken).weaken ?_
    rintro _ ⟨clause, rfl, viewed⟩
    exact congrArg some viewed

/-- The kind of a join is taken back from its words. -/
theorem joinKind_takes (size : Nat) : Takes joinKind id IsJoinKind kindGoesOn size := by
  intro word kind rest derived _ stops
  have other : ∀ {word}, kindGoesOn (.keyword word) = true → Token.keyword word ∉ rest.head? :=
    fun goesOn => stops.not_head goesOn
  have spoken : ∀ {choice : Reader JoinKind}, Accepts choice word rest (· = kind) →
      Accepts (do let kind ← Reader.optional choice; pure (kind.getD .inner)) word rest
        (id · = kind) := by
    intro choice accepted
    refine .map (.there accepted) ?_
    rintro _ ⟨_, rfl, rfl⟩
    rfl
  cases derived with
  | unspoken =>
    refine .map (.absent (.orElse (.bind (.token (other rfl))) (.orElse (.bind (.token (other rfl)))
      (.bind (.token (other rfl)))))) ?_
    rintro _ rfl
    rfl
  | inner => exact spoken (.first (.map (.token _) fun _ _ => rfl))
  | leftOuter spelled =>
    refine spoken (.second (.bind (.token (by simp))) (.first (.behind ?_)))
    exact .map (optional_accepts _ spelled (other rfl)) fun _ _ => rfl
  | cross =>
    refine spoken (.second (.bind (.token (by simp))) (.second (.bind (.token (by simp))) ?_))
    exact .map (.token _) fun _ _ => rfl

/-! ## Conditions -/

/-- A conjunction goes on like the expression it ends with, or with `and`. -/
def conjunctionGoesOn (token : Token) : Bool := sumGoesOn token || token = .keyword .andKw

/-- A condition goes on like a conjunction or with `or`. -/
def predicateGoesOn (token : Token) : Bool := conjunctionGoesOn token || token = .keyword .orKw

/-- A condition after `where` goes on like the condition, and none goes on with that word. -/
def whereGoesOn (token : Token) : Bool := predicateGoesOn token || token = .keyword .whereKw

/-- A condition after `on` or `with` goes on like the condition, and none goes on with these. -/
def onGoesOn (token : Token) : Bool :=
  predicateGoesOn token || token = .keyword .withKw || token = .keyword .onKw

/-- A join goes on like its condition or its label. -/
def joinGoesOn (token : Token) : Bool := onGoesOn token || labelGoesOn token

/-- The words at the beginning of a join. -/
def startsJoin (token : Token) : Bool := kindGoesOn token || token = .keyword .join

/-- The joins behind an entity go on like the last one or with another. -/
def joinsGoesOn (token : Token) : Bool := joinGoesOn token || startsJoin token

/-- A query goes on like the items of its from-clause or like its condition. -/
def queryGoesOn (token : Token) : Bool := listGoesOn joinsGoesOn token || token = .keyword .whereKw

/-- What goes on a sum goes on a predicate. -/
theorem sumGoesOn_predicate (token : Token) (goesOn : sumGoesOn token = true) :
    predicateGoesOn token = true := by
  simp [predicateGoesOn, conjunctionGoesOn, goesOn]

/-- What goes on a path goes on a predicate. -/
theorem pathGoesOn_predicate (token : Token) (goesOn : pathGoesOn token = true) :
    predicateGoesOn token = true :=
  sumGoesOn_predicate token (by simp [sumGoesOn, productGoesOn, pathGoesOn_atom token goesOn])

/-- What goes on a root goes on a join. -/
theorem rootGoesOn_join (token : Token) (goesOn : rootGoesOn token = true) :
    joinGoesOn token = true := by
  simp only [rootGoesOn, Bool.or_eq_true, decide_eq_true_eq] at goesOn
  rcases goesOn with goesOn | rfl
  · simp [joinGoesOn, goesOn]
  · rfl

section Conditions

variable {inner : Reader Predicate} {size : Nat}
  (takes : Takes inner Predicate.unplaced IsPredicate predicateGoesOn size)

include takes in
/-- A condition behind its keyword is taken back from its words. -/
theorem condition_takes :
    Takes (Reader.optional (condition inner)) unplacedFilter IsWhere whereGoesOn size := by
  intro word filter rest derived short stops
  cases derived with
  | none =>
    refine (Accepts.absent (.bind (.token (stops.not_head (by simp [whereGoesOn]))))).weaken ?_
    rintro _ rfl
    rfl
  | some holds =>
    rw [List.length_cons] at short
    refine (Accepts.there (.behind (takes holds (by omega) (stops.mono ?_)))).weaken ?_
    · exact fun token goesOn => by simp [whereGoesOn, goesOn]
    · rintro _ ⟨found, rfl, rfl⟩
      rfl

include takes in
/-- The condition of a join is taken back from its words. -/
theorem on_takes :
    Takes (Reader.optional do (keyword .withKw <|> keyword .onKw); inner) unplacedFilter IsOn onGoesOn
      size := by
  intro word filter rest derived short stops
  cases derived with
  | none =>
    refine (Accepts.absent (.bind (.orElse (.token (stops.not_head ?_))
      (.token (stops.not_head ?_))))).weaken ?_
    · simp [onGoesOn]
    · simp [onGoesOn]
    · rintro _ rfl
      rfl
  | @some introduction _ _ introduced holds =>
    rw [List.length_cons] at short
    have spoken := takes holds (by omega) (stops.mono fun token goesOn => by simp [onGoesOn, goesOn])
    have either : ∀ {rest}, Accepts (keyword .withKw <|> keyword .onKw) [.keyword introduction] rest
        fun _ => True := by
      intro rest
      rcases introduced with rfl | rfl
      · exact .first (.token _)
      · exact .second (.token (by simp)) (.token _)
    refine (Accepts.there (.step either fun _ _ => spoken)).weaken ?_
    rintro _ ⟨found, rfl, rfl⟩
    rfl

/-- The condition of a join ends whatever does not go on with its keywords. -/
theorem isOn_stops {goesOn : Token → Bool} {word : List Token} {filter : Option Predicate}
    (conditioned : IsOn word filter) (first : goesOn (.keyword .withKw) = false)
    (second : goesOn (.keyword .onKw) = false) : Stops goesOn word := by
  rcases conditioned with _ | ⟨rfl | rfl, _⟩
  · exact stops_nil goesOn
  · exact stops_cons.mpr first
  · exact stops_cons.mpr second

include takes in
/-- A join is taken back from its words. -/
theorem join_takes : Takes (join inner) Join.unplaced IsJoin joinGoesOn size := by
  rintro _ _ rest ⟨fetch, spoken, followed, labelled, conditioned⟩ short stops
  simp only [List.append_assoc, List.cons_append, List.length_append, List.length_cons] at short ⊢
  have stopsOn : Stops onGoesOn rest := stops.mono fun token goesOn => by
    simp [joinGoesOn, goesOn]
  have stopsLabel : Stops labelGoesOn rest := stops.mono fun token goesOn => by
    simp [joinGoesOn, goesOn]
  have stopsPath : Stops pathGoesOn rest := stops.mono fun token goesOn => by
    simp [joinGoesOn, onGoesOn, pathGoesOn_predicate token goesOn]
  have behindLabel := (isOn_stops conditioned rfl rfl).append stopsLabel
  have behindPath := (isLabel_stops labelled (fun _ => rfl) rfl).append
    ((isOn_stops conditioned rfl rfl).append stopsPath)
  have unfetched := isPath_begins followed
  refine .placed (.bind (joinKind_takes size spoken (by omega) (stops_cons.mpr rfl)) ?_)
  rintro kind rfl
  refine .behind (.bind (flag_accepts _ fetch ?_) ?_)
  · obtain ⟨text, others, rfl, _⟩ := unfetched
    simp
  rintro _ rfl
  refine .bind (path_takes (expression_takes size) followed (by omega) ?_) fun target viewed => ?_
  · rwa [List.append_assoc]
  refine .bind (label_takes size labelled (by omega) behindLabel) fun label same => ?_
  refine .map (on_takes takes conditioned (by omega) stopsOn) fun condition equal span => ?_
  rw [Join.unplaced, viewed, same, equal]
  rfl

/-- The words of joins are those of each join, one after the other. -/
theorem isJoins_sequence : ∀ {word : List Token} {joins : List (Join Predicate)},
    IsJoins word joins → IsSequence IsJoin word joins
  | _, [], .nil => .nil
  | _, _ :: _, .cons first rest => .cons first (isJoins_sequence rest)

/-- A join begins with one of the words for its kind. -/
theorem isJoin_begins : Begins IsJoin (startsJoin · = true) := by
  rintro _ _ ⟨fetch, spoken, _, _, _⟩
  simp only [List.append_assoc, List.cons_append]
  cases spoken with
  | _ => exact ⟨_, _, rfl, rfl⟩

/-- A word that starts a join does not go on the join before it. -/
theorem startsJoin_goesOn (token : Token) (starts : startsJoin token = true) :
    joinGoesOn token = false := by
  simp only [startsJoin, kindGoesOn, List.mem_cons, List.not_mem_nil, or_false, Bool.or_eq_true,
    decide_eq_true_eq] at starts
  rcases starts with (rfl | rfl | rfl | rfl) | rfl <;> rfl

/-- No join is read where none begins. -/
theorem join_declines {rest : List Token} (stops : Stops joinsGoesOn rest) :
    Declines (join inner) rest := by
  have stopsKind : Stops kindGoesOn rest := stops.mono fun token goesOn => by
    simp [joinsGoesOn, startsJoin, goesOn]
  refine .bind (.spanned (.skip (joinKind_takes 1 .unspoken Nat.zero_lt_one stopsKind) fun _ _ => ?_))
  exact .bind (.token (stops.not_head rfl))

include takes in
/-- An item of a from-clause is taken back from its words. -/
theorem fromSpace_takes : Takes (fromSpace inner) FromSpace.unplaced IsSpace joinsGoesOn size := by
  rintro _ _ rest ⟨begins, joined⟩ short stops
  rw [List.length_append] at short
  have sequence := isJoins_sequence joined
  have starts : Begins IsJoin fun token => joinGoesOn token = false := by
    intro word join derived
    obtain ⟨token, others, rfl, starts⟩ := isJoin_begins derived
    exact ⟨token, others, rfl, startsJoin_goesOn token starts⟩
  have stopsJoin : Stops joinGoesOn rest := stops.mono fun token goesOn => by
    simp [joinsGoesOn, goesOn]
  have behindRoot : Stops rootGoesOn (_ ++ rest) :=
    (sequence.stops starts stopsJoin).mono rootGoesOn_join
  refine .placed (.bind (rootRef_takes size begins (by omega) behindRoot) fun root viewed => ?_)
  refine .map (.many (sequence_accepts (join_takes takes) starts sequence (by omega) stopsJoin
    (join_declines stops))) fun joins same span => ?_
  rw [FromSpace.unplaced, viewed, ← same, ← unplacedJoins_eq_map]

/-- The words of the items of a from-clause are separated by commas. -/
theorem isSpaces_separated : ∀ {word : List Token} {spaces : List (FromSpace Predicate)},
    IsSpaces word spaces → IsSeparated IsSpace word spaces
  | _, _, .one first => .one first
  | _, _ :: _ :: _, .more first rest => .more first (isSpaces_separated rest)

/-- A condition ends whatever does not go on with its keyword. -/
theorem isWhere_stops {goesOn : Token → Bool} {word : List Token} {filter : Option Predicate}
    (filters : IsWhere word filter) (spoken : goesOn (.keyword .whereKw) = false) :
    Stops goesOn word := by
  rcases filters with _ | _
  · exact stops_nil goesOn
  · exact stops_cons.mpr spoken

include takes in
/-- A from-clause is taken back from its words. -/
theorem fromClause_takes : Takes (fromClause inner) (·.spaces.map FromSpace.unplaced)
    (Led (.keyword .fromKw) IsSpaces) (listGoesOn joinsGoesOn) size := by
  rintro _ spaces rest ⟨word, rfl, sources⟩ short stops
  rw [List.length_cons] at short
  refine .placed (.behind ((commaSeparated_takes (fromSpace_takes takes) rfl
    (isSpaces_separated sources) (by omega) stops).weaken fun found viewed span => viewed))

include takes in
/-- A query is taken back from its words. -/
theorem query_takes : Takes (query inner) unplacedQuery IsQuery queryGoesOn size := by
  rintro _ _ rest ⟨selects, sources, filters⟩ short stops
  rw [List.append_assoc]
  simp only [List.length_append, List.length_cons] at short
  have stopsWhere : Stops whereGoesOn rest := stops.mono fun token goesOn => by
    simp only [whereGoesOn, Bool.or_eq_true, decide_eq_true_eq] at goesOn
    rcases goesOn with goesOn | rfl
    · simp [queryGoesOn, listGoesOn, joinsGoesOn, joinGoesOn, onGoesOn, goesOn]
    · rfl
  have stopsSpaces : Stops (listGoesOn joinsGoesOn) rest := stops.mono fun token goesOn => by
    simp [queryGoesOn, goesOn]
  have behindSpaces := (isWhere_stops filters rfl).append stopsSpaces
  refine .placed (.bind (selectClause_takes size selects (by omega) (stops_cons.mpr rfl))
    fun select viewed => ?_)
  refine .bind (fromClause_takes takes ⟨_, rfl, sources⟩ ?_ behindSpaces) fun clause same => ?_
  · rw [List.length_cons]
    omega
  refine .map (condition_takes takes filters (by omega) stopsWhere) fun filter equal span => ?_
  obtain ⟨spaces, place⟩ := clause
  rw [unplacedQuery, viewed, equal, unplacedSpaces_eq_map, ← same]

/-! ### Single conditions -/

/-- The reader that completes an expression to a condition. -/
abbrev tailReader (inner : Reader Predicate) : Reader Tail :=
  comparisonTail <|> nullTail <|> negatableTail inner

/-- The tail completes an expression that looks like `left` to the condition. -/
def CompletesTo (left : Expr) (value : Predicate) (tail : Tail) : Prop :=
  ∀ span found, found.unplaced = left → (tail span found).unplaced = value

/-- An operand with an accepted rest is accepted as a predicate. -/
theorem simplePredicate_accepts {word others rest : List Token} {left : Expr} {value : Predicate}
    (tested : IsSum word left) (ended : Stops sumGoesOn (others ++ rest))
    (completed : Accepts (tailReader inner) others rest (CompletesTo left value)) :
    Accepts (simplePredicate inner) (word ++ others) rest fun found => found.unplaced = value := by
  refine .placed (.bind (expression_takes _ tested (Nat.lt_succ_self _) ended) fun found viewed => ?_)
  exact .map completed fun tail completes span => completes span found viewed

/-- A keyword that may follow `not` decides between the tails behind it. -/
theorem negatable_accepts (negated : Bool) {word : Keyword} {others rest : List Token}
    {tells : Tail → Prop} (bare : word ≠ .notKw ∧ word ≠ .isKw)
    (completed : Accepts (inTail inner negated <|> memberTail negated <|> likeTail negated <|>
      betweenTail negated) (.keyword word :: others) rest tells) :
    Accepts (tailReader inner) (tokenIf negated (.keyword .notKw) ++ .keyword word :: others) rest
      tells := by
  have unnegated : Token.keyword .notKw ∉ (Token.keyword word :: others ++ rest).head? := by
    simpa using bare.1
  refine .second (.bind (.item ?_)) (.second (.bind (.token ?_)) (.bind (flag_accepts _ _ unnegated) ?_))
  · cases negated <;> simp [tokenIf, comparisonOp?]
  · cases negated
    · simpa [tokenIf] using bare.2
    · simp [tokenIf]
  · rintro _ rfl
    exact completed

/-- The rest of a comparison is accepted. -/
theorem compare_accepts {word rest : List Token} {token : Token} {op : ComparisonOp} {left right : Expr}
    (operator : comparisonOp? token = some op) (second : IsSum word right)
    (stops : Stops sumGoesOn rest) :
    Accepts (tailReader inner) (token :: word) rest
      (CompletesTo left (.compare .nowhere op left right)) := by
  refine .first (.step (.item operator) ?_)
  rintro _ rfl
  refine .map (expression_takes _ second (Nat.lt_succ_self _) stops) ?_
  rintro found rfl span _ rfl
  rfl

/-- The rest of a test for null is accepted. -/
theorem isNull_accepts (negated : Bool) {rest : List Token} {operand : Expr} :
    Accepts (tailReader inner)
      (.keyword .isKw :: (tokenIf negated (.keyword .notKw) ++ [.keyword .null])) rest
      (CompletesTo operand (.isNull .nowhere operand negated)) := by
  refine .second (.bind (.item (by simp [comparisonOp?]))) (.first (.behind ?_))
  refine .bind (flag_accepts _ negated (by simp)) ?_
  rintro _ rfl
  refine .map (.token _) ?_
  rintro _ _ span _ rfl
  rfl

/-- A list of values does not begin like a query. -/
theorem query_declines {word : List Token} {values : List Expr} {rest : List Token}
    (listed : IsSeparated IsSum word values) : Declines (query inner) (word ++ rest) := by
  obtain ⟨token, others, rfl, starts⟩ := isSeparated_begins isSum_begins listed
  have other : ∀ {keyword}, startsExpr (.keyword keyword) = false →
      Token.keyword keyword ∉ (token :: others ++ rest).head? := by
    rintro keyword plain ⟨⟩
    rw [plain] at starts
    cases starts
  refine .bind (.spanned (.absent (.bind (.spanned (.bind (.token (other rfl))))) ?_))
  exact .bind (.bind (.spanned (.bind (.token (other rfl)))))

include takes in
/-- The rest of a test against a query is accepted. -/
theorem inQuery_accepts (negated : Bool) {word rest : List Token} {test : Expr}
    {subquery : Query Predicate} (inside : IsQuery word subquery) (short : word.length < size) :
    Accepts (tailReader inner)
      (tokenIf negated (.keyword .notKw) ++ .keyword .inKw :: parenthesised word) rest
      (CompletesTo test (.inQuery .nowhere test subquery negated)) := by
  refine negatable_accepts negated (by simp) (.first (.behind (.first ?_)))
  refine .map (between_accepts (query_takes takes inside short (stops_cons.mpr rfl))) ?_
  rintro found rfl span _ rfl
  rfl

/-- The rest of a test against a list is accepted. -/
theorem inList_accepts (negated : Bool) {word rest : List Token} {test : Expr} {values : List Expr}
    (inside : IsSeparated IsSum word values) :
    Accepts (tailReader inner)
      (tokenIf negated (.keyword .notKw) ++ .keyword .inKw :: parenthesised word) rest
      (CompletesTo test (.inList .nowhere test values negated)) := by
  refine negatable_accepts negated (by simp) (.first (.behind (.second (.bind ?_) ?_)))
  · rw [parenthesised, List.append_assoc, List.cons_append]
    exact .behind (.bind (query_declines inside))
  · refine .map (between_accepts (commaSeparated_takes (expression_takes _) rfl inside
      (Nat.lt_succ_self _) (stops_cons.mpr rfl))) ?_
    rintro found rfl span _ rfl
    rfl

/-- The rest of a test for membership is accepted. -/
theorem memberOf_accepts (negated spelled : Bool) {word rest : List Token} {element : Expr}
    {collection : Path Expr} (followed : IsPath word collection) (stops : Stops pathGoesOn rest) :
    Accepts (tailReader inner) (tokenIf negated (.keyword .notKw) ++
        .keyword .member :: (tokenIf spelled (.keyword .ofKw) ++ word)) rest
      (CompletesTo element (.memberOf .nowhere element collection negated)) := by
  refine negatable_accepts negated (by simp) (.second (.bind (.token (by simp))) (.first (.behind ?_)))
  refine .bind (optional_accepts _ spelled ?_) fun _ _ => ?_
  · obtain ⟨text, others, rfl, _⟩ := isPath_begins followed
    simp
  · refine .map (path_takes (expression_takes _) followed (Nat.lt_succ_self _) stops) ?_
    rintro found rfl span _ rfl
    rfl

/-- The rest of a test against a pattern is accepted. -/
theorem like_accepts (negated : Bool) {word rest : List Token} {operand pattern : Expr}
    (matched : IsSum word pattern) (stops : Stops sumGoesOn rest) :
    Accepts (tailReader inner) (tokenIf negated (.keyword .notKw) ++ .keyword .like :: word) rest
      (CompletesTo operand (.like .nowhere operand pattern negated)) := by
  refine negatable_accepts negated (by simp) (.second (.bind (.token (by simp)))
    (.second (.bind (.token (by simp))) (.first (.behind ?_))))
  refine .map (expression_takes _ matched (Nat.lt_succ_self _) stops) ?_
  rintro found rfl span _ rfl
  rfl

/-- The rest of a test against a range is accepted. -/
theorem between_tail_accepts (negated : Bool) {lower upper rest : List Token} {operand low high : Expr}
    (least : IsSum lower low) (most : IsSum upper high) (stops : Stops sumGoesOn rest) :
    Accepts (tailReader inner) (tokenIf negated (.keyword .notKw) ++
        .keyword .between :: (lower ++ .keyword .andKw :: upper)) rest
      (CompletesTo operand (.between .nowhere operand low high negated)) := by
  refine negatable_accepts negated (by simp) (.second (.bind (.token (by simp)))
    (.second (.bind (.token (by simp))) (.second (.bind (.token (by simp))) (.behind ?_))))
  refine .bind (expression_takes _ least (Nat.lt_succ_self _) (stops_cons.mpr rfl)) ?_
  rintro lower rfl
  refine .behind (.map (expression_takes _ most (Nat.lt_succ_self _) stops) ?_)
  rintro upper rfl span _ rfl
  rfl

/-! ### A condition is no value

The value in front of a test is read as far as the test, so the closing parenthesis that a value in
parentheses needs is not found. -/

/-- What follows the value that a condition tests. -/
def startsTest : Token → Bool
  | .mark .eq | .mark .ne | .mark .lt | .mark .le | .mark .gt | .mark .ge => true
  | .keyword .isKw | .keyword .notKw | .keyword .inKw | .keyword .member => true
  | .keyword .like | .keyword .between => true
  | _ => false

/-- Every reading from the tokens ends in front of a test. -/
def EndsAtTest (reader : Reader Expr) (word : List Token) : Prop :=
  ∀ ⦃input value rest⦄, tokens input = word → Reads reader input value rest →
    ∃ token ∈ (tokens rest).head?, startsTest token = true

/-- A reader that declines what comes does not read past a test. -/
theorem Reader.Declines.endsAtTest {reader : Reader Expr} {word : List Token}
    (declined : Declines reader word) : EndsAtTest reader word :=
  fun _ value rest spelled taken => absurd taken (refuses_iff.mp (declined spelled) value rest)

/-- A reader that accepts all up to a test ends at the test. -/
theorem Reader.Accepts.endsAtTest {reader : Reader Expr} {word rest : List Token} {tells : Expr → Prop}
    {token : Token} (accepted : Accepts reader word (token :: rest) tells)
    (tests : startsTest token = true) : EndsAtTest reader (word ++ token :: rest) := by
  intro input value remaining spelled taken
  obtain ⟨used, behind, rfl, first, second⟩ := tokens_eq_append.mp spelled
  obtain ⟨_, exactly, _⟩ := accepted first second
  obtain ⟨_, rfl⟩ := reads_unique exactly taken
  rw [second]
  exact ⟨token, rfl, tests⟩

/-- A sum is declined if its first atom is and no sign stands in front. -/
theorem sum_declines {reader : Reader Expr} {token : Token} {others : List Token}
    (unsigned : token ≠ .mark .minus) (declined : Declines (atom reader) (token :: others)) :
    Declines (sum reader) (token :: others) := by
  refine .bind (.bind (.skip (.many (.nil (.spanned (.token ?_)))) fun _ _ => .bind declined))
  simpa using unsigned

/-- A sum does not begin with a negation. -/
theorem sum_declines_not {reader : Reader Expr} {others : List Token} :
    Declines (sum reader) (.keyword .notKw :: others) :=
  sum_declines (by simp) (.orElse (literal_declines rfl) (.orElse (namedParameter_declines (by simp))
    (.orElse (positionalParameter_declines (by simp)) (.orElse (call_declines_other (by simp))
      (.orElse (.bind (path_declines (by simp))) (.bind (.token (by simp))))))))

/-- A sum in parentheses is declined if there is a test inside. -/
theorem sum_declines_group {reader : Reader Expr} {word rest : List Token}
    (ends : EndsAtTest reader (word ++ .mark .rightParen :: rest)) :
    Declines (sum reader) (parenthesised word ++ rest) := by
  rw [parenthesised, List.append_assoc, List.cons_append]
  refine sum_declines (by simp) (.orElse (literal_declines rfl) (.orElse
    (namedParameter_declines (by simp)) (.orElse (positionalParameter_declines (by simp)) (.orElse
      (call_declines_other (by simp)) (.orElse (.bind (path_declines (by simp))) (.behind ?_))))))
  intro input spelled
  rw [refuses_iff]
  intro value behind taken
  obtain ⟨found, middle, inside, closing⟩ := reads_bind.mp taken
  obtain ⟨_, _, closed, _⟩ := reads_bind.mp closing
  obtain ⟨lexeme, rfl, named⟩ := reads_token.mp closed
  obtain ⟨token, first, tests⟩ := ends spelled inside
  obtain rfl : lexeme.token = token := Option.some.inj first
  rw [named] at tests
  cases tests

/-- A word that starts a test does not go on a sum. -/
theorem startsTest_stops {token : Token} (tests : startsTest token = true) : sumGoesOn token = false := by
  unfold startsTest at tests
  split at tests <;> first | rfl | cases tests

/-- A condition that is not in parentheses has its test behind an expression. -/
theorem isCondition_split {word : List Token} {predicate : Predicate}
    (derived : IsCondition word predicate) :
    (∃ inside, word = parenthesised inside ∧ IsPredicate inside predicate) ∨
      ∃ before expr token others, word = before ++ token :: others ∧ IsSum before expr ∧
        startsTest token = true := by
  have negatable : ∀ {word before expr others token} (negated : Bool),
      word = before ++ tokenIf negated (.keyword .notKw) ++ token :: others → IsSum before expr →
      startsTest token = true → ∃ before expr token others, word = before ++ token :: others ∧
        IsSum before expr ∧ startsTest token = true := by
    rintro word before expr others token negated rfl tested tests
    cases negated with
    | false => exact ⟨before, expr, token, others, by simp [tokenIf], tested, tests⟩
    | true => exact ⟨before, expr, .keyword .notKw, token :: others, by simp [tokenIf], tested, rfl⟩
  cases derived with
  | grouped inside => exact .inl ⟨_, rfl, inside⟩
  | compare first operator second =>
    refine .inr ⟨_, _, _, _, rfl, first, ?_⟩
    unfold comparisonOp? at operator
    split at operator <;> first | rfl | cases operator
  | isNull negated tested => exact .inr ⟨_, _, _, _, List.append_assoc .., tested, rfl⟩
  | inQuery negated tested _ => exact .inr (negatable negated rfl tested rfl)
  | inList negated tested _ => exact .inr (negatable negated rfl tested rfl)
  | memberOf negated spelled tested _ =>
    exact .inr (negatable negated (List.append_assoc ..) tested rfl)
  | like negated tested _ => exact .inr (negatable negated rfl tested rfl)
  | between negated tested _ _ => exact .inr (negatable negated (List.append_assoc ..) tested rfl)

/-- A conjunction is a row of negations with the word for it in between. -/
theorem isConjunction_row : IsRow IsConjunction IsNegation (Led (.keyword .andKw) IsNegation)
    (.and .nowhere) := by
  rintro _ _ (single | ⟨first, second⟩)
  · exact .inl single
  · exact .inr ⟨_, _, _, _, rfl, first, ⟨_, rfl, second⟩, rfl⟩

/-- A predicate is a row of conjunctions with the word for it in between. -/
theorem isPredicate_row : IsRow IsPredicate IsConjunction (Led (.keyword .orKw) IsConjunction)
    (.or .nowhere) := by
  rintro _ _ (single | ⟨first, second⟩)
  · exact .inl single
  · exact .inr ⟨_, _, _, _, rfl, first, ⟨_, rfl, second⟩, rfl⟩

/-- The first single condition decides, unless `not` stands before it. -/
theorem isPredicate_ends : ∀ (size : Nat) {word rest : List Token} {predicate : Predicate},
    IsPredicate word predicate → word.length < size →
      EndsAtTest (nestedWithin sum size) (word ++ rest)
  | 0, _, _, _, _, short => absurd short (Nat.not_lt_zero _)
  | size + 1, word, rest, predicate, derived, short => by
    obtain ⟨conjunction, others, _, _, rfl, conjoined, _⟩ :=
      isPredicate_row.split (led_begins _ _) (Nat.le_refl _) derived
    obtain ⟨negation, further, _, _, rfl, negated, _⟩ :=
      isConjunction_row.split (led_begins _ _) (Nat.le_refl _) conjoined
    simp only [List.length_append] at short
    rw [List.append_assoc, List.append_assoc]
    rcases negated with single | inside
    · rcases isCondition_split single with ⟨inside, rfl, grouped⟩ | ⟨before, expr, token, behind, rfl,
        tested, tests⟩
      · simp only [parenthesised, List.length_cons, List.length_append] at short
        exact (sum_declines_group (isPredicate_ends size grouped (by omega))).endsAtTest
      · rw [List.length_append, List.length_cons] at short
        rw [List.append_assoc]
        exact (sumWithin_takes (size + 1) tested (by omega)
          (stops_cons.mpr (startsTest_stops tests))).endsAtTest tests
    · exact sum_declines_not.endsAtTest

/-- A predicate in parentheses is no operand of a test. -/
theorem simplePredicate_declines {word rest : List Token} {predicate : Predicate}
    (inside : IsPredicate word predicate) :
    Declines (simplePredicate inner) (parenthesised word ++ rest) := by
  refine .bind (.spanned (.bind (.nested (sum_declines_group (isPredicate_ends _ inside ?_)))))
  simp only [parenthesised, List.length_append, List.length_cons]
  omega

include takes in
/-- A predicate is taken back from its words. -/
theorem primaryPredicate_takes :
    Takes (primaryPredicate inner) Predicate.unplaced IsCondition sumGoesOn (size + 1) := by
  intro word predicate rest derived short stops
  have negatable : ∀ {others : List Token} {word : Keyword} (negated : Bool),
      sumGoesOn (.keyword word) = false → Stops sumGoesOn
        (tokenIf negated (.keyword .notKw) ++ .keyword word :: others ++ rest) := by
    intro others word negated ended
    cases negated with
    | false => exact stops_cons.mpr ended
    | true => exact stops_cons.mpr rfl
  cases derived with
  | grouped inside =>
    simp only [parenthesised, List.length_cons, List.length_append] at short
    exact .second (simplePredicate_declines inside)
      (between_accepts (takes inside (by omega) (stops_cons.mpr rfl)))
  | compare first operator second =>
    refine .first (simplePredicate_accepts first (stops_cons.mpr ?_)
      (compare_accepts operator second stops))
    unfold comparisonOp? at operator
    split at operator <;> first | rfl | cases operator
  | isNull negated tested =>
    rw [List.append_assoc, List.cons_append]
    exact .first (simplePredicate_accepts tested (stops_cons.mpr rfl) (isNull_accepts negated))
  | inQuery negated tested inside =>
    simp only [parenthesised, List.length_cons, List.length_append] at short
    rw [List.append_assoc]
    exact .first (simplePredicate_accepts tested (negatable negated rfl)
      (inQuery_accepts takes negated inside (by omega)))
  | inList negated tested inside =>
    rw [List.append_assoc]
    exact .first (simplePredicate_accepts tested (negatable negated rfl) (inList_accepts negated inside))
  | memberOf negated spelled tested followed =>
    have stopsPath : Stops pathGoesOn rest := stops.mono fun token goesOn => by
      simp [sumGoesOn, productGoesOn, pathGoesOn_atom token goesOn]
    simp only [List.append_assoc, List.cons_append]
    exact .first (simplePredicate_accepts tested (negatable negated rfl)
      (memberOf_accepts negated spelled followed stopsPath))
  | like negated tested matched =>
    rw [List.append_assoc]
    exact .first (simplePredicate_accepts tested (negatable negated rfl)
      (like_accepts negated matched stops))
  | between negated tested least most =>
    simp only [List.append_assoc, List.cons_append]
    exact .first (simplePredicate_accepts tested (negatable negated rfl)
      (between_tail_accepts negated least most stops))

/-- A condition begins with a word that starts an expression. -/
theorem isCondition_begins : Begins IsCondition (startsExpr · = true) := by
  intro word predicate derived
  rcases isCondition_split derived with ⟨inside, rfl, _⟩ | ⟨before, expr, token, others, rfl, tested, _⟩
  · exact ⟨_, _, rfl, rfl⟩
  · obtain ⟨first, further, rfl, starts⟩ := isSum_begins tested
    exact ⟨first, _, rfl, starts⟩

include takes in
/-- A negation is taken back from its words. -/
theorem negation_takes : Takes (negation inner) Predicate.unplaced IsNegation sumGoesOn (size + 1) := by
  refine signs_take (primaryPredicate_takes takes) ?_ ?_ fun _ _ => rfl
  · intro word predicate derived
    obtain ⟨token, others, rfl, starts⟩ := isCondition_begins derived
    refine ⟨token, others, rfl, ?_⟩
    rintro rfl
    cases starts
  · rintro _ _ (single | inside)
    · exact .inl single
    · exact .inr ⟨_, _, rfl, inside, rfl⟩

/-- A row of conditions with one keyword between each two. -/
theorem connected_takes {operand : Reader Predicate} {phrase row : Phrase Predicate} {word : Keyword}
    {combine : Span → Predicate → Predicate → Predicate} {goesOn : Token → Bool}
    (rows : IsRow row phrase (Led (.keyword word) phrase) (combine .nowhere))
    (operands : Takes operand Predicate.unplaced phrase goesOn size)
    (ended : goesOn (.keyword word) = false)
    (combined : ∀ span left right, (combine span left right).unplaced =
      combine .nowhere left.unplaced right.unplaced) :
    Takes (connected word combine operand) Predicate.unplaced row
      (fun token => goesOn token || token = .keyword word) size := by
  refine row_takes rows operands (led_takes _ operands) ?_ (fun token more => by simp [more]) ?_
    fun left right => combined _ left right
  · rintro _ _ ⟨inside, rfl, _⟩
    exact ⟨_, inside, rfl, ended⟩
  · intro rest stops
    exact .bind (.token (stops.not_head (by simp)))

include takes in
/-- A disjunction is taken back from its words. -/
theorem disjunction_takes :
    Takes (disjunction inner) Predicate.unplaced IsPredicate predicateGoesOn (size + 1) :=
  connected_takes isPredicate_row (connected_takes isConjunction_row (negation_takes takes) rfl
    fun _ _ _ => rfl) rfl fun _ _ _ => rfl

end Conditions

/-- So is one that is nested within some depth. -/
theorem disjunctionWithin_takes : ∀ size,
    Takes (nestedWithin disjunction size) Predicate.unplaced IsPredicate predicateGoesOn size
  | 0 => fun _ _ _ _ short => absurd short (Nat.not_lt_zero _)
  | size + 1 => disjunction_takes (disjunctionWithin_takes size)

/-- Every predicate is taken back from its words. -/
theorem predicate_takes (size : Nat) :
    Takes predicate Predicate.unplaced IsPredicate predicateGoesOn size := by
  intro word found rest derived _ stops
  refine .nested fun depth deep => ?_
  exact disjunction_takes (disjunctionWithin_takes depth) derived (Nat.lt_succ_of_le deep) stops

end ObjectQuery.Grammar
