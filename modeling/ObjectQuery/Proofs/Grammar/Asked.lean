import ObjectQuery.Proofs.Grammar.Landmarks
import ObjectQuery.Proofs.Grammar.Parameters
/-!
# Parameters where they stand

The parameters of a tree are listed as the statement is walked through: select list, from-clause,
condition and sort keys, each path with its indices from left to right. In the tree of a text that is
the order of the text. Each parameter begins with a question mark or a colon of its own, and no other
part of a statement has one.
-/
namespace ObjectQuery

/-- What a parameter says about itself. -/
inductive Asked where
  | named (name : String)
  | positional (position : Option Nat)
  deriving DecidableEq, Repr

/-- The sign that a parameter begins with. -/
def Asked.sign : Asked → Mark
  | named _ => .colon
  | positional _ => .question

namespace Grammar

mutual

/-- The parameters of an expression, in the order of the text. -/
def Expr.asked : Expr → List (Spanned Asked)
  | .path route => pathAsked route
  | .literal _ _ => []
  | .named span name => [⟨.named name, span⟩]
  | .positional span position => [⟨.positional position, span⟩]
  | .arithmetic _ _ left right => left.asked ++ right.asked
  | .negate _ operand => operand.asked
  | .call _ _ _ argument => optionalAsked argument

/-- The parameters in the indices of a path. -/
def pathAsked : Path Expr → List (Spanned Asked)
  | ⟨⟨_, index⟩, rest, _⟩ => optionalAsked index ++ partsAsked rest

/-- The parameters of an index or an argument. -/
def optionalAsked : Option Expr → List (Spanned Asked)
  | none => []
  | some expr => expr.asked

/-- The parameters in the indices of parts of a path. -/
def partsAsked : List (PathPart Expr) → List (Spanned Asked)
  | [] => []
  | ⟨_, index⟩ :: rest => optionalAsked index ++ partsAsked rest

end

/-- The parameters of a select list. -/
def selectAsked (select : Option SelectClause) : List (Spanned Asked) :=
  ((select.map (·.selections)).getD []).flatMap (·.expr.asked)

mutual

/-- The parameters of a predicate. -/
def Predicate.asked : Predicate → List (Spanned Asked)
  | .and _ left right | .or _ left right => left.asked ++ right.asked
  | .not _ operand => operand.asked
  | .compare _ _ left right => left.asked ++ right.asked
  | .inList _ test values _ => test.asked ++ values.flatMap Expr.asked
  | .inQuery _ test query _ => test.asked ++ queryAsked query
  | .memberOf _ element collection _ => element.asked ++ pathAsked collection
  | .isNull _ operand _ => operand.asked
  | .like _ operand pattern _ => operand.asked ++ pattern.asked
  | .between _ operand low high _ => operand.asked ++ low.asked ++ high.asked

/-- The parameters of a query. -/
def queryAsked : Query Predicate → List (Spanned Asked)
  | ⟨select, ⟨spaces, _⟩, filter, _⟩ =>
    selectAsked select ++ spacesAsked spaces ++ filterAsked filter

/-- The parameters of the items of a from-clause. -/
def spacesAsked : List (FromSpace Predicate) → List (Spanned Asked)
  | [] => []
  | ⟨_, joins, _⟩ :: rest => joinsAsked joins ++ spacesAsked rest

/-- The parameters in the paths and conditions of joins. -/
def joinsAsked : List (Join Predicate) → List (Spanned Asked)
  | [] => []
  | ⟨_, _, target, _, predicate, _⟩ :: rest =>
    pathAsked target ++ filterAsked predicate ++ joinsAsked rest

/-- The parameters of a condition that may be absent. -/
def filterAsked : Option Predicate → List (Spanned Asked)
  | none => []
  | some predicate => predicate.asked

end

/-- The parameters of an assignment. -/
def Assignment.asked (assignment : Assignment) : List (Spanned Asked) :=
  pathAsked assignment.target ++ assignment.value.asked

/-- The parameters of a statement, in the order of the text. -/
def Statement.asked : Statement → List (Spanned Asked)
  | select query order => queryAsked query ++ order.flatMap (·.expr.asked)
  | update _ assignments filter => assignments.flatMap Assignment.asked ++ filterAsked filter
  | delete _ filter => filterAsked filter

/-- A path without indices asks for nothing. -/
theorem partsAsked_of_plain {parts : List (PathPart Expr)}
    (plain : parts.all (·.index.isNone) = true) : partsAsked parts = [] := by
  induction parts with
  | nil => rfl
  | cons part rest inductionHypothesis =>
    obtain ⟨name, index⟩ := part
    rw [List.all_cons, Bool.and_eq_true, Option.isNone_iff_eq_none] at plain
    simp only at plain
    rw [partsAsked, plain.1, inductionHypothesis plain.2]
    rfl

/-- A path without indices has no parameters. -/
theorem pathAsked_of_plain {path : Path Expr} (plain : path.isSimple = true) :
    pathAsked path = [] := by
  obtain ⟨⟨name, index⟩, rest, span⟩ := path
  rw [pathAsked, ← partsAsked]
  exact partsAsked_of_plain plain

open Reader

/-! ## Signs of parameters -/

/-- The sign of a parameter that the token is. -/
def sign? : Token → Option Mark
  | .mark .question => some .question
  | .mark .colon => some .colon
  | _ => none

/-- The signs of parameters among the lexemes, and where they stand. -/
def signs (lexemes : List Lexeme) : List (Nat × Mark) :=
  lexemes.filterMap fun lexeme => (sign? lexeme.token).map fun sign => (lexeme.span.start, sign)

/-- The parameters are those that begin with the signs among the lexemes. -/
def Shows (used : List Lexeme) (asked : List (Spanned Asked)) : Prop :=
  signs used = asked.map fun parameter => (parameter.span.start, parameter.value.sign)

namespace Shows

variable {used before behind : List Lexeme} {asked later : List (Spanned Asked)}

/-- No lexemes show no parameters. -/
theorem nil : Shows [] [] := rfl

/-- What is shown by two texts, one after the other, is shown by both together. -/
theorem append (first : Shows used asked) (second : Shows behind later) :
    Shows (used ++ behind) (asked ++ later) := by
  unfold Shows at first second ⊢
  rw [signs, List.filterMap_append, List.map_append]
  exact congrArg₂ _ first second

/-- Lexemes that show nothing may stand in front. -/
theorem skip (quiet : Shows before []) (shows : Shows behind asked) :
    Shows (before ++ behind) asked := append quiet shows

/-- Lexemes that show nothing may follow. -/
theorem stay (shows : Shows before asked) (quiet : Shows behind []) :
    Shows (before ++ behind) asked := by
  have whole := append shows quiet
  rwa [List.append_nil] at whole

/-- Where no token is a sign of a parameter, there are no parameters. -/
theorem quiet (unsigned : ∀ token ∈ tokens used, sign? token = none) : Shows used [] := by
  rw [Shows, List.map_nil, signs, List.filterMap_eq_nil_iff]
  intro lexeme listed
  rw [unsigned lexeme.token (List.mem_map.mpr ⟨lexeme, listed, rfl⟩), Option.map_none]

end Shows

/-- A token that is no sign of a parameter shows nothing. -/
theorem token_quiet {wanted : Token} (unsigned : sign? wanted = none) :
    Gives (token wanted) fun used _ => Shows used [] := by
  refine (Gives.token wanted).weaken fun used _ spelled => .quiet ?_
  simpa [spelled] using unsigned

/-- A keyword that may be left out shows nothing. -/
theorem flag_quiet (word : Keyword) : Gives (flag word) fun used _ => Shows used [] := by
  refine (Gives.flag word).weaken fun used found spelled => .quiet ?_
  rw [spelled]
  cases found <;> simp [sign?]

/-- A name shows nothing. -/
theorem name_quiet : Gives name fun used _ => Shows used [] := by
  refine name_gives.weaken fun used name spelled => .quiet ?_
  simp [spelled, sign?]

/-- Repeating a reader that shows nothing shows nothing. -/
theorem many_quiet {α : Type} {reader : Reader α} (quiet : Gives reader fun used _ => Shows used []) :
    Gives (many reader) fun used _ => Shows used [] := by
  refine (Gives.many _ quiet).weaken fun used values told => ?_
  induction values generalizing used with
  | nil =>
    obtain rfl := told
    exact .nil
  | cons value values inductionHypothesis =>
    obtain ⟨first, others, rfl, begun, rest⟩ := told
    exact begun.skip (inductionHypothesis others rest)

section Readers

variable {α : Type} {reader : Reader α} {asked : α → List (Spanned Asked)}
  (shows : Gives reader fun used value => Shows used (asked value))

include shows

/-- What may be left out shows the parameters of what is there. -/
theorem optional_shows : Gives (Reader.optional reader) fun used found =>
    Shows used ((found.map asked).getD []) := by
  refine (Gives.optional shows).weaken fun used found told => ?_
  cases found with
  | none =>
    obtain rfl := told
    exact .nil
  | some value => exact told

/-- A repetition shows the parameters of its items, one after the other. -/
theorem many_shows : Gives (many reader) fun used values => Shows used (values.flatMap asked) := by
  refine (Gives.many _ shows).weaken fun used values told => ?_
  induction values generalizing used with
  | nil =>
    obtain rfl := told
    exact .nil
  | cons value values inductionHypothesis =>
    obtain ⟨first, others, rfl, begun, rest⟩ := told
    rw [List.flatMap_cons]
    exact begun.append (inductionHypothesis others rest)

/-- An opening token that is no sign adds nothing to what stands behind it. -/
theorem behind_shows {opening : Token} (unsigned : sign? opening = none) :
    Gives (do token opening; reader) fun used value => Shows used (asked value) :=
  .bind (token_quiet unsigned) fun _ _ quiet => shows.weaken fun _ _ told => quiet.skip told

/-- Marks around a reader that are no signs add nothing to it. -/
theorem between_shows {opening closing : Mark} (unsigned : sign? (.mark opening) = none)
    (unsignedToo : sign? (.mark closing) = none) :
    Gives (Reader.between opening closing reader) fun used value => Shows used (asked value) :=
  .bind (token_quiet unsigned) fun _ _ quiet => .bind shows fun _ _ told =>
    .map (token_quiet unsignedToo) fun _ _ quietToo => quiet.skip (told.stay quietToo)

/-- A list with commas shows the parameters of its items, one after the other. -/
theorem commaSeparated_shows :
    Gives (commaSeparated reader) fun used values => Shows used (values.flatMap asked) :=
  .bind shows fun _ _ told => .map (many_shows (behind_shows shows rfl)) fun _ _ others =>
    told.append others

/-- Keeping the place of what is read changes nothing in what it shows. -/
theorem spanned_shows : Gives (Reader.spanned reader) fun used found =>
    Shows used (asked found.1) :=
  (Gives.spanned _ shows).weaken fun _ _ told => told.1

end Readers

/-! ## Expressions -/

/-- A literal shows nothing, as it asks for nothing. -/
theorem literal_shows : Gives literal fun used found => Shows used found.asked := by
  refine .bind (.spanned _ (.item _)) fun ⟨value, span⟩ used told => .pure ?_
  obtain ⟨⟨token, spelled, denotes⟩, _⟩ := told
  rw [List.append_nil]
  apply Shows.quiet
  rw [spelled, List.forall_mem_singleton]
  -- What denotes a literal is no sign at all.
  unfold literalOf? at denotes
  split at denotes <;> first | rfl | cases denotes

/-- The sign begins the place of the parameter. -/
theorem Shows.opening {used : List Lexeme} {sign : Mark} {rest : List Token} {value : Asked}
    (spelled : tokens used = .mark sign :: rest) (unsigned : ∀ token ∈ rest, sign? token = none)
    (same : sign? (.mark sign) = some value.sign) : Shows used [⟨value, spanOf used⟩] := by
  obtain ⟨lexeme, others, rfl, first, behind⟩ := tokens_eq_cons.mp spelled
  have quiet : Shows others [] := .quiet (behind ▸ unsigned)
  have begun : Shows [lexeme] [⟨value, spanOf (lexeme :: others)⟩] := by
    simp [Shows, signs, first, same, spanOf]
  exact begun.append quiet

/-- A named parameter begins with its colon. -/
theorem namedParameter_shows : Gives namedParameter fun used found => Shows used found.asked := by
  refine .bind (.spanned _ (.behind _ .identifier)) fun ⟨name, span⟩ used told => .pure ?_
  obtain ⟨⟨inside, named, spelled⟩, rfl⟩ := told
  rw [List.append_nil]
  refine .opening spelled ?_ rfl
  simp [named, sign?]

/-- A positional parameter begins with its question mark. -/
theorem positionalParameter_shows :
    Gives positionalParameter fun used found => Shows used found.asked := by
  refine .bind (.spanned _ (.behind _ (.optional ordinal_gives)))
    fun ⟨position, span⟩ used told => .pure ?_
  obtain ⟨⟨inside, numbered, spelled⟩, rfl⟩ := told
  rw [List.append_nil]
  refine .opening spelled ?_ rfl
  cases position with
  | none =>
    obtain rfl : inside = [] := numbered
    simp
  | some position =>
    obtain ⟨digits, named, _⟩ := numbered
    simp [named, sign?]

section Expressions

variable {inner : Reader Expr} (shows : Gives inner fun used found => Shows used found.asked)

include shows

/-- An index in brackets shows the parameters in it. -/
theorem index_shows : Gives (Reader.optional (Reader.between .leftBracket .rightBracket inner))
    fun used found => Shows used (optionalAsked found) := by
  refine (optional_shows (between_shows shows rfl rfl)).weaken fun used found told => ?_
  cases found <;> exact told

/-- A part of a path shows the parameters in its index. -/
theorem part_shows : Gives (path.part inner) fun used found =>
    Shows used (optionalAsked found.index) :=
  .bind name_quiet fun _ _ quiet => .map (index_shows shows) fun _ _ told => quiet.skip told

/-- A path shows the parameters in its indices. -/
theorem path_shows : Gives (path inner) fun used found => Shows used (pathAsked found) := by
  have parts : ∀ parts : List (PathPart Expr),
      parts.flatMap (fun part => optionalAsked part.index) = partsAsked parts := by
    intro parts
    induction parts with
    | nil => rfl
    | cons part rest inductionHypothesis =>
      obtain ⟨name, index⟩ := part
      rw [List.flatMap_cons, inductionHypothesis, partsAsked]
  refine .bind (.spanned (fun used found =>
    Shows used (optionalAsked found.1.index ++ partsAsked found.2)) ?_)
    fun ⟨⟨first, rest⟩, span⟩ used told => .pure ?_
  · refine .bind (part_shows shows) fun first before told => ?_
    refine .map (many_shows (behind_shows (part_shows shows) rfl)) fun used rest others => ?_
    rw [parts] at others
    exact told.append others
  · rw [List.append_nil]
    exact told.1

/-- A call shows the parameters in its argument. -/
theorem call_shows : Gives (call inner) fun used found => Shows used found.asked := by
  refine .bind (.spanned (fun used found => Shows used (optionalAsked found.2.2)) ?_)
    fun ⟨⟨name, distinct, argument⟩, span⟩ used told => .pure ?_
  · refine .bind name_quiet fun name first named => .bind (token_quiet rfl) fun _ second opened => ?_
    refine .bind (flag_quiet _) fun distinct third flagged => ?_
    have star : Gives (do mark .star; pure (none : Option Expr)) fun used found =>
        Shows used (optionalAsked found) :=
      .map (token_quiet rfl) fun used _ quiet => quiet
    have value : Gives (do let argument ← inner; pure (some argument)) fun used found =>
        Shows used (optionalAsked found) :=
      .map shows fun used found told => told
    refine .bind (.orElse star value) fun argument fourth told => ?_
    refine .map (token_quiet rfl) fun fifth _ closed => ?_
    exact named.skip (opened.skip (flagged.skip (told.stay closed)))
  · rw [List.append_nil]
    exact told.1

/-- An atom shows its parameters. -/
theorem atom_shows : Gives (atom inner) fun used found => Shows used found.asked := by
  have route : Gives (do let path ← path inner; pure (Expr.path path)) fun used found =>
      Shows used found.asked :=
    .map (path_shows shows) fun used path told => told
  exact .orElse literal_shows (.orElse namedParameter_shows (.orElse positionalParameter_shows
    (.orElse (call_shows shows) (.orElse route (between_shows shows rfl rfl)))))

/-- An operand with signs in front shows its parameters. -/
theorem unary_shows : Gives (unary inner) fun used found => Shows used found.asked := by
  have minuses : Gives (many (Reader.spanned (mark .minus))) fun used _ => Shows used [] :=
    many_quiet (spanned_shows (token_quiet rfl))
  refine .bind minuses fun signs before quiet => .map (atom_shows shows) fun used operand told => ?_
  apply quiet.skip
  clear quiet
  induction signs with
  | nil => exact told
  | cons sign signs inductionHypothesis => exact inductionHypothesis

omit shows in
/-- A row of operands has the parameters of all of them. -/
theorem leftAssociative_shows {op? : Token → Option ArithmeticOp} {operand : Reader Expr}
    (unsigned : ∀ token op, op? token = some op → sign? token = none)
    (operands : Gives operand fun used found => Shows used found.asked) :
    Gives (leftAssociative (item op?) operand) fun used found => Shows used found.asked := by
  have operator : Gives (item op?) fun used _ => Shows used [] := by
    refine (Gives.item op?).weaken fun used op told => ?_
    obtain ⟨token, spelled, accepted⟩ := told
    apply Shows.quiet
    rw [spelled, List.forall_mem_singleton]
    exact unsigned token op accepted
  refine .bind operands fun first used begun => ?_
  refine .map (.many (fun used found => Shows used found.2.asked) ?_) fun further rest told => ?_
  · exact .bind operator fun op before quiet => .map operands fun _ _ told => quiet.skip told
  · induction rest generalizing first used further with
    | nil =>
      obtain rfl := told
      rwa [List.append_nil]
    | cons next rest inductionHypothesis =>
      obtain ⟨before, others, rfl, shown, follows⟩ := told
      rw [← List.append_assoc]
      exact inductionHypothesis (operation first next.1 next.2) (used ++ before)
        (begun.append shown) others follows

/-- A sum shows the parameters of its terms in their order. -/
theorem sum_shows : Gives (sum inner) fun used found => Shows used found.asked := by
  apply leftAssociative_shows
  · intro token op accepted
    unfold sumOp? at accepted
    split at accepted <;> first | rfl | cases accepted
  · apply leftAssociative_shows _ (unary_shows shows)
    intro token op accepted
    unfold productOp? at accepted
    split at accepted <;> first | rfl | cases accepted

end Expressions

/-- Every expression that is read shows its parameters in the order of the text. -/
theorem expression_shows : Gives expression fun used found => Shows used found.asked :=
  .nested fun _ shows => sum_shows shows

/-! ## Clauses without conditions -/

/-- There is no sign of a parameter in a label. -/
theorem unsigned_of_isLabel {word : List Token} {label : Option (Spanned String)}
    (labelled : IsLabel word label) : ∀ token ∈ word, sign? token = none := by
  cases labelled with
  | none => simp
  | some spelled name => cases spelled <;> simp [tokenIf, sign?]

/-- There is no sign of a parameter in the root of an item. -/
theorem unsigned_of_isRoot {word : List Token} {root : RootRef} (rooted : IsRoot word root) :
    ∀ token ∈ word, sign? token = none := by
  obtain ⟨first, rest, labelled⟩ := rooted
  rw [List.forall_mem_append, List.forall_mem_cons]
  refine ⟨⟨rfl, ?_⟩, unsigned_of_isLabel labelled⟩
  intro token listed
  obtain ⟨name, _, spelled⟩ := List.mem_flatMap.mp listed
  simp only [List.mem_cons, List.not_mem_nil, or_false] at spelled
  rcases spelled with rfl | rfl <;> rfl

/-- There is no sign of a parameter in the words of a join. -/
theorem unsigned_of_isJoinKind {word : List Token} {kind : JoinKind} (spoken : IsJoinKind word kind) :
    ∀ token ∈ word, sign? token = none := by
  cases spoken with
  | leftOuter spelled => cases spelled <;> simp [tokenIf, sign?]
  | _ => simp [sign?]

/-- A label that may be left out shows nothing. -/
theorem label_quiet : Gives (Reader.optional label) fun used _ => Shows used [] :=
  label_gives.weaken fun _ _ labelled => .quiet (unsigned_of_isLabel labelled)

/-- The root of an item shows nothing. -/
theorem rootRef_quiet : Gives rootRef fun used _ => Shows used [] :=
  rootRef_gives.weaken fun _ _ rooted => .quiet (unsigned_of_isRoot rooted)

/-- The words of a join show nothing. -/
theorem joinKind_quiet : Gives joinKind fun used _ => Shows used [] :=
  joinKind_gives.weaken fun _ _ spoken => .quiet (unsigned_of_isJoinKind spoken)

/-- An item of a select list shows the parameters of its expression. -/
theorem selection_shows : Gives selection fun used found => Shows used found.expr.asked := by
  refine .bind (.spanned (fun used found => Shows used found.1.asked) ?_)
    fun ⟨⟨expr, label⟩, span⟩ used told => .pure ?_
  · refine .bind expression_shows fun expr before told => ?_
    exact .map label_quiet fun used label quiet => told.stay quiet
  · rw [List.append_nil]
    exact told.1

/-- A select list shows the parameters of its items. -/
theorem selectClause_shows : Gives (Reader.optional selectClause) fun used found =>
    Shows used (selectAsked found) := by
  have spoken : Gives selectClause fun used found => Shows used (selectAsked (some found)) := by
    refine .bind (.spanned (fun used found => Shows used (found.2.flatMap (·.expr.asked))) ?_)
      fun ⟨⟨distinct, selections⟩, span⟩ used told => .pure ?_
    · refine .bind (token_quiet rfl) fun _ first spelled => ?_
      refine .bind (flag_quiet _) fun distinct second flagged => ?_
      refine .map (commaSeparated_shows selection_shows) fun third selections listed => ?_
      exact spelled.skip (flagged.skip listed)
    · rw [List.append_nil]
      exact told.1
  refine (Gives.optional spoken).weaken fun used found told => ?_
  cases found with
  | none =>
    obtain rfl := told
    exact .nil
  | some found => exact told

/-! ## Conditions and queries -/

section Conditions

variable {inner : Reader Predicate} (shows : Gives inner fun used found => Shows used found.asked)

include shows

/-- A condition behind its keyword shows its parameters. -/
theorem filter_shows {opening : Reader Unit} (quiet : Gives opening fun used _ => Shows used []) :
    Gives (Reader.optional (do opening; inner)) fun used found => Shows used (filterAsked found) := by
  have spoken : Gives (do opening; inner) fun used found => Shows used found.asked :=
    .bind quiet fun _ _ spelled => shows.weaken fun _ _ told => spelled.skip told
  refine (Gives.optional spoken).weaken fun used found told => ?_
  cases found with
  | none =>
    obtain rfl := told
    exact .nil
  | some found => exact told

/-- A join shows the parameters of its target and then those of its condition. -/
theorem join_shows : Gives (join inner) fun used found =>
    Shows used (pathAsked found.target ++ filterAsked found.predicate) := by
  refine .bind (.spanned (fun used found =>
    Shows used (pathAsked found.2.2.1 ++ filterAsked found.2.2.2.2)) ?_)
    fun ⟨⟨kind, fetch, target, label, condition⟩, span⟩ used told => .pure ?_
  · refine .bind joinKind_quiet fun kind first spoken => ?_
    refine .bind (token_quiet rfl) fun _ second spelled => ?_
    refine .bind (flag_quiet _) fun fetch third flagged => ?_
    refine .bind (path_shows expression_shows) fun target fourth followed => ?_
    refine .bind label_quiet fun label fifth labelled => ?_
    refine .map (filter_shows shows (.orElse (token_quiet rfl) (token_quiet rfl)))
      fun sixth condition holds => ?_
    exact spoken.skip (spelled.skip (flagged.skip (followed.append (labelled.skip holds))))
  · rw [List.append_nil]
    exact told.1

omit shows in
/-- What joins ask for is what each of them asks for, one after the other. -/
theorem joinsAsked_eq (joins : List (Join Predicate)) :
    (joins.flatMap fun join => pathAsked join.target ++ filterAsked join.predicate) =
      joinsAsked joins := by
  induction joins with
  | nil => rfl
  | cons join rest inductionHypothesis =>
    obtain ⟨kind, fetch, target, label, predicate, span⟩ := join
    rw [List.flatMap_cons, inductionHypothesis, joinsAsked]

/-- An item of a from-clause shows the parameters of its joins. -/
theorem fromSpace_shows : Gives (fromSpace inner) fun used found =>
    Shows used (joinsAsked found.joins) := by
  refine .bind (.spanned (fun used found => Shows used (joinsAsked found.2)) ?_)
    fun ⟨⟨root, joins⟩, span⟩ used told => .pure ?_
  · refine .bind rootRef_quiet fun root before quiet => ?_
    refine .map (many_shows (join_shows shows)) fun used joins told => ?_
    rw [joinsAsked_eq] at told
    exact quiet.skip told
  · rw [List.append_nil]
    exact told.1

omit shows in
/-- What items of a from-clause ask for is what each of them asks for. -/
theorem spacesAsked_eq (spaces : List (FromSpace Predicate)) :
    (spaces.flatMap fun space => joinsAsked space.joins) = spacesAsked spaces := by
  induction spaces with
  | nil => rfl
  | cons space rest inductionHypothesis =>
    obtain ⟨root, joins, span⟩ := space
    rw [List.flatMap_cons, inductionHypothesis, spacesAsked]

/-- A from-clause shows the parameters of its items. -/
theorem fromClause_shows : Gives (fromClause inner) fun used found =>
    Shows used (spacesAsked found.spaces) := by
  refine .bind (.spanned (fun used spaces => Shows used (spacesAsked spaces)) ?_)
    fun ⟨spaces, span⟩ used told => .pure ?_
  · refine (behind_shows (commaSeparated_shows (fromSpace_shows shows)) rfl).weaken
      fun used spaces told => ?_
    rwa [spacesAsked_eq] at told
  · rw [List.append_nil]
    exact told.1

/-- A query shows its parameters in the order of the text. -/
theorem query_shows : Gives (query inner) fun used found => Shows used (queryAsked found) := by
  refine .bind (.spanned (fun used found =>
    Shows used (queryAsked ⟨found.1, found.2.1, found.2.2, .nowhere⟩)) ?_)
    fun ⟨⟨select, sources, filter⟩, span⟩ used told => .pure ?_
  · refine .bind selectClause_shows fun select first selects => ?_
    refine .bind (fromClause_shows shows) fun ⟨spaces, span⟩ second listed => ?_
    refine .map (filter_shows shows (token_quiet rfl)) fun third filter holds => ?_
    rw [← List.append_assoc]
    exact (selects.append listed).append holds
  · rw [List.append_nil]
    exact told.1

omit shows in
/-- Whatever expression the tail completes, the parameters of the tail come behind those of the
expression. -/
def ShowsTail (used : List Lexeme) (tail : Tail) : Prop :=
  ∃ asked, Shows used asked ∧ ∀ span left, (tail span left).asked = left.asked ++ asked

/-- The rest of a test against a list or a query shows its parameters behind those of the operand.
-/
theorem inTail_shows (negated : Bool) : Gives (inTail inner negated) ShowsTail := by
  refine .bind (token_quiet rfl) fun _ before quiet => .orElse ?_ ?_
  · refine .map (between_shows (query_shows shows) rfl rfl) fun used query told => ?_
    exact ⟨queryAsked query, quiet.skip told, fun span left => rfl⟩
  · refine .map (between_shows (commaSeparated_shows expression_shows) rfl rfl)
      fun used values told => ?_
    exact ⟨values.flatMap Expr.asked, quiet.skip told, fun span left => rfl⟩

omit shows in
/-- So does the rest of a comparison. -/
theorem comparisonTail_shows : Gives comparisonTail ShowsTail := by
  refine .bind (.item _) fun op before spelled => .map expression_shows fun used right told => ?_
  obtain ⟨token, named, operator⟩ := spelled
  have quiet : Shows before [] := by
    apply Shows.quiet
    rw [named, List.forall_mem_singleton]
    unfold comparisonOp? at operator
    split at operator <;> first | rfl | cases operator
  exact ⟨right.asked, quiet.skip told, fun span left => rfl⟩

omit shows in
/-- So does the rest of a test for null, which has none. -/
theorem nullTail_shows : Gives nullTail ShowsTail := by
  refine .bind (token_quiet rfl) fun _ first spelled => ?_
  refine .bind (flag_quiet _) fun negated second flagged => ?_
  refine .map (token_quiet rfl) fun third _ ending => ?_
  exact ⟨[], spelled.skip (flagged.skip ending), fun span left => (List.append_nil _).symm⟩

omit shows in
/-- So do the rests of tests for members, patterns and ranges. -/
theorem otherTail_shows (negated : Bool) :
    Gives (memberTail negated <|> likeTail negated <|> betweenTail negated) ShowsTail := by
  refine .orElse ?_ (.orElse ?_ ?_)
  · refine .bind (token_quiet rfl) fun _ first spelled => ?_
    refine .bind (optional_shows (token_quiet rfl)) fun mark second marked => ?_
    have quiet : Shows second [] := by cases mark <;> exact marked
    refine .map (path_shows expression_shows) fun third collection followed => ?_
    exact ⟨pathAsked collection, spelled.skip (quiet.skip followed), fun span left => rfl⟩
  · refine .bind (token_quiet rfl) fun _ before quiet => ?_
    refine .map expression_shows fun used pattern told => ?_
    exact ⟨pattern.asked, quiet.skip told, fun span left => rfl⟩
  · refine .bind (token_quiet rfl) fun _ first spelled => ?_
    refine .bind expression_shows fun low second least => ?_
    refine .bind (token_quiet rfl) fun _ third joined => ?_
    refine .map expression_shows fun fourth high most => ?_
    refine ⟨low.asked ++ high.asked, spelled.skip (least.append (joined.skip most)), fun span left => ?_⟩
    exact List.append_assoc _ _ _

/-- So does whatever may follow an operand. -/
theorem tail_shows :
    Gives (comparisonTail <|> nullTail <|> negatableTail inner) ShowsTail := by
  refine .orElse comparisonTail_shows (.orElse nullTail_shows ?_)
  refine .bind (flag_quiet _) fun negated before quiet => ?_
  refine (Gives.orElse (inTail_shows shows negated) (otherTail_shows negated)).weaken
    fun used tail told => ?_
  obtain ⟨asked, shown, completes⟩ := told
  exact ⟨asked, quiet.skip shown, completes⟩

/-- A predicate in parentheses, or an operand with what follows it, shows its parameters. -/
theorem primaryPredicate_shows : Gives (primaryPredicate inner) fun used found =>
    Shows used found.asked := by
  refine .orElse ?_ (between_shows shows rfl rfl)
  refine .bind (.spanned (fun used found => ∀ span, Shows used (found.2 span found.1).asked) ?_)
    fun ⟨⟨left, tail⟩, span⟩ used told => .pure ?_
  · refine .bind expression_shows fun left before begun => ?_
    refine .map (tail_shows shows) fun used tail told => ?_
    obtain ⟨asked, shown, completes⟩ := told
    intro span
    rw [completes]
    exact begun.append shown
  · rw [List.append_nil]
    exact told.1 span

/-- A negated predicate shows the parameters of the predicate. -/
theorem negation_shows : Gives (negation inner) fun used found => Shows used found.asked := by
  have words : Gives (many (Reader.spanned (keyword .notKw))) fun used _ => Shows used [] :=
    many_quiet (spanned_shows (token_quiet rfl))
  refine .bind words fun words before quiet => ?_
  refine .map (primaryPredicate_shows shows) fun used operand told => ?_
  apply quiet.skip
  clear quiet
  induction words with
  | nil => exact told
  | cons word words inductionHypothesis => exact inductionHypothesis

omit shows in
/-- A row of conditions has the parameters of all of them. -/
theorem connected_shows {word : Keyword} {combine : Span → Predicate → Predicate → Predicate}
    {operand : Reader Predicate} (operands : Gives operand fun used found => Shows used found.asked)
    (joined : ∀ span left right, (combine span left right).asked = left.asked ++ right.asked) :
    Gives (connected word combine operand) fun used found => Shows used found.asked := by
  refine .bind operands fun first used begun => ?_
  refine .map (.many _ (behind_shows operands rfl)) fun further rest told => ?_
  induction rest generalizing first used further with
  | nil =>
    obtain rfl := told
    rwa [List.append_nil]
  | cons next rest inductionHypothesis =>
    obtain ⟨before, others, rfl, shown, follows⟩ := told
    rw [← List.append_assoc]
    refine inductionHypothesis _ (used ++ before) ?_ others follows
    rw [joined]
    exact begun.append shown

end Conditions

/-- Every predicate that is read shows its parameters in the order of the text. -/
theorem predicate_shows : Gives predicate fun used found => Shows used found.asked :=
  .nested fun _ shows => connected_shows
    (connected_shows (negation_shows shows) fun _ _ _ => rfl) fun _ _ _ => rfl

/-! ## Statements -/

/-- A sort key shows the parameters of its expression. -/
theorem sortSpec_shows : Gives sortSpec fun used found => Shows used found.expr.asked := by
  refine .bind (.spanned (fun used found => Shows used found.1.asked) ?_)
    fun ⟨⟨expr, order⟩, span⟩ used told => .pure ?_
  · have ascending : Gives (do keyword .asc; pure SortOrder.ascending) fun used _ => Shows used [] :=
      .map (token_quiet rfl) fun _ _ quiet => quiet
    have descending : Gives (do keyword .desc; pure SortOrder.descending) fun used _ => Shows used [] :=
      .map (token_quiet rfl) fun _ _ quiet => quiet
    refine .bind expression_shows fun expr before told => ?_
    refine .map (optional_shows (.orElse ascending descending)) fun used order quiet => ?_
    have silent : Shows used [] := by cases order <;> exact quiet
    exact told.stay silent
  · rw [List.append_nil]
    exact told.1

/-- An assignment shows the parameters of its target and then those of its value. -/
theorem assignment_shows : Gives assignment fun used found => Shows used found.asked := by
  refine .bind (.spanned (fun used found => Shows used (pathAsked found.1 ++ found.2.asked)) ?_)
    fun ⟨⟨target, value⟩, span⟩ used told => .pure ?_
  · refine .bind (path_shows expression_shows) fun target first followed => ?_
    refine .bind (token_quiet rfl) fun _ second quiet => ?_
    refine .map expression_shows fun third value told => ?_
    exact followed.append (quiet.skip told)
  · rw [List.append_nil]
    exact told.1

/-- A statement shows its parameters in the order of the text. -/
theorem statement_shows : Gives (selectStatement <|> updateStatement <|> deleteStatement)
    fun used found => Shows used found.asked := by
  refine .orElse ?_ (.orElse ?_ ?_)
  · refine .bind (query_shows predicate_shows) fun query before told => ?_
    have keys : Gives (do keyword .order; keyword .byKw; commaSeparated sortSpec) fun used found =>
        Shows used (found.flatMap (·.expr.asked)) :=
      behind_shows (behind_shows (commaSeparated_shows sortSpec_shows) rfl) rfl
    refine .map (optional_shows keys) fun used order sorted => ?_
    cases order with
    | none => exact told.append sorted
    | some order => exact told.append sorted
  · refine .bind (token_quiet rfl) fun _ first spelled => ?_
    refine .bind rootRef_quiet fun target second named => ?_
    refine .bind (token_quiet rfl) fun _ third introduced => ?_
    refine .bind (commaSeparated_shows assignment_shows) fun assignments fourth assigned => ?_
    refine .map (filter_shows predicate_shows (token_quiet rfl)) fun fifth filter holds => ?_
    exact spelled.skip (named.skip (introduced.skip (assigned.append holds)))
  · refine .bind (token_quiet rfl) fun _ first spelled => ?_
    refine .bind (optional_shows (token_quiet rfl)) fun mark second marked => ?_
    have quiet : Shows second [] := by cases mark <;> exact marked
    refine .bind rootRef_quiet fun target third named => ?_
    refine .map (filter_shows predicate_shows (token_quiet rfl)) fun fourth filter holds => ?_
    exact spelled.skip (quiet.skip (named.skip holds))

/-- The parameters in the tree of a text are, in order, those that begin with the signs in it. -/
theorem parse_shows {source : String} {tree : Statement}
    (parsed : Statement.parse source = .ok tree) :
    ∃ lexemes, Lexeme.read source = .ok lexemes ∧ Shows lexemes tree.asked :=
  parse_gives statement_shows parsed

end Grammar
end ObjectQuery
