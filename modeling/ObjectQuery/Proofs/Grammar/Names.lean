import ObjectQuery.Proofs.Grammar.Sound
import ObjectQuery.Proofs.Outcome
import ObjectQuery.Proofs.PlainName
import ObjectQuery.Proofs.Token.Spelling
/-!
# The names in a parse tree

The names that a statement gives to its sources and those on its paths are identifiers of the text,
or keywords that are read as such. They are words, made of the characters of identifiers, so they are
plain.
-/
namespace ObjectQuery

/-! ## Identifiers of a text -/

/-- All characters of the name are those of identifiers. -/
def IsWord (name : String) : Prop := ∀ c ∈ name.toList, Text.isIdentifierRest c = true

/-- A word has no dots and brackets. -/
theorem IsWord.isPlainName {name : String} (word : IsWord name) : IsPlainName name :=
  fun c member => isJoiner_of_isIdentifierRest (word c member)

/-- A lexeme that can be read as a name is a word. -/
structure Lexeme.SpellsWord (lexeme : Lexeme) : Prop where
  identifier : ∀ name, lexeme.token = .identifier name → IsWord name
  keyword : lexeme.token.isKeyword = true → IsWord lexeme.text

/-- A letter and what goes on with it are a word. -/
theorem isWord_identifier {c : Char} {rest : List Char} (start : Text.isIdentifierStart c = true) :
    IsWord (String.ofList (c :: rest.takeWhile Text.isIdentifierRest)) := by
  intro other member
  rw [String.toList_ofList] at member
  rcases List.mem_cons.mp member with rfl | inside
  · exact Text.isIdentifierRest_of_isIdentifierStart start
  · exact List.all_eq_true.mp List.all_takeWhile other inside

/-- An identifier that is scanned is spelled as a word. -/
theorem Token.scan?_spellsWord {cs : List Char} {token : Token} {length : Nat} {span : Span}
    (found : Token.scan? cs = some (token, length)) :
    Lexeme.SpellsWord ⟨token, String.ofList (cs.take length), span⟩ := by
  cases cs with
  | nil => cases found
  | cons c rest =>
    simp only [Token.scan?] at found
    split at found
    · rename_i start
      obtain ⟨rfl, rfl⟩ := Prod.mk.inj (Option.some.inj found)
      have word := @isWord_identifier c rest start
      refine ⟨?_, fun _ => ?_⟩
      · intro name same
        simp only [Token.ofWord] at same
        split at same
        · cases same
        · obtain rfl := Token.identifier.inj same
          exact word
      · have taken : (c :: rest).take (c :: rest.takeWhile Text.isIdentifierRest).length =
            c :: rest.takeWhile Text.isIdentifierRest := by
          rw [List.length_cons, List.take_succ_cons]
          exact congrArg _ (List.prefix_iff_eq_take.mp (List.takeWhile_prefix _)).symm
        rw [taken]
        exact word
    · split at found
      · obtain ⟨_, _, same⟩ := Option.map_eq_some_iff.mp found
        obtain ⟨rfl, rfl⟩ := Prod.mk.inj same
        exact ⟨by simp, by simp [Token.isKeyword]⟩
      · split at found
        · obtain ⟨rfl, rfl⟩ := Prod.mk.inj (Option.some.inj found)
          exact ⟨by simp, by simp [Token.isKeyword]⟩
        · obtain ⟨_, _, same⟩ := Option.map_eq_some_iff.mp found
          obtain ⟨rfl, rfl⟩ := Prod.mk.inj same
          exact ⟨by simp, by simp [Token.isKeyword]⟩

namespace Lexeme

/-- So are all identifiers of a text. -/
theorem scanWithin_spellsWord : ∀ {fuel start : Nat} {cs : List Char} {lexemes : List Lexeme},
    scanWithin fuel start cs = .ok lexemes → ∀ lexeme ∈ lexemes, lexeme.SpellsWord
  | 0, start, cs, lexemes, scanned => by
    obtain rfl := Except.ok.inj scanned
    simp
  | fuel + 1, start, cs, lexemes, scanned => by
    simp only [scanWithin] at scanned
    split at scanned
    · obtain rfl := Except.ok.inj scanned
      simp
    · split at scanned
      · cases scanned
      · rename_i found
        obtain ⟨rest, scannedRest, rfl⟩ := except_map_ok.mp scanned
        exact List.forall_mem_cons.mpr ⟨Token.scan?_spellsWord found, scanWithin_spellsWord scannedRest⟩

/-- Keywords that become identifiers are spelled as words. -/
theorem softenAfter_spellsWord : ∀ {levels : FromLevels} {previous : Option Token}
    {lexemes : List Lexeme}, (∀ lexeme ∈ lexemes, lexeme.SpellsWord) →
      ∀ lexeme ∈ softenAfter levels previous lexemes, lexeme.SpellsWord
  | _, _, [], _ => by simp [softenAfter]
  | levels, previous, lexeme :: rest, words => by
    obtain ⟨first, others⟩ := List.forall_mem_cons.mp words
    refine List.forall_mem_cons.mpr ⟨?_, softenAfter_spellsWord others⟩
    unfold softenedIf
    split
    · rename_i softened
      have spelled := first.keyword (Bool.and_eq_true_iff.mp softened).2
      refine ⟨?_, by simp [Token.isKeyword]⟩
      rintro name same
      obtain rfl := Token.identifier.inj same
      exact spelled
    · exact first

/-- Whatever can be read as a name in a text is a word. -/
theorem read_spellsWord {source : String} {lexemes : List Lexeme} (found : read source = .ok lexemes) :
    ∀ lexeme ∈ lexemes, lexeme.SpellsWord := by
  obtain ⟨scanned, spelled, rfl⟩ := except_map_ok.mp found
  exact softenAfter_spellsWord (scanWithin_spellsWord spelled)

end Lexeme

namespace Grammar

/-! ## Names of a tree -/

mutual

/-- The names on the paths of an expression. -/
def Expr.names : Expr → List String
  | .path route => pathNames route
  | .literal _ _ | .named _ _ | .positional _ _ => []
  | .arithmetic _ _ left right => left.names ++ right.names
  | .negate _ operand => operand.names
  | .call _ _ _ argument => optionalNames argument

/-- The names on a path and in its indices. -/
def pathNames : Path Expr → List String
  | ⟨⟨name, index⟩, rest, _⟩ => name.value :: (optionalNames index ++ partsNames rest)

/-- The names in an index or an argument. -/
def optionalNames : Option Expr → List String
  | none => []
  | some expr => expr.names

/-- The names of parts of a path and in their indices. -/
def partsNames : List (PathPart Expr) → List String
  | [] => []
  | ⟨name, index⟩ :: rest => name.value :: (optionalNames index ++ partsNames rest)

end

/-- The name that a source is given. -/
def labelNames (label : Option (Spanned String)) : List String := (label.map (·.value)).toList

/-- The names on the paths of a select list. -/
def selectNames (select : Option SelectClause) : List String :=
  ((select.map (·.selections)).getD []).flatMap (·.expr.names)

mutual

/-- The names on the paths of a predicate and those of the sources in it. -/
def Predicate.names : Predicate → List String
  | .and _ left right | .or _ left right => left.names ++ right.names
  | .not _ operand => operand.names
  | .compare _ _ left right => left.names ++ right.names
  | .inList _ test values _ => test.names ++ values.flatMap Expr.names
  | .inQuery _ test query _ => test.names ++ queryNames query
  | .memberOf _ element collection _ => element.names ++ pathNames collection
  | .isNull _ operand _ => operand.names
  | .like _ operand pattern _ => operand.names ++ pattern.names
  | .between _ operand low high _ => operand.names ++ low.names ++ high.names

/-- The names on the paths of a query and those of its sources. -/
def queryNames : Query Predicate → List String
  | ⟨select, ⟨spaces, _⟩, filter, _⟩ =>
    selectNames select ++ spacesNames spaces ++ filterNames filter

/-- The names of the items of a from-clause. -/
def spacesNames : List (FromSpace Predicate) → List String
  | [] => []
  | ⟨root, joins, _⟩ :: rest => labelNames root.label ++ joinsNames joins ++ spacesNames rest

/-- The names of joins. -/
def joinsNames : List (Join Predicate) → List String
  | [] => []
  | ⟨_, _, target, label, predicate, _⟩ :: rest =>
    pathNames target ++ labelNames label ++ filterNames predicate ++ joinsNames rest

/-- The names in a condition that may be absent. -/
def filterNames : Option Predicate → List String
  | none => []
  | some predicate => predicate.names

end

/-- The names on the paths of a statement and those of its sources. -/
def Statement.names : Statement → List String
  | select query order => queryNames query ++ order.flatMap (·.expr.names)
  | update target assignments filter => labelNames target.label ++
      (assignments.flatMap fun assignment => pathNames assignment.target ++ assignment.value.names) ++
      filterNames filter
  | delete target filter => labelNames target.label ++ filterNames filter

/-! ## Names do not depend on places -/

mutual

/-- The names in an expression do not depend on places. -/
theorem Expr.names_unplaced : ∀ expr : Expr, expr.unplaced.names = expr.names
  | .path route => by simp [Expr.unplaced, Expr.names, pathNames_unplaced route]
  | .literal _ _ | .named _ _ | .positional _ _ => by simp [Expr.unplaced, Expr.names]
  | .arithmetic _ _ left right => by
    simp [Expr.unplaced, Expr.names, left.names_unplaced, right.names_unplaced]
  | .negate _ operand => by simp [Expr.unplaced, Expr.names, operand.names_unplaced]
  | .call _ _ _ argument => by simp [Expr.unplaced, Expr.names, optionalNames_unplaced argument]

/-- Nor do those in a path. -/
theorem pathNames_unplaced : ∀ route : Path Expr, pathNames (unplacedPath route) = pathNames route
  | ⟨⟨name, index⟩, rest, _⟩ => by
    simp [unplacedPath, pathNames, Spanned.unplaced, optionalNames_unplaced index,
      partsNames_unplaced rest]

/-- Nor do those in an index or argument. -/
theorem optionalNames_unplaced : ∀ index : Option Expr,
    optionalNames (unplacedOptional index) = optionalNames index
  | none => rfl
  | some expr => by simp [unplacedOptional, optionalNames, expr.names_unplaced]

/-- Nor do those in parts of paths. -/
theorem partsNames_unplaced : ∀ parts : List (PathPart Expr),
    partsNames (unplacedParts parts) = partsNames parts
  | [] => rfl
  | ⟨name, index⟩ :: rest => by
    simp [unplacedParts, partsNames, Spanned.unplaced, optionalNames_unplaced index,
      partsNames_unplaced rest]

end

/-- Nor do those in a label. -/
theorem labelNames_unplaced (label : Option (Spanned String)) :
    labelNames (label.map Spanned.unplaced) = labelNames label := by
  cases label <;> rfl

/-- Nor do those in a select list. -/
theorem selectNames_unplaced (select : Option SelectClause) :
    selectNames (select.map SelectClause.unplaced) = selectNames select := by
  cases select with
  | none => rfl
  | some clause =>
    simp [selectNames, SelectClause.unplaced, Selection.unplaced, List.flatMap_map,
      Expr.names_unplaced]

mutual

/-- Nor do those in a predicate. -/
theorem Predicate.names_unplaced : ∀ predicate : Predicate, predicate.unplaced.names = predicate.names
  | .and _ left right | .or _ left right => by
    simp [Predicate.unplaced, Predicate.names, left.names_unplaced, right.names_unplaced]
  | .not _ operand => by simp [Predicate.unplaced, Predicate.names, operand.names_unplaced]
  | .inQuery _ test query negated => by
    simp [Predicate.unplaced, Predicate.names, test.names_unplaced, queryNames_unplaced query]
  | .compare .. | .inList .. | .memberOf .. | .isNull .. | .like .. | .between .. => by
    simp [Predicate.unplaced, Predicate.names, Expr.names_unplaced, pathNames_unplaced,
      List.flatMap_map]

/-- Nor do those in a query. -/
theorem queryNames_unplaced : ∀ query : Query Predicate,
    queryNames (unplacedQuery query) = queryNames query
  | ⟨select, ⟨spaces, _⟩, filter, _⟩ => by
    simp [unplacedQuery, queryNames, selectNames_unplaced, spacesNames_unplaced spaces,
      filterNames_unplaced filter]

/-- Nor do those in the items of a from-clause. -/
theorem spacesNames_unplaced : ∀ spaces : List (FromSpace Predicate),
    spacesNames (unplacedSpaces spaces) = spacesNames spaces
  | [] => rfl
  | ⟨root, joins, _⟩ :: rest => by
    simp [unplacedSpaces, spacesNames, RootRef.unplaced, labelNames_unplaced,
      joinsNames_unplaced joins, spacesNames_unplaced rest]

/-- Nor do those in joins. -/
theorem joinsNames_unplaced : ∀ joins : List (Join Predicate),
    joinsNames (unplacedJoins joins) = joinsNames joins
  | [] => rfl
  | ⟨_, _, target, label, predicate, _⟩ :: rest => by
    simp [unplacedJoins, joinsNames, pathNames_unplaced, labelNames_unplaced,
      filterNames_unplaced predicate, joinsNames_unplaced rest]

/-- Nor do those in a condition that may be absent. -/
theorem filterNames_unplaced : ∀ filter : Option Predicate,
    filterNames (unplacedFilter filter) = filterNames filter
  | none => rfl
  | some predicate => by simp [unplacedFilter, filterNames, predicate.names_unplaced]

end

/-- The names in a statement do not depend on places. -/
theorem Statement.names_unplaced (statement : Statement) :
    statement.unplaced.names = statement.names := by
  cases statement with
  | select query order =>
    simp [Statement.unplaced, Statement.names, queryNames_unplaced, SortSpec.unplaced,
      List.flatMap_map, Expr.names_unplaced]
  | update target assignments filter =>
    simp [Statement.unplaced, Statement.names, RootRef.unplaced, labelNames_unplaced,
      Assignment.unplaced, List.flatMap_map, pathNames_unplaced, Expr.names_unplaced,
      filterNames_unplaced]
  | delete target filter =>
    simp [Statement.unplaced, Statement.names, RootRef.unplaced, labelNames_unplaced,
      filterNames_unplaced]

/-! ## Names are identifiers -/

/-- Every name is an identifier among the tokens. -/
def Spells (word : List Token) (names : List String) : Prop :=
  ∀ name ∈ names, Token.identifier name ∈ word

namespace Spells

variable {word others : List Token} {names more : List String}

/-- No tokens spell no names. -/
theorem nil : Spells word [] := by simp [Spells]

/-- Tokens in a row spell the names of both, one after the other. -/
theorem append (first : Spells word names) (second : Spells others more) :
    Spells (word ++ others) (names ++ more) := by
  refine List.forall_mem_append.mpr ⟨fun name listed => ?_, fun name listed => ?_⟩
  · exact List.mem_append_left _ (first name listed)
  · exact List.mem_append_right _ (second name listed)

/-- A token in front leaves the names. -/
theorem token {token : Token} (spelled : Spells word names) : Spells (token :: word) names :=
  fun name listed => List.mem_cons_of_mem _ (spelled name listed)

/-- An identifier in front adds its name. -/
theorem identifier {name : String} (spelled : Spells word names) :
    Spells (.identifier name :: word) (name :: names) :=
  List.forall_mem_cons.mpr ⟨List.mem_cons_self, spelled.token⟩

/-- Tokens in front leave the names. -/
theorem before (spelled : Spells others names) : Spells (word ++ others) names :=
  fun name listed => List.mem_append_right _ (spelled name listed)

/-- Tokens behind leave the names. -/
theorem behind (spelled : Spells word names) : Spells (word ++ others) names :=
  fun name listed => List.mem_append_left _ (spelled name listed)

/-- Parentheses leave the names. -/
theorem parenthesised (spelled : Spells word names) : Spells (parenthesised word) names :=
  spelled.token.behind

end Spells

/-- A list with commas spells the names of its items. -/
theorem isSeparated_spells {α : Type} {IsItem : Phrase α} (names : α → List String)
    (spells : ∀ ⦃word item⦄, IsItem word item → Spells word (names item)) :
    ∀ {word : List Token} {items : List α}, IsSeparated IsItem word items →
      Spells word (items.flatMap names)
  | _, _, .one first => by simpa using spells first
  | _, _, .more first rest => by
    rw [List.flatMap_cons]
    exact (spells first).append (isSeparated_spells names spells rest).token

mutual

/-- The words of an atom spell its names. -/
theorem isAtom_spells : ∀ {word : List Token} {expr : Expr}, IsAtom word expr →
    Spells word expr.names
  | _, _, .literal _ | _, _, .named _ | _, _, .unnumbered | _, _, .numbered _ => .nil
  | _, _, .callStar _ _ => .nil
  | _, _, .call _ _ inside => by
    have spelled := isSum_spells inside
    exact .token (.parenthesised (.before spelled))
  | _, _, .path followed => isPath_spells followed
  | _, _, .grouped inside => .parenthesised (isSum_spells inside)

/-- The words of a path spell its names. -/
theorem isPath_spells : ∀ {word : List Token} {route : Path Expr}, IsPath word route →
    Spells word (pathNames route)
  | _, _, .mk begins follows => .append (isPart_spells begins) (isParts_spells follows)

/-- The words of a part spell its name and those in its index. -/
theorem isPart_spells : ∀ {word : List Token} {part : PathPart Expr}, IsPart word part →
    Spells word (part.name.value :: optionalNames part.index)
  | _, _, .plain _ => .identifier .nil
  | _, _, .indexed _ inside => .identifier (.token (.behind (isSum_spells inside)))

/-- The words of further parts spell their names. -/
theorem isParts_spells : ∀ {word : List Token} {parts : List (PathPart Expr)}, IsParts word parts →
    Spells word (partsNames parts)
  | _, _, .nil => .nil
  | _, _, .cons first follows =>
    .token (.append (isPart_spells first) (isParts_spells follows))

/-- The words of a signed operand spell its names. -/
theorem isSigned_spells : ∀ {word : List Token} {expr : Expr}, IsSigned word expr →
    Spells word expr.names
  | _, _, .atom plain => isAtom_spells plain
  | _, _, .negate inside => by
    have spelled := isSigned_spells inside
    exact .token spelled

/-- The words of a product spell its names. -/
theorem isProduct_spells : ∀ {word : List Token} {expr : Expr}, IsProduct word expr →
    Spells word expr.names
  | _, _, .one single => isSigned_spells single
  | _, _, .more first _ second => .append (isProduct_spells first) (.token (isSigned_spells second))

/-- The words of a sum spell its names. -/
theorem isSum_spells : ∀ {word : List Token} {expr : Expr}, IsSum word expr →
    Spells word expr.names
  | _, _, .one single => isProduct_spells single
  | _, _, .more first _ second => .append (isSum_spells first) (.token (isProduct_spells second))

end

/-- The words of a label spell it. -/
theorem isLabel_spells {word : List Token} {label : Option (Spanned String)}
    (labelled : IsLabel word label) : Spells word (labelNames label) := by
  cases labelled with
  | none => exact .nil
  | some spelled name => exact .before (.identifier .nil)

/-- The words of a root spell its label. -/
theorem isRoot_spells {word : List Token} {root : RootRef} (rooted : IsRoot word root) :
    Spells word (labelNames root.label) := by
  obtain ⟨first, rest, labelled⟩ := rooted
  exact .token (.before (isLabel_spells labelled))

/-- The words of a select list spell its names. -/
theorem isSelect_spells {word : List Token} {select : Option SelectClause}
    (selects : IsSelect word select) : Spells word (selectNames select) := by
  cases selects with
  | none => exact .nil
  | some distinct listed =>
    refine .token (.before (isSeparated_spells _ (fun _ _ selected => ?_) listed))
    obtain ⟨inside, _⟩ := selected
    exact .behind (isSum_spells inside)

mutual

/-- The words of a predicate spell its names. -/
theorem isPredicate_spells : ∀ {word : List Token} {predicate : Predicate},
    IsPredicate word predicate → Spells word predicate.names
  | _, _, .one single => isConjunction_spells single
  | _, _, .more first second =>
    .append (isPredicate_spells first) (.token (isConjunction_spells second))

/-- The words of a conjunction spell its names. -/
theorem isConjunction_spells : ∀ {word : List Token} {predicate : Predicate},
    IsConjunction word predicate → Spells word predicate.names
  | _, _, .one single => isNegation_spells single
  | _, _, .more first second =>
    .append (isConjunction_spells first) (.token (isNegation_spells second))

/-- The words of a negation spell its names. -/
theorem isNegation_spells : ∀ {word : List Token} {predicate : Predicate},
    IsNegation word predicate → Spells word predicate.names
  | _, _, .one single => isCondition_spells single
  | _, _, .not inside => by
    have spelled := isNegation_spells inside
    exact .token spelled

/-- The words of a condition spell its names. -/
theorem isCondition_spells : ∀ {word : List Token} {predicate : Predicate},
    IsCondition word predicate → Spells word predicate.names
  | _, _, .grouped inside => .parenthesised (isPredicate_spells inside)
  | _, _, .compare first _ second => .append (isSum_spells first) (.token (isSum_spells second))
  | _, _, .isNull _ tested => .behind (.behind (isSum_spells tested))
  | _, _, .inQuery _ tested inside =>
    .append (.behind (isSum_spells tested)) (.token (.parenthesised (isQuery_spells inside)))
  | _, _, .inList _ tested inside => by
    have values := isSeparated_spells Expr.names (fun _ _ => isSum_spells) inside
    exact .append (.behind (isSum_spells tested)) (.token (.parenthesised values))
  | _, _, .memberOf _ _ tested followed =>
    .append (.behind (.behind (isSum_spells tested))) (isPath_spells followed)
  | _, _, .like _ tested matched =>
    .append (.behind (isSum_spells tested)) (.token (isSum_spells matched))
  | _, _, .between _ tested least most =>
    .append (.append (.behind (isSum_spells tested)) (.token (isSum_spells least)))
      (.token (isSum_spells most))

/-- The words of a query spell its names. -/
theorem isQuery_spells : ∀ {word : List Token} {query : Query Predicate},
    IsQuery word query → Spells word (queryNames query)
  | _, _, .mk selects sources filters =>
    .append (.append (isSelect_spells selects) (.token (isSpaces_spells sources)))
      (isWhere_spells filters)

/-- The words of a where-clause spell its names. -/
theorem isWhere_spells : ∀ {word : List Token} {filter : Option Predicate},
    IsWhere word filter → Spells word (filterNames filter)
  | _, _, .none => .nil
  | _, _, .some holds => .token (isPredicate_spells holds)

/-- The words of the items of a from-clause spell their names. -/
theorem isSpaces_spells : ∀ {word : List Token} {spaces : List (FromSpace Predicate)},
    IsSpaces word spaces → Spells word (spacesNames spaces)
  | _, _, .one (.mk begins joined) => by
    rw [spacesNames, spacesNames, List.append_nil]
    exact .append (isRoot_spells begins) (isJoins_spells joined)
  | _, _, .more (.mk begins joined) rest =>
    .append (.append (isRoot_spells begins) (isJoins_spells joined)) (.token (isSpaces_spells rest))

/-- The words of joins spell their names. -/
theorem isJoins_spells : ∀ {word : List Token} {joins : List (Join Predicate)},
    IsJoins word joins → Spells word (joinsNames joins)
  | _, _, .nil => .nil
  | _, _, .cons (.mk _ _ followed labelled conditioned) rest =>
    .append (.append (.append (.before (isPath_spells followed)) (isLabel_spells labelled))
      (isOn_spells conditioned)) (isJoins_spells rest)

/-- The words of the condition of a join spell its names. -/
theorem isOn_spells : ∀ {word : List Token} {filter : Option Predicate},
    IsOn word filter → Spells word (filterNames filter)
  | _, _, .none => .nil
  | _, _, .some _ holds => .token (isPredicate_spells holds)

end

/-- The words of a statement spell its names. -/
theorem isStatement_spells {word : List Token} {statement : Statement}
    (derived : IsStatement word statement) : Spells word statement.names := by
  cases derived with
  | select queried ordered =>
    refine .append (isQuery_spells queried) ?_
    cases ordered with
    | none => exact .nil
    | some listed =>
      refine .token (.token (isSeparated_spells _ (fun _ _ sorted => ?_) listed))
      obtain ⟨inside, _⟩ := sorted
      exact .behind (isSum_spells inside)
  | update targeted assigned filters =>
    refine .append (.append (.token (isRoot_spells targeted)) (.token ?_)) (isWhere_spells filters)
    refine isSeparated_spells _ (fun _ _ given => ?_) assigned
    obtain ⟨followed, value⟩ := given
    exact .append (isPath_spells followed) (.token (isSum_spells value))
  | delete spelled targeted filters =>
    exact .append (.before (isRoot_spells targeted)) (isWhere_spells filters)

/-- All names in the tree of a text are words. -/
theorem parse_isWord {source : String} {tree : Statement}
    (parsed : Statement.parse source = .ok tree) : ∀ name ∈ tree.names, IsWord name := by
  obtain ⟨lexemes, found, formed⟩ := except_bind_ok.mp parsed
  obtain ⟨rest, taken⟩ := ofLexemes_eq_ok.mp formed
  intro name listed
  rw [← tree.names_unplaced] at listed
  have spelled := isStatement_spells (statement_sound taken) name listed
  obtain ⟨lexeme, member, same⟩ := List.mem_map.mp spelled
  exact (Lexeme.read_spellsWord found lexeme member).identifier name same

/-- All names in the tree of a text are plain. -/
theorem parse_isPlainName {source : String} {tree : Statement}
    (parsed : Statement.parse source = .ok tree) : ∀ name ∈ tree.names, IsPlainName name :=
  fun name listed => (parse_isWord parsed name listed).isPlainName

end Grammar
end ObjectQuery
