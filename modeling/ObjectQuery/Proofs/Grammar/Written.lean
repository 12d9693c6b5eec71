import ObjectQuery.Proofs.Grammar.Rules
import ObjectQuery.Proofs.Number.Exact
/-!
# Writing trees

The tokens of a tree, with parentheses only where the nesting of operators requires them: around an
operand that binds less tightly than its place asks for. If the rules derive a tree from any tokens
at all, they derive it from these.
-/
namespace ObjectQuery

/-- Doubled quotes are taken back. -/
theorem Text.collapse_double (mark : Char) (text : List Char) :
    collapse mark (double mark text) = text := by
  have other : ∀ {c : Char} (rest : List Char), c ≠ mark →
      collapse mark (c :: rest) = c :: collapse mark rest := by
    intro c rest different
    cases rest with
    | nil => rfl
    | cons d rest => exact if_neg fun both => different both.1
  induction text with
  | nil => rfl
  | cons c rest ih =>
    by_cases same : c = mark
    · simp [double, collapse, same, ih]
    · rw [double, if_neg same, other _ same, ih]

namespace Grammar

open Number

/-! ## Literals and positions -/

/-- The number as a token. -/
def naturalToken (n : Nat) : Token := .number (String.ofList (Nat.toDigits 10 n))

/-- The token that denotes a literal. -/
def literalToken : Literal → Token
  | .integer value => naturalToken value.toNat
  | .decimal value => .number (String.ofList value.decimalText)
  | .text content => .quotation (String.ofList (Text.double '\'' content.toList))
  | .boolean true => .keyword .trueKw
  | .boolean false => .keyword .falseKw
  | .null => .keyword .null

/-- There is no point in an integer. -/
theorem pointless (n : Nat) : (Nat.toDigits 10 n).contains '.' = false := by
  rw [Bool.eq_false_iff]
  intro found
  have digit := Nat.isDigit_of_mem_toDigits (by decide) (by decide) (List.contains_iff_mem.mp found)
  cases digit

/-- There is a point in a decimal. -/
theorem pointed_contains (digits places : Nat) : (pointed digits places).contains '.' = true := by
  simp [pointed]

/-- A number that has a value is written to a number with that value. -/
theorem literalOf?_number {digits : String} {value : Literal}
    (denotes : literalOf? (.number digits) = some value) :
    literalOf? (literalToken value) = some value := by
  change numberLiteral? digits.toList = some value at denotes
  unfold numberLiteral? at denotes
  split at denotes
  · obtain ⟨x, read, rfl⟩ := Option.map_eq_some_iff.mp denotes
    have exact := Binary64.readUnsigned?_decimalText (isMagnitude_of_readUnsigned? read)
    have point : x.decimalText.contains '.' = true := by
      unfold Binary64.decimalText
      split <;> exact pointed_contains ..
    simp only [literalToken, literalOf?, numberLiteral?, String.toList_ofList, point, if_true, exact,
      Option.map_some]
  · split at denotes
    · obtain rfl := Option.some.inj denotes
      rename_i fits
      simp only [literalToken, naturalToken, literalOf?, numberLiteral?, String.toList_ofList,
        Int.toNat_natCast, pointless, digitsValue_toDigits, Bool.false_eq_true, if_false, if_pos fits]
    · cases denotes

/-- A literal that some token denotes is denoted by its own. -/
theorem literalOf?_literalToken {token : Token} {value : Literal}
    (denotes : literalOf? token = some value) : literalOf? (literalToken value) = some value := by
  cases token with
  | number digits => exact literalOf?_number denotes
  | quotation content =>
    obtain rfl := Option.some.inj denotes
    simp only [literalToken, literalOf?, String.toList_ofList, Text.collapse_double]
  | keyword word =>
    cases word with
    | trueKw | falseKw | null =>
      obtain rfl := Option.some.inj denotes
      rfl
    | _ => cases denotes
  | identifier name => cases denotes
  | mark sign => cases denotes

/-- A position is written with digits that denote it. -/
theorem positionOf_toDigits {digits : List Char} {position : Nat}
    (denotes : positionOf digits = .ok position) :
    positionOf (Nat.toDigits 10 position) = .ok position := by
  have areDigits : ∀ c ∈ Nat.toDigits 10 position, c.isDigit = true := fun c member =>
    Nat.isDigit_of_mem_toDigits (by decide) (by decide) member
  have fits : ¬ maxPosition < position := by
    unfold positionOf at denotes
    split at denotes
    · cases denotes
    · rename_i fits
      split at denotes
      · rename_i all
        rw [List.all_eq_true] at all
        rwa [List.takeWhile_eq_self_iff.mpr all, Except.ok.inj denotes] at fits
      · cases denotes
  rw [positionOf, List.takeWhile_eq_self_iff.mpr areDigits, digitsValue_toDigits, if_neg fits,
    if_pos (List.all_eq_true.mpr areDigits)]

/-! ## Expressions -/

/-- How tightly an operator binds: a sum least. -/
def opStrength : ArithmeticOp → Nat
  | .add | .subtract => 0
  | .multiply | .divide | .modulo => 1

/-- The sign of an operator. -/
def opToken : ArithmeticOp → Token
  | .add => .mark .plus
  | .subtract => .mark .minus
  | .multiply => .mark .star
  | .divide => .mark .slash
  | .modulo => .mark .percent

/-- How tightly an expression binds: sums, products, signed atoms and atoms. -/
def Expr.strength : Expr → Nat
  | .arithmetic _ op _ _ => opStrength op
  | .negate _ _ => 2
  | _ => 3

/-- The words, in parentheses if they bind less tightly than is needed. -/
def grouped (needed strength : Nat) (words : List Token) : List Token :=
  if strength < needed then parenthesised words else words

mutual

/-- The tokens of an expression. -/
def Expr.words : Expr → List Token
  | .path route => pathWords route
  | .literal _ value => [literalToken value]
  | .named _ name => [.mark .colon, .identifier name]
  | .positional _ none => [.mark .question]
  | .positional _ (some position) => [.mark .question, naturalToken position]
  | .arithmetic _ op left right =>
    grouped (opStrength op) left.strength left.words ++
      opToken op :: grouped (opStrength op + 1) right.strength right.words
  | .negate _ operand => .mark .minus :: grouped 2 operand.strength operand.words
  | .call _ name distinct argument =>
    .identifier name.value ::
      parenthesised (tokenIf distinct (.keyword .distinct) ++ argumentWords argument)

/-- The tokens of an argument, a star if there is none. -/
def argumentWords : Option Expr → List Token
  | none => [.mark .star]
  | some argument => argument.words

/-- The tokens of a path. -/
def pathWords : Path Expr → List Token
  | ⟨⟨name, index⟩, rest, _⟩ => .identifier name.value :: indexWords index ++ partsWords rest

/-- The tokens of an index, if there is one. -/
def indexWords : Option Expr → List Token
  | none => []
  | some index => .mark .leftBracket :: index.words ++ [.mark .rightBracket]

/-- The tokens of further parts of a path. -/
def partsWords : List (PathPart Expr) → List Token
  | [] => []
  | ⟨name, index⟩ :: rest =>
    .mark .dot :: .identifier name.value :: indexWords index ++ partsWords rest

end

/-- Phrases by how tightly they bind. What binds more tightly than a place asks for can stand there,
and so can everything in parentheses. -/
structure IsScale {α : Type} (scale : Nat → Phrase α) : Prop where
  weaken : ∀ {strength word value}, scale (strength + 1) word value → scale strength word value
  group : ∀ {word value}, scale 0 word value → ∀ strength, scale strength (parenthesised word) value

namespace IsScale

variable {α : Type} {scale : Nat → Phrase α} {word : List Token} {value : α}

/-- What binds tightly can stand where less is asked for. -/
theorem antitone (scaled : IsScale scale) {strong weak : Nat} (le : weak ≤ strong)
    (derived : scale strong word value) : scale weak word value := by
  induction strong with
  | zero => exact Nat.le_zero.mp le ▸ derived
  | succ strong ih =>
    rcases Nat.le_succ_iff.mp le with below | rfl
    · exact ih below (scaled.weaken derived)
    · exact derived

/-- A phrase in parentheses where they are needed can stand anywhere. -/
theorem grouped (scaled : IsScale scale) {strength : Nat} (derived : scale strength word value)
    (needed : Nat) : scale needed (Grammar.grouped needed strength word) value := by
  unfold Grammar.grouped
  split
  · exact scaled.group (scaled.antitone (Nat.zero_le _) derived) needed
  · exact scaled.antitone (Nat.le_of_not_lt ‹_›) derived

end IsScale

/-- The expressions of each strength. -/
def IsExprOf : Nat → Phrase Expr
  | 0 => IsSum
  | 1 => IsProduct
  | 2 => IsSigned
  | _ => IsAtom

/-- Expressions are phrases on a scale. -/
theorem isScale_expr : IsScale IsExprOf where
  weaken := by
    intro strength word expr derived
    match strength with
    | 0 => exact .one derived
    | 1 => exact .one derived
    | 2 => exact .atom derived
    | _ + 3 => exact derived
  group := by
    intro word expr inside strength
    have atom : IsAtom (parenthesised word) expr := .grouped inside
    match strength with
    | 0 => exact .one (.one (.atom atom))
    | 1 => exact .one (.atom atom)
    | 2 => exact .atom atom
    | _ + 3 => exact atom

/-- The rules derive the expression from its tokens. -/
def Expr.IsWritten (expr : Expr) : Prop := IsExprOf expr.strength expr.words expr

/-- An expression is derived from its words. -/
theorem Expr.IsWritten.whole {expr : Expr} (written : expr.IsWritten) : IsSum expr.words expr :=
  isScale_expr.antitone (Nat.zero_le _) written

/-- Operands that are derived from their words make such an operation. -/
theorem arithmetic_written {op : ArithmeticOp} {left right : Expr} (first : left.IsWritten)
    (second : right.IsWritten) : (Expr.arithmetic .nowhere op left right).IsWritten := by
  have leftWords := isScale_expr.grouped first (opStrength op)
  have rightWords := isScale_expr.grouped second (opStrength op + 1)
  cases op with
  | add => exact IsSum.more leftWords rfl rightWords
  | subtract => exact IsSum.more leftWords rfl rightWords
  | multiply => exact IsProduct.more leftWords rfl rightWords
  | divide => exact IsProduct.more leftWords rfl rightWords
  | modulo => exact IsProduct.more leftWords rfl rightWords

mutual

/-- An atom is derived from its words. -/
theorem isAtom_written : ∀ {word : List Token} {expr : Expr}, IsAtom word expr → expr.IsWritten
  | _, _, .literal denotes => IsAtom.literal (literalOf?_literalToken denotes)
  | _, _, .named name => IsAtom.named name
  | _, _, .unnumbered => IsAtom.unnumbered
  | _, _, .numbered denotes => IsAtom.numbered (by
      rw [String.toList_ofList]
      exact positionOf_toDigits denotes)
  | _, _, .callStar name distinct => IsAtom.callStar name distinct
  | _, _, .call name distinct inside => IsAtom.call name distinct (isSum_written inside).whole
  | _, _, .path followed => IsAtom.path (isPath_written followed)
  | _, _, .grouped inside => isSum_written inside

/-- A path is derived from its words. -/
theorem isPath_written : ∀ {word : List Token} {route : Path Expr}, IsPath word route →
    IsPath (pathWords route) route
  | _, _, .mk begins follows => .mk (isPart_written begins) (isParts_written follows)

/-- A part of a path is derived from its words. -/
theorem isPart_written : ∀ {word : List Token} {part : PathPart Expr}, IsPart word part →
    IsPart (.identifier part.name.value :: indexWords part.index) part
  | _, _, .plain name => .plain name
  | _, _, .indexed name inside => .indexed name (isSum_written inside).whole

/-- Further parts are derived from their words. -/
theorem isParts_written : ∀ {word : List Token} {parts : List (PathPart Expr)}, IsParts word parts →
    IsParts (partsWords parts) parts
  | _, _, .nil => .nil
  | _, _, .cons first follows => .cons (isPart_written first) (isParts_written follows)

/-- A signed operand is derived from its words. -/
theorem isSigned_written : ∀ {word : List Token} {expr : Expr}, IsSigned word expr → expr.IsWritten
  | _, _, .atom plain => isAtom_written plain
  | _, _, .negate inside => IsSigned.negate (isScale_expr.grouped (isSigned_written inside) 2)

/-- A product is derived from its words. -/
theorem isProduct_written : ∀ {word : List Token} {expr : Expr}, IsProduct word expr → expr.IsWritten
  | _, _, .one single => isSigned_written single
  | _, _, .more first _ second => arithmetic_written (isProduct_written first) (isSigned_written second)

/-- A sum is derived from its words. -/
theorem isSum_written : ∀ {word : List Token} {expr : Expr}, IsSum word expr → expr.IsWritten
  | _, _, .one single => isProduct_written single
  | _, _, .more first _ second => arithmetic_written (isSum_written first) (isProduct_written second)

end

/-! ## Clauses without conditions -/

/-- The words with a comma between each two. -/
def separated : List (List Token) → List Token
  | [] => []
  | [word] => word
  | word :: rest => word ++ .mark .comma :: separated rest

/-- A list with commas is derived from the words of its items. -/
theorem isSeparated_written {α : Type} {phrase : Phrase α} {words : α → List Token}
    {word : List Token} {items : List α} (listed : IsSeparated phrase word items)
    (written : ∀ word item, phrase word item → phrase (words item) item) :
    IsSeparated phrase (separated (items.map words)) items := by
  induction listed with
  | one first => exact .one (written _ _ first)
  | more first rest ih =>
    cases rest with
    | one _ => exact .more (written _ _ first) ih
    | more _ _ => exact .more (written _ _ first) ih

/-- The token of a label, if there is one. -/
def labelWords : Option (Spanned String) → List Token
  | none => []
  | some label => [.identifier label.value]

/-- Identifiers joined by dots. -/
def dottedWords : List String → List Token
  | [] => []
  | first :: rest => .identifier first :: rest.flatMap fun name => [.mark .dot, .identifier name]

/-- The names that are joined by dots in the name of an entity. -/
def entityNames (entity : String) : List String := (entity.toList.splitOn '.').map String.ofList

/-- The tokens of an entity and its label. -/
def RootRef.words (root : RootRef) : List Token :=
  dottedWords (entityNames root.entity.value) ++ labelWords root.label

/-- The tokens of an item of a select list. -/
def Selection.words (selection : Selection) : List Token :=
  selection.expr.words ++ labelWords selection.label

/-- The tokens of a select list, if there is one. -/
def selectWords : Option SelectClause → List Token
  | none => []
  | some clause => .keyword .select :: tokenIf clause.distinct (.keyword .distinct) ++
      separated (clause.selections.map Selection.words)

/-- The words before `join`. -/
def kindWords : JoinKind → List Token
  | .inner => []
  | .leftOuter => [.keyword .left]
  | .cross => [.keyword .cross]

/-- A label is derived from its words. -/
theorem isLabel_written {word : List Token} {label : Option (Spanned String)}
    (labelled : IsLabel word label) : IsLabel (labelWords label) label := by
  cases labelled with
  | none => exact .none
  | some _ name => exact .some false name

/-- The names of an entity, with dots in between, are its name. -/
theorem intercalate_entityNames (entity : String) : ".".intercalate (entityNames entity) = entity := by
  rw [← String.toList_inj, String.toList_intercalate, entityNames, List.map_map]
  have same : String.toList ∘ String.ofList = id := funext fun _ => String.toList_ofList
  rw [same, List.map_id]
  exact List.intercalate_splitOn '.'

/-- A root is derived from its words. -/
theorem isRoot_written {word : List Token} {root : RootRef} (derived : IsRoot word root) :
    IsRoot root.words root := by
  obtain ⟨first, rest, labelled⟩ := derived
  obtain ⟨begun, others, names⟩ : ∃ begun others,
      entityNames (".".intercalate (first :: rest)) = begun :: others := by
    rw [← List.ne_nil_iff_exists_cons, entityNames, Ne, List.map_eq_nil_iff]
    exact List.splitOn_ne_nil '.' _
  have written := IsRoot.mk begun others (isLabel_written labelled)
  rw [← names, intercalate_entityNames] at written
  rw [RootRef.words, names]
  exact written

/-- An item of a select list is derived from its words. -/
theorem isSelection_written {word : List Token} {selection : Selection}
    (derived : IsSelection word selection) : IsSelection selection.words selection := by
  obtain ⟨selected, labelled⟩ := derived
  exact .mk (isSum_written selected).whole (isLabel_written labelled)

/-- A select list is derived from its words. -/
theorem isSelect_written {word : List Token} {select : Option SelectClause}
    (derived : IsSelect word select) : IsSelect (selectWords select) select := by
  cases derived with
  | none => exact .none
  | some distinct listed => exact .some distinct (isSeparated_written listed fun _ _ => isSelection_written)

/-- The kind of a join is derived from its words. -/
theorem isJoinKind_written {word : List Token} {kind : JoinKind} (derived : IsJoinKind word kind) :
    IsJoinKind (kindWords kind) kind := by
  cases derived with
  | unspoken => exact .unspoken
  | inner => exact .unspoken
  | leftOuter _ => exact .leftOuter false
  | cross => exact .cross

/-! ## Conditions and queries -/

/-- The sign of a comparison. -/
def comparisonToken : ComparisonOp → Token
  | .eq => .mark .eq
  | .ne => .mark .ne
  | .lt => .mark .lt
  | .le => .mark .le
  | .gt => .mark .gt
  | .ge => .mark .ge

/-- How tightly a condition binds: disjunctions, conjunctions, negations and single conditions. -/
def Predicate.strength : Predicate → Nat
  | .or _ _ _ => 0
  | .and _ _ _ => 1
  | .not _ _ => 2
  | _ => 3

mutual

/-- The tokens of a condition. -/
def Predicate.words : Predicate → List Token
  | .or _ left right =>
    grouped 0 left.strength left.words ++ .keyword .orKw :: grouped 1 right.strength right.words
  | .and _ left right =>
    grouped 1 left.strength left.words ++ .keyword .andKw :: grouped 2 right.strength right.words
  | .not _ operand => .keyword .notKw :: grouped 2 operand.strength operand.words
  | .compare _ op left right => left.words ++ comparisonToken op :: right.words
  | .inList _ test values negated =>
    test.words ++ tokenIf negated (.keyword .notKw) ++
      .keyword .inKw :: parenthesised (separated (values.map Expr.words))
  | .inQuery _ test query negated =>
    test.words ++ tokenIf negated (.keyword .notKw) ++ .keyword .inKw :: parenthesised (queryWords query)
  | .memberOf _ element collection negated =>
    element.words ++ tokenIf negated (.keyword .notKw) ++
      .keyword .member :: tokenIf true (.keyword .ofKw) ++ pathWords collection
  | .isNull _ operand negated =>
    operand.words ++ .keyword .isKw :: tokenIf negated (.keyword .notKw) ++ [.keyword .null]
  | .like _ operand pattern negated =>
    operand.words ++ tokenIf negated (.keyword .notKw) ++ .keyword .like :: pattern.words
  | .between _ operand low high negated =>
    operand.words ++ tokenIf negated (.keyword .notKw) ++
      .keyword .between :: low.words ++ .keyword .andKw :: high.words

/-- The tokens of a query. -/
def queryWords : Query Predicate → List Token
  | ⟨select, ⟨spaces, _⟩, filter, _⟩ =>
    selectWords select ++ .keyword .fromKw :: spacesWords spaces ++ filterWords .whereKw filter

/-- The tokens of the items of a from-clause. -/
def spacesWords : List (FromSpace Predicate) → List Token
  | [] => []
  | [⟨root, joins, _⟩] => root.words ++ joinsWords joins
  | ⟨root, joins, _⟩ :: rest => root.words ++ joinsWords joins ++ .mark .comma :: spacesWords rest

/-- The tokens of joins. -/
def joinsWords : List (Join Predicate) → List Token
  | [] => []
  | ⟨kind, fetch, target, label, predicate, _⟩ :: rest =>
    kindWords kind ++ .keyword .join :: tokenIf fetch (.keyword .fetch) ++ pathWords target ++
      labelWords label ++ filterWords .onKw predicate ++ joinsWords rest

/-- The tokens of a condition after the keyword, if there is one. -/
def filterWords (introduction : Keyword) : Option Predicate → List Token
  | none => []
  | some predicate => .keyword introduction :: predicate.words

end

/-- The conditions of each strength. -/
def IsPredicateOf : Nat → Phrase Predicate
  | 0 => IsPredicate
  | 1 => IsConjunction
  | 2 => IsNegation
  | _ => IsCondition

/-- Predicates are phrases on a scale. -/
theorem isScale_predicate : IsScale IsPredicateOf where
  weaken := by
    intro strength word predicate derived
    match strength with
    | 0 => exact .one derived
    | 1 => exact .one derived
    | 2 => exact .one derived
    | _ + 3 => exact derived
  group := by
    intro word predicate inside strength
    have single : IsCondition (parenthesised word) predicate := .grouped inside
    match strength with
    | 0 => exact .one (.one (.one single))
    | 1 => exact .one (.one single)
    | 2 => exact .one single
    | _ + 3 => exact single

/-- The rules derive the condition from its tokens. -/
def Predicate.IsWritten (predicate : Predicate) : Prop :=
  IsPredicateOf predicate.strength predicate.words predicate

/-- A predicate is derived from its words. -/
theorem Predicate.IsWritten.whole {predicate : Predicate} (written : predicate.IsWritten) :
    IsPredicate predicate.words predicate :=
  isScale_predicate.antitone (Nat.zero_le _) written

/-- A from-clause has an item. -/
theorem isSpaces_ne_nil {word : List Token} {spaces : List (FromSpace Predicate)}
    (derived : IsSpaces word spaces) : spaces ≠ [] := by
  cases derived <;> exact List.cons_ne_nil _ _

/-- The words of the first item stand before a comma if more items follow. -/
theorem spacesWords_cons {space : FromSpace Predicate} {spaces : List (FromSpace Predicate)}
    (more : spaces ≠ []) : spacesWords (space :: spaces) =
      space.root.words ++ joinsWords space.joins ++ .mark .comma :: spacesWords spaces := by
  cases spaces with
  | nil => exact absurd rfl more
  | cons next rest => rfl

/-- The token of a comparison is read as the comparison. -/
theorem comparisonOp?_token (op : ComparisonOp) : comparisonOp? (comparisonToken op) = some op := by
  cases op <;> rfl

mutual

/-- A disjunction is derived from its words. -/
theorem isPredicate_written : ∀ {word : List Token} {predicate : Predicate},
    IsPredicate word predicate → predicate.IsWritten
  | _, _, .one single => isConjunction_written single
  | _, _, .more first second => IsPredicate.more
      (isScale_predicate.grouped (isPredicate_written first) 0)
      (isScale_predicate.grouped (isConjunction_written second) 1)

/-- A conjunction is derived from its words. -/
theorem isConjunction_written : ∀ {word : List Token} {predicate : Predicate},
    IsConjunction word predicate → predicate.IsWritten
  | _, _, .one single => isNegation_written single
  | _, _, .more first second => IsConjunction.more
      (isScale_predicate.grouped (isConjunction_written first) 1)
      (isScale_predicate.grouped (isNegation_written second) 2)

/-- A negation is derived from its words. -/
theorem isNegation_written : ∀ {word : List Token} {predicate : Predicate},
    IsNegation word predicate → predicate.IsWritten
  | _, _, .one single => isCondition_written single
  | _, _, .not inside => IsNegation.not (isScale_predicate.grouped (isNegation_written inside) 2)

/-- A condition is derived from its words. -/
theorem isCondition_written : ∀ {word : List Token} {predicate : Predicate},
    IsCondition word predicate → predicate.IsWritten
  | _, _, .grouped inside => isPredicate_written inside
  | _, _, .compare first _ second => IsCondition.compare (isSum_written first).whole
      (comparisonOp?_token _) (isSum_written second).whole
  | _, _, .isNull negated tested => IsCondition.isNull negated (isSum_written tested).whole
  | _, _, .inQuery negated tested inside =>
    IsCondition.inQuery negated (isSum_written tested).whole (isQuery_written inside)
  | _, _, .inList negated tested inside => IsCondition.inList negated (isSum_written tested).whole
      (isSeparated_written inside fun _ _ derived => (isSum_written derived).whole)
  | _, _, .memberOf negated _ tested followed =>
    IsCondition.memberOf negated true (isSum_written tested).whole (isPath_written followed)
  | _, _, .like negated tested matched =>
    IsCondition.like negated (isSum_written tested).whole (isSum_written matched).whole
  | _, _, .between negated tested least most => IsCondition.between negated
      (isSum_written tested).whole (isSum_written least).whole (isSum_written most).whole

/-- A query is derived from its words. -/
theorem isQuery_written : ∀ {word : List Token} {query : Query Predicate}, IsQuery word query →
    IsQuery (queryWords query) query
  | _, _, .mk selects sources filters =>
    .mk (isSelect_written selects) (isSpaces_written sources) (isWhere_written filters)

/-- A where-clause is derived from its words. -/
theorem isWhere_written : ∀ {word : List Token} {filter : Option Predicate}, IsWhere word filter →
    IsWhere (filterWords .whereKw filter) filter
  | _, _, .none => .none
  | _, _, .some holds => .some (isPredicate_written holds).whole

/-- The items of a from-clause are derived from their words. -/
theorem isSpaces_written : ∀ {word : List Token} {spaces : List (FromSpace Predicate)},
    IsSpaces word spaces → IsSpaces (spacesWords spaces) spaces
  | _, _, .one first => .one (isSpace_written first)
  | _, _, .more first rest => by
    rw [spacesWords_cons (isSpaces_ne_nil rest)]
    exact .more (isSpace_written first) (isSpaces_written rest)

/-- So is each of them. -/
theorem isSpace_written : ∀ {word : List Token} {space : FromSpace Predicate}, IsSpace word space →
    IsSpace (space.root.words ++ joinsWords space.joins) space
  | _, _, .mk begins joined => .mk (isRoot_written begins) (isJoins_written joined)

/-- Joins are derived from their words. -/
theorem isJoins_written : ∀ {word : List Token} {joins : List (Join Predicate)}, IsJoins word joins →
    IsJoins (joinsWords joins) joins
  | _, _, .nil => .nil
  | _, _, .cons (.mk fetch spoken followed labelled conditioned) rest =>
    .cons (.mk fetch (isJoinKind_written spoken) (isPath_written followed) (isLabel_written labelled)
      (isOn_written conditioned)) (isJoins_written rest)

/-- The condition of a join is derived from its words. -/
theorem isOn_written : ∀ {word : List Token} {filter : Option Predicate}, IsOn word filter →
    IsOn (filterWords .onKw filter) filter
  | _, _, .none => .none
  | _, _, .some _ holds => .some (.inr rfl) (isPredicate_written holds).whole

end

/-! ## Statements -/

/-- The word of a direction, if there is one. -/
def directionWords : Option SortOrder → List Token
  | none => []
  | some .ascending => [.keyword .asc]
  | some .descending => [.keyword .desc]

/-- The tokens of a sort key. -/
def SortSpec.words (key : SortSpec) : List Token := key.expr.words ++ directionWords key.order

/-- The tokens of sort keys, if there are any. -/
def orderWords : List SortSpec → List Token
  | [] => []
  | keys => .keyword .order :: .keyword .byKw :: separated (keys.map SortSpec.words)

/-- The tokens of an assignment. -/
def Assignment.words (assignment : Assignment) : List Token :=
  pathWords assignment.target ++ .mark .eq :: assignment.value.words

/-- The tokens of a statement. -/
def Statement.words : Statement → List Token
  | .select query order => queryWords query ++ orderWords order
  | .update target assignments filter =>
    .keyword .update :: target.words ++ .keyword .setKw :: separated (assignments.map Assignment.words) ++
      filterWords .whereKw filter
  | .delete target filter =>
    .keyword .delete :: tokenIf true (.keyword .fromKw) ++ target.words ++ filterWords .whereKw filter

/-- A sort key is derived from its words. -/
theorem isSortSpec_written {word : List Token} {key : SortSpec} (derived : IsSortSpec word key) :
    IsSortSpec key.words key := by
  obtain ⟨sorted, directed⟩ := derived
  refine .mk (isSum_written sorted).whole ?_
  cases directed with
  | none => exact .none
  | ascending => exact .ascending
  | descending => exact .descending

/-- An order clause is derived from its words. -/
theorem isOrder_written {word : List Token} {keys : List SortSpec} (derived : IsOrder word keys) :
    IsOrder (orderWords keys) keys := by
  cases derived with
  | none => exact .none
  | some listed =>
    have written := isSeparated_written listed fun _ _ => isSortSpec_written
    cases listed <;> exact .some written

/-- An assignment is derived from its words. -/
theorem isAssignment_written {word : List Token} {assignment : Assignment}
    (derived : IsAssignment word assignment) : IsAssignment assignment.words assignment := by
  obtain ⟨followed, assigned⟩ := derived
  exact .mk (isPath_written followed) (isSum_written assigned).whole

/-- The rules derive every statement they derive at all from its own tokens. -/
theorem isStatement_written {word : List Token} {tree : Statement} (derived : IsStatement word tree) :
    IsStatement tree.words tree := by
  cases derived with
  | select queried ordered => exact .select (isQuery_written queried) (isOrder_written ordered)
  | update targeted assigned filters =>
    exact .update (isRoot_written targeted)
      (isSeparated_written assigned fun _ _ => isAssignment_written) (isWhere_written filters)
  | delete _ targeted filters =>
    exact .delete true (isRoot_written targeted) (isWhere_written filters)

end Grammar
end ObjectQuery
