import ObjectQuery.Grammar.Statement
import ObjectQuery.Proofs.Grammar.Unplaced
/-!
# The grammar as rules

The query language as a relation between lists of tokens and trees without places, one rule for each
production. No rule looks at what comes after its tokens, and nothing says which of several rules is
tried first.

Sums stand over products over minus signs over atoms, and disjunctions over conjunctions over
negations over single conditions; operators associate to the left.
-/
namespace ObjectQuery.Grammar

/-- A relation between lists of tokens and what they stand for. -/
abbrev Phrase (α : Type) := List Token → α → Prop

/-- The token, if it is there. -/
def tokenIf (present : Bool) (token : Token) : List Token := if present then [token] else []

/-- Tokens in parentheses. -/
def parenthesised (tokens : List Token) : List Token :=
  .mark .leftParen :: tokens ++ [.mark .rightParen]

/-- One or more phrases with a comma between each two. -/
inductive IsSeparated {α : Type} (IsItem : Phrase α) : Phrase (List α)
  | one {word : List Token} {item : α} (first : IsItem word item) : IsSeparated IsItem word [item]
  | more {word others : List Token} {item : α} {items : List α} (first : IsItem word item)
    (rest : IsSeparated IsItem others items) :
    IsSeparated IsItem (word ++ .mark .comma :: others) (item :: items)

/-! ## Expressions -/

mutual

/-- An operand without operators around it. -/
inductive IsAtom : Phrase Expr
  | literal {token : Token} {value : Literal} (denotes : literalOf? token = some value) :
    IsAtom [token] (.literal .nowhere value)
  | named (name : String) :
    IsAtom [.mark .colon, .identifier name] (.named .nowhere name)
  | unnumbered : IsAtom [.mark .question] (.positional .nowhere none)
  | numbered {digits : String} {position : Nat} (denotes : positionOf digits.toList = .ok position) :
    IsAtom [.mark .question, .number digits] (.positional .nowhere (some position))
  | callStar (name : String) (distinct : Bool) :
    IsAtom (.identifier name :: parenthesised (tokenIf distinct (.keyword .distinct) ++ [.mark .star]))
      (.call .nowhere ⟨name, .nowhere⟩ distinct none)
  | call (name : String) (distinct : Bool) {word : List Token} {argument : Expr}
    (inside : IsSum word argument) :
    IsAtom (.identifier name :: parenthesised (tokenIf distinct (.keyword .distinct) ++ word))
      (.call .nowhere ⟨name, .nowhere⟩ distinct (some argument))
  | path {word : List Token} {route : Path Expr} (followed : IsPath word route) :
    IsAtom word (.path route)
  | grouped {word : List Token} {expr : Expr} (inside : IsSum word expr) :
    IsAtom (parenthesised word) expr

/-- Names joined by dots. -/
inductive IsPath : Phrase (Path Expr)
  | mk {word others : List Token} {first : PathPart Expr} {rest : List (PathPart Expr)}
    (begins : IsPart word first) (follows : IsParts others rest) :
    IsPath (word ++ others) ⟨first, rest, .nowhere⟩

/-- A name with or without an index. -/
inductive IsPart : Phrase (PathPart Expr)
  | plain (name : String) : IsPart [.identifier name] ⟨⟨name, .nowhere⟩, none⟩
  | indexed (name : String) {word : List Token} {index : Expr} (inside : IsSum word index) :
    IsPart (.identifier name :: .mark .leftBracket :: word ++ [.mark .rightBracket])
      ⟨⟨name, .nowhere⟩, some index⟩

/-- Further parts of a path, each after a dot. -/
inductive IsParts : Phrase (List (PathPart Expr))
  | nil : IsParts [] []
  | cons {word others : List Token} {part : PathPart Expr} {rest : List (PathPart Expr)}
    (first : IsPart word part) (follows : IsParts others rest) :
    IsParts (.mark .dot :: word ++ others) (part :: rest)

/-- An atom with minus signs before it. -/
inductive IsSigned : Phrase Expr
  | atom {word : List Token} {expr : Expr} (plain : IsAtom word expr) : IsSigned word expr
  | negate {word : List Token} {operand : Expr} (inside : IsSigned word operand) :
    IsSigned (.mark .minus :: word) (.negate .nowhere operand)

/-- A product of signed atoms. -/
inductive IsProduct : Phrase Expr
  | one {word : List Token} {expr : Expr} (single : IsSigned word expr) : IsProduct word expr
  | more {word others : List Token} {left right : Expr} {token : Token} {op : ArithmeticOp}
    (first : IsProduct word left) (operator : productOp? token = some op)
    (second : IsSigned others right) :
    IsProduct (word ++ token :: others) (.arithmetic .nowhere op left right)

/-- A sum of products, which is what an expression is. -/
inductive IsSum : Phrase Expr
  | one {word : List Token} {expr : Expr} (single : IsProduct word expr) : IsSum word expr
  | more {word others : List Token} {left right : Expr} {token : Token} {op : ArithmeticOp}
    (first : IsSum word left) (operator : sumOp? token = some op)
    (second : IsProduct others right) :
    IsSum (word ++ token :: others) (.arithmetic .nowhere op left right)

end

/-! ## Clauses without conditions -/

/-- A label with or without `as`, or none. -/
inductive IsLabel : Phrase (Option (Spanned String))
  | none : IsLabel [] none
  | some (spelled : Bool) (name : String) :
    IsLabel (tokenIf spelled (.keyword .asKw) ++ [.identifier name]) (some ⟨name, .nowhere⟩)

/-- The name of an entity, which may have several parts joined by dots, and its label. -/
inductive IsRoot : Phrase RootRef
  | mk (first : String) (rest : List String) {word : List Token} {label : Option (Spanned String)}
    (labelled : IsLabel word label) :
    IsRoot (.identifier first :: (rest.flatMap fun name => [.mark .dot, .identifier name]) ++ word)
      ⟨⟨".".intercalate (first :: rest), .nowhere⟩, label, .nowhere⟩

/-- One item of a select list. -/
inductive IsSelection : Phrase Selection
  | mk {word others : List Token} {expr : Expr} {label : Option (Spanned String)}
    (selected : IsSum word expr) (labelled : IsLabel others label) :
    IsSelection (word ++ others) ⟨expr, label, .nowhere⟩

/-- A select list, or none. -/
inductive IsSelect : Phrase (Option SelectClause)
  | none : IsSelect [] none
  | some (distinct : Bool) {word : List Token} {selections : List Selection}
    (listed : IsSeparated IsSelection word selections) :
    IsSelect (.keyword .select :: tokenIf distinct (.keyword .distinct) ++ word)
      (some ⟨distinct, selections, .nowhere⟩)

/-- The words before `join`. -/
inductive IsJoinKind : Phrase JoinKind
  | unspoken : IsJoinKind [] .inner
  | inner : IsJoinKind [.keyword .inner] .inner
  | leftOuter (spelled : Bool) :
    IsJoinKind (.keyword .left :: tokenIf spelled (.keyword .outer)) .leftOuter
  | cross : IsJoinKind [.keyword .cross] .cross

/-! ## Conditions and queries -/

mutual

/-- A disjunction of conjunctions, which is what a condition is. -/
inductive IsPredicate : Phrase Predicate
  | one {word : List Token} {predicate : Predicate} (single : IsConjunction word predicate) :
    IsPredicate word predicate
  | more {word others : List Token} {left right : Predicate} (first : IsPredicate word left)
    (second : IsConjunction others right) :
    IsPredicate (word ++ .keyword .orKw :: others) (.or .nowhere left right)

/-- A conjunction of negations. -/
inductive IsConjunction : Phrase Predicate
  | one {word : List Token} {predicate : Predicate} (single : IsNegation word predicate) :
    IsConjunction word predicate
  | more {word others : List Token} {left right : Predicate} (first : IsConjunction word left)
    (second : IsNegation others right) :
    IsConjunction (word ++ .keyword .andKw :: others) (.and .nowhere left right)

/-- A single condition with `not` before it. -/
inductive IsNegation : Phrase Predicate
  | one {word : List Token} {predicate : Predicate} (single : IsCondition word predicate) :
    IsNegation word predicate
  | not {word : List Token} {operand : Predicate} (inside : IsNegation word operand) :
    IsNegation (.keyword .notKw :: word) (.not .nowhere operand)

/-- A single condition: a test, or any condition in parentheses. -/
inductive IsCondition : Phrase Predicate
  | grouped {word : List Token} {predicate : Predicate} (inside : IsPredicate word predicate) :
    IsCondition (parenthesised word) predicate
  | compare {word others : List Token} {left right : Expr} {token : Token} {op : ComparisonOp}
    (first : IsSum word left) (operator : comparisonOp? token = some op)
    (second : IsSum others right) :
    IsCondition (word ++ token :: others) (.compare .nowhere op left right)
  | isNull {word : List Token} {operand : Expr} (negated : Bool) (tested : IsSum word operand) :
    IsCondition (word ++ .keyword .isKw :: tokenIf negated (.keyword .notKw) ++ [.keyword .null])
      (.isNull .nowhere operand negated)
  | inQuery {word others : List Token} {test : Expr} {query : Query Predicate} (negated : Bool)
    (tested : IsSum word test) (inside : IsQuery others query) :
    IsCondition (word ++ tokenIf negated (.keyword .notKw) ++ .keyword .inKw :: parenthesised others)
      (.inQuery .nowhere test query negated)
  | inList {word others : List Token} {test : Expr} {values : List Expr} (negated : Bool)
    (tested : IsSum word test) (inside : IsSeparated IsSum others values) :
    IsCondition (word ++ tokenIf negated (.keyword .notKw) ++ .keyword .inKw :: parenthesised others)
      (.inList .nowhere test values negated)
  | memberOf {word others : List Token} {element : Expr} {collection : Path Expr}
    (negated spelled : Bool) (tested : IsSum word element) (followed : IsPath others collection) :
    IsCondition (word ++ tokenIf negated (.keyword .notKw) ++
        .keyword .member :: tokenIf spelled (.keyword .ofKw) ++ others)
      (.memberOf .nowhere element collection negated)
  | like {word others : List Token} {operand pattern : Expr} (negated : Bool)
    (tested : IsSum word operand) (matched : IsSum others pattern) :
    IsCondition (word ++ tokenIf negated (.keyword .notKw) ++ .keyword .like :: others)
      (.like .nowhere operand pattern negated)
  | between {word lower upper : List Token} {operand low high : Expr} (negated : Bool)
    (tested : IsSum word operand) (least : IsSum lower low) (most : IsSum upper high) :
    IsCondition (word ++ tokenIf negated (.keyword .notKw) ++
        .keyword .between :: lower ++ .keyword .andKw :: upper)
      (.between .nowhere operand low high negated)

/-- A query without sort keys. -/
inductive IsQuery : Phrase (Query Predicate)
  | mk {chosen word others : List Token} {select : Option SelectClause}
    {spaces : List (FromSpace Predicate)} {filter : Option Predicate} (selects : IsSelect chosen select)
    (sources : IsSpaces word spaces) (filters : IsWhere others filter) :
    IsQuery (chosen ++ .keyword .fromKw :: word ++ others)
      ⟨select, ⟨spaces, .nowhere⟩, filter, .nowhere⟩

/-- A condition after `where`, or none. -/
inductive IsWhere : Phrase (Option Predicate)
  | none : IsWhere [] none
  | some {word : List Token} {predicate : Predicate} (holds : IsPredicate word predicate) :
    IsWhere (.keyword .whereKw :: word) (some predicate)

/-- The items of a from-clause, with a comma between each two. -/
inductive IsSpaces : Phrase (List (FromSpace Predicate))
  | one {word : List Token} {space : FromSpace Predicate} (first : IsSpace word space) :
    IsSpaces word [space]
  | more {word others : List Token} {space : FromSpace Predicate}
    {spaces : List (FromSpace Predicate)} (first : IsSpace word space)
    (rest : IsSpaces others spaces) : IsSpaces (word ++ .mark .comma :: others) (space :: spaces)

/-- An entity and the joins that follow it. -/
inductive IsSpace : Phrase (FromSpace Predicate)
  | mk {word others : List Token} {root : RootRef} {joins : List (Join Predicate)}
    (begins : IsRoot word root) (joined : IsJoins others joins) :
    IsSpace (word ++ others) ⟨root, joins, .nowhere⟩

/-- Joins one after the other. -/
inductive IsJoins : Phrase (List (Join Predicate))
  | nil : IsJoins [] []
  | cons {word others : List Token} {join : Join Predicate} {joins : List (Join Predicate)}
    (first : IsJoin word join) (rest : IsJoins others joins) :
    IsJoins (word ++ others) (join :: joins)

/-- A join. -/
inductive IsJoin : Phrase (Join Predicate)
  | mk {before word named others : List Token} {kind : JoinKind} {target : Path Expr}
    {label : Option (Spanned String)} {predicate : Option Predicate} (fetch : Bool)
    (spoken : IsJoinKind before kind) (followed : IsPath word target) (labelled : IsLabel named label)
    (conditioned : IsOn others predicate) :
    IsJoin (before ++ .keyword .join :: tokenIf fetch (.keyword .fetch) ++ word ++ named ++ others)
      ⟨kind, fetch, target, label, predicate, .nowhere⟩

/-- A condition after `with` or `on`, or none. -/
inductive IsOn : Phrase (Option Predicate)
  | none : IsOn [] none
  | some {introduction : Keyword} {word : List Token} {predicate : Predicate}
    (introduced : introduction = .withKw ∨ introduction = .onKw)
    (holds : IsPredicate word predicate) : IsOn (.keyword introduction :: word) (some predicate)

end

/-! ## Statements -/

/-- The direction of a sort key, or none. -/
inductive IsDirection : Phrase (Option SortOrder)
  | none : IsDirection [] none
  | ascending : IsDirection [.keyword .asc] (some .ascending)
  | descending : IsDirection [.keyword .desc] (some .descending)

/-- One sort key. -/
inductive IsSortSpec : Phrase SortSpec
  | mk {word others : List Token} {expr : Expr} {order : Option SortOrder}
    (sorted : IsSum word expr) (directed : IsDirection others order) :
    IsSortSpec (word ++ others) ⟨expr, order, .nowhere⟩

/-- Sort keys after `order by`, or none. -/
inductive IsOrder : Phrase (List SortSpec)
  | none : IsOrder [] []
  | some {word : List Token} {keys : List SortSpec} (listed : IsSeparated IsSortSpec word keys) :
    IsOrder (.keyword .order :: .keyword .byKw :: word) keys

/-- One assignment. -/
inductive IsAssignment : Phrase Assignment
  | mk {word others : List Token} {target : Path Expr} {value : Expr} (followed : IsPath word target)
    (assigned : IsSum others value) :
    IsAssignment (word ++ .mark .eq :: others) ⟨target, value, .nowhere⟩

/-- A complete statement. -/
inductive IsStatement : Phrase Statement
  | select {word others : List Token} {query : QuerySpec} {order : List SortSpec}
    (queried : IsQuery word query) (ordered : IsOrder others order) :
    IsStatement (word ++ others) (.select query order)
  | update {word list others : List Token} {target : RootRef} {assignments : List Assignment}
    {filter : Option Predicate} (targeted : IsRoot word target)
    (assigned : IsSeparated IsAssignment list assignments) (filters : IsWhere others filter) :
    IsStatement (.keyword .update :: word ++ .keyword .setKw :: list ++ others)
      (.update target assignments filter)
  | delete (spelled : Bool) {word others : List Token} {target : RootRef}
    {filter : Option Predicate} (targeted : IsRoot word target) (filters : IsWhere others filter) :
    IsStatement (.keyword .delete :: tokenIf spelled (.keyword .fromKw) ++ word ++ others)
      (.delete target filter)

end ObjectQuery.Grammar
