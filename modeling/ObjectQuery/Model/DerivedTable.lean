import ObjectQuery.Model.Table
/-!
# Derived tables

A table may be a query in parentheses. The query itself is passed on to the database as it is; a
model is only asked that the parentheses hold one query and not some other statement or no statement
at all. Whether they do is for a parser of SQL to say. A model is built with any such parser, and of
its answers only the kinds of the statements and its complaint are used.

A parser of the whole language of a database is no part of this library. The one that is used where
no other is given looks at the clauses of a query and at the balance of parentheses and quotation
marks, and takes the expressions inside the clauses on trust.
-/
namespace ObjectQuery

/-- What a statement of SQL is, as far as a derived table is concerned. -/
inductive StatementKind where
  | query
  | other
  deriving DecidableEq, Repr

/-- A parser of SQL. It says what the statements of a text are, or complains about the text. -/
abbrev SqlParser := String → Except String (List StatementKind)

namespace DerivedTable

/-- What is wrong with the text in the parentheses. -/
inductive Fault where
  /-- It is no sequence of statements, as the parser complains. -/
  | malformed {complaint : String}
  /-- It is not exactly one query. -/
  | notOneQuery
  deriving DecidableEq, Repr

/-- The text for a fault. -/
def Fault.message : Fault → String
  | @malformed complaint => complaint
  | notOneQuery => "expected a single SELECT"

/-- The text between the parentheses of a derived table. -/
def inner (name : String) : String :=
  String.ofList ((Text.trimBlanks name.toList).drop 1).dropLast

/-- Checks that a text is one query. -/
def check (parser : SqlParser) (text : String) : Except Fault Unit :=
  match parser text with
  | .error complaint => .error (@Fault.malformed complaint)
  | .ok [.query] => .ok ()
  | .ok _ => .error .notOneQuery

/-- Checks the name of a table, which only a derived one can fail. -/
def checkName (parser : SqlParser) (name : String) : Except Fault Unit :=
  if isDerivedTable name then check parser (inner name) else .ok ()

/-! ## A parser of outlines -/

/-- A word in upper case, an operand such as a string, a number or a quoted name, or a sign. -/
inductive Piece where
  | word (upper : String)
  | operand
  | sign (c : Char)
  deriving DecidableEq, Repr

/-- The text after a quotation whose opening mark has been read. A doubled mark does not end it. -/
def afterQuotation? (mark : Char) : List Char → Option (List Char)
  | [] => none
  | [c] => if c == mark then some [] else none
  | c :: d :: rest =>
    if c == mark then
      if d == mark then afterQuotation? mark rest else some (d :: rest)
    else afterQuotation? mark (d :: rest)

/-- The text after a comment between slashes and stars whose opening has been read. -/
def afterComment? : List Char → Option (List Char)
  | '*' :: '/' :: rest => some rest
  | _ :: rest => afterComment? rest
  | [] => none

/-- The pieces of a text, at most `fuel` of them. -/
def piecesWithin : Nat → List Char → Option (List Piece)
  | 0, _ => some []
  | _, [] => some []
  | fuel + 1, '-' :: '-' :: rest => piecesWithin fuel (rest.dropWhile (· != '\n'))
  | fuel + 1, '/' :: '*' :: rest => (afterComment? rest).bind (piecesWithin fuel)
  | fuel + 1, c :: rest =>
    if Text.isBlank c then piecesWithin fuel rest
    else if c == '\'' || c == '"' || c == '\x60' then
      (afterQuotation? c rest).bind fun rest => (piecesWithin fuel rest).map (.operand :: ·)
    else if c.isDigit then
      let rest := rest.dropWhile fun c => c.isDigit || c == '.'
      (piecesWithin fuel rest).map (.operand :: ·)
    else if c.isAlpha || c == '_' then
      let word := c :: rest.takeWhile fun c => c.isAlphanum || c == '_'
      (piecesWithin fuel ((c :: rest).drop word.length)).map
        (.word (String.ofList (word.map Char.toUpper)) :: ·)
    else (piecesWithin fuel rest).map (.sign c :: ·)

/-- Pieces with everything between two parentheses put together. -/
inductive Tree where
  | piece (piece : Piece)
  | group (items : List Tree)

/-- The trees up to a closing parenthesis or the end, and the pieces from there on. -/
def treesWithin : Nat → List Piece → Option (List Tree × List Piece)
  | 0, _ => none
  | _, [] => some ([], [])
  | _, .sign ')' :: rest => some ([], .sign ')' :: rest)
  | fuel + 1, .sign '(' :: rest => do
    let (items, rest) ← treesWithin fuel rest
    let .sign ')' :: rest := rest | none
    let (trees, rest) ← treesWithin fuel rest
    return (.group items :: trees, rest)
  | fuel + 1, piece :: rest => do
    let (trees, rest) ← treesWithin fuel rest
    return (.piece piece :: trees, rest)

/-- The trees of pieces with balanced parentheses. -/
def trees? (pieces : List Piece) : Option (List Tree) :=
  match treesWithin (pieces.length + 1) pieces with
  | some (trees, []) => some trees
  | _ => none

/-- The word that a tree is. -/
def Tree.word? : Tree → Option String
  | .piece (.word word) => some word
  | _ => none

/-- Whether a tree can name something. -/
def Tree.isName : Tree → Bool
  | .piece (.sign _) | .group _ => false
  | .piece _ => true

/-- The trees between commas. -/
def items (trees : List Tree) : List (List Tree) :=
  trees.foldr (fun tree items => match tree, items with
    | .piece (.sign ','), items => [] :: items
    | tree, item :: items => (tree :: item) :: items
    | tree, [] => [[tree]]) [[]]

/-- Whether the trees are one or more items with commas between them. -/
def isListOf (isItem : List Tree → Bool) (trees : List Tree) : Bool :=
  (items trees).all fun item => !item.isEmpty && isItem item

/-- The words that begin a clause. -/
def clauseWords : List String :=
  ["SELECT", "VALUES", "FROM", "WHERE", "GROUP", "HAVING", "ORDER", "LIMIT", "OFFSET", "UNION",
   "EXCEPT", "INTERSECT"]

/-- A clause: the word that begins it, or none for what stands before the first, and the rest. -/
abbrev Clause := Option String × List Tree

/-- The clauses of a query. -/
def clauses (trees : List Tree) : List Clause :=
  let (first, rest) := trees.foldr (fun tree (first, rest) =>
    match tree.word?.filter clauseWords.contains with
    | some word => ([], (some word, first) :: rest)
    | none => (tree :: first, rest)) ([], [])
  if first.isEmpty then rest else (none, first) :: rest

/-- The trees without one of the words at their front. -/
def without (words : List String) : List Tree → List Tree
  | tree :: rest => if tree.word?.any words.contains then rest else tree :: rest
  | [] => []

/-- Whether the trees are `by` and a list. -/
def isByList (isItem : List Tree → Bool) : List Tree → Bool
  | tree :: rest => tree.word? == some "BY" && isListOf isItem rest
  | [] => false

/-- The text after the clauses that may follow a select list, each at most once and in order. -/
def afterSelect (isItem : List Tree → Bool) : List Clause → List Clause
  | clauses =>
    let clauses := drop "FROM" (isListOf isItem) clauses
    let clauses := drop "WHERE" isItem clauses
    let clauses := drop "GROUP" (isByList isItem) clauses
    drop "HAVING" isItem clauses
where
  /-- The clauses without the first if that begins with the word and is well formed. -/
  drop (word : String) (isBody : List Tree → Bool) : List Clause → List Clause
    | (some first, body) :: rest =>
      if first == word && !body.isEmpty && isBody body then rest else (some first, body) :: rest
    | clauses => clauses

/-- The clauses after one operand of a query, if there is one. -/
def afterOperand? (isQuery isItem : List Tree → Bool) : List Clause → Option (List Clause)
  | (none, [.group inner]) :: rest => if isQuery inner then some rest else none
  | (some "SELECT", list) :: rest =>
    if isListOf isItem (without ["DISTINCT", "ALL"] list) then some (afterSelect isItem rest)
    else none
  | (some "VALUES", rows) :: rest => if isListOf isItem rows then some rest else none
  | _ => none

/-- Whether the clauses are operands with set operators between them, followed by an order and
limits. -/
def isBodyWithin (isQuery isItem : List Tree → Bool) : Nat → List Clause → Bool
  | 0, _ => false
  | fuel + 1, clauses => match afterOperand? isQuery isItem clauses with
    | none => false
    | some ((some word, operand) :: rest) =>
      if ["UNION", "EXCEPT", "INTERSECT"].contains word then
        match without ["ALL", "DISTINCT"] operand with
        | [] => isBodyWithin isQuery isItem fuel rest
        | operand => isBodyWithin isQuery isItem fuel ((none, operand) :: rest)
      else
        let rest := afterSelect.drop "ORDER" (isByList isItem) ((some word, operand) :: rest)
        let rest := afterSelect.drop "LIMIT" isItem rest
        (afterSelect.drop "OFFSET" isItem rest).isEmpty
    | some rest => rest.isEmpty

/-- The trees after the named queries of a `with`, if there are any. -/
def afterNamedWithin (isQuery : List Tree → Bool) : Nat → List Tree → Option (List Tree)
  | 0, _ => none
  | fuel + 1, trees => do
    let name :: rest := trees | none
    guard name.isName
    let rest := match rest with
      | .group _ :: rest => rest
      | rest => rest
    let tree :: .group inner :: rest := rest | none
    guard (tree.word? == some "AS" && isQuery inner)
    match rest with
    | .piece (.sign ',') :: rest => afterNamedWithin isQuery fuel rest
    | rest => return rest

/-- Whether the trees are a query, nested less than `fuel` deep. Groups inside expressions that
begin like a query have to be one. -/
def isQueryWithin : Nat → List Tree → Bool
  | 0, _ => false
  | fuel + 1, trees =>
    let isQuery := isQueryWithin fuel
    let isItem (item : List Tree) : Bool := item.all fun
      | .group (first :: rest) =>
        if first.word?.any ["SELECT", "WITH"].contains then isQuery (first :: rest) else true
      | _ => true
    match trees with
    | tree :: rest =>
      if tree.word? == some "WITH" then
        match afterNamedWithin isQuery rest.length (without ["RECURSIVE"] rest) with
        | some body => isBodyWithin isQuery isItem (body.length + 1) (clauses body)
        | none => false
      else isBodyWithin isQuery isItem (trees.length + 1) (clauses trees)
    | [] => false

/-- The trees of each statement of a text: those between semicolons, without empty ones. -/
def statements (trees : List Tree) : List (List Tree) :=
  (trees.foldr (fun tree statements => match tree, statements with
    | .piece (.sign ';'), statements => [] :: statements
    | tree, statement :: statements => (tree :: statement) :: statements
    | tree, [] => [[tree]]) [[]]).filter (!·.isEmpty)

/-- The words that begin a statement which changes rows. -/
def changeWords : List String := ["DELETE", "UPDATE", "INSERT"]

/-- The kinds of the statements in a text, judged by their outlines. -/
def outlineParser : SqlParser := fun text => do
  let complaint := "sql parser error"
  let some pieces := piecesWithin (text.length + 1) text.toList | throw complaint
  let some trees := trees? pieces | throw complaint
  let isQuery := isQueryWithin (pieces.length + 1)
  let isChange (statement : List Tree) : Bool :=
    1 < statement.length && (statement.head?.bind Tree.word?).any changeWords.contains
  (statements trees).mapM fun statement =>
    if isQuery statement then return .query
    else if isChange statement then return .other
    else throw complaint

end DerivedTable
end ObjectQuery
