import ObjectQuery.Proofs.Sql.Adjacency
/-!
# Plain statements

A token is plain if its text is made by its content alone. The tokens of a statement are plain if none
of its tables is a query and the names of its functions are words. Everything else that is written
around tables and names is plain by itself, so that plain parts make a plain whole.
-/
namespace ObjectQuery.Sql

/-- All tokens are plain. -/
def Plain (tokens : List Token) : Prop := ∀ token ∈ tokens, token.isPlain = true

variable {tokens more : List Token} {token : Token}

/-- No tokens at all are plain. -/
theorem plain_nil : Plain [] := by simp [Plain]

/-- A plain token in front keeps a text plain. -/
theorem Plain.cons (first : token.isPlain = true) (rest : Plain tokens) : Plain (token :: tokens) :=
  List.forall_mem_cons.mpr ⟨first, rest⟩

/-- Plain texts one behind the other are plain. -/
theorem Plain.append (first : Plain tokens) (second : Plain more) : Plain (tokens ++ more) :=
  List.forall_mem_append.mpr ⟨first, second⟩

/-- Parentheses around a plain text leave it plain. -/
theorem Plain.parenthesised (plain : Plain tokens) : Plain (Token.parenthesised tokens) :=
  (plain.cons rfl).append (plain_nil.cons rfl)

/-- Parentheses where they are needed leave a plain text plain. -/
theorem Plain.parenthesisedIf (plain : Plain tokens) (needed : Bool) :
    Plain (parenthesisedIf needed tokens) := by
  cases needed with
  | true => exact plain.parenthesised
  | false => exact plain

/-- Plain texts between commas are plain. -/
theorem plain_separated : ∀ {items : List (List Token)}, (∀ item ∈ items, Plain item) →
    Plain (Token.separated items)
  | [], _ => plain_nil
  | [item], plain => by simpa [Token.separated] using plain item (by simp)
  | item :: second :: rest, plain => by
    obtain ⟨plainFirst, plainRest⟩ := List.forall_mem_cons.mp plain
    have split : Token.separated (item :: second :: rest) =
        item ++ (.symbol .comma :: .space :: Token.separated (second :: rest)) := by
      simp [Token.separated, Token.separator]
    rw [split]
    exact plainFirst.append (((plain_separated plainRest).cons rfl).cons rfl)

/-- A keyword between spaces is plain. -/
theorem plain_spaced (word : Keyword) : Plain (Token.spaced word) :=
  ((plain_nil.cons rfl).cons rfl).cons rfl

/-- The `not` a condition may start with is plain. -/
theorem plain_negation (negated : Bool) : Plain (negationTokens negated) := by
  cases negated with
  | true => exact (plain_nil.cons rfl).cons rfl
  | false => exact plain_nil

/-- The label a table or column may have is plain. -/
theorem plain_label (label : Option String) : Plain (labelTokens label) := by
  cases label with
  | none => exact plain_nil
  | some label => exact (plain_spaced .asKw).append (plain_nil.cons rfl)

/-- An operator between spaces is plain. -/
theorem plain_op (op : BinaryOp) : Plain [.space, op.token, .space] := by
  refine ((plain_nil.cons rfl).cons ?_).cons rfl
  cases op with
  | arithmetic op => cases op <;> rfl
  | comparison op => cases op <;> rfl
  | _ => rfl

/-- The table is no query. -/
theorem TableSpec.plain_toRef {table : TableSpec} (stored : table.isDerived = false) :
    Plain table.toRef.tokens := by
  have written : table.toRef = ⟨table.name, some table.label, false⟩ := by simp [TableSpec.toRef, stored]
  rw [written]
  exact (plain_label (some table.label)).cons rfl

/-! ## Expressions -/

/-- All tokens of the expression are plain. -/
def Expr.IsPlain (expr : Expr) : Prop := Plain expr.tokens

variable {left right operand : Expr}

/-- The items of a list of plain values are plain. -/
theorem plain_list : ∀ {exprs : List Expr}, (∀ expr ∈ exprs, expr.IsPlain) →
    ∀ item ∈ listTokens exprs, Plain item
  | [], _ => by simp [listTokens]
  | expr :: rest, plain => by
    obtain ⟨plainFirst, plainRest⟩ := List.forall_mem_cons.mp plain
    rw [listTokens]
    exact List.forall_mem_cons.mpr ⟨plainFirst, plain_list plainRest⟩

/-- A column of a table is plain. -/
theorem Expr.isPlain_tableColumn {table column : String} : (tableColumn table column).IsPlain := by
  rw [IsPlain, tableColumn, Expr.tokens]
  exact ((plain_nil.cons rfl).cons rfl).cons rfl

/-- An operation on plain values is plain. -/
theorem Expr.IsPlain.binary (op : BinaryOp) (plainLeft : left.IsPlain) (plainRight : right.IsPlain) :
    (Expr.binary op left right).IsPlain := by
  rw [IsPlain, Expr.tokens]
  exact ((plainLeft.parenthesisedIf _).append (plain_op op)).append (plainRight.parenthesisedIf _)

/-- A plain value with its sign changed is plain. -/
theorem Expr.IsPlain.negate (plain : operand.IsPlain) : (Expr.negate operand).IsPlain := by
  rw [IsPlain, Expr.tokens]
  exact .cons rfl (Plain.parenthesisedIf plain _)

/-- A plain condition negated is plain. -/
theorem Expr.IsPlain.not (plain : operand.IsPlain) : (Expr.not operand).IsPlain := by
  rw [IsPlain, Expr.tokens]
  exact .cons rfl (.cons rfl (Plain.parenthesisedIf plain _))

/-- A test with its word, in front of what it tests against. -/
theorem Expr.IsPlain.test (plain : operand.IsPlain) (negated : Bool) (word : Keyword) :
    Plain (operand.tokens ++ negationTokens negated ++ Token.spaced word) :=
  (Plain.append plain (plain_negation negated)).append (plain_spaced word)

/-- A plain value looked for in a plain sub-query is plain. -/
theorem Expr.IsPlain.inQuery (plain : operand.IsPlain) {query : Query Expr}
    (plainQuery : Plain query.tokens) (negated : Bool) :
    (Expr.inQuery operand query negated).IsPlain := by
  rw [IsPlain, Expr.tokens]
  exact (plain.test negated .inKw).append plainQuery.parenthesised

/-- A plain value looked for among plain values is plain. -/
theorem Expr.IsPlain.inList (plain : operand.IsPlain) {values : List Expr}
    (plainValues : ∀ value ∈ values, value.IsPlain) (negated : Bool) :
    (Expr.inList operand values negated).IsPlain := by
  cases values with
  | nil =>
    rw [IsPlain, Expr.tokens]
    exact plain_nil.cons rfl
  | cons value rest =>
    rw [IsPlain, Expr.tokens]
    refine (plain.test negated .inKw).append (Plain.parenthesised (plain_separated ?_))
    obtain ⟨plainFirst, plainRest⟩ := List.forall_mem_cons.mp plainValues
    exact List.forall_mem_cons.mpr ⟨plainFirst, plain_list plainRest⟩

/-- A plain value between plain bounds is plain. -/
theorem Expr.IsPlain.between (plain : operand.IsPlain) (plainLow : left.IsPlain)
    (plainHigh : right.IsPlain) (negated : Bool) :
    (Expr.between operand left right negated).IsPlain := by
  rw [IsPlain, Expr.tokens]
  exact (((plain.test negated .between).append plainLow).append (plain_spaced .andKw)).append plainHigh

/-- A plain value tested for `null` is plain. -/
theorem Expr.IsPlain.isNull (plain : operand.IsPlain) (negated : Bool) :
    (Expr.isNull operand negated).IsPlain := by
  rw [IsPlain, Expr.tokens]
  exact Plain.append plain ((plain_nil.cons rfl).cons rfl)

/-- A plain value held against a plain pattern is plain. -/
theorem Expr.IsPlain.like (plain : operand.IsPlain) (plainPattern : right.IsPlain) (negated : Bool) :
    (Expr.like operand right negated).IsPlain := by
  rw [IsPlain, Expr.tokens]
  exact (plain.test negated .like).append plainPattern

/-- Plain conditions joined by `and` are plain. -/
theorem Expr.isPlain_conjunction : ∀ {conditions : List Expr},
    (∀ condition ∈ conditions, condition.IsPlain) →
      ∀ condition ∈ Expr.conjunction conditions, condition.IsPlain
  | [], _, condition, member => by cases member
  | first :: rest, plain, condition, member => by
    obtain rfl := Option.some.inj member
    obtain ⟨plainFirst, plainRest⟩ := List.forall_mem_cons.mp plain
    clear plain member
    induction rest generalizing first with
    | nil => exact plainFirst
    | cons second rest ih =>
      obtain ⟨plainSecond, plainOthers⟩ := List.forall_mem_cons.mp plainRest
      exact ih _ (Expr.IsPlain.binary .and plainFirst plainSecond) plainOthers

/-- A plain condition behind its keyword is plain. -/
theorem plain_condition {word : Keyword} {condition : Option Expr}
    (plain : ∀ given ∈ condition, given.IsPlain) : Plain (conditionTokens word condition) := by
  cases condition with
  | none =>
    rw [conditionTokens]
    exact plain_nil
  | some given =>
    rw [conditionTokens]
    exact (plain_spaced word).append (plain given rfl)

/-! ## Queries -/

/-- The table of the join is no query, and all tokens of its condition are plain. -/
structure Join.IsPlain (join : Join Expr) : Prop where
  table : Plain join.table.tokens
  condition : ∀ given ∈ join.condition, given.IsPlain

/-- Plain joins are written as plain text. -/
theorem plain_joins : ∀ {joins : List (Join Expr)}, (∀ join ∈ joins, join.IsPlain) →
    Plain (joinTokens joins)
  | [], _ => by
    rw [joinTokens]
    exact plain_nil
  | ⟨kind, table, condition⟩ :: rest, plain => by
    obtain ⟨plainFirst, plainRest⟩ := List.forall_mem_cons.mp plain
    have words : Plain [.space, .keyword (joinWord kind), .space, .keyword .join, .space] :=
      ((((plain_nil.cons rfl).cons rfl).cons rfl).cons rfl).cons rfl
    rw [joinTokens]
    exact ((words.append plainFirst.table).append (plain_condition plainFirst.condition)).append
      (plain_joins plainRest)

/-- Selections of plain values are written as plain text. -/
theorem plain_selections : ∀ {selections : List (Selection Expr)},
    (∀ selection ∈ selections, selection.expr.IsPlain) →
      ∀ item ∈ selectionTokens selections, Plain item
  | [], _ => by simp [selectionTokens]
  | ⟨expr, label⟩ :: rest, plain => by
    obtain ⟨plainFirst, plainRest⟩ := List.forall_mem_cons.mp plain
    rw [selectionTokens]
    exact List.forall_mem_cons.mpr
      ⟨Plain.append plainFirst (plain_label label), plain_selections plainRest⟩

/-- Sort keys over plain values are written as plain text. -/
theorem plain_keys : ∀ {keys : List (SortKey Expr)}, (∀ key ∈ keys, key.expr.IsPlain) →
    ∀ item ∈ sortTokens keys, Plain item
  | [], _ => by simp [sortTokens]
  | ⟨expr, order⟩ :: rest, plain => by
    obtain ⟨plainFirst, plainRest⟩ := List.forall_mem_cons.mp plain
    rw [sortTokens]
    exact List.forall_mem_cons.mpr
      ⟨Plain.append plainFirst ((plain_nil.cons rfl).cons rfl), plain_keys plainRest⟩

/-- A query is plain if all its parts are. -/
theorem plain_query {query : Query Expr}
    (selections : ∀ selection ∈ query.selections, selection.expr.IsPlain)
    (source : ∀ table ∈ query.source, Plain table.tokens)
    (joins : ∀ join ∈ query.joins, join.IsPlain) (filter : ∀ given ∈ query.filter, given.IsPlain)
    (order : ∀ key ∈ query.order, key.expr.IsPlain) : Plain query.tokens := by
  obtain ⟨distinct, chosen, table, joined, condition, keys⟩ := query
  rw [Query.tokens, queryTokens_parts]
  refine Plain.append (Plain.append (Plain.append (Plain.append (Plain.append (.cons rfl ?_) ?_) ?_)
    (plain_joins joins)) (plain_condition filter)) ?_
  · cases distinct with
    | true => exact (plain_nil.cons rfl).cons rfl
    | false => exact plain_nil
  · split
    · exact plain_nil
    · exact (plain_separated (plain_selections selections)).cons rfl
  · cases table with
    | none => exact plain_nil
    | some table => exact (plain_spaced .fromKw).append (source table rfl)
  · split
    · exact plain_nil
    · exact (plain_spaced .orderBy).append (plain_separated (plain_keys order))

/-- The tables of the group are no queries, and they are joined on plain conditions. -/
structure TableGroup.IsPlain (group : TableGroup) : Prop where
  root : group.root.isDerived = false
  secondary : ∀ join ∈ group.secondary, join.toJoin.IsPlain

/-- The group is plain and joined on a plain condition. -/
structure GroupJoin.IsPlain (join : GroupJoin) : Prop where
  group : join.group.IsPlain
  condition : ∀ given ∈ join.condition, given.IsPlain

/-- All groups of the space are plain and joined on plain conditions. -/
structure TableSpace.IsPlain (space : TableSpace) : Prop where
  root : space.root.IsPlain
  joins : ∀ join ∈ space.joins, join.IsPlain

/-- A plain join of a group writes plain joins of tables. -/
theorem GroupJoin.IsPlain.toJoins {given : GroupJoin} (plain : given.IsPlain) :
    ∀ join ∈ given.toJoins, join.IsPlain := by
  refine List.forall_mem_cons.mpr ⟨⟨plain.group.root |> TableSpec.plain_toRef, plain.condition⟩, ?_⟩
  intro join member
  obtain ⟨table, listed, rfl⟩ := List.mem_map.mp member
  have further := plain.group.secondary table listed
  split
  · exact ⟨further.table, further.condition⟩
  · exact further

/-- A plain space writes plain joins of tables. -/
theorem TableSpace.IsPlain.toJoins {space : TableSpace} (plain : space.IsPlain) :
    ∀ join ∈ space.toJoins, join.IsPlain := by
  intro join member
  rcases List.mem_append.mp member with own | joined
  · obtain ⟨table, listed, rfl⟩ := List.mem_map.mp own
    exact plain.root.secondary table listed
  · obtain ⟨given, listed, among⟩ := List.mem_flatMap.mp joined
    exact (plain.joins given listed).toJoins join among

/-- The query over plain spaces is plain if its own expressions are. -/
theorem Select.plain_toQuery {select : Select} (spaces : ∀ space ∈ select.spaces, space.IsPlain)
    (selections : ∀ selection ∈ select.selections, selection.expr.IsPlain)
    (filter : ∀ given ∈ select.filter, given.IsPlain)
    (order : ∀ key ∈ select.order, key.expr.IsPlain) : Plain select.toQuery.tokens := by
  refine plain_query selections ?_ ?_ filter order
  · intro table isSource
    simp only [toQuery, Option.mem_def, Option.map_eq_some_iff] at isSource
    obtain ⟨space, first, rfl⟩ := isSource
    exact TableSpec.plain_toRef (spaces space (List.mem_of_mem_head? first)).root.root
  · intro join member
    change join ∈ joins select.spaces at member
    unfold joins at member
    split at member
    · cases member
    · rename_i first rest listed
      rw [listed, List.forall_mem_cons] at spaces
      rcases List.mem_append.mp member with own | later
      · exact spaces.1.toJoins join own
      · obtain ⟨space, among, joined⟩ := List.mem_flatMap.mp later
        rcases List.mem_cons.mp joined with rfl | further
        · exact ⟨TableSpec.plain_toRef (spaces.2 space among).root.root, by simp⟩
        · exact (spaces.2 space among).toJoins join further

/-- An update with plain values and a plain filter is plain. -/
theorem Update.plain_tokens {table : String} {assignments : List (String × Expr)}
    {filter : Option Expr} (assigned : ∀ assignment ∈ assignments, assignment.2.IsPlain)
    (plain : ∀ given ∈ filter, given.IsPlain) :
    Plain (Update.tokens ⟨table, assignments, filter⟩) := by
  have target : Plain [.keyword .update, .space, .identifier table] :=
    ((plain_nil.cons rfl).cons rfl).cons rfl
  refine Plain.append (Plain.append (target.append (plain_spaced .setKw)) (plain_separated ?_))
    (plain_condition plain)
  intro item member
  obtain ⟨⟨column, value⟩, listed, rfl⟩ := List.mem_map.mp member
  have equated : Plain [.identifier column, .space, .symbol .eq, .space] :=
    (((plain_nil.cons rfl).cons rfl).cons rfl).cons rfl
  exact equated.append (assigned _ listed)

/-- A delete with a plain filter is plain. -/
theorem Delete.plain_tokens {table : String} {filter : Option Expr}
    (plain : ∀ given ∈ filter, given.IsPlain) : Plain (Delete.tokens ⟨table, filter⟩) := by
  have target : Plain [.keyword .deleteFrom, .space, .identifier table] :=
    ((plain_nil.cons rfl).cons rfl).cons rfl
  exact target.append (plain_condition plain)

end ObjectQuery.Sql
