import ObjectQuery.Proofs.Grammar.InStep
import ObjectQuery.Proofs.Grammar.Names
import ObjectQuery.Proofs.Grammar.SourceStarts
/-!
# Keywords for names

Behind a dot, behind the words that an entity or an association follows, and behind a comma between
items of a from-clause, any keyword is as good a name as another word: the statement stays what it is
but for this name, and for the places behind it. Two keywords keep their meaning there, `fetch` behind
`join` and `from` behind `delete`.

One more is kept although the rules have no use for it: behind `from`, `fetch` and `update` there can
only be a name, but `fetch` is not read as one, and the text is refused.
-/
namespace ObjectQuery.Grammar

open Reader

/-! ## Statements whose lexemes answer each other -/

/-- Nothing is left of a statement. -/
theorem reads_statement_nil {lexemes rest : List Lexeme} {tree : Statement}
    (taken : Reads statement lexemes tree rest) : rest = [] := by
  obtain ⟨_, _, _, finished⟩ := reads_bind.mp taken
  obtain ⟨_, _, ended, returned⟩ := reads_bind.mp finished
  obtain ⟨_, rfl⟩ := reads_finish.mp ended
  exact (reads_pure.mp returned).2

/-- A statement whose lexemes are moved and renamed is read as it was. -/
theorem statement_respelled {shift : Nat → Nat} (origin : shift 0 = 0) {lexemes others rest : List Lexeme}
    {tree : Statement} (parallel : Parallel shift lexemes others)
    (taken : Reads statement lexemes tree rest) : ∃ given, Reads statement others given [] ∧
      tree.respelled (Span.moved shift) (Lexeme.names others) = (given, []) := by
  cases statement_inStep origin parallel with
  | refused refused _ => exact absurd taken (refuses_iff.mp refused tree rest)
  | @read used answer left leftToo value given parallelUsed further split splitToo found foundToo told =>
    obtain ⟨rfl, rfl⟩ := reads_unique taken found
    obtain rfl := reads_statement_nil found
    obtain rfl := reads_statement_nil foundToo
    rw [List.append_nil] at splitToo
    subst splitToo
    have whole := told []
    rw [List.append_nil] at whole
    exact ⟨given, foundToo, whole⟩

/-- The names of the lexemes of a text have no dots. -/
theorem dotless_of_read {source : String} {lexemes : List Lexeme}
    (found : Lexeme.read source = .ok lexemes) {lexeme : Lexeme} (member : lexeme ∈ lexemes)
    {name : String} (named : lexeme.token = .identifier name) : '.' ∉ name.toList := by
  intro dotted
  have inside := (Lexeme.read_spellsWord found lexeme member).identifier name named '.' dotted
  revert inside
  decide

/-- What is moved answers what it has been. -/
theorem answers_moved {source : String} {lexemes : List Lexeme} (shift : Nat → Nat)
    (found : Lexeme.read source = .ok lexemes) {lexeme : Lexeme} (member : lexeme ∈ lexemes) :
    Lexeme.Answers shift lexeme (lexeme.moved shift) := by
  refine ⟨rfl, ?_⟩
  cases given : lexeme.token with
  | identifier name => exact .inr ⟨name, name, rfl, dotless_of_read found member given, given⟩
  | _ => exact .inl ⟨given, rfl⟩

/-- Lexemes of a source run parallel to themselves moved. -/
theorem parallel_moved {source : String} {lexemes part : List Lexeme} (shift : Nat → Nat)
    (found : Lexeme.read source = .ok lexemes) (inside : ∀ lexeme ∈ part, lexeme ∈ lexemes) :
    Parallel shift part (part.map (Lexeme.moved shift)) := by
  induction part with
  | nil => exact .nil
  | cons lexeme part inductionHypothesis =>
    obtain ⟨first, others⟩ := List.forall_mem_cons.mp inside
    exact .cons (answers_moved shift found first) (inductionHypothesis others)

/-- A name is answered by another, and everything around it by itself. -/
theorem parallel_renamed {source name : String} {before behind : List Lexeme} {target : Lexeme}
    (word : String) (shift : Nat → Nat)
    (found : Lexeme.read source = .ok (before ++ target :: behind))
    (named : target.token = .identifier name) : Parallel shift (before ++ target :: behind)
      ((before ++ target.renamed word :: behind).map (Lexeme.moved shift)) := by
  have first : Parallel shift before _ := parallel_moved shift found fun _ member =>
    List.mem_append_left _ member
  have last : Parallel shift behind _ := parallel_moved shift found fun _ member =>
    List.mem_append_right _ (List.mem_cons_of_mem _ member)
  have answers : Lexeme.Answers shift target ((target.renamed word).moved shift) :=
    ⟨rfl, .inr ⟨name, word, named, dotless_of_read found (by simp) named, rfl⟩⟩
  rw [List.map_append, List.map_cons]
  exact List.rel_append first (.cons answers last)

/-- No two lexemes of a text start at one place. -/
theorem eq_of_starts {before behind others further : List Lexeme} {target lexeme : Lexeme}
    (ordered : (Lexeme.starts (before ++ target :: behind)).Pairwise (· < ·))
    (split : before ++ target :: behind = others ++ lexeme :: further)
    (start : lexeme.span.start = target.span.start) : others = before := by
  have apart := List.pairwise_map.mp ordered
  obtain ⟨_, behindTarget, across⟩ := List.pairwise_append.mp apart
  rcases List.append_eq_append_iff.mp split with ⟨between, rfl, rest⟩ | ⟨between, rfl, rest⟩
  · cases between with
    | nil => exact List.append_nil _
    | cons first between =>
      obtain ⟨rfl, rfl⟩ := List.cons.inj rest
      have later := (List.pairwise_cons.mp behindTarget).1 lexeme (by simp)
      omega
  · cases between with
    | nil => exact (List.append_nil _).symm
    | cons first between =>
      obtain ⟨rfl, rfl⟩ := List.cons.inj rest
      have earlier := across lexeme (by simp) target (by simp)
      omega

/-! ## Places for names -/

/-- Only a name can follow the lexemes: the last of them says so, or it is a comma and the name begins
a source. -/
def FollowsName (tree : Statement) (before : List Lexeme) (target : Lexeme) : Prop :=
  match lastOf none (tokens before) with
  | some (.mark .dot) => True
  | some (.mark .comma) => target.span.start ∈ tree.places.map (·.start)
  | some (.keyword .fromKw) | some (.keyword .join) | some (.keyword .fetch)
  | some (.keyword .update) | some (.keyword .delete) => True
  | _ => False

/-- The keyword keeps its meaning behind the token: `fetch` behind `join`, and `from` behind
`delete`. -/
def keepsMeaning (previous : Option Token) (keyword : Keyword) : Bool :=
  match previous, keyword with
  | some (.keyword .join), .fetch | some (.keyword .delete), .fromKw => true
  | _, _ => false

/-- The keyword is `fetch`, and stands where the rules have names only and softening leaves it. -/
def isStranded (previous : Option Token) (keyword : Keyword) : Bool :=
  match previous, keyword with
  | some (.keyword .fromKw), .fetch | some (.keyword .fetch), .fetch
  | some (.keyword .update), .fetch => true
  | _, _ => false

/-- Behind what wants a name a name is wanted. -/
theorem wantsName_of_follows {source : String} {tree : Statement} {before behind : List Lexeme}
    {target : Lexeme} {keyword : Keyword} (found : Lexeme.read source = .ok (before ++ target :: behind))
    (parsed : Statement.parse source = .ok tree) (follows : FollowsName tree before target)
    (meaning : keepsMeaning (lastOf none (tokens before)) keyword = false)
    (stranded : isStranded (lastOf none (tokens before)) keyword = false) :
    Lexeme.wantsName before keyword = true := by
  -- At a comma the level of the source behind it decides.
  have level : lastOf none (tokens before) = some (.mark .comma) →
      (FromLevels.start.through (tokens before)).current = true := by
    intro comma
    rw [FollowsName, comma] at follows
    obtain ⟨place, member, start⟩ := List.mem_map.mp follows
    obtain ⟨lexemes, foundToo, introduced⟩ := parse_introduced parsed
    obtain rfl := Except.ok.inj (found.symm.trans foundToo)
    obtain ⟨others, lexeme, further, split, starts, told⟩ := introduced place member
    obtain rfl := eq_of_starts (Lexeme.read_starts found) split (starts.trans start)
    exact told comma
  change Lexeme.isNamePosition (FromLevels.start.through (tokens before))
    (lastOf none (tokens before)) (.keyword keyword) = true
  rw [FollowsName] at follows
  generalize lastOf none (tokens before) = previous at follows meaning stranded level ⊢
  split at follows
  · rfl
  · exact level rfl
  all_goals first
    | contradiction
    | cases keyword <;> first
      | rfl
      | exact absurd meaning (by decide)
      | exact absurd stranded (by decide)

/-- Behind a token where it is stranded `fetch` does not stand in any statement. -/
theorem not_parsed_of_stranded {source : String} {before others : List Lexeme} {lexeme : Lexeme}
    {keyword : Keyword} (found : Lexeme.read source = .ok (before ++ lexeme :: others))
    (reserved : lexeme.token = .keyword keyword)
    (stranded : isStranded (lastOf none (tokens before)) keyword = true) :
    ∃ failure, Statement.parse source = .error failure := by
  cases parsed : Statement.parse source with
  | error failure => exact ⟨failure, rfl⟩
  | ok tree =>
    obtain ⟨lexemes, foundToo, formed⟩ := except_bind_ok.mp parsed
    obtain rfl := Except.ok.inj (found.symm.trans foundToo)
    have fits := fits_of_ofLexemes formed
    rw [List.map_append, List.map_cons, fits_append, Fits, reserved] at fits
    have suited := fits.2.1
    change Token.suits _ (lastOf none (tokens before)) _ = true at suited
    generalize lastOf none (tokens before) = previous at stranded suited
    unfold isStranded at stranded
    split at stranded <;> first | cases suited | cases stranded

/-- A stranded keyword wants no name. -/
theorem wantsName_of_stranded {before : List Lexeme} {keyword : Keyword}
    (stranded : isStranded (lastOf none (tokens before)) keyword = true) :
    Lexeme.wantsName before keyword = false := by
  change Lexeme.isNamePosition (FromLevels.start.through (tokens before))
    (lastOf none (tokens before)) (.keyword keyword) = false
  generalize lastOf none (tokens before) = previous at stranded
  unfold isStranded at stranded
  split at stranded <;> first | rfl | cases stranded

/-- Moved lexemes have the same names. -/
theorem names_moved (shift : Nat → Nat) (lexemes : List Lexeme) :
    Lexeme.names (lexemes.map (Lexeme.moved shift)) = Lexeme.names lexemes := by
  rw [Lexeme.names, List.filterMap_map]
  rfl

/-- The names of lexemes are those before a name, the name and those behind it. -/
theorem names_around {before behind : List Lexeme} {target : Lexeme} {name : String}
    (named : target.token = .identifier name) : Lexeme.names (before ++ target :: behind) =
      Lexeme.names before ++ name :: Lexeme.names behind := by
  rw [Lexeme.names_append]
  simp [Lexeme.names, named, Token.name?]

/-- Any keyword can be the name in a place where only a name can follow, but for those that keep their
meaning there: the tree is the same with this name replaced and the places behind it moved. `fetch` is
refused where it is stranded. -/
theorem keyword_names (source word name : String) (keyword : Keyword) (tree : Statement)
    (before behind : List Lexeme) (target : Lexeme)
    (found : Lexeme.read source = .ok (before ++ target :: behind))
    (parsed : Statement.parse source = .ok tree) (named : target.token = .identifier name)
    (follows : FollowsName tree before target) (spelled : Keyword.ofWord? word.toList = some keyword)
    (meaning : keepsMeaning (lastOf none (tokens before)) keyword = false) :
    tree.respelled id (Lexeme.names before ++ name :: Lexeme.names behind) = (tree, []) ∧
    if isStranded (lastOf none (tokens before)) keyword then
      ∃ failure, Statement.parse (target.span.respelled source word) = .error failure
    else ∃ given, Statement.parse (target.span.respelled source word) = .ok given ∧
      tree.respelled (Span.moved (target.span.shift (byteLength word.toList)))
        (Lexeme.names before ++ word :: Lexeme.names behind) = (given, []) := by
  obtain ⟨lexemes, foundToo, formed⟩ := except_bind_ok.mp parsed
  obtain rfl := Except.ok.inj (found.symm.trans foundToo)
  obtain ⟨rest, taken⟩ := ofLexemes_eq_ok.mp formed
  refine ⟨?_, ?_⟩
  · have parallel := parallel_moved id found fun lexeme member => member
    have still : (before ++ target :: behind).map (Lexeme.moved id) = before ++ target :: behind :=
      List.map_id _
    rw [still] at parallel
    obtain ⟨given, again, whole⟩ := statement_respelled rfl parallel taken
    obtain ⟨rfl, _⟩ := reads_unique taken again
    rwa [names_around named] at whole
  have respelled := Lexeme.read_respelled found named spelled
  cases stranded : isStranded (lastOf none (tokens before)) keyword with
  | true =>
    rw [wantsName_of_stranded stranded, if_neg Bool.false_ne_true] at respelled
    obtain ⟨others, respelled⟩ := respelled
    rw [if_pos rfl]
    exact not_parsed_of_stranded respelled rfl stranded
  | false =>
    rw [wantsName_of_follows found parsed follows meaning stranded, if_pos rfl] at respelled
    rw [if_neg Bool.false_ne_true]
    have origin : target.span.shift (byteLength word.toList) 0 = 0 := Span.shift_before (Nat.zero_le _)
    have parallel := parallel_renamed word (target.span.shift (byteLength word.toList)) found named
    obtain ⟨given, reads, whole⟩ := statement_respelled origin parallel taken
    rw [names_moved, names_around rfl] at whole
    exact ⟨given, except_bind_ok.mpr ⟨_, respelled, ofLexemes_eq_ok.mpr ⟨[], reads⟩⟩, whole⟩

/-- The entity behind the comma becomes `Order`, two bytes shorter. -/
theorem keyword_names_order : ∃ tree given,
    Statement.parse "from Fund f, Account a" = .ok tree ∧
    tree.respelled id ["Fund", "f", "Account", "a"] = (tree, []) ∧
    Statement.parse "from Fund f, Order a" = .ok given ∧
    tree.respelled (Span.moved (Span.shift ⟨13, 20⟩ 5)) ["Fund", "f", "Order", "a"] = (given, []) := by
  have found : Lexeme.read "from Fund f, Account a" = .ok
      ([⟨.keyword .fromKw, "from", ⟨0, 4⟩⟩, ⟨.identifier "Fund", "Fund", ⟨5, 9⟩⟩,
        ⟨.identifier "f", "f", ⟨10, 11⟩⟩, ⟨.mark .comma, ",", ⟨11, 12⟩⟩] ++
        ⟨.identifier "Account", "Account", ⟨13, 20⟩⟩ :: [⟨.identifier "a", "a", ⟨21, 22⟩⟩]) := by
    decide +kernel
  have sited : (Statement.parse "from Fund f, Account a").map (·.places.map (·.start)) = .ok [5, 13] := by
    decide +kernel
  obtain ⟨tree, parsed, places⟩ := except_map_ok.mp sited
  have follows : (13 : Nat) ∈ tree.places.map (·.start) := by
    rw [places]
    decide
  have respelled : (Span.mk 13 20).respelled "from Fund f, Account a" "Order" = "from Fund f, Order a" := by
    decide +kernel
  obtain ⟨own, others⟩ := keyword_names _ "Order" "Account" .order tree _ _ _ found parsed rfl follows
    (by decide) (by decide)
  rw [if_neg (by decide)] at others
  obtain ⟨given, parsedToo, whole⟩ := others
  exact ⟨tree, given, parsed, own, respelled ▸ parsedToo, whole⟩

/-- Behind `from` the keyword `fetch` keeps no meaning, and is no name either. -/
theorem not_all_keyword_names : ¬ ∀ (source word name : String) (keyword : Keyword) (tree : Statement)
    (before behind : List Lexeme) (target : Lexeme),
    Lexeme.read source = .ok (before ++ target :: behind) → Statement.parse source = .ok tree →
    target.token = .identifier name → FollowsName tree before target →
    Keyword.ofWord? word.toList = some keyword →
    keepsMeaning (lastOf none (tokens before)) keyword = false →
    ∃ given, Statement.parse (target.span.respelled source word) = .ok given ∧
      tree.respelled (Span.moved (target.span.shift (byteLength word.toList)))
        (Lexeme.names before ++ word :: Lexeme.names behind) = (given, []) := by
  intro claimed
  have found : Lexeme.read "from a b" = .ok ([⟨.keyword .fromKw, "from", ⟨0, 4⟩⟩] ++
      ⟨.identifier "a", "a", ⟨5, 6⟩⟩ :: [⟨.identifier "b", "b", ⟨7, 8⟩⟩]) := by decide +kernel
  have sited : (Statement.parse "from a b").map (·.places.map (·.start)) = .ok [5] := by decide +kernel
  obtain ⟨tree, parsed, _⟩ := except_map_ok.mp sited
  obtain ⟨given, parsedToo, _⟩ := claimed _ "fetch" "a" .fetch tree _ _ _ found parsed rfl trivial
    (by decide) (by decide)
  have respelled : (Span.mk 5 6).respelled "from a b" "fetch" = "from fetch b" := by decide +kernel
  have refused : (Statement.parse "from fetch b").toOption.isSome = false := by decide +kernel
  rw [respelled] at parsedToo
  rw [parsedToo] at refused
  cases refused

end ObjectQuery.Grammar
