import ObjectQuery.Proofs.Grammar.Complete.Predicate
/-!
# What follows the rules is read: statements

Every statement that the rules derive is read, and nothing is left.
-/
namespace ObjectQuery.Grammar

open Reader

/-- A sort key goes on like its expression or with a direction. -/
def sortGoesOn (token : Token) : Bool :=
  sumGoesOn token || token = .keyword .asc || token = .keyword .desc

/-- The reader of a direction. -/
abbrev directionReader : Reader SortOrder :=
  (do keyword .asc; return .ascending) <|> (do keyword .desc; return .descending)

/-- A direction that may be left out is read. -/
theorem direction_takes (size : Nat) :
    Takes (Reader.optional directionReader) id IsDirection sortGoesOn size := by
  intro word order rest derived _ stops
  cases derived with
  | none =>
    refine Accepts.absent (.orElse (.bind (.token (stops.not_head ?_)))
      (.bind (.token (stops.not_head ?_))))
    · simp [sortGoesOn]
    · simp [sortGoesOn]
  | ascending =>
    have spoken : Accepts directionReader [.keyword .asc] rest (· = .ascending) :=
      .first (.map (.token _) fun _ _ => rfl)
    exact spoken.there.weaken fun found ⟨_, same, equal⟩ => equal ▸ same
  | descending =>
    have spoken : Accepts directionReader [.keyword .desc] rest (· = .descending) :=
      .second (.bind (.token (by simp))) (.map (.token _) fun _ _ => rfl)
    exact spoken.there.weaken fun found ⟨_, same, equal⟩ => equal ▸ same

/-- A sort key is taken back from its words. -/
theorem sortSpec_takes (size : Nat) : Takes sortSpec SortSpec.unplaced IsSortSpec sortGoesOn size := by
  rintro _ _ rest ⟨sorted, directed⟩ short stops
  have stopsSum : Stops sumGoesOn rest := stops.mono fun token goesOn => by simp [sortGoesOn, goesOn]
  refine .placed (.bind (expression_takes _ sorted (Nat.lt_succ_self _) ?_) fun expr viewed => ?_)
  · cases directed with
    | none => exact stopsSum
    | _ => exact stops_cons.mpr rfl
  · refine .map (direction_takes _ directed (Nat.lt_succ_self _) stops) ?_
    rintro order rfl span
    rw [SortSpec.unplaced, viewed]
    rfl

/-- The query is read up to the sort keys. -/
theorem selectStatement_accepts {word others : List Token} {query : QuerySpec} {order : List SortSpec}
    (queried : IsQuery word query) (ordered : IsOrder others order) :
    Accepts selectStatement (word ++ others) [] fun found =>
      found.unplaced = .select query order := by
  have behind : Stops queryGoesOn (others ++ []) := by
    cases ordered with
    | none => exact stops_nil _
    | some listed => exact stops_cons.mpr rfl
  refine .bind (query_takes (predicate_takes _) queried (Nat.lt_succ_self _) behind) ?_
  rintro found rfl
  cases ordered with
  | none =>
    refine .map (.absent (.bind (.token (by simp)))) ?_
    rintro _ rfl
    rfl
  | some listed =>
    refine .map (.there (.behind (.behind (commaSeparated_takes (sortSpec_takes _) rfl listed
      (Nat.lt_succ_self _) (stops_nil _))))) ?_
    rintro _ ⟨keys, rfl, rfl⟩
    rfl

/-- What starts with another keyword is no selecting statement. -/
theorem selectStatement_declines {word : Keyword} {others : List Token}
    (other : word ≠ .select ∧ word ≠ .fromKw) :
    Declines selectStatement (.keyword word :: others) := by
  refine .bind (.bind (.spanned (.absent (.bind (.spanned (.bind (.token ?_))))
    (.bind (.bind (.spanned (.bind (.token ?_))))))))
  · simpa using other.1
  · simpa using other.2

/-- An assignment is taken back from its words. -/
theorem assignment_takes (size : Nat) :
    Takes assignment Assignment.unplaced IsAssignment sumGoesOn size := by
  rintro _ _ rest ⟨followed, assigned⟩ short stops
  refine .placed (.bind (path_takes (expression_takes _) followed (Nat.lt_succ_self _)
    (stops_cons.mpr rfl)) fun target viewed => .behind ?_)
  refine .map (expression_takes _ assigned (Nat.lt_succ_self _) stops) fun value same span => ?_
  rw [Assignment.unplaced, viewed, same]

/-- An updating statement is taken back from its words. -/
theorem updateStatement_accepts {word list others : List Token} {target : RootRef}
    {assignments : List Assignment} {filter : Option Predicate} (targeted : IsRoot word target)
    (assigned : IsSeparated IsAssignment list assignments) (filters : IsWhere others filter) :
    Accepts updateStatement (.keyword .update :: (word ++ .keyword .setKw :: (list ++ others))) []
      fun found => found.unplaced = .update target assignments filter := by
  have ended := (isWhere_stops filters rfl).append (stops_nil (listGoesOn sumGoesOn))
  refine .behind (.bind (rootRef_takes _ targeted (Nat.lt_succ_self _) (stops_cons.mpr rfl)) ?_)
  rintro target rfl
  refine .behind (.bind (commaSeparated_takes (assignment_takes _) rfl assigned (Nat.lt_succ_self _)
    ended) ?_)
  rintro assignments rfl
  refine .map (condition_takes (predicate_takes _) filters (Nat.lt_succ_self _) (stops_nil _)) ?_
  rintro filter rfl
  rfl

/-- A deleting statement is taken back from its words, with or without its `from`. -/
theorem deleteStatement_accepts (spelled : Bool) {word others : List Token} {target : RootRef}
    {filter : Option Predicate} (targeted : IsRoot word target) (filters : IsWhere others filter) :
    Accepts deleteStatement
      (.keyword .delete :: (tokenIf spelled (.keyword .fromKw) ++ (word ++ others))) []
      fun found => found.unplaced = .delete target filter := by
  have ended := (isWhere_stops filters rfl).append (stops_nil rootGoesOn)
  refine .behind (.bind (optional_accepts _ spelled ?_) fun _ _ => ?_)
  · obtain ⟨first, rest, _⟩ := targeted
    simp
  refine .bind (rootRef_takes _ targeted (Nat.lt_succ_self _) ended) ?_
  rintro target rfl
  refine .map (condition_takes (predicate_takes _) filters (Nat.lt_succ_self _) (stops_nil _)) ?_
  rintro filter rfl
  rfl

/-- Every statement that the rules derive is read. -/
theorem statement_complete {lexemes : List Lexeme} {tree : Statement}
    (derived : IsStatement (tokens lexemes) tree) :
    ∃ found, Reads statement lexemes found [] ∧ found.unplaced = tree := by
  have accepted : ∀ {word}, IsStatement word tree →
      Accepts (selectStatement <|> updateStatement <|> deleteStatement) word []
        fun found => found.unplaced = tree := by
    intro word derived
    cases derived with
    | select queried ordered => exact .first (selectStatement_accepts queried ordered)
    | update targeted assigned filters =>
      simp only [List.append_assoc, List.cons_append]
      exact .second (selectStatement_declines (by simp))
        (.first (updateStatement_accepts targeted assigned filters))
    | delete spelled targeted filters =>
      simp only [List.append_assoc, List.cons_append]
      exact .second (selectStatement_declines (by simp)) (.second (.bind (.token (by simp)))
        (deleteStatement_accepts spelled targeted filters))
  obtain ⟨found, taken, viewed⟩ := accepted derived rfl tokens_nil
  rw [List.append_nil] at taken
  have ended : Reads finish [] () [] := reads_finish.mpr ⟨rfl, rfl⟩
  exact ⟨found, taken.bind (ended.bind (.pure _ _)), viewed⟩

end ObjectQuery.Grammar
