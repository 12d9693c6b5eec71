import ObjectQuery.Proofs.Grammar.Readings
import ObjectQuery.Proofs.Grammar.Respelled
/-!
# Reading two texts at once

Two texts whose lexemes differ in their identifiers and their places alone are read in step: where a
reader gives up on one it gives up on the other, and where it reads a value from one it reads from the
other the value that has its names instead. `Mirrors` is this relation between two readers, which are
one and the same but for the values that they have been told. There is one rule for each way to build
a reader.
-/
namespace ObjectQuery

/-- The name that the token is, if it is one. -/
def Token.name? : Token → Option String
  | .identifier name => some name
  | _ => none

namespace Lexeme

/-- The identifiers of the lexemes. -/
def names (lexemes : List Lexeme) : List String := lexemes.filterMap (·.token.name?)

/-- Two lists of lexemes hold the names of both. -/
theorem names_append (first second : List Lexeme) : names (first ++ second) = names first ++ names second :=
  List.filterMap_append

/-- The second lexeme is where the first one is moved to, and is the same token if that is no
identifier. The first has no dot in its name. -/
structure Answers (shift : Nat → Nat) (lexeme other : Lexeme) : Prop where
  span : other.span = lexeme.span.moved shift
  token : other.token = lexeme.token ∧ lexeme.token.name? = none ∨
    ∃ name given, lexeme.token = .identifier name ∧ '.' ∉ name.toList ∧ other.token = .identifier given

end Lexeme

namespace Grammar.Reader

open Lexeme

variable {α β : Type} {shift : Nat → Nat}

/-- The lexemes answer each other. -/
abbrev Parallel (shift : Nat → Nat) : List Lexeme → List Lexeme → Prop := List.Forall₂ (Answers shift)

/-- Both readers give up on their inputs, or both read values and leave lexemes that answer each
other. The second value is told by the first and the names that were read for it. -/
inductive Mirrored (shift : Nat → Nat) (first second : Reader α) (tells : List String → α → α → Prop)
    (input other : List Lexeme) : Prop
  | refused (refused : Refuses first input) (refusedToo : Refuses second other)
  | read {used answer rest left : List Lexeme} {value given : α} (parallel : Parallel shift used answer)
    (further : Parallel shift rest left) (split : input = used ++ rest) (splitToo : other = answer ++ left)
    (taken : Reads first input value rest) (takenToo : Reads second other given left)
    (told : tells (names answer) value given)

/-- The readers go in step on any lexemes that answer each other. -/
def Mirrors (shift : Nat → Nat) (first second : Reader α) (tells : List String → α → α → Prop) : Prop :=
  ∀ ⦃input other⦄, Parallel shift input other → Mirrored shift first second tells input other

/-- The values are the same, and no name is told. -/
def Unnamed (names : List String) (value given : α) : Prop := names = [] ∧ given = value

/-- Values that are there are told by the names, and without names none is there. -/
inductive Perhaps (tells : List String → α → α → Prop) : List String → Option α → Option α → Prop
  | none : Perhaps tells [] none none
  | some {names : List String} {value given : α} (told : tells names value given) :
    Perhaps tells names (some value) (some given)

/-- The names tell the values one after the other. -/
inductive Each (tells : List String → α → α → Prop) : List String → List α → List α → Prop
  | nil : Each tells [] [] []
  | cons {first others : List String} {value given : α} {values answers : List α}
    (told : tells first value given) (further : Each tells others values answers) :
    Each tells (first ++ others) (value :: values) (given :: answers)

namespace Mirrors

variable {first second : Reader α} {tells : List String → α → α → Prop}

/-- A value is read alike from nothing. -/
theorem pure {value given : α} (told : tells [] value given) :
    Mirrors shift (Pure.pure value) (Pure.pure given) tells :=
  fun _ _ parallel => .read .nil parallel rfl rfl (.pure _ _) (.pure _ _) told

/-- Less may be told of what is read. -/
theorem weaken {weaker : List String → α → α → Prop} (mirrors : Mirrors shift first second tells)
    (enough : ∀ names value given, tells names value given → weaker names value given) :
    Mirrors shift first second weaker := by
  intro input other parallel
  cases mirrors parallel with
  | refused refused refusedToo => exact .refused refused refusedToo
  | read used rest split splitToo taken takenToo told =>
    exact .read used rest split splitToo taken takenToo (enough _ _ _ told)

/-- Readers in a row read alike if each of them does. -/
theorem bind {next nextToo : α → Reader β} {result : List String → β → β → Prop}
    (mirrors : Mirrors shift first second tells)
    (later : ∀ value given names, tells names value given →
      Mirrors shift (next value) (nextToo given) fun more => result (names ++ more)) :
    Mirrors shift (first >>= next) (second >>= nextToo) result := by
  intro input other parallel
  cases mirrors parallel with
  | refused refused refusedToo => exact .refused (.bind refused) (.bind refusedToo)
  | @read used answer rest left value given parallelUsed parallelRest split splitToo taken takenToo told =>
    subst split splitToo
    cases later value given _ told parallelRest with
    | refused refused refusedToo => exact .refused (.later taken refused) (.later takenToo refusedToo)
    | read parallelMore further split splitToo takenMore takenMoreToo toldMore =>
      subst split splitToo
      rw [← names_append] at toldMore
      exact .read (List.rel_append parallelUsed parallelMore) further (List.append_assoc _ _ _).symm
        (List.append_assoc _ _ _).symm (.bind taken takenMore) (.bind takenToo takenMoreToo) toldMore

/-- What is read alike may be changed alike. -/
theorem map {change changeToo : α → β} {result : List String → β → β → Prop}
    (mirrors : Mirrors shift first second tells)
    (enough : ∀ value given names, tells names value given →
      result names (change value) (changeToo given)) :
    Mirrors shift (do let value ← first; Pure.pure (change value))
      (do let value ← second; Pure.pure (changeToo value)) result := by
  refine .bind mirrors fun value given names told => .pure ?_
  rw [List.append_nil]
  exact enough value given names told

/-- Two alternatives read alike if both do. -/
theorem orElse {other otherToo : Reader α} (mirrors : Mirrors shift first second tells)
    (mirrorsOther : Mirrors shift other otherToo tells) :
    Mirrors shift (first <|> other) (second <|> otherToo) tells := by
  intro input inputToo parallel
  cases mirrors parallel with
  | read used rest split splitToo taken takenToo told =>
    exact .read used rest split splitToo (.first taken) (.first takenToo) told
  | refused refused refusedToo =>
    cases mirrorsOther parallel with
    | refused refusedOther refusedOtherToo =>
      exact .refused (.orElse refused refusedOther) (.orElse refusedToo refusedOtherToo)
    | read used rest split splitToo taken takenToo told =>
      exact .read used rest split splitToo (.second refused taken) (.second refusedToo takenToo) told

/-- A reader that takes no name reads alike. -/
theorem item {accept : Token → Option α} (nameless : ∀ name, accept (.identifier name) = none) :
    Mirrors shift (Reader.item accept) (Reader.item accept) Unnamed := by
  intro input other parallel
  cases parallel with
  | nil => exact .refused (refuses_item.mpr (by simp)) (refuses_item.mpr (by simp))
  | @cons lexeme answer rest left answers further =>
    rcases answers.token with ⟨same, unnamed⟩ | ⟨name, given, named, _, namedToo⟩
    · cases accepted : accept lexeme.token with
      | none =>
        refine .refused (refuses_item.mpr ?_) (refuses_item.mpr ?_)
        · simpa using accepted
        · simpa [same] using accepted
      | some value =>
        refine .read (.cons answers .nil) further rfl rfl (reads_item.mpr ⟨lexeme, rfl, accepted⟩)
          (reads_item.mpr ⟨answer, rfl, same ▸ accepted⟩) ⟨?_, rfl⟩
        simp [names, same, unnamed]
    · refine .refused (refuses_item.mpr ?_) (refuses_item.mpr ?_)
      · simpa [named] using nameless name
      · simpa [namedToo] using nameless given

/-- A token that is no name is read alike. -/
theorem token {wanted : Token} (nameless : wanted.name? = none) :
    Mirrors shift (Reader.token wanted) (Reader.token wanted) Unnamed := by
  refine item fun name => ?_
  rw [if_neg]
  rintro rfl
  cases nameless

/-- Where an identifier is read, another one answers. -/
theorem identifier : Mirrors shift Reader.identifier Reader.identifier fun names value given =>
    names = [given] ∧ '.' ∉ value.toList := by
  have plain : ∀ token : Token, token.name? = none → ∀ name, token ≠ .identifier name := by
    rintro _ nameless name rfl
    cases nameless
  intro input other parallel
  cases parallel with
  | nil => exact .refused (refuses_item.mpr (by simp)) (refuses_item.mpr (by simp))
  | @cons lexeme answer rest left answers further =>
    rcases answers.token with ⟨same, unnamed⟩ | ⟨name, given, named, dotless, namedToo⟩
    · have refuses : ∀ {lexeme : Lexeme} {rest : List Lexeme}, lexeme.token.name? = none →
          Refuses Reader.identifier (lexeme :: rest) := by
        intro lexeme rest unnamed
        refine refuses_iff.mpr fun name others taken => ?_
        obtain ⟨found, split, named⟩ := reads_identifier.mp taken
        obtain ⟨rfl, _⟩ := List.cons.inj split
        exact plain _ unnamed name named
      exact .refused (refuses unnamed) (refuses (same ▸ unnamed))
    · refine .read (.cons answers .nil) further rfl rfl (reads_identifier.mpr ⟨lexeme, rfl, named⟩)
        (reads_identifier.mpr ⟨answer, rfl, namedToo⟩) ⟨?_, dotless⟩
      simp [names, namedToo, Token.name?]

/-- What may be left out is read alike. -/
theorem optional (mirrors : Mirrors shift first second tells) :
    Mirrors shift (Reader.optional first) (Reader.optional second) (Perhaps tells) :=
  .orElse (.map mirrors fun _ _ _ told => .some told) (.pure .none)

/-- A keyword that may stand is read alike. -/
theorem flag (word : Keyword) : Mirrors shift (Reader.flag word) (Reader.flag word) Unnamed := by
  refine .map (.optional (.token rfl)) fun value given names told => ?_
  cases told with
  | none => exact ⟨rfl, rfl⟩
  | some told => exact ⟨told.1, rfl⟩

/-- As many as the fuel allows are read alike. -/
theorem manyWithin (mirrors : Mirrors shift first second tells) : ∀ fuel,
    Mirrors shift (Reader.manyWithin first fuel) (Reader.manyWithin second fuel) (Each tells)
  | 0 => .pure .nil
  | fuel + 1 => by
    unfold Reader.manyWithin
    refine .orElse (.bind mirrors fun value given names told => ?_) (.pure .nil)
    exact .map (manyWithin mirrors fuel) fun values answers others further => .cons told further

/-- As many as there are are read alike. -/
theorem many (mirrors : Mirrors shift first second tells) :
    Mirrors shift (Reader.many first) (Reader.many second) (Each tells) := by
  intro input other parallel
  have read := manyWithin mirrors input.length parallel
  unfold Reader.many
  cases read with
  | refused refused refusedToo =>
    refine .refused refused ?_
    rwa [parallel.length_eq] at refusedToo
  | read used rest split splitToo taken takenToo told =>
    refine .read used rest split splitToo taken ?_ told
    rwa [parallel.length_eq] at takenToo

/-- The lexemes behind a token that is no name. -/
theorem behind {opening : Token} (nameless : opening.name? = none)
    (mirrors : Mirrors shift first second tells) :
    Mirrors shift (do Reader.token opening; first) (do Reader.token opening; second) tells := by
  refine .bind (.token nameless) fun _ _ names told => ?_
  obtain ⟨rfl, _⟩ := told
  exact mirrors

/-- What stands between marks is read alike. -/
theorem between (opening closing : Mark) (mirrors : Mirrors shift first second tells) :
    Mirrors shift (Reader.between opening closing first) (Reader.between opening closing second) tells := by
  refine .behind rfl (.bind mirrors fun value given names told => ?_)
  refine .map (.token rfl) fun _ _ more ending => ?_
  rw [ending.1, List.append_nil]
  exact told

/-- A list with commas is read alike. -/
theorem commaSeparated (mirrors : Mirrors shift first second tells) :
    Mirrors shift (Reader.commaSeparated first) (Reader.commaSeparated second) (Each tells) :=
  .bind mirrors fun _ _ _ told => .map (.many (.behind rfl mirrors)) fun _ _ _ further => .cons told further

/-- Without lexemes the place is the beginning of the text, which stays. -/
theorem spanOf_moved (origin : shift 0 = 0) {used answer : List Lexeme}
    (parallel : Parallel shift used answer) : spanOf answer = (spanOf used).moved shift := by
  have head : ∀ {used answer : List Lexeme} (edge : Span → Nat),
      (∀ span : Span, edge (span.moved shift) = shift (edge span)) → Parallel shift used answer →
        (answer.head?.map fun lexeme => edge lexeme.span).getD 0 =
          shift ((used.head?.map fun lexeme => edge lexeme.span).getD 0) := by
    intro used answer edge moved parallel
    cases parallel with
    | nil => exact origin.symm
    | cons answers _ => exact (congrArg edge answers.span).trans (moved _)
  have start := head Span.start (fun _ => rfl) parallel
  have stop := head Span.stop (fun _ => rfl) (List.rel_reverse parallel)
  rw [List.head?_reverse, List.head?_reverse] at stop
  rw [spanOf, spanOf, start, stop]
  rfl

/-- What is read with its place is read alike at the moved place. -/
theorem spanned (origin : shift 0 = 0) (mirrors : Mirrors shift first second tells) :
    Mirrors shift (Reader.spanned first) (Reader.spanned second) fun names found given =>
      tells names found.1 given.1 ∧ given.2 = found.2.moved shift := by
  intro input other parallel
  cases mirrors parallel with
  | refused refused refusedToo =>
    exact .refused (refuses_spanned.mpr refused) (refuses_spanned.mpr refusedToo)
  | read used rest split splitToo taken takenToo told =>
    refine .read used rest split splitToo taken.spanned takenToo.spanned ⟨told, ?_⟩
    rw [split, splitToo, spanBefore_append, spanBefore_append, spanOf_moved origin used]

/-- The value is put together with its place. -/
theorem placed {change : α × Span → β} {result : List String → β → β → Prop} (origin : shift 0 = 0)
    (mirrors : Mirrors shift first second fun names value given =>
      ∀ span : Span, result names (change (value, span)) (change (given, span.moved shift))) :
    Mirrors shift (do let found ← Reader.spanned first; Pure.pure (change found))
      (do let found ← Reader.spanned second; Pure.pure (change found)) result := by
  refine .map (.spanned origin mirrors) ?_
  rintro ⟨value, span⟩ ⟨given, _⟩ names ⟨told, rfl⟩
  exact told span

/-- A reader that nests reads alike at every depth. -/
theorem nested {body : Reader α → Reader α}
    (mirrors : ∀ inner, Mirrors shift inner inner tells → Mirrors shift (body inner) (body inner) tells) :
    Mirrors shift (Reader.nested body) (Reader.nested body) tells := by
  have within : ∀ depth,
      Mirrors shift (nestedWithin body depth) (nestedWithin body depth) tells := by
    intro depth
    induction depth with
    | zero => exact fun _ _ _ => .refused rfl rfl
    | succ depth inductionHypothesis => exact mirrors _ inductionHypothesis
  intro input other parallel
  have read := within (input.length + 1) parallel
  cases read with
  | refused refused refusedToo =>
    refine .refused refused ?_
    rwa [parallel.length_eq] at refusedToo
  | read used rest split splitToo taken takenToo told =>
    refine .read used rest split splitToo taken ?_ told
    rwa [parallel.length_eq] at takenToo

end Mirrors

end Grammar.Reader
end ObjectQuery
