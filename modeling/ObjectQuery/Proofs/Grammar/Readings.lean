import Mathlib.Data.List.Basic
import ObjectQuery.Grammar.Reader
/-!
# What readers read

What a reader reads and whether it gives up, without the record of stops, which never influences
either. There is one equivalence for each way to build a reader. `Gives` says what every successful
reading of a reader has in common, as a relation between the lexemes read and the value, and has one
rule for each way to build a reader.
-/
namespace ObjectQuery.Grammar.Reader

variable {α β : Type}

/-- The reader reads the value from the front of the input and leaves the rest. -/
def Reads (reader : Reader α) (input : List Lexeme) (value : α) (rest : List Lexeme) : Prop :=
  (reader input).value? = some (value, rest)

/-- The reader gives up on the input. -/
def Refuses (reader : Reader α) (input : List Lexeme) : Prop := (reader input).value? = none

/-- A reader gives one value and one rest at most. -/
theorem reads_unique {reader : Reader α} {input rest rest' : List Lexeme} {value value' : α}
    (first : Reads reader input value rest) (second : Reads reader input value' rest') :
    value' = value ∧ rest' = rest := by
  unfold Reads at first second
  rw [first, Option.some.injEq, Prod.mk.injEq] at second
  exact ⟨second.1.symm, second.2.symm⟩

/-- A reader refuses its input exactly if it reads nothing from it. -/
theorem refuses_iff {reader : Reader α} {input : List Lexeme} :
    Refuses reader input ↔ ∀ value rest, ¬ Reads reader input value rest := by
  unfold Refuses Reads
  rw [Option.eq_none_iff_forall_not_mem]
  exact ⟨fun none value rest => none (value, rest), fun none result => none result.1 result.2⟩

section Steps

variable {input rest : List Lexeme}

/-- A value is given without reading anything. -/
theorem reads_pure {value result : α} :
    Reads (pure value) input result rest ↔ result = value ∧ rest = input := by
  change some (value, input) = some (result, rest) ↔ _
  rw [Option.some.injEq, Prod.mk.injEq]
  exact and_congr eq_comm eq_comm

/-- Giving a value never fails. -/
theorem not_refuses_pure {value : α} : ¬ Refuses (pure value) input := by
  intro refused
  cases refused

/-- Two readers in a row read what the second reads behind the first. -/
theorem reads_bind {reader : Reader α} {next : α → Reader β} {value : β} :
    Reads (reader >>= next) input value rest ↔
      ∃ middle between, Reads reader input middle between ∧ Reads (next middle) between value rest := by
  change (andThen reader next input).value? = _ ↔ _
  unfold andThen Reads
  rcases reader input with ⟨_ | ⟨middle, between⟩, stop⟩ <;> simp

/-- Two readers in a row fail if the first one does, or the second one behind it. -/
theorem refuses_bind {reader : Reader α} {next : α → Reader β} :
    Refuses (reader >>= next) input ↔ Refuses reader input ∨
      ∃ middle between, Reads reader input middle between ∧ Refuses (next middle) between := by
  change (andThen reader next input).value? = _ ↔ _
  unfold andThen Reads Refuses
  rcases reader input with ⟨_ | ⟨middle, between⟩, stop⟩ <;> simp

/-- The second reader is tried where the first one refuses. -/
theorem reads_orElse {first second : Reader α} {value : α} :
    Reads (first <|> second) input value rest ↔
      Reads first input value rest ∨ Refuses first input ∧ Reads second input value rest := by
  change (orElse first second input).value? = _ ↔ _
  unfold orElse Reads Refuses
  rcases first input with ⟨_ | found, stop⟩ <;> simp

/-- Both readers have to refuse the input. -/
theorem refuses_orElse {first second : Reader α} :
    Refuses (first <|> second) input ↔ Refuses first input ∧ Refuses second input := by
  change (orElse first second input).value? = _ ↔ _
  unfold orElse Refuses
  rcases first input with ⟨_ | found, stop⟩ <;> simp

/-- A lexeme is read if it stands first and is accepted. -/
theorem reads_item {accept : Token → Option α} {value : α} :
    Reads (item accept) input value rest ↔
      ∃ lexeme, input = lexeme :: rest ∧ accept lexeme.token = some value := by
  unfold Reads item
  cases input with
  | nil => simp
  | cons lexeme others =>
    cases accepted : accept lexeme.token with
    | none =>
      simp only [accepted, reduceCtorEq, List.cons.injEq, false_iff, not_exists]
      rintro other ⟨⟨rfl, rfl⟩, found⟩
      rw [accepted] at found
      cases found
    | some found =>
      simp only [accepted, Option.some.injEq, Prod.mk.injEq, List.cons.injEq]
      constructor
      · rintro ⟨rfl, rfl⟩
        exact ⟨lexeme, ⟨rfl, rfl⟩, accepted⟩
      · rintro ⟨other, ⟨rfl, rfl⟩, same⟩
        rw [accepted] at same
        exact ⟨Option.some.inj same, rfl⟩

/-- A lexeme is refused if none stands first or the first one is not accepted. -/
theorem refuses_item {accept : Token → Option α} :
    Refuses (item accept) input ↔ ∀ lexeme ∈ input.head?, accept lexeme.token = none := by
  unfold Refuses item
  cases input with
  | nil => simp
  | cons lexeme others =>
    cases accepted : accept lexeme.token <;> simp [accepted]

/-- A given token is read if it stands first. -/
theorem reads_token {wanted : Token} {value : Unit} :
    Reads (token wanted) input value rest ↔
      ∃ lexeme, input = lexeme :: rest ∧ lexeme.token = wanted := by
  unfold token
  rw [reads_item]
  simp

/-- A given token is refused if it does not stand first. -/
theorem refuses_token {wanted : Token} :
    Refuses (token wanted) input ↔ ∀ lexeme ∈ input.head?, lexeme.token ≠ wanted := by
  unfold token
  rw [refuses_item]
  simp

/-- An identifier is read if one stands first. -/
theorem reads_identifier {name : String} :
    Reads identifier input name rest ↔
      ∃ lexeme, input = lexeme :: rest ∧ lexeme.token = .identifier name := by
  unfold identifier
  rw [reads_item]
  constructor
  · rintro ⟨lexeme, rfl, named⟩
    refine ⟨lexeme, rfl, ?_⟩
    split at named
    · rename_i same
      rw [same, Option.some.inj named]
    · cases named
  · rintro ⟨lexeme, rfl, named⟩
    exact ⟨lexeme, rfl, by rw [named]⟩

/-- The end is read where nothing is left. -/
theorem reads_finish {value : Unit} :
    Reads finish input value rest ↔ input = [] ∧ rest = [] := by
  unfold Reads finish
  cases input with
  | nil => simp [eq_comm]
  | cons lexeme others => simp

/-- What may be left out is read where it is, and is none where it is refused. -/
theorem reads_optional {reader : Reader α} {value : Option α} :
    Reads (optional reader) input value rest ↔
      (∃ found, value = some found ∧ Reads reader input found rest) ∨
        Refuses reader input ∧ value = none ∧ rest = input := by
  unfold optional
  rw [reads_orElse, reads_bind, refuses_bind]
  change _ ∨ _ ∧ Reads (pure none) input value rest ↔ _
  simp only [reads_pure, not_refuses_pure, and_false, exists_false, or_false]
  constructor
  · rintro (⟨found, _, taken, rfl, rfl⟩ | absent)
    · exact .inl ⟨found, rfl, taken⟩
    · exact .inr absent
  · rintro (⟨found, rfl, taken⟩ | absent)
    · exact .inl ⟨found, rest, taken, rfl, rfl⟩
    · exact .inr absent

/-- A keyword that may be left out is read as whether it stands first. -/
theorem reads_flag {word : Keyword} {value : Bool} :
    Reads (flag word) input value rest ↔
      (value = true ∧ ∃ lexeme, input = lexeme :: rest ∧ lexeme.token = .keyword word) ∨
        (value = false ∧ (∀ lexeme ∈ input.head?, lexeme.token ≠ .keyword word) ∧ rest = input) := by
  unfold flag keyword
  simp only [reads_bind, reads_optional, reads_pure, reads_token, refuses_token]
  constructor
  · rintro ⟨_, _, ⟨found, rfl, lexeme, rfl, named⟩ | ⟨refused, rfl, rfl⟩, rfl, rfl⟩
    · exact .inl ⟨rfl, lexeme, rfl, named⟩
    · exact .inr ⟨rfl, refused, rfl⟩
  · rintro (⟨rfl, lexeme, rfl, named⟩ | ⟨rfl, refused, rfl⟩)
    · exact ⟨some (), rest, .inl ⟨(), rfl, lexeme, rfl, named⟩, rfl, rfl⟩
    · exact ⟨none, _, .inr ⟨refused, rfl, rfl⟩, rfl, rfl⟩

/-- The place of what is read reaches from the start of the input to the rest. -/
theorem reads_spanned {reader : Reader α} {value : α} {span : Span} :
    Reads (spanned reader) input (value, span) rest ↔
      Reads reader input value rest ∧ span = spanBefore input rest := by
  unfold Reads spanned
  rcases reader input with ⟨_ | ⟨found, left⟩, stop⟩
  · simp
  · simp only [Option.some.injEq, Prod.mk.injEq]
    constructor
    · rintro ⟨⟨rfl, rfl⟩, rfl⟩
      exact ⟨⟨rfl, rfl⟩, rfl⟩
    · rintro ⟨⟨rfl, rfl⟩, rfl⟩
      exact ⟨⟨rfl, rfl⟩, rfl⟩

/-- Keeping the place of what is read refuses nothing more. -/
theorem refuses_spanned {reader : Reader α} :
    Refuses (spanned reader) input ↔ Refuses reader input := by
  unfold Refuses spanned
  rcases reader input with ⟨_ | found, stop⟩ <;> simp

end Steps

/-! ## Building readings -/

section Building

variable {input rest : List Lexeme}

/-- A value is given without reading anything. -/
theorem Reads.pure (value : α) (input : List Lexeme) : Reads (Pure.pure value) input value input :=
  reads_pure.mpr ⟨rfl, rfl⟩

/-- What two readers read in a row. -/
theorem Reads.bind {reader : Reader α} {next : α → Reader β} {middle : α} {between : List Lexeme}
    {value : β} (first : Reads reader input middle between)
    (second : Reads (next middle) between value rest) : Reads (reader >>= next) input value rest :=
  reads_bind.mpr ⟨middle, between, first, second⟩

/-- What is read together with its place. -/
theorem Reads.spanned {reader : Reader α} {value : α} (taken : Reads reader input value rest) :
    Reads (spanned reader) input (value, spanBefore input rest) rest :=
  reads_spanned.mpr ⟨taken, rfl⟩

/-- The first of two readers reads. -/
theorem Reads.first {reader other : Reader α} {value : α} (taken : Reads reader input value rest) :
    Reads (reader <|> other) input value rest :=
  reads_orElse.mpr (.inl taken)

/-- The second of two readers reads what the first one refuses. -/
theorem Reads.second {reader other : Reader α} {value : α} (refused : Refuses reader input)
    (taken : Reads other input value rest) : Reads (reader <|> other) input value rest :=
  reads_orElse.mpr (.inr ⟨refused, taken⟩)

/-- The wanted token stands first. -/
theorem Reads.token {lexeme : Lexeme} {wanted : Token} (named : lexeme.token = wanted) :
    Reads (token wanted) (lexeme :: rest) () rest :=
  reads_token.mpr ⟨lexeme, rfl, named⟩

/-- What may be left out is there. -/
theorem Reads.there {reader : Reader α} {value : α} (taken : Reads reader input value rest) :
    Reads (optional reader) input (some value) rest :=
  reads_optional.mpr (.inl ⟨value, rfl, taken⟩)

/-- What may be left out is not there. -/
theorem Reads.absent {reader : Reader α} (refused : Refuses reader input) :
    Reads (optional reader) input none input :=
  reads_optional.mpr (.inr ⟨refused, rfl, rfl⟩)

/-- A refusal of the first of two readers in a row. -/
theorem Refuses.bind {reader : Reader α} {next : α → Reader β} (refused : Refuses reader input) :
    Refuses (reader >>= next) input :=
  refuses_bind.mpr (.inl refused)

/-- A refusal of the second of two readers in a row. -/
theorem Refuses.later {reader : Reader α} {next : α → Reader β} {middle : α}
    {between : List Lexeme} (taken : Reads reader input middle between)
    (refused : Refuses (next middle) between) : Refuses (reader >>= next) input :=
  refuses_bind.mpr (.inr ⟨middle, between, taken, refused⟩)

/-- A refusal of both of two readers. -/
theorem Refuses.orElse {reader other : Reader α} (refused : Refuses reader input)
    (refusedOther : Refuses other input) : Refuses (reader <|> other) input :=
  refuses_orElse.mpr ⟨refused, refusedOther⟩

end Building

/-! ## Repetition -/

/-- The reader reads the values one after the other, each from at least one lexeme, and then gives
up. -/
inductive ReadsAll (reader : Reader α) : List Lexeme → List α → List Lexeme → Prop
  | nil {input : List Lexeme} (refused : Refuses reader input) : ReadsAll reader input [] input
  | cons {input middle rest : List Lexeme} {value : α} {values : List α}
    (first : Reads reader input value middle) (shorter : middle.length < input.length)
    (others : ReadsAll reader middle values rest) : ReadsAll reader input (value :: values) rest

/-- Enough rounds read the whole repetition. -/
theorem reads_manyWithin {reader : Reader α} :
    ∀ {fuel : Nat} {input rest : List Lexeme} {values : List α}, input.length ≤ fuel →
      ReadsAll reader input values rest → Reads (manyWithin reader fuel) input values rest
  | 0, input, rest, values, enough, all => by
    cases all with
    | nil refused => exact reads_pure.mpr ⟨rfl, rfl⟩
    | cons first shorter others => omega
  | fuel + 1, input, rest, values, enough, all => by
    unfold manyWithin
    rw [reads_orElse]
    cases all with
    | nil refused => exact .inr ⟨refuses_bind.mpr (.inl refused), reads_pure.mpr ⟨rfl, rfl⟩⟩
    | @cons _ middle _ _ _ first shorter others =>
      have bound : middle.length ≤ fuel := by omega
      have remaining := reads_manyWithin bound others
      exact .inl (reads_bind.mpr ⟨_, _, first, reads_bind.mpr ⟨_, _, remaining,
        reads_pure.mpr ⟨rfl, rfl⟩⟩⟩)

/-- A repetition reads on until its reader refuses. -/
theorem reads_many {reader : Reader α} {input rest : List Lexeme} {values : List α}
    (all : ReadsAll reader input values rest) : Reads (many reader) input values rest :=
  reads_manyWithin (Nat.le_refl _) all

/-! ## What readings have in common -/

/-- The tokens of lexemes. -/
def tokens (lexemes : List Lexeme) : List Token := lexemes.map (·.token)

/-- Without lexemes there are no tokens. -/
@[simp] theorem tokens_nil : tokens [] = [] := rfl

/-- The first lexeme has the first token. -/
@[simp] theorem tokens_cons (lexeme : Lexeme) (rest : List Lexeme) :
    tokens (lexeme :: rest) = lexeme.token :: tokens rest := rfl

/-- The tokens of two texts in a row. -/
@[simp] theorem tokens_append (first second : List Lexeme) :
    tokens (first ++ second) = tokens first ++ tokens second := List.map_append

/-- A first token is that of a first lexeme. -/
theorem tokens_eq_cons {lexemes : List Lexeme} {token : Token} {others : List Token} :
    tokens lexemes = token :: others ↔
      ∃ lexeme rest, lexemes = lexeme :: rest ∧ lexeme.token = token ∧ tokens rest = others :=
  List.map_eq_cons_iff

/-- Tokens are divided where lexemes are. -/
theorem tokens_eq_append {lexemes : List Lexeme} {first second : List Token} :
    tokens lexemes = first ++ second ↔
      ∃ before behind, lexemes = before ++ behind ∧ tokens before = first ∧ tokens behind = second :=
  List.map_eq_append_iff

/-- Every reading takes lexemes from the front of the input that tell the value. -/
def Gives (reader : Reader α) (tells : List Lexeme → α → Prop) : Prop :=
  ∀ ⦃input value rest⦄, Reads reader input value rest → ∃ used, input = used ++ rest ∧ tells used value

/-- The span from the first to the last of the lexemes. -/
def spanOf (used : List Lexeme) : Span :=
  ⟨(used.head?.map (·.span.start)).getD 0, (used.getLast?.map (·.span.stop)).getD 0⟩

/-- What stands in front of a rest has the span of its lexemes. -/
theorem spanBefore_append (used rest : List Lexeme) : spanBefore (used ++ rest) rest = spanOf used := by
  simp [spanBefore, spanOf]

/-- What is there tells the value, or nothing is there. -/
def Optionally (tells : List Lexeme → α → Prop) : List Lexeme → Option α → Prop
  | used, none => used = []
  | used, some value => tells used value

/-- The token comes first, and what is behind it tells the value. -/
def Behind (opening : Token) (tells : List Lexeme → α → Prop) (used : List Lexeme) (value : α) :
    Prop :=
  ∃ inside, tells inside value ∧ tokens used = opening :: tokens inside

/-- The lexemes tell the values one after the other. -/
def Successively (tells : List Lexeme → α → Prop) : List Lexeme → List α → Prop
  | used, [] => used = []
  | used, value :: values => ∃ first others, used = first ++ others ∧ tells first value ∧
      Successively tells others values

namespace Gives

variable {reader : Reader α} {tells : List Lexeme → α → Prop}

/-- What is given without reading has to be told of no lexemes. -/
theorem pure {value : α} (empty : tells [] value) : Gives (Pure.pure value) tells := by
  intro input result rest taken
  obtain ⟨rfl, rfl⟩ := reads_pure.mp taken
  exact ⟨[], rfl, empty⟩

/-- What is told may say less. -/
theorem weaken {weaker : List Lexeme → α → Prop} (gives : Gives reader tells)
    (enough : ∀ used value, tells used value → weaker used value) : Gives reader weaker := by
  intro input value rest taken
  obtain ⟨used, split, told⟩ := gives taken
  exact ⟨used, split, enough used value told⟩

/-- The lexemes that are taken are the same however they are described. -/
theorem and {other : List Lexeme → α → Prop} (gives : Gives reader tells)
    (givesToo : Gives reader other) :
    Gives reader fun used value => tells used value ∧ other used value := by
  intro input value rest taken
  obtain ⟨used, rfl, told⟩ := gives taken
  obtain ⟨same, split, toldToo⟩ := givesToo taken
  obtain rfl := List.append_cancel_right split
  exact ⟨used, rfl, told, toldToo⟩

/-- What comes later is told by the lexemes of both. -/
theorem bind {next : α → Reader β} {result : List Lexeme → β → Prop} (gives : Gives reader tells)
    (later : ∀ value used, tells used value →
      Gives (next value) fun further => result (used ++ further)) :
    Gives (reader >>= next) result := by
  intro input value rest taken
  obtain ⟨middle, between, first, second⟩ := reads_bind.mp taken
  obtain ⟨used, rfl, told⟩ := gives first
  obtain ⟨further, rfl, concluded⟩ := later middle used told second
  exact ⟨used ++ further, by rw [List.append_assoc], concluded⟩

/-- The last step computes from what has been read. -/
theorem map {change : α → β} {result : List Lexeme → β → Prop} (gives : Gives reader tells)
    (enough : ∀ used value, tells used value → result used (change value)) :
    Gives (do let value ← reader; Pure.pure (change value)) result := by
  refine bind gives fun value used told => pure ?_
  rw [List.append_nil]
  exact enough used value told

/-- If both readers tell something, the first that reads does. -/
theorem orElse {first second : Reader α} (gives : Gives first tells) (other : Gives second tells) :
    Gives (first <|> second) tells := by
  intro input value rest taken
  rcases reads_orElse.mp taken with taken | ⟨_, taken⟩
  · exact gives taken
  · exact other taken

/-- If two readers tell different things, one of them is told. -/
theorem either {first second : Reader α} {other : List Lexeme → α → Prop}
    (gives : Gives first tells) (givesOther : Gives second other) :
    Gives (first <|> second) fun used value => tells used value ∨ other used value :=
  orElse (gives.weaken fun _ _ => .inl) (givesOther.weaken fun _ _ => .inr)

/-- A lexeme that is accepted is told of its one token. -/
theorem item (accept : Token → Option α) :
    Gives (item accept) fun used value =>
      ∃ token, tokens used = [token] ∧ accept token = some value := by
  intro input value rest taken
  obtain ⟨lexeme, rfl, accepted⟩ := reads_item.mp taken
  exact ⟨[lexeme], rfl, lexeme.token, rfl, accepted⟩

/-- The lexeme of a given token. -/
theorem token (wanted : Token) :
    Gives (token wanted) fun used _ => tokens used = [wanted] := by
  intro input value rest taken
  obtain ⟨lexeme, rfl, rfl⟩ := reads_token.mp taken
  exact ⟨[lexeme], rfl, rfl⟩

/-- What stands behind an opening token. -/
theorem behind (opening : Token) (gives : Gives reader tells) :
    Gives (do Reader.token opening; reader) (Behind opening tells) := by
  refine bind (token opening) fun _ before spelled => gives.weaken fun inside value told => ?_
  exact ⟨inside, told, by simp [spelled]⟩

/-- The lexeme of an identifier. -/
theorem identifier :
    Gives identifier fun used name => tokens used = [.identifier name] := by
  intro input value rest taken
  obtain ⟨lexeme, rfl, named⟩ := reads_identifier.mp taken
  exact ⟨[lexeme], rfl, by simp [named]⟩

/-- What may be left out is told of, or nothing was read. -/
theorem optional (gives : Gives reader tells) : Gives (optional reader) (Optionally tells) := by
  intro input value rest taken
  rcases reads_optional.mp taken with ⟨found, rfl, inside⟩ | ⟨_, rfl, rfl⟩
  · exact gives inside
  · exact ⟨[], rfl, rfl⟩

/-- The keyword was read if it was found. -/
theorem flag (word : Keyword) :
    Gives (flag word) fun used found =>
      tokens used = if found then [Token.keyword word] else [] := by
  intro input value rest taken
  rcases reads_flag.mp taken with ⟨rfl, lexeme, rfl, named⟩ | ⟨rfl, _, rfl⟩
  · exact ⟨[lexeme], rfl, by simp [named]⟩
  · exact ⟨[], rfl, rfl⟩

/-- What is told of each item is told of a repetition within some rounds. -/
theorem manyWithin (gives : Gives reader tells) :
    ∀ fuel, Gives (manyWithin reader fuel) (Successively tells)
  | 0 => pure rfl
  | fuel + 1 => by
    unfold Reader.manyWithin
    refine orElse (bind gives fun value used told => ?_) (pure rfl)
    refine map (manyWithin gives fuel) fun others values toldAll => ?_
    exact ⟨used, others, rfl, told, toldAll⟩

/-- What is told of each item is told of a repetition. -/
theorem many (tells : List Lexeme → α → Prop) (gives : Gives reader tells) :
    Gives (many reader) (Successively tells) := by
  intro input values rest taken
  exact manyWithin gives input.length taken

/-- What is told together with its place, which is the span of the lexemes. -/
theorem spanned (tells : List Lexeme → α → Prop) (gives : Gives reader tells) :
    Gives (spanned reader) fun used found => tells used found.1 ∧ found.2 = spanOf used := by
  rintro input ⟨value, span⟩ rest taken
  obtain ⟨inside, rfl⟩ := reads_spanned.mp taken
  obtain ⟨used, rfl, told⟩ := gives inside
  exact ⟨used, rfl, told, spanBefore_append used rest⟩

/-- A nested reader reads what its body reads, if the body does so with any such reader inside. -/
theorem nested {body : Reader α → Reader α}
    (gives : ∀ inner, Gives inner tells → Gives (body inner) tells) : Gives (nested body) tells := by
  have within : ∀ depth, Gives (nestedWithin body depth) tells := by
    intro depth
    induction depth with
    | zero =>
      intro input value rest taken
      cases taken
    | succ depth ih => exact gives _ ih
  intro input value rest taken
  exact within (input.length + 1) taken

end Gives

end ObjectQuery.Grammar.Reader
