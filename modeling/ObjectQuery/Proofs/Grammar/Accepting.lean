import ObjectQuery.Proofs.Grammar.Readings
/-!
# What readers accept

`Accepts` says that a reader reads exactly a word in front of the given rest, whatever lexemes spell
the two; `Declines` that it gives up. Both speak of tokens alone. There is one rule for each way to
build a reader.

Alternatives are ordered and repetitions go as far as they can, so what a reader accepts depends on
what follows: `Stops` says that the first token behind a word does not go on with it.
-/
namespace ObjectQuery.Grammar.Reader

variable {α β γ : Type}

/-- The reader reads exactly the word in front of the rest, and what it reads is as told. -/
def Accepts (reader : Reader α) (word rest : List Token) (tells : α → Prop) : Prop :=
  ∀ ⦃used behind⦄, tokens used = word → tokens behind = rest →
    ∃ value, Reads reader (used ++ behind) value behind ∧ tells value

/-- The reader gives up on the tokens. -/
def Declines (reader : Reader α) (word : List Token) : Prop :=
  ∀ ⦃input⦄, tokens input = word → Refuses reader input

/-- The reader reads values one after the other from the word and gives up on the rest. -/
def AcceptsAll (reader : Reader α) (word rest : List Token) (tells : List α → Prop) : Prop :=
  ∀ ⦃used behind⦄, tokens used = word → tokens behind = rest →
    ∃ values, ReadsAll reader (used ++ behind) values behind ∧ tells values

/-- Any tokens are those of some lexemes. -/
theorem exists_tokens (word : List Token) : ∃ lexemes, tokens lexemes = word :=
  ⟨word.map fun token => ⟨token, "", ⟨0, 0⟩⟩, by simp [tokens, Function.comp_def]⟩

/-- The first token is that of the first lexeme. -/
theorem head?_tokens (lexemes : List Lexeme) :
    (tokens lexemes).head? = lexemes.head?.map (·.token) :=
  List.head?_map

/-! ## Declining -/

namespace Declines

variable {reader : Reader α} {word rest : List Token}

/-- Two readers in a row decline what the first one declines. -/
theorem bind {next : α → Reader β} (declined : Declines reader word) :
    Declines (reader >>= next) word :=
  fun _ spelled => (declined spelled).bind

/-- What both readers decline is declined. -/
theorem orElse {other : Reader α} (declined : Declines reader word)
    (declinedOther : Declines other word) : Declines (reader <|> other) word :=
  fun _ spelled => (declined spelled).orElse (declinedOther spelled)

/-- Keeping the place declines nothing more. -/
theorem spanned (declined : Declines reader word) : Declines (spanned reader) word :=
  fun _ spelled => refuses_spanned.mpr (declined spelled)

/-- A first token that is not accepted is declined. -/
theorem item {accept : Token → Option α} (rejected : ∀ token ∈ word.head?, accept token = none) :
    Declines (item accept) word := by
  rintro input rfl
  rw [refuses_item]
  intro lexeme first
  refine rejected lexeme.token ?_
  rw [head?_tokens]
  exact Option.mem_map_of_mem _ first

/-- Any token but the wanted one is declined. -/
theorem token {wanted : Token} (other : wanted ∉ word.head?) : Declines (token wanted) word := by
  refine item fun found first => if_neg ?_
  rintro rfl
  exact other first

/-- Anything but an identifier is declined. -/
theorem identifier (other : ∀ name, Token.identifier name ∉ word.head?) :
    Declines identifier word := by
  refine item fun found first => ?_
  cases found with
  | identifier name => exact absurd first (other name)
  | _ => rfl

/-- The reader reads the word and what comes later gives up on the rest. -/
theorem later {next : α → Reader β} {tells : α → Prop} (accepted : Accepts reader word rest tells)
    (declined : ∀ value, tells value → Declines (next value) rest) :
    Declines (reader >>= next) (word ++ rest) := by
  intro input spelled
  obtain ⟨used, behind, rfl, first, second⟩ := tokens_eq_append.mp spelled
  obtain ⟨value, taken, told⟩ := accepted first second
  exact .later taken (declined value told second)

/-- The reader reads nothing and what comes later gives up. -/
theorem skip {next : α → Reader β} {tells : α → Prop} (accepted : Accepts reader [] word tells)
    (declined : ∀ value, tells value → Declines (next value) word) :
    Declines (reader >>= next) word :=
  later accepted declined

/-- What the next reader declines behind the wanted token is declined. -/
theorem behind {next : Unit → Reader β} {wanted : Token} (declined : Declines (next ()) rest) :
    Declines (Reader.token wanted >>= next) (wanted :: rest) := by
  intro input spelled
  obtain ⟨lexeme, behind, rfl, named, follows⟩ := tokens_eq_cons.mp spelled
  exact .later (.token named) (declined follows)

/-- The word after the optional part decides. -/
theorem absent {next : Option α → Reader β} (declined : Declines reader word)
    (declinedNext : Declines (next none) word) : Declines (optional reader >>= next) word :=
  fun _ spelled => .later (.absent (declined spelled)) (declinedNext spelled)

end Declines

/-! ## Accepting -/

namespace Accepts

variable {reader : Reader α} {word others rest : List Token} {tells : α → Prop}

/-- What is told may say less. -/
theorem weaken {weaker : α → Prop} (accepted : Accepts reader word rest tells)
    (enough : ∀ value, tells value → weaker value) : Accepts reader word rest weaker := by
  intro used behind spelled follows
  obtain ⟨value, taken, told⟩ := accepted spelled follows
  exact ⟨value, taken, enough value told⟩

/-- Two readers in a row accept a word that is divided between them. -/
theorem bind {next : α → Reader β} {result : β → Prop}
    (first : Accepts reader word (others ++ rest) tells)
    (second : ∀ value, tells value → Accepts (next value) others rest result) :
    Accepts (reader >>= next) (word ++ others) rest result := by
  intro used behind spelled follows
  obtain ⟨before, further, rfl, beginning, ending⟩ := tokens_eq_append.mp spelled
  have remaining : tokens (further ++ behind) = others ++ rest := by
    rw [tokens_append, ending, follows]
  obtain ⟨middle, taken, told⟩ := first beginning remaining
  obtain ⟨value, takenNext, concluded⟩ := second middle told ending follows
  rw [List.append_assoc]
  exact ⟨value, taken.bind takenNext, concluded⟩

/-- The first reader takes one token. -/
theorem step {next : α → Reader β} {result : β → Prop} {token : Token}
    (first : Accepts reader [token] (others ++ rest) tells)
    (second : ∀ value, tells value → Accepts (next value) others rest result) :
    Accepts (reader >>= next) (token :: others) rest result :=
  bind first second

/-- The last step computes from what has been read. -/
theorem map {change : α → β} {result : β → Prop} (accepted : Accepts reader word rest tells)
    (enough : ∀ value, tells value → result (change value)) :
    Accepts (do let value ← reader; Pure.pure (change value)) word rest result := by
  intro used behind spelled follows
  obtain ⟨value, taken, told⟩ := accepted spelled follows
  exact ⟨change value, taken.bind (.pure _ _), enough value told⟩

/-- What the first reader accepts is accepted. -/
theorem first {other : Reader α} (accepted : Accepts reader word rest tells) :
    Accepts (reader <|> other) word rest tells := by
  intro used behind spelled follows
  obtain ⟨value, taken, told⟩ := accepted spelled follows
  exact ⟨value, taken.first, told⟩

/-- What the first reader declines and the second accepts is accepted. -/
theorem second {other : Reader α} (declined : Declines reader (word ++ rest))
    (accepted : Accepts other word rest tells) : Accepts (reader <|> other) word rest tells := by
  intro used behind spelled follows
  obtain ⟨value, taken, told⟩ := accepted spelled follows
  refine ⟨value, .second (declined ?_) taken, told⟩
  rw [tokens_append, spelled, follows]

/-- A token that is accepted gives its value. -/
theorem item {accept : Token → Option α} {token : Token} {value : α}
    (accepted : accept token = some value) :
    Accepts (item accept) [token] rest (· = value) := by
  intro used behind spelled _
  obtain ⟨lexeme, others, rfl, rfl, empty⟩ := tokens_eq_cons.mp spelled
  obtain rfl : others = [] := List.map_eq_nil_iff.mp empty
  exact ⟨value, reads_item.mpr ⟨lexeme, rfl, accepted⟩, rfl⟩

/-- The wanted token is accepted. -/
theorem token (wanted : Token) : Accepts (token wanted) [wanted] rest fun _ => True :=
  (item (if_pos rfl)).weaken fun _ _ => trivial

/-- An identifier gives its name. -/
theorem identifier (name : String) : Accepts identifier [.identifier name] rest (· = name) :=
  item rfl

/-- What the next reader accepts is accepted behind the wanted token. -/
theorem behind {next : Unit → Reader β} {wanted : Token} {result : β → Prop}
    (accepted : Accepts (next ()) word rest result) :
    Accepts (Reader.token wanted >>= next) (wanted :: word) rest result :=
  step (token wanted) fun _ _ => accepted

/-- What may be left out is there. -/
theorem there (accepted : Accepts reader word rest tells) :
    Accepts (optional reader) word rest fun found => ∃ value, found = some value ∧ tells value := by
  intro used behind spelled follows
  obtain ⟨value, taken, told⟩ := accepted spelled follows
  exact ⟨some value, taken.there, value, rfl, told⟩

/-- What may be left out is not there. -/
theorem absent (declined : Declines reader rest) :
    Accepts (optional reader) [] rest (· = none) := by
  intro used behind spelled follows
  obtain rfl : used = [] := List.map_eq_nil_iff.mp spelled
  exact ⟨none, .absent (declined follows), rfl⟩

/-- Keeping the place accepts the same words. -/
theorem spanned (tells : α → Prop) (accepted : Accepts reader word rest tells) :
    Accepts (spanned reader) word rest fun found => tells found.1 := by
  intro used behind spelled follows
  obtain ⟨value, taken, told⟩ := accepted spelled follows
  exact ⟨_, taken.spanned, told⟩

/-- The value is put together with its place, which is not told. -/
theorem placed {change : α × Span → β} {result : β → Prop}
    (accepted : Accepts reader word rest fun value => ∀ span, result (change (value, span))) :
    Accepts (do let found ← Reader.spanned reader; Pure.pure (change found)) word rest result :=
  map (spanned _ accepted) fun found told => told found.2

/-- A repetition accepts the words of its items up to where none begins. -/
theorem many {tells : List α → Prop} (all : AcceptsAll reader word rest tells) :
    Accepts (many reader) word rest tells := by
  intro used behind spelled follows
  obtain ⟨values, taken, told⟩ := all spelled follows
  exact ⟨values, reads_many taken, told⟩

/-- The nesting goes at least as deep as the word is long. -/
theorem nested {body : Reader α → Reader α}
    (accepted : ∀ depth, word.length ≤ depth →
      Accepts (body (nestedWithin body depth)) word rest tells) :
    Accepts (nested body) word rest tells := by
  intro used behind spelled follows
  have long : word.length ≤ (used ++ behind).length := by
    rw [← spelled, tokens, List.length_map, List.length_append]
    omega
  exact accepted _ long spelled follows

end Accepts

/-- A body that declines with as much depth as there are tokens declines. -/
theorem Declines.nested {body : Reader α → Reader α} {word : List Token}
    (declined : Declines (body (nestedWithin body word.length)) word) :
    Declines (nested body) word := by
  rintro input rfl
  have declined := declined rfl
  rw [tokens, List.length_map] at declined
  exact declined

namespace AcceptsAll

variable {reader : Reader α} {word others rest : List Token}

/-- What is told of a repetition may say less. -/
theorem weaken {tells weaker : List α → Prop} (accepted : AcceptsAll reader word rest tells)
    (enough : ∀ values, tells values → weaker values) : AcceptsAll reader word rest weaker := by
  intro used behind spelled follows
  obtain ⟨values, taken, told⟩ := accepted spelled follows
  exact ⟨values, taken, enough values told⟩

/-- A repetition ends where its reader declines. -/
theorem nil (declined : Declines reader rest) : AcceptsAll reader [] rest (· = []) := by
  intro used behind spelled follows
  obtain rfl : used = [] := List.map_eq_nil_iff.mp spelled
  exact ⟨[], .nil (declined follows), rfl⟩

/-- A repetition goes on behind an item that is accepted. -/
theorem cons {tells : α → Prop} {toldAll : List α → Prop}
    (first : Accepts reader word (others ++ rest) tells) (some : word ≠ [])
    (more : AcceptsAll reader others rest toldAll) :
    AcceptsAll reader (word ++ others) rest fun found =>
      ∃ value values, found = value :: values ∧ tells value ∧ toldAll values := by
  intro used behind spelled follows
  obtain ⟨before, further, rfl, beginning, ending⟩ := tokens_eq_append.mp spelled
  have remaining : tokens (further ++ behind) = others ++ rest := by
    rw [tokens_append, ending, follows]
  obtain ⟨value, taken, told⟩ := first beginning remaining
  obtain ⟨values, takenAll, concluded⟩ := more ending follows
  have shorter : (further ++ behind).length < (before ++ (further ++ behind)).length := by
    have taken : before ≠ [] := by
      rintro rfl
      exact some beginning.symm
    have positive := List.length_pos_iff.mpr taken
    simp only [List.length_append]
    omega
  rw [List.append_assoc]
  exact ⟨value :: values, .cons taken shorter takenAll, value, values, rfl, told, concluded⟩

end AcceptsAll

/-! ## What follows -/

/-- The first token, if there is one, does not go on with what comes before. -/
def Stops (goesOn : Token → Bool) (rest : List Token) : Prop :=
  ∀ token ∈ rest.head?, goesOn token = false

/-- The end of the text stops everything. -/
theorem stops_nil (goesOn : Token → Bool) : Stops goesOn [] := by
  simp [Stops]

/-- A token stops what does not go on with it. -/
@[simp] theorem stops_cons {goesOn : Token → Bool} {token : Token} {rest : List Token} :
    Stops goesOn (token :: rest) ↔ goesOn token = false := by
  simp [Stops]

/-- What stops more stops less. -/
theorem Stops.mono {goesOn more : Token → Bool} {rest : List Token} (stops : Stops more rest)
    (larger : ∀ token, goesOn token = true → more token = true) : Stops goesOn rest := by
  intro token first
  have ended := stops token first
  by_contra continued
  rw [larger token (by simpa using continued)] at ended
  cases ended

/-- A word that stops does so whatever follows, and an empty one leaves it to the rest. -/
theorem Stops.append {goesOn : Token → Bool} {word rest : List Token} (first : Stops goesOn word)
    (stops : Stops goesOn rest) : Stops goesOn (word ++ rest) := by
  cases word with
  | nil => exact stops
  | cons token others => exact first

/-- The rest does not begin with the token. -/
theorem Stops.not_head {goesOn : Token → Bool} {rest : List Token} {token : Token}
    (stops : Stops goesOn rest) (continues : goesOn token = true) : token ∉ rest.head? := by
  intro first
  rw [stops token first] at continues
  cases continues

end ObjectQuery.Grammar.Reader
