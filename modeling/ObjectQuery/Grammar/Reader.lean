import ObjectQuery.Token.Basic
/-!
# Readers

A reader takes lexemes from the front of a list and gives a value, or gives up. Alternatives are
ordered: the next one is tried only when the one before gave up, and then from the same place.

When nothing fits, the diagnostic names the furthest place that any alternative reached. Each
reading therefore carries, besides its outcome, the furthest place at which some alternative could
not go on; that record never influences what is read.
-/
namespace ObjectQuery.Grammar

/-- A place where an alternative could not go on, by the number of lexemes left there, and the
reason if it is more than an unexpected lexeme. -/
structure Stop where
  remaining : Nat
  reason : Option String
  deriving DecidableEq, Repr

/-- The further of two stops. Of two at one place, the earlier with a reason counts. -/
def Stop.further (first second : Option Stop) : Option Stop :=
  match first, second with
  | none, stop => stop
  | stop, none => stop
  | some a, some b =>
    if a.remaining < b.remaining then some a
    else if b.remaining < a.remaining then some b
    else if a.reason.isSome then some a
    else some b

/-- The outcome of a reader: the value with the lexemes after it, if any, and the furthest stop. -/
structure Reading (α : Type) where
  value? : Option (α × List Lexeme)
  stop : Option Stop

/-- A way to read a value from the front of a list of lexemes. -/
def Reader (α : Type) : Type := List Lexeme → Reading α

namespace Reader

variable {α β γ : Type}

/-- Reads nothing and gives `value`. -/
def done (value : α) : Reader α := fun input => ⟨some (value, input), none⟩

/-- Gives up without having looked. -/
def fail : Reader α := fun _ => ⟨none, none⟩

/-- Reads with `reader` and goes on with what its value asks for. -/
def andThen (reader : Reader α) (next : α → Reader β) : Reader β := fun input =>
  match reader input with
  | ⟨none, stop⟩ => ⟨none, stop⟩
  | ⟨some (value, rest), stop⟩ =>
    let after := next value rest
    ⟨after.value?, Stop.further stop after.stop⟩

instance : Monad Reader where
  pure := done
  bind := andThen

/-- Reads with `first` or, if that gives up, with `second` from the same place. -/
def orElse (first second : Reader α) : Reader α := fun input =>
  match first input with
  | ⟨some result, stop⟩ => ⟨some result, stop⟩
  | ⟨none, stop⟩ =>
    let other := second input
    ⟨other.value?, Stop.further stop other.stop⟩

instance : OrElse (Reader α) where
  orElse first second := orElse first (second ())

/-- Reads one lexeme for whose token `accept` gives a value. -/
def item (accept : Token → Option α) : Reader α := fun input =>
  match input with
  | [] => ⟨none, some ⟨0, none⟩⟩
  | lexeme :: rest => match accept lexeme.token with
    | some value => ⟨some (value, rest), none⟩
    | none => ⟨none, some ⟨input.length, none⟩⟩

/-- Reads one lexeme with the given token. -/
def token (wanted : Token) : Reader Unit := item fun found => if found = wanted then some () else none

/-- Reads one keyword. -/
def keyword (word : Keyword) : Reader Unit := token (.keyword word)

/-- Reads one sign. -/
def mark (sign : Mark) : Reader Unit := token (.mark sign)

/-- Reads an identifier. -/
def identifier : Reader String := item fun
  | .identifier name => some name
  | _ => none

/-- Succeeds only where no lexeme is left. -/
def finish : Reader Unit := fun input =>
  if input.isEmpty then ⟨some ((), []), none⟩ else ⟨none, some ⟨input.length, none⟩⟩

/-- Reads a value if there is one. -/
def optional (reader : Reader α) : Reader (Option α) :=
  (do let value ← reader; return some value) <|> done none

/-- Reads whether the keyword is there. -/
def flag (word : Keyword) : Reader Bool := do
  let found ← optional (keyword word)
  return found.isSome

/-- Reads as many values as there are, at most `fuel`. -/
def manyWithin (reader : Reader α) : Nat → Reader (List α)
  | 0 => done []
  | fuel + 1 =>
    (do
      let value ← reader
      let values ← manyWithin reader fuel
      return value :: values) <|> done []

/-- Reads as many values as there are. The reader takes at least one lexeme each time, so there are
no more values than lexemes. -/
def many (reader : Reader α) : Reader (List α) := fun input =>
  manyWithin reader input.length input

/-- Reads one or more values with a comma between each two. -/
def commaSeparated (reader : Reader α) : Reader (List α) := do
  let value ← reader
  let values ← many (do mark .comma; reader)
  return value :: values

/-- Reads a value between two signs. -/
def between (opening closing : Mark) (reader : Reader α) : Reader α := do
  mark opening
  let value ← reader
  mark closing
  return value

/-- The span of the lexemes of `input` before `rest`, which is what remains of it. -/
def spanBefore (input rest : List Lexeme) : Span :=
  let taken := input.take (input.length - rest.length)
  ⟨(taken.head?.map (·.span.start)).getD 0, (taken.getLast?.map (·.span.stop)).getD 0⟩

/-- Reads a value and gives it together with the span of the lexemes read. -/
def spanned (reader : Reader α) : Reader (α × Span) := fun input =>
  match reader input with
  | ⟨some (value, rest), stop⟩ => ⟨some ((value, spanBefore input rest), rest), stop⟩
  | ⟨none, stop⟩ => ⟨none, stop⟩

/-- Reads an identifier with its place. -/
def name : Reader (Spanned String) := do
  let (value, span) ← spanned identifier
  return ⟨value, span⟩

/-- The reader that `body` describes in terms of itself, nested at most `depth` deep. -/
def nestedWithin (body : Reader α → Reader α) : Nat → Reader α
  | 0 => fail
  | depth + 1 => fun input => body (nestedWithin body depth) input

/-- The reader that `body` describes in terms of itself. The body takes at least one lexeme before it
reads the nested value, so the nesting is no deeper than there are lexemes. -/
def nested (body : Reader α → Reader α) : Reader α := fun input =>
  nestedWithin body (input.length + 1) input

end Reader
end ObjectQuery.Grammar
