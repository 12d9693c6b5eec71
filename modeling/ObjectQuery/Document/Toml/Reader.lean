import ObjectQuery.Document.Toml.Table
/-!
# Reading TOML

A document is a sequence of lines: keys with their values, and headers that say which table the keys
after them belong to.
-/
namespace ObjectQuery.Document.Toml

/-- The characters of a key without quotation marks. -/
def isBare (c : Char) : Bool := c.isAlphanum || c == '_' || c == '-'

/-- The part of a key that the text starts with, and the text after it. -/
def keyPart? (cs : List Char) : Option (String × List Char) :=
  let bare := cs.takeWhile isBare
  if bare.isEmpty then lineString? cs else some (String.ofList bare, cs.drop bare.length)

/-- The parts of a dotted key, at most `fuel` of them, and the text after them and the blanks. -/
def keyWithin : Nat → List Char → Option (List String × List Char)
  | 0, _ => none
  | fuel + 1, cs => do
    let (part, rest) ← keyPart? (skipSpace cs)
    match skipSpace rest with
    | '.' :: rest =>
      let (parts, rest) ← keyWithin fuel rest
      return (part :: parts, rest)
    | rest => return ([part], rest)

/-- The key that the text starts with, and the text after it. -/
def key? (cs : List Char) : Option (List String × List Char) := keyWithin (cs.length + 1) cs

/-- The text after blanks, line breaks and comments. -/
def skipLinesWithin : Nat → List Char → Option (List Char)
  | 0, cs => some cs
  | fuel + 1, cs => do
    let rest ← comment? (skipSpace cs)
    match newline? rest with
    | some rest => skipLinesWithin fuel rest
    | none => some rest

/-- The text after blanks, line breaks and comments. -/
def skipLines (cs : List Char) : Option (List Char) := skipLinesWithin (cs.length + 1) cs

mutual

/-- The value that the text starts with, and the text after it. -/
def valueWithin : Nat → List Char → Option (Value × List Char)
  | 0, _ => none
  | fuel + 1, cs => match cs with
    | '[' :: rest => do
      let (items, rest) ← itemsWithin fuel rest
      return (.list items, rest)
    | '\x7b' :: rest => match skipSpace rest with
      | '\x7d' :: rest => some (.record [], rest)
      | rest => do
        let (members, rest) ← inlineWithin fuel [] rest
        return (.record (membersToValue members), rest)
    | mark :: _ =>
      if mark == '"' || mark == '\'' then do
        let (content, rest) ← string? cs
        return (.text content, rest)
      else plain? cs
    | [] => none

/-- The items of a list up to its closing bracket, and the text after it. Items may be spread over
lines, and a comma may follow the last. -/
def itemsWithin : Nat → List Char → Option (List Value × List Char)
  | 0, _ => none
  | fuel + 1, cs => do
    match ← skipLines cs with
    | ']' :: rest => return ([], rest)
    | rest =>
      let (item, rest) ← valueWithin fuel rest
      match ← skipLines rest with
      | ',' :: rest =>
        let (items, rest) ← itemsWithin fuel rest
        return (item :: items, rest)
      | ']' :: rest => return ([item], rest)
      | _ => none

/-- The members of a table in braces up to the closing one, added to those before, and the text
after it. The table stands on one line and has no comma after its last member. -/
def inlineWithin : Nat → Members → List Char → Option (Members × List Char)
  | 0, _, _ => none
  | fuel + 1, members, cs => do
    let (key, rest) ← key? cs
    let '=' :: rest := rest | none
    let (value, rest) ← valueWithin fuel (skipSpace rest)
    let members ← members.assign value key
    match skipSpace rest with
    | ',' :: rest => inlineWithin fuel members rest
    | '\x7d' :: rest => return (members, rest)
    | _ => none

end

/-- What has been read so far: the tables, and the path of the one that keys belong to now. -/
structure State where
  members : Members
  path : List String

/-- Reads one line: a header, a key with its value, or nothing. What follows is the end of the
line. -/
def line? (state : State) (cs : List Char) : Option (State × List Char) :=
  match skipSpace cs with
  | '[' :: '[' :: rest => do
    let (path, rest) ← key? rest
    let ']' :: ']' :: rest := rest | none
    let members ← state.members.appendTable path
    return (⟨members, path⟩, rest)
  | '[' :: rest => do
    let (path, rest) ← key? rest
    let ']' :: rest := rest | none
    let members ← state.members.openTable path
    return (⟨members, path⟩, rest)
  | rest =>
    if rest.isEmpty || rest.head? == some '#' || (newline? rest).isSome then some (state, rest)
    else do
      let (key, rest) ← key? rest
      let '=' :: rest := rest | none
      let value := skipSpace rest
      let (value, rest) ← valueWithin (2 * value.length + 1) value
      let members ← state.members.descend (·.assign value key) state.path
      return ({ state with members := members }, rest)

/-- Reads at most `fuel` lines. -/
def linesWithin : Nat → State → List Char → Option State
  | 0, _, _ => none
  | fuel + 1, state, cs => do
    let (state, rest) ← line? state cs
    let rest ← comment? (skipSpace rest)
    match rest with
    | [] => return state
    | _ => linesWithin fuel state (← newline? rest)

/-- The record that a text says. A mark of byte order before it is ignored. -/
def read? (text : String) : Option Value := do
  let cs := match text.toList with
    | '\uFEFF' :: rest => rest
    | cs => cs
  let state ← linesWithin (cs.length + 1) ⟨[], []⟩ cs
  return .record (membersToValue state.members)

end ObjectQuery.Document.Toml

namespace ObjectQuery.Document

/-- The value that a text says in a format. -/
def Format.read? : Format → String → Option Value
  | .json => Json.read?
  | .toml => Toml.read?

end ObjectQuery.Document
