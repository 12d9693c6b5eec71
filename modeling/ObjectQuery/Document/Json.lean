import ObjectQuery.Document.Value
/-!
# Reading JSON

The reader takes exactly the texts that the JSON grammar allows, with one value and nothing after it
but white space.
-/
namespace ObjectQuery.Document.Json

/-- The characters that may stand between any two tokens. -/
def isSpace (c : Char) : Bool := c == ' ' || c == '\n' || c == '\t' || c == '\r'

/-- The text from the next token on. -/
def skipSpace (cs : List Char) : List Char := cs.dropWhile isSpace

/-- The value of a hexadecimal digit. -/
def hexDigit? (c : Char) : Option Nat :=
  if '0' ≤ c ∧ c ≤ '9' then some (c.toNat - 48)
  else if 'a' ≤ c ∧ c ≤ 'f' then some (c.toNat - 87)
  else if 'A' ≤ c ∧ c ≤ 'F' then some (c.toNat - 55)
  else none

/-- The value of hexadecimal digits. -/
def hexValue? (cs : List Char) : Option Nat :=
  cs.foldlM (fun value c => (hexDigit? c).map (value * 16 + ·)) 0

/-- The number of a four-digit escape and the text after it. -/
def hexUnit? : List Char → Option (Nat × List Char)
  | a :: b :: c :: d :: rest => (hexValue? [a, b, c, d]).map (·, rest)
  | _ => none

/-- The character that a one-letter escape stands for. -/
def escaped? : Char → Option Char
  | '"' => some '"'
  | '\\' => some '\\'
  | '/' => some '/'
  | 'b' => some '\x08'
  | 'f' => some '\x0c'
  | 'n' => some '\n'
  | 'r' => some '\r'
  | 't' => some '\t'
  | _ => none

/-- Whether the number is the first half of a surrogate pair. -/
def isLeading (unit : Nat) : Bool := 0xD800 ≤ unit && unit < 0xDC00

/-- Whether the number is the second half of a surrogate pair. -/
def isTrailing (unit : Nat) : Bool := 0xDC00 ≤ unit && unit < 0xE000

/-- A character of a string: a plain one, or half a surrogate pair without the other half. -/
abbrev StringItem := Option Char

/-- The next item of a string after `\u`, and the text after it. A leading half takes the trailing
half right after it. -/
def unitItem? (cs : List Char) : Option (StringItem × List Char) := do
  let (unit, rest) ← hexUnit? cs
  if isTrailing unit then some (none, rest)
  else if isLeading unit then
    match rest with
    | '\\' :: 'u' :: more =>
      let (second, after) ← hexUnit? more
      if isTrailing second then
        some (some (Char.ofNat (0x10000 + (unit - 0xD800) * 0x400 + (second - 0xDC00))), after)
      else some (none, rest)
    | _ => some (none, rest)
  else some (some (Char.ofNat unit), rest)

/-- The items of a string after its opening mark and the text after its closing one, for a string
of fewer than `fuel` items. -/
def stringWithin : Nat → List Char → Option (List StringItem × List Char)
  | 0, _ => none
  | _, [] => none
  | _, '"' :: rest => some ([], rest)
  | fuel + 1, '\\' :: 'u' :: rest => do
    let (item, rest) ← unitItem? rest
    let (items, rest) ← stringWithin fuel rest
    return (item :: items, rest)
  | fuel + 1, '\\' :: c :: rest => do
    let item ← escaped? c
    let (items, rest) ← stringWithin fuel rest
    return (some item :: items, rest)
  | fuel + 1, c :: rest =>
    if c.toNat < 32 || c == '\\' then none
    else do
      let (items, rest) ← stringWithin fuel rest
      return (some c :: items, rest)

/-- The content of a string after its opening mark, if it is a text, and the text after its closing
mark. -/
def string? (cs : List Char) : Option (Option String × List Char) := do
  let (items, rest) ← stringWithin (cs.length + 1) cs
  return ((items.mapM id).map String.ofList, rest)

/-- The characters of a number at the front of a text, and whether it is an integer: a sign, digits
without leading zeros, a fraction and an exponent. -/
def number? (cs : List Char) : Option (Value × List Char) := do
  let (sign, unsigned) := match cs with
    | '-' :: rest => (['-'], rest)
    | _ => ([], cs)
  let whole := unsigned.takeWhile Char.isDigit
  guard (!whole.isEmpty && (whole.length == 1 || whole.head? != some '0'))
  let rest := unsigned.dropWhile Char.isDigit
  let (fraction, rest) ← match rest with
    | '.' :: more => do
      let places := more.takeWhile Char.isDigit
      guard !places.isEmpty
      some ('.' :: places, more.dropWhile Char.isDigit)
    | _ => some ([], rest)
  let (exponent, rest) ← match rest with
    | mark :: more =>
      if mark == 'e' || mark == 'E' then do
        let (sign, more) := match more with
          | '+' :: more => (['+'], more)
          | '-' :: more => (['-'], more)
          | _ => ([], more)
        let digits := more.takeWhile Char.isDigit
        guard !digits.isEmpty
        some (mark :: sign ++ digits, more.dropWhile Char.isDigit)
      else some ([], rest)
    | [] => some ([], rest)
  if fraction.isEmpty && exponent.isEmpty then
    let magnitude : Int := whole.foldl (fun value digit => value * 10 + (digit.toNat - 48)) 0
    return (.integer (if sign.isEmpty then magnitude else -magnitude), rest)
  else return (.decimal (String.ofList (sign ++ whole ++ fraction ++ exponent)), rest)

mutual

/-- The value at the front of a text and the text after it, for values nested less than `fuel`
deep and long. -/
def valueWithin : Nat → List Char → Option (Value × List Char)
  | 0, _ => none
  | fuel + 1, cs => match skipSpace cs with
    | '\x7b' :: rest => match skipSpace rest with
      | '\x7d' :: rest => some (.record [], rest)
      | _ => do
        let (members, rest) ← membersWithin fuel rest
        return (.record members, rest)
    | '[' :: rest => match skipSpace rest with
      | ']' :: rest => some (.list [], rest)
      | _ => do
        let (items, rest) ← itemsWithin fuel rest
        return (.list items, rest)
    | '"' :: rest => do
      let (content, rest) ← string? rest
      return ((content.map Value.text).getD .brokenText, rest)
    | 't' :: 'r' :: 'u' :: 'e' :: rest => some (.boolean true, rest)
    | 'f' :: 'a' :: 'l' :: 's' :: 'e' :: rest => some (.boolean false, rest)
    | 'n' :: 'u' :: 'l' :: 'l' :: rest => some (.null, rest)
    | rest => number? rest

/-- The items of a list up to its closing bracket, and the text after it. -/
def itemsWithin : Nat → List Char → Option (List Value × List Char)
  | 0, _ => none
  | fuel + 1, cs => do
    let (item, rest) ← valueWithin fuel cs
    match skipSpace rest with
    | ',' :: rest =>
      let (items, rest) ← itemsWithin fuel rest
      return (item :: items, rest)
    | ']' :: rest => return ([item], rest)
    | _ => none

/-- The members of a record up to its closing brace, and the text after it. -/
def membersWithin : Nat → List Char → Option (List (String × Value) × List Char)
  | 0, _ => none
  | fuel + 1, cs => do
    let '"' :: rest := skipSpace cs | none
    let (name, rest) ← string? rest
    let name ← name
    let ':' :: rest := skipSpace rest | none
    let (value, rest) ← valueWithin fuel rest
    match skipSpace rest with
    | ',' :: rest =>
      let (members, rest) ← membersWithin fuel rest
      return ((name, value) :: members, rest)
    | '\x7d' :: rest => return ([(name, value)], rest)
    | _ => none

end

/-- The value that a text says. Every step of the reader takes a character, so twice the length of
the text bounds the steps. -/
def read? (text : String) : Option Value := do
  let cs := text.toList
  let (value, rest) ← valueWithin (2 * cs.length + 1) cs
  guard (skipSpace rest).isEmpty
  return value

end ObjectQuery.Document.Json
