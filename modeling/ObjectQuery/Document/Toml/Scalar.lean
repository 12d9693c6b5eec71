import ObjectQuery.Document.Json
/-!
# Scalars of TOML documents

Strings come in four forms: with or without escapes, on one line or on several. Everything else that
is no list and no table is a run of characters up to the next separator, and its form says whether it
is a truth value, a number, or a date or time.
-/
namespace ObjectQuery.Document.Toml

/-- The blanks inside a line. -/
def isSpace (c : Char) : Bool := c == ' ' || c == '\t'

/-- Control characters other than the tab, which no comment and no string contains as such. -/
def isControl (c : Char) : Bool := (c.toNat < 32 && c != '\t') || c.toNat == 127

/-- The text after blanks. -/
def skipSpace (cs : List Char) : List Char := cs.dropWhile isSpace

/-- The text after a line break, if it starts with one. -/
def newline? : List Char → Option (List Char)
  | '\n' :: rest => some rest
  | '\r' :: '\n' :: rest => some rest
  | _ => none

/-- The text after a comment, if it starts with one: up to the line break, with no control
character before it. -/
def comment? : List Char → Option (List Char)
  | '#' :: rest =>
    let after := rest.dropWhile fun c => !isControl c
    if after.isEmpty || (newline? after).isSome then some after else none
  | cs => some cs

/-- The character with a code point, unless there is none. -/
def charOf? (point : Nat) : Option Char :=
  if point < 0xD800 ∨ (0xE000 ≤ point ∧ point < 0x110000) then some (Char.ofNat point) else none

/-- The character after a backslash's `u` or `U`, written with `digits` hexadecimal digits, and the
text after it. -/
def codePoint? (digits : Nat) (cs : List Char) : Option (Char × List Char) := do
  guard (digits ≤ cs.length)
  let point ← Json.hexValue? (cs.take digits)
  let c ← charOf? point
  return (c, cs.drop digits)

/-- The character that the text after a backslash stands for, and the text after it. -/
def escape? : List Char → Option (Char × List Char)
  | 'b' :: rest => some ('\x08', rest)
  | 't' :: rest => some ('\t', rest)
  | 'n' :: rest => some ('\n', rest)
  | 'f' :: rest => some ('\x0c', rest)
  | 'r' :: rest => some ('\r', rest)
  | '"' :: rest => some ('"', rest)
  | '\\' :: rest => some ('\\', rest)
  | 'u' :: rest => codePoint? 4 rest
  | 'U' :: rest => codePoint? 8 rest
  | _ => none

/-- The content of a string on one line after its opening mark, and the text after its closing one.
Only a string between double marks has escapes. -/
def lineStringWithin (mark : Char) : Nat → List Char → Option (List Char × List Char)
  | 0, _ => none
  | _, [] => none
  | fuel + 1, c :: rest =>
    if c == mark then some ([], rest)
    else if c == '\\' && mark == '"' then do
      let (escaped, rest) ← escape? rest
      let (content, rest) ← lineStringWithin mark fuel rest
      return (escaped :: content, rest)
    else if isControl c then none
    else do
      let (content, rest) ← lineStringWithin mark fuel rest
      return (c :: content, rest)

/-- The text after a backslash at the end of a line: the rest of the line, which is blank, and all
white space after it. -/
def continuation? (cs : List Char) : Option (List Char) :=
  (newline? (skipSpace cs)).map fun rest =>
    rest.dropWhile fun c => isSpace c || c == '\n' || c == '\r'

/-- The content of a string over several lines after its opening marks, and the text after its
closing ones. Up to two marks may stand before the three that close it. -/
def blockStringWithin (mark : Char) : Nat → List Char → Option (List Char × List Char)
  | 0, _ => none
  | _, [] => none
  | fuel + 1, c :: rest =>
    if c == mark then
      let marks := ((c :: rest).takeWhile (· == mark)).length
      let after := (c :: rest).drop marks
      if 6 ≤ marks then none
      else if 3 ≤ marks then some (List.replicate (marks - 3) mark, after)
      else do
        let (content, rest) ← blockStringWithin mark fuel after
        return (List.replicate marks mark ++ content, rest)
    else if c == '\\' && mark == '"' then
      match continuation? rest with
      | some rest => blockStringWithin mark fuel rest
      | none => do
        let (escaped, rest) ← escape? rest
        let (content, rest) ← blockStringWithin mark fuel rest
        return (escaped :: content, rest)
    else match newline? (c :: rest) with
      | some rest => do
        let (content, rest) ← blockStringWithin mark fuel rest
        return ('\n' :: content, rest)
      | none =>
        if isControl c then none
        else do
          let (content, rest) ← blockStringWithin mark fuel rest
          return (c :: content, rest)

/-- The string on one line that the text starts with, and the text after it. -/
def lineString? : List Char → Option (String × List Char)
  | mark :: rest => do
    guard (mark == '"' || mark == '\'')
    let (content, rest) ← lineStringWithin mark (rest.length + 1) rest
    return (String.ofList content, rest)
  | [] => none

/-- The string that the text starts with, and the text after it. A line break right after three
opening marks is not part of the string. -/
def string? : List Char → Option (String × List Char)
  | a :: b :: c :: rest =>
    if (a == '"' || a == '\'') && b == a && c == a then do
      let body := (newline? rest).getD rest
      let (content, rest) ← blockStringWithin a (body.length + 1) body
      return (String.ofList content, rest)
    else lineString? (a :: b :: c :: rest)
  | cs => lineString? cs

/-- Whether the characters are digits with single underscores between them. -/
def isDigits (isDigit : Char → Bool) (cs : List Char) : Bool :=
  let groups := cs.splitOn '_'
  groups.all fun group => !group.isEmpty && group.all isDigit

/-- Whether the characters are a decimal integer without sign and without leading zeros. -/
def isWhole (cs : List Char) : Bool :=
  isDigits Char.isDigit cs && (cs.length == 1 || cs.head? != some '0')

/-- The text after an optional sign. -/
def unsigned : List Char → List Char
  | '+' :: rest => rest
  | '-' :: rest => rest
  | cs => cs

/-- Whether the characters are an exponent's digits, with an optional sign. -/
def isExponent (cs : List Char) : Bool := isDigits Char.isDigit (unsigned cs)

/-- Whether the characters are a decimal number with a fraction, an exponent or both. -/
def isFloat (cs : List Char) : Bool :=
  let body := unsigned cs
  if body == ['i', 'n', 'f'] || body == ['n', 'a', 'n'] then true
  else
    let isMark (c : Char) : Bool := c == 'e' || c == 'E'
    let mantissa := body.takeWhile (!isMark ·)
    let power := body.drop mantissa.length
    let whole := mantissa.takeWhile (· != '.')
    let places := mantissa.drop whole.length
    (!places.isEmpty || !power.isEmpty) && isWhole whole &&
      (places.isEmpty || isDigits Char.isDigit (places.drop 1)) &&
      (power.isEmpty || isExponent (power.drop 1))

/-- The value of digits with underscores between them. -/
def digitsValue (base : Nat) (cs : List Char) : Nat :=
  (cs.filter (· != '_')).foldl (fun value c => value * base + (Json.hexDigit? c).getD 0) 0

/-- The integer that the characters denote. -/
def integer? : List Char → Option Int
  | '0' :: 'x' :: rest =>
    if isDigits (fun c => (Json.hexDigit? c).isSome) rest then some (digitsValue 16 rest) else none
  | '0' :: 'o' :: rest =>
    if isDigits (fun c => '0' ≤ c && c ≤ '7') rest then some (digitsValue 8 rest) else none
  | '0' :: 'b' :: rest =>
    if isDigits (fun c => c == '0' || c == '1') rest then some (digitsValue 2 rest) else none
  | '-' :: rest => if isWhole rest then some (-(digitsValue 10 rest : Int)) else none
  | '+' :: rest => if isWhole rest then some (digitsValue 10 rest) else none
  | cs => if isWhole cs then some (digitsValue 10 cs) else none

/-- The number of days in a month. -/
def daysIn (year month : Nat) : Nat :=
  if month == 2 then
    if year % 4 == 0 && (year % 100 != 0 || year % 400 == 0) then 29 else 28
  else if [4, 6, 9, 11].contains month then 30
  else 31

/-- The number that exactly `width` digits at the front denote, and the text after them. -/
def fixed? (width : Nat) (cs : List Char) : Option (Nat × List Char) :=
  let digits := cs.take width
  if digits.length == width && digits.all Char.isDigit then
    some (digitsValue 10 digits, cs.drop width)
  else none

/-- The text after a date. -/
def date? (cs : List Char) : Option (List Char) := do
  let (year, rest) ← fixed? 4 cs
  let '-' :: rest := rest | none
  let (month, rest) ← fixed? 2 rest
  let '-' :: rest := rest | none
  let (day, rest) ← fixed? 2 rest
  guard (1 ≤ month && month ≤ 12 && 1 ≤ day && day ≤ daysIn year month)
  return rest

/-- The text after a time of day. -/
def time? (cs : List Char) : Option (List Char) := do
  let (hour, rest) ← fixed? 2 cs
  let ':' :: rest := rest | none
  let (minute, rest) ← fixed? 2 rest
  let ':' :: rest := rest | none
  let (second, rest) ← fixed? 2 rest
  guard (hour ≤ 23 && minute ≤ 59 && second ≤ 60)
  match rest with
  | '.' :: places =>
    guard (places.head?.any Char.isDigit)
    return places.dropWhile Char.isDigit
  | _ => return rest

/-- Whether the text is empty or the offset of a time zone. -/
def isOffset : List Char → Bool
  | [] => true
  | ['Z'] | ['z'] => true
  | sign :: rest => (sign == '+' || sign == '-') && (do
      let (hours, rest) ← fixed? 2 rest
      let ':' :: rest := rest | none
      let (minutes, rest) ← fixed? 2 rest
      guard (hours ≤ 23 && minutes ≤ 59 && rest.isEmpty)).isSome

/-- Whether the characters are a date, a time of day, or both with an optional offset. -/
def isMoment (cs : List Char) : Bool :=
  match date? cs with
  | some [] => true
  | some (mark :: rest) =>
    (mark == 'T' || mark == 't' || mark == ' ') && (time? rest).any isOffset
  | none => time? cs == some []

/-- The value that a run of characters denotes. -/
def scalarOf? (cs : List Char) : Option Value :=
  if cs == "true".toList then some (.boolean true)
  else if cs == "false".toList then some (.boolean false)
  else match integer? cs with
    | some value => some (.integer value)
    | none =>
      if isFloat cs then some (.decimal (String.ofList cs))
      else if isMoment cs then some (.moment (String.ofList cs))
      else none

/-- The characters that end a run. -/
def isSeparator (c : Char) : Bool :=
  [' ', '\t', '\n', '\r', ',', ']', '\x7d', '#', '='].contains c

/-- The scalar without quotation marks that the text starts with, and the text after it. A date may
be divided from its time by one space. -/
def plain? (cs : List Char) : Option (Value × List Char) := do
  let run := cs.takeWhile (!isSeparator ·)
  let rest := cs.drop run.length
  let (run, rest) := match rest with
    | ' ' :: more =>
      if (date? run).any List.isEmpty && more.head?.any Char.isDigit then
        let time := more.takeWhile (!isSeparator ·)
        (run ++ ' ' :: time, more.drop time.length)
      else (run, rest)
    | _ => (run, rest)
  let value ← scalarOf? run
  return (value, rest)

end ObjectQuery.Document.Toml
