import ObjectQuery.Document.Json
/-!
# Writing JSON

Two layouts: one without any space, and one with a member or item on each line and two spaces of
indentation for each level.
-/
namespace ObjectQuery.Document.Json

/-- A hexadecimal digit in lower case. -/
def hexChar (digit : Nat) : Char := if digit < 10 then Char.ofNat (48 + digit) else Char.ofNat (87 + digit)

/-- The characters that stand for one character inside quotation marks. -/
def escape (c : Char) : List Char :=
  match c with
  | '"' => ['\\', '"']
  | '\\' => ['\\', '\\']
  | '\x08' => ['\\', 'b']
  | '\x0c' => ['\\', 'f']
  | '\n' => ['\\', 'n']
  | '\r' => ['\\', 'r']
  | '\t' => ['\\', 't']
  | _ =>
    if c.toNat < 32 then ['\\', 'u', '0', '0', hexChar (c.toNat / 16), hexChar (c.toNat % 16)]
    else [c]

/-- A text between quotation marks. -/
def writeText (content : String) : String :=
  String.ofList ('"' :: content.toList.flatMap escape ++ ['"'])

/-- The text of a value that is neither list nor record. -/
def writeScalar : Value → String
  | .boolean true => "true"
  | .boolean false => "false"
  | .integer value => toString value
  | .decimal digits => digits
  | .text content => writeText content
  | .moment digits => writeText digits
  | _ => "null"

mutual

/-- The text of a value without spaces. -/
def compact : Value → String
  | .list items => "[" ++ ",".intercalate (compactItems items) ++ "]"
  | .record members => "\x7b" ++ ",".intercalate (compactMembers members) ++ "\x7d"
  | scalar => writeScalar scalar

/-- The texts of the items of a list. -/
def compactItems : List Value → List String
  | [] => []
  | item :: rest => compact item :: compactItems rest

/-- The texts of the members of a record. -/
def compactMembers : List (String × Value) → List String
  | [] => []
  | (name, value) :: rest => (writeText name ++ ":" ++ compact value) :: compactMembers rest

end

/-- Lines between an opening and a closing sign, one level deeper than the signs. Nothing stands
between the signs of an empty list or record. -/
def block (indent opening closing : String) (lines : List String) : String :=
  if lines.isEmpty then opening ++ closing
  else opening ++ "\n" ++ ",\n".intercalate (lines.map fun line => indent ++ "  " ++ line) ++
    "\n" ++ indent ++ closing

mutual

/-- The text of a value over several lines, which stand `indent` to the right. -/
def pretty (indent : String) : Value → String
  | .list items => block indent "[" "]" (prettyItems (indent ++ "  ") items)
  | .record members => block indent "\x7b" "\x7d" (prettyMembers (indent ++ "  ") members)
  | scalar => writeScalar scalar

/-- The texts of the items of a list over several lines. -/
def prettyItems (indent : String) : List Value → List String
  | [] => []
  | item :: rest => pretty indent item :: prettyItems indent rest

/-- The texts of the members of a record over several lines. -/
def prettyMembers (indent : String) : List (String × Value) → List String
  | [] => []
  | (name, value) :: rest =>
    (writeText name ++ ": " ++ pretty indent value) :: prettyMembers indent rest

end

end ObjectQuery.Document.Json
