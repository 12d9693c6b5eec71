import ObjectQuery.Document.Value
import ObjectQuery.Text.Ranges
import ObjectQuery.Text.Word
/-!
# Attribute types

The type of an attribute is a basic type, an entity or a collection of either. A collection of
collections does not exist, and only lists and maps have an index.

Models write types as text. A basic type may be spelled in any case and has a second name in some
cases; `DataType.text` is the one spelling that is written.
-/
namespace ObjectQuery

/-- The types of single values. -/
inductive BasicType where
  | string | integer | long | double | decimal | boolean | date | timestamp
  deriving DecidableEq, Repr

namespace BasicType

/-- The spelling that is written. -/
def text : BasicType → String
  | string => "string"
  | integer => "integer"
  | long => "long"
  | double => "double"
  | decimal => "decimal"
  | boolean => "boolean"
  | date => "date"
  | timestamp => "timestamp"

/-- The spellings that are read, in lower case. -/
def spellings : List (String × BasicType) :=
  [("string", string), ("text", string), ("int", integer), ("integer", integer), ("long", long),
   ("bigint", long), ("double", double), ("float", double), ("decimal", decimal),
   ("bool", boolean), ("boolean", boolean), ("date", date), ("timestamp", timestamp)]

/-- The type that a word spells, in any case. No letter outside ASCII has one of the letters of
these words as its lower-case form. -/
def ofText? (word : String) : Option BasicType :=
  spellings.lookup (String.ofList (word.toList.map Char.toLower))

/-- Whether the values are numbers. -/
def isNumeric : BasicType → Bool
  | integer | long | double | decimal => true
  | _ => false

end BasicType

/-- The type of a single value or of a to-one association. -/
inductive SimpleType where
  | basic (type : BasicType)
  | entity (name : String)
  deriving DecidableEq, Repr

/-- The kinds of collections. A map has keys of its own type. -/
inductive CollectionKind where
  | list
  | set
  | bag
  | map (key : SimpleType)
  deriving DecidableEq, Repr

/-- The type of an attribute, a from-element or an expression. -/
inductive DataType where
  | simple (type : SimpleType)
  | collection (kind : CollectionKind) (element : SimpleType)
  deriving DecidableEq, Repr

namespace SimpleType

/-- The text of a type. -/
def text : SimpleType → String
  | basic type => type.text
  | entity name => name

/-- The characters that a name may start with. -/
def isNameStart (c : Char) : Bool := c.isAlpha || c == '_'

/-- Whether the characters are one part of a name. -/
def isNamePart : List Char → Bool
  | [] => false
  | c :: rest => isNameStart c && rest.all Text.isWord

/-- Whether the text is a name: parts joined by dots. -/
def isName (word : String) : Bool := (word.toList.splitOn '.').all isNamePart

/-- The basic type or else the entity that a word names. -/
def ofText? (word : String) : Option SimpleType :=
  match BasicType.ofText? word with
  | some type => some (basic type)
  | none => if isName word then some (entity word) else none

end SimpleType

namespace CollectionKind

/-- The word for the kind. -/
def text : CollectionKind → String
  | list => "list"
  | set => "set"
  | bag => "bag"
  | map _ => "map"

/-- The type of the index, for kinds that have one. -/
def index? : CollectionKind → Option SimpleType
  | list => some (.basic .integer)
  | map key => some key
  | set | bag => none

end CollectionKind

namespace DataType

/-- The type of a value of a basic type. -/
def basic (type : BasicType) : DataType := simple (.basic type)

/-- The type of an entity. -/
def entity (name : String) : DataType := simple (.entity name)

/-- The text of a type. -/
def text : DataType → String
  | simple type => type.text
  | collection (.map key) element => "map<" ++ key.text ++ "," ++ element.text ++ ">"
  | collection kind element => kind.text ++ "<" ++ element.text ++ ">"

/-- The basic type that the type is. -/
def basic? : DataType → Option BasicType
  | simple (.basic type) => some type
  | _ => none

/-- The entity that the type is, by name. -/
def entity? : DataType → Option String
  | simple (.entity name) => some name
  | _ => none

/-- Whether the type is a collection. -/
def isPlural : DataType → Bool
  | collection _ _ => true
  | simple _ => false

/-- The type of the index of an indexed collection. -/
def index? : DataType → Option DataType
  | collection kind _ => kind.index?.map simple
  | simple _ => none

/-- Whether the type is a collection with an index. -/
def isIndexed (type : DataType) : Bool := type.index?.isSome

/-- The type of the elements of a collection. -/
def element? : DataType → Option DataType
  | collection _ element => some (simple element)
  | simple _ => none

/-- The word at the front of a text that may name a type inside angle brackets, and the text after it
and the blanks. -/
def word? (cs : List Char) : Option (String × List Char) :=
  let word := cs.takeWhile fun c => Text.isWord c || c == '.'
  if word.head?.any SimpleType.isNameStart then
    some (String.ofList word, (cs.drop word.length).dropWhile Text.isBlank)
  else none

/-- The words between angle brackets, one or two of them with a comma between. -/
def arguments? (cs : List Char) : Option (String × Option String) :=
  match word? (cs.dropWhile Text.isBlank) with
  | some (first, ['>']) => some (first, none)
  | some (first, ',' :: rest) =>
    match word? (rest.dropWhile Text.isBlank) with
    | some (second, ['>']) => some (first, some second)
    | _ => none
  | _ => none

/-- The words of a collection type: its kind and what stands in the angle brackets. -/
def collectionWords? (text : List Char) : Option (String × String × Option String) :=
  ["list", "set", "bag", "map"].findSome? fun kind =>
    if kind.toList.isPrefixOf text then
      match (text.drop kind.length).dropWhile Text.isBlank with
      | '<' :: rest => (arguments? rest).map (kind, ·)
      | _ => none
    else none

/-- The collection type that words denote. Only maps have a key. -/
def ofWords? : String × String × Option String → Option DataType
  | ("list", element, none) => (SimpleType.ofText? element).map (collection .list)
  | ("set", element, none) => (SimpleType.ofText? element).map (collection .set)
  | ("bag", element, none) => (SimpleType.ofText? element).map (collection .bag)
  | ("map", key, some element) => do
    let key ← SimpleType.ofText? key
    let element ← SimpleType.ofText? element
    return collection (.map key) element
  | _ => none

/-- The type that a text denotes. Blanks around it do not count. -/
def ofText? (text : String) : Option DataType :=
  let trimmed := Text.trimBlanks text.toList
  match collectionWords? trimmed with
  | some words => ofWords? words
  | none => (SimpleType.ofText? (String.ofList trimmed)).map simple

open Document (Value)

/-- The type of a single value as a document. -/
def simpleValue : SimpleType → Value
  | .basic type => .record [("kind", .text "basic"), ("ty", .text type.text)]
  | .entity name => .record [("kind", .text "entity"), ("name", .text name)]

/-- The type as a document. -/
def toValue : DataType → Value
  | simple type => simpleValue type
  | collection kind element => .record
      [("kind", .text "collection"),
       ("collection", .record
         [("nature", .text kind.text), ("element", simpleValue element),
          ("index", (kind.index?.map simpleValue).getD .null)])]

end DataType
end ObjectQuery
