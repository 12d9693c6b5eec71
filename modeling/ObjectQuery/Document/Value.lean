/-!
# Documents

Models and settings come as text in one of two formats. Both describe the same kind of value, and
everything that depends on the format alone is done once a text has become such a value.
-/
namespace ObjectQuery.Document

/-- What a document can say. A record keeps its members in the order of the text, repeated names
included: whether a repetition matters is for the reader of the record to say. -/
inductive Value where
  | null
  | boolean (value : Bool)
  | integer (value : Int)
  | decimal (digits : String)
  | text (content : String)
  /-- A text that names half a surrogate pair, which no text can hold. -/
  | brokenText
  /-- A date, a time or both. -/
  | moment (digits : String)
  | list (items : List Value)
  | record (members : List (String × Value))
  deriving Repr, Inhabited

/-- The two document formats. -/
inductive Format where
  | json
  | toml
  deriving DecidableEq, Repr

namespace Value

/-- The text that the value is. -/
def text? : Value → Option String
  | text content => some content
  | _ => none

/-- The truth value that the value is. -/
def boolean? : Value → Option Bool
  | boolean value => some value
  | _ => none

/-- The integer that the value is. -/
def integer? : Value → Option Int
  | integer value => some value
  | _ => none

/-- The items of a list. -/
def list? : Value → Option (List Value)
  | list items => some items
  | _ => none

/-- The value of the first member of that name. -/
def member? (name : String) : Value → Option Value
  | record members => members.lookup name
  | _ => none

end Value

/-- The members of a record of known fields, by name. -/
abbrev Fields := String → Option Value

/-- The known fields of a value, given their names in order. A record may have further members, but
none of the known ones twice. A list gives the fields in order, possibly only the first few of them;
one that is too long is refused by the stricter format. -/
def Value.fields? (format : Format) (names : List String) : Value → Option Fields
  | .record members =>
    if names.all fun name => (members.filter (·.1 == name)).length ≤ 1
    then some fun name => members.lookup name
    else none
  | .list items =>
    if format == .json && names.length < items.length then none
    else some fun name => (names.zip items).lookup name
  | _ => none

namespace Fields

variable {α : Type}

/-- A field that has to be there. -/
def required (fields : Fields) (name : String) (read : Value → Option α) : Option α :=
  (fields name).bind read

/-- A field that has a default. -/
def withDefault (fields : Fields) (name : String) (default : α) (read : Value → Option α) :
    Option α :=
  match fields name with
  | none => some default
  | some value => read value

/-- A text that may be left out or given as null. -/
def optionalText (fields : Fields) (name : String) : Option (Option String) :=
  match fields name with
  | none | some .null => some none
  | some value => value.text?.map some

/-- A list that is empty when it is left out. -/
def listOf (fields : Fields) (name : String) (read : Value → Option α) : Option (List α) :=
  fields.withDefault name [] fun value => value.list?.bind (·.mapM read)

end Fields
end ObjectQuery.Document
