import ObjectQuery.Document.Toml.Scalar
/-!
# Tables of TOML documents

A document names its tables in headers and extends them by dotted keys, and no place may be defined
twice. While a document is read, every table remembers how it came to be, because that decides what
may still be added to it.
-/
namespace ObjectQuery.Document.Toml

/-- How a table came to be: on the way to a table below it, by dotted keys, or by a header. -/
inductive Origin where
  | passed
  | dotted
  | header
  deriving DecidableEq, Repr

/-- What stands under a key while the document is read: a complete value, a table, or the tables
that headers in double brackets have added so far, the latest first. -/
inductive Entry where
  | value (value : Value)
  | table (origin : Origin) (members : List (String × Entry))
  | tables (items : List (List (String × Entry)))

/-- The members of a table in the order in which they were added. -/
abbrev Members := List (String × Entry)

/-- Changes the entry of a key, or adds one. -/
def Members.alter (members : Members) (key : String) (change : Option Entry → Option Entry) :
    Option Members :=
  match members with
  | [] => do
    let entry ← change none
    return [(key, entry)]
  | (name, entry) :: rest =>
    if name = key then do
      let entry ← change (some entry)
      return (name, entry) :: rest
    else do
      let rest ← Members.alter rest key change
      return (name, entry) :: rest

/-- Changes the table at the end of a header's path. Tables on the way are made where there are
none, and of tables in an array the latest is meant. -/
def Members.descend (change : Members → Option Members) : List String → Members → Option Members
  | [], members => change members
  | key :: path, members => members.alter key fun
    | none => do
      let below ← Members.descend change path []
      return .table .passed below
    | some (.table origin below) => do
      let below ← Members.descend change path below
      return .table origin below
    | some (.tables (latest :: earlier)) => do
      let below ← Members.descend change path latest
      return .tables (below :: earlier)
    | some _ => none

/-- Adds a value under a dotted key. Its tables may not have been defined by a header, and the last
of them only by dotted keys. -/
def Members.assign (value : Value) : List String → Members → Option Members
  | [], _ => none
  | [key], members => members.alter key fun
    | none => some (.value value)
    | some _ => none
  | key :: path, members => members.alter key fun
    | none => do
      let below ← Members.assign value path []
      return .table .dotted below
    | some (.table .dotted below) => do
      let below ← Members.assign value path below
      return .table .dotted below
    | some (.table .passed below) => do
      guard (1 < path.length)
      let below ← Members.assign value path below
      return .table .passed below
    | some _ => none

/-- Opens the table of a header: a new one, or one that has only been passed through so far. -/
def Members.openTable (path : List String) (members : Members) : Option Members := do
  let key ← path.getLast?
  members.descend (fun table => table.alter key fun
    | none => some (.table .header [])
    | some (.table .passed below) => some (.table .header below)
    | some _ => none) path.dropLast

/-- Adds a table to the array of a header in double brackets. -/
def Members.appendTable (path : List String) (members : Members) : Option Members := do
  let key ← path.getLast?
  members.descend (fun table => table.alter key fun
    | none => some (.tables [[]])
    | some (.tables items) => some (.tables ([] :: items))
    | some _ => none) path.dropLast

mutual

/-- The value that an entry has become. -/
def Entry.toValue : Entry → Value
  | .value value => value
  | .table _ members => .record (membersToValue members)
  | .tables items => .list (itemsToValue items).reverse

/-- The values of the members of a table. -/
def membersToValue : List (String × Entry) → List (String × Value)
  | [] => []
  | (key, entry) :: rest => (key, entry.toValue) :: membersToValue rest

/-- The records that the tables of an array have become. -/
def itemsToValue : List (List (String × Entry)) → List Value
  | [] => []
  | members :: rest => .record (membersToValue members) :: itemsToValue rest

end

end ObjectQuery.Document.Toml
