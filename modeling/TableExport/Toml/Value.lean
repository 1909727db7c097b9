/-!
# Values of a settings file

What a TOML document holds. A table remembers how it came about, because that decides
whether it may be extended later.
-/
namespace TableExport.Toml

/-- How a table came about. -/
inductive Origin
  -- Written between braces; complete as it stands.
  | inline
  -- Named by a header of its own.
  | header
  -- Only passed through by the header of another table.
  | passed
  -- Named by a key with dots.
  | dotted
  deriving DecidableEq, Repr

/-- A value. Of floating point numbers and dates only the kind is kept. -/
inductive Value
  | text (s : String)
  | integer (n : Int)
  | float
  | boolean (b : Bool)
  | date
  | array (items : List Value)
  | table (origin : Origin) (entries : List (String × Value))
  -- Tables that repeat one header.
  | tables (list : List (List (String × Value)))
  deriving Repr

/-- Keys with their values; no key stands twice. -/
abbrev Entries := List (String × Value)

namespace Entries

def get? (entries : Entries) (key : String) : Option Value :=
  (entries.find? fun entry => entry.1 == key).map (·.2)

def put (entries : Entries) (key : String) (value : Value) : Entries :=
  if entries.any fun entry => entry.1 == key then
    entries.map fun entry => if entry.1 == key then (key, value) else entry
  else entries ++ [(key, value)]

/-- Changes the table that a path leads to, making missing tables on the way. `fresh` is
the origin of those, and `enter` says which tables may be passed through. The change is
told whether the table reached is one named by dots. -/
def within (fresh : Origin) (enter : Origin → Bool) (change : Bool → Entries → Option Entries) :
    List String → Bool → Entries → Option Entries
  | [], isDotted, entries => change isDotted entries
  | key :: rest, _, entries =>
    match entries.get? key with
    | none =>
      (within fresh enter change rest (fresh = .dotted) []).map fun below =>
        entries.put key (.table fresh below)
    | some (.table origin below) =>
      if enter origin then
        (within fresh enter change rest (origin = .dotted) below).map fun below =>
          entries.put key (.table origin below)
      else none
    | some (.tables list) =>
      match list.getLast? with
      | none => none
      | some last =>
        (within fresh enter change rest false last).map fun below =>
          entries.put key (.tables (list.dropLast ++ [below]))
    | some _ => none

/-- Whether a key with dots may pass through a table. -/
def mayExtend (origin : Origin) : Bool := origin = .passed || origin = .dotted

/-- Adds a key with its value. A key with dots must end in a table that was made by such
keys; no key may stand twice. -/
def insert (entries : Entries) (path : List String) (key : String) (value : Value) :
    Option Entries :=
  within .dotted mayExtend (fun isDotted below =>
      if isDotted = path.isEmpty then none
      else if (below.get? key).isSome then none
      else some (below ++ [(key, value)]))
    path false entries

def insertAll (entries : Entries) : List (List String × Value) → Option Entries
  | [] => some entries
  | (path, value) :: rest =>
    match path.getLast? with
    | none => none
    | some key =>
      match entries.insert path.dropLast key value with
      | none => none
      | some entries => insertAll entries rest

end Entries

end TableExport.Toml
