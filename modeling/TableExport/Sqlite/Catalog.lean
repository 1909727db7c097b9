import TableExport.Sqlite.Declaration
import TableExport.Storage.Database

/-!
# SQLite databases

The tables and views of a database, and its answers to the statements of an export.
Names match whatever the case of their ASCII letters.

The listing leaves out names that match the pattern `sqlite_%`. In a pattern `_`
stands for any one character, so more names are left out than those that begin with
the reserved prefix.

Values are grouped as their column compares them. Of equal texts in one group an
answer shows only one, and which one that is depends on the order in which the
values come to be grouped. No statement asks for an order, so that of the rows or of
any index may be taken: it is the plan of the database.
-/
namespace TableExport.Sqlite

/-- A table: its columns with their definitions, and its rows in order. -/
structure Table where
  name : String
  columns : List (String × String)
  rows : List (List Stored)
  deriving Repr

/-- The order in which the values of a column come to be grouped. -/
structure Plan where
  visit : Collation → List Stored → List Stored
  perm : ∀ collation values, (visit collation values).Perm values

/-- Without an index, values are sorted by falling texts. Equal texts stay in the order of
their rows. -/
def Plan.sorted : Plan where
  visit collation values := values.mergeSort collation.falling
  perm collation values := List.mergeSort_perm values collation.falling

/-- Tables in order of creation, and views, each showing all of one table. -/
structure Catalog where
  tables : List Table
  views : List (String × String) := []
  plan : Plan := .sorted

/-- Whether a name matches `sqlite_%`: the six letters in any case, one more
character, and anything after it. -/
def isReserved (name : String) : Bool :=
  match name.toList with
  | s :: q :: l :: i :: t :: e :: _ :: _ =>
    Text.sameLetters (String.ofList [s, q, l, i, t, e]) "sqlite"
  | _ => false

def Table.described (table : Table) : List Column :=
  table.columns.map fun (name, definition) => ⟨name, typeName (declaredType definition)⟩

/-- A table whose values have the form in which its columns keep them. -/
def Table.stored (table : Table) : Table :=
  let affinities := table.columns.map fun (_, definition) => affinity (declaredType definition)
  { table with rows := table.rows.map fun row => (affinities.zip row).map fun (a, v) => a.keep v }

/-- The equality of values that grouping uses. Numbers are equal when they stand for
the same number, and texts when the collation says so. -/
def sameGroup (collation : Collation) : Stored → Stored → Bool
  | .integer m, .real y => y.toInt? = some m.toInt
  | .real x, .integer n => x.toInt? = some n.toInt
  | .real x, .real y => x = y || (x.toInt? = some 0 && y.toInt? = some 0)
  | .text a, .text b => collation.canonical a = collation.canonical b
  | a, b => a = b

/-- The first value of each group with the number of values in it. NULL counts nowhere. -/
def tally (collation : Collation) : List Stored → List (Stored × Nat)
  | [] => []
  | .null :: rest => tally collation rest
  | value :: rest =>
    match (tally collation rest).find? fun entry => sameGroup collation value entry.1 with
    | none => (value, 1) :: tally collation rest
    | some (_, n) =>
      (value, n + 1) ::
        (tally collation rest).filter fun entry => !sameGroup collation value entry.1

namespace Catalog

/-- A table by name, or the table that a view of that name shows. -/
def find? (catalog : Catalog) (name : String) : Option Table :=
  match catalog.tables.find? fun table => Text.sameLetters table.name name with
  | some table => some table
  | none =>
    match catalog.views.find? fun view => Text.sameLetters view.1 name with
    | some (_, shown) => catalog.tables.find? fun table => Text.sameLetters table.name shown
    | none => none

def listed (catalog : Catalog) : List String :=
  (catalog.tables.map Table.name).filter fun name => !isReserved name

/-- The values of a column by name. -/
def columnValues (table : Table) (column : String) : Option (List Stored) :=
  (table.columns.findIdx? fun (name, _) => Text.sameLetters name column).map fun index =>
    table.rows.map fun row => (row[index]?).getD .null

/-- The collation of a column by name. -/
def columnCollation (table : Table) (column : String) : Option Collation :=
  (table.columns.find? fun (name, _) => Text.sameLetters name column).bind
    fun (_, definition) => collation? definition

/-- Most counted first; equal counts stay in their order. -/
def moreDisabled (a b : Bytes × Nat) : Bool := b.2 ≤ a.2

/-- The rules disabled more than once, each by the first of its values. A rule that is no
readable text makes the statement fail, and so does a collation that does not exist. -/
def disabledRules (catalog : Catalog) : Option (List DisabledRule) := do
  let table ← catalog.find? "rule_disable"
  let values ← columnValues table "rule_id"
  let collation ← columnCollation table "rule_id"
  let counted := tally collation (catalog.plan.visit collation values)
  let repeated := counted.filter fun entry => 1 < entry.2
  let texts ← repeated.mapM fun
    | (.text bytes, n) => some (bytes, n)
    | _ => none
  (texts.mergeSort moreDisabled).mapM fun (bytes, n) =>
    (Utf8.decode? bytes).map fun rule => ⟨rule, n⟩

/-- The first rows, as many as the bound allows. -/
def bounded (bound : Option Nat) (rows : List (List Stored)) : List (List Stored) :=
  match bound with
  | some n => rows.take n
  | none => rows

def listing : String :=
  "SELECT name FROM sqlite_master WHERE type = 'table' AND name NOT LIKE 'sqlite_%'"

def database (catalog : Catalog) : Database where
  driver := .sqlite
  target := Log.sqliteTarget
  selectList _ := "*"
  listing := listing
  tables := some catalog.listed
  columns name := (catalog.find? name.text).map Table.described
  rows name _ bound :=
    match catalog.find? name.text with
    | some table => ⟨(bounded bound table.rows).map Stored.rowSource, true⟩
    | none => ⟨[], false⟩
  count name := (catalog.find? name.text).map fun table => (table.rows.length : Int)
  disabledRules := catalog.disabledRules

end Catalog

/-- What is answered where no database can be opened. -/
def unavailable : Database where
  driver := .sqlite
  target := Log.sqliteTarget
  selectList _ := "*"
  listing := Catalog.listing
  tables := none
  columns _ := none
  rows _ _ _ := ⟨[], false⟩
  count _ := none
  disabledRules := none

end TableExport.Sqlite
