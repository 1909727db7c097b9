import Mathlib
import TableExport.Postgres.Database

/-!
# Select lists

A select list names columns, each as it is or cast to text. Its text is unambiguous: only one
list of items has it, however the columns are called. A name ends at the first quote that is not
doubled, and what follows a name there tells a cast from the next item.
-/
namespace TableExport.Postgres

/-! ## Names -/

/-- The characters of a name with each quote written twice. -/
def escaped (name : List Char) : List Char :=
  name.flatMap fun c => if c = '"' then ['"', '"'] else [c]

theorem quoteIdentifier_toList (name : String) :
    (quoteIdentifier name).toList = '"' :: (escaped name.toList ++ ['"']) := by
  rw [quoteIdentifier, String.toList_ofList]
  rfl

/-- Reads a name up to the first quote that is not doubled, and gives what follows it. -/
def unescape : List Char → List Char × List Char
  | '"' :: '"' :: rest => ('"' :: (unescape rest).1, (unescape rest).2)
  | '"' :: rest => ([], rest)
  | c :: rest => (c :: (unescape rest).1, (unescape rest).2)
  | [] => ([], [])

theorem unescape_escaped (name : List Char) {rest : List Char} (after : rest.head? ≠ some '"') :
    unescape (escaped name ++ '"' :: rest) = (name, rest) := by
  induction name with
  | nil =>
    cases rest with
    | nil => rfl
    | cons c rest =>
      have plain : c ≠ '"' := fun quote => after (congrArg some quote)
      simp [escaped, unescape, plain]
  | cons c name ih =>
    by_cases quote : c = '"'
    · subst quote
      show unescape ('"' :: '"' :: (escaped name ++ '"' :: rest)) = _
      rw [unescape, ih]
    · have first : escaped (c :: name) = c :: escaped name := by
        rw [escaped, List.flatMap_cons, if_neg quote, List.singleton_append, escaped]
      rw [first, List.cons_append, unescape, ih] <;> simp [quote]

/-! ## Items -/

/-- An item of a select list: a column by its name, as it is or cast to text. -/
structure SelectItem where
  name : String
  cast : Bool
  deriving DecidableEq, Repr

namespace SelectItem

def text (item : SelectItem) : String :=
  if item.cast then quoteIdentifier item.name ++ "::text AS " ++ quoteIdentifier item.name
  else quoteIdentifier item.name

/-- The text of a select list. -/
def list (items : List SelectItem) : String := ", ".intercalate (items.map text)

/-- The characters of an item behind its first name. -/
def tail (item : SelectItem) : List Char :=
  if item.cast then "::text AS ".toList ++ (quoteIdentifier item.name).toList else []

/-- The characters of a select list behind one of its items. -/
def more : List SelectItem → List Char
  | [] => []
  | item :: rest => ", ".toList ++ (item.text.toList ++ more rest)

theorem text_toList (item : SelectItem) :
    item.text.toList = '"' :: (escaped item.name.toList ++ '"' :: item.tail) := by
  unfold text tail
  split <;> simp [quoteIdentifier_toList]

theorem list_toList (item : SelectItem) (rest : List SelectItem) :
    (list (item :: rest)).toList = item.text.toList ++ more rest := by
  induction rest generalizing item with
  | nil => simp [list, more]
  | cons next rest ih =>
    have split : list (item :: next :: rest) = item.text ++ ", " ++ list (next :: rest) :=
      String.intercalate_cons_cons
    rw [split, String.toList_append, String.toList_append, ih, more, List.append_assoc]

/-- Behind a name neither the rest of its item nor the next item begins with a quote. -/
theorem head?_tail (item : SelectItem) (rest : List SelectItem) :
    (item.tail ++ more rest).head? ≠ some '"' := by
  unfold tail
  split
  · simp
  · cases rest <;> simp [more]

theorem text_more {a b : SelectItem} {as bs : List SelectItem}
    (same : a.text.toList ++ more as = b.text.toList ++ more bs) : a = b ∧ more as = more bs := by
  simp only [text_toList, List.cons_append, List.append_assoc, List.cons.injEq, true_and] at same
  have read := congrArg unescape same
  rw [unescape_escaped _ (head?_tail a as), unescape_escaped _ (head?_tail b bs)] at read
  obtain ⟨name, behind⟩ := Prod.mk.inj read
  obtain ⟨aName, aCast⟩ := a
  obtain ⟨bName, bCast⟩ := b
  obtain rfl := String.toList_injective name
  -- a cast goes on with a colon, the next item with a comma
  cases aCast <;> cases bCast
  case false.false => exact ⟨rfl, behind⟩
  case false.true => cases as <;> simp [tail, more] at behind
  case true.false => cases bs <;> simp [tail, more] at behind
  case true.true => exact ⟨rfl, List.append_cancel_left behind⟩

theorem more_injective {as bs : List SelectItem} (same : more as = more bs) : as = bs := by
  induction as generalizing bs with
  | nil =>
    cases bs with
    | nil => rfl
    | cons b bs => simp [more] at same
  | cons a as ih =>
    cases bs with
    | nil => simp [more] at same
    | cons b bs =>
      simp only [more, List.append_cancel_left_eq] at same
      obtain ⟨rfl, rest⟩ := text_more same
      rw [ih rest]

/-- Only one list of items has the text of a select list. -/
theorem list_injective {as bs : List SelectItem} (same : list as = list bs) : as = bs := by
  have chars := congrArg String.toList same
  cases as with
  | nil =>
    cases bs with
    | nil => rfl
    | cons b bs =>
      rw [list_toList, text_toList] at chars
      simp [list] at chars
  | cons a as =>
    cases bs with
    | nil =>
      rw [list_toList, text_toList] at chars
      simp [list] at chars
    | cons b bs =>
      rw [list_toList, list_toList] at chars
      obtain ⟨rfl, rest⟩ := text_more chars
      rw [more_injective rest]

/-- The item that asks for a column. -/
def ofColumn (column : Column) : SelectItem := ⟨column.name, needsCast column⟩

theorem list_ofColumn (columns : List Column) :
    list (columns.map ofColumn) = selectList columns := by
  rw [list, selectList, List.map_map]
  rfl

end SelectItem

/-! ## Statements -/

theorem select_injective {a b : String} {table : TableName} {limit : Option UInt32}
    (same : Sql.select a table limit = Sql.select b table limit) : a = b := by
  unfold Sql.select at same
  split at same <;> simpa [← String.toList_inj] using same

/-- The statement of a full read is read as the items for its columns, and as no others. -/
theorem statement_iff (server : Server) (table : TableName) (columns : List Column)
    (limit : Option UInt32) (items : List SelectItem) :
    server.database.statement? (.readRows table columns limit) =
      some (Sql.select (SelectItem.list items) table limit) ↔
    items = columns.map SelectItem.ofColumn := by
  constructor
  · intro sent
    have same := select_injective (Option.some.inj sent)
    exact SelectItem.list_injective (same.symm.trans (SelectItem.list_ofColumn columns).symm)
  · rintro rfl
    rw [SelectItem.list_ofColumn]
    rfl

end TableExport.Postgres
