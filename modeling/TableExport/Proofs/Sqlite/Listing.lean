import Mathlib
import TableExport.Proofs.Export.Runs
import TableExport.Sqlite.Catalog

/-!
# Listing the tables of a SQLite database

The statement that lists the tables leaves out the names that match a pattern. The
underscore of the reserved prefix is a wildcard there, so a name with any other character
in its place is left out as well, though its table is not internal.
-/
namespace TableExport

namespace TableName

theorem ofText_empty : ofText "" = .error (.configuration "table name cannot be empty") :=
  dif_pos rfl

theorem ofText_of_ne {text : String} (nonempty : text ≠ "") : ofText text = .ok ⟨text, nonempty⟩ :=
  dif_neg nonempty

/-- Names are refused if one of them is empty; else each is kept. -/
theorem all_eq (names : List String) :
    ("" ∈ names → all names = .error (.raised (.configuration "table name cannot be empty"))) ∧
      ("" ∉ names → ∃ tables, all names = .ok tables ∧ tables.map text = names) := by
  induction names with
  | nil => exact ⟨nofun, fun _ => ⟨[], rfl, rfl⟩⟩
  | cons name rest ih =>
    by_cases empty : name = ""
    · subst empty
      refine ⟨fun _ => ?_, fun absent => absurd List.mem_cons_self absent⟩
      simp [all, List.mapM_cons, ofText_empty, bind, Except.bind]
    · have differs : "" ≠ name := fun same => empty same.symm
      unfold all at ih ⊢
      rw [List.mapM_cons, ofText_of_ne empty]
      -- the first name is kept, so the outcome is that of the others
      cases found : rest.mapM ofText with
      | error e =>
        simp only [found] at ih
        refine ⟨fun member => ?_, fun absent => ?_⟩
        · exact ih.1 ((List.mem_cons.mp member).resolve_left differs)
        · obtain ⟨tables, refused, -⟩ := ih.2 fun member => absent (List.mem_cons_of_mem _ member)
          cases refused
      | ok tables =>
        simp only [found] at ih
        refine ⟨fun member => ?_, fun absent => ?_⟩
        · cases ih.1 ((List.mem_cons.mp member).resolve_left differs)
        · obtain ⟨kept, same, named⟩ := ih.2 fun member => absent (List.mem_cons_of_mem _ member)
          cases same
          exact ⟨⟨name, empty⟩ :: tables, rfl, congrArg (name :: ·) named⟩

end TableName

namespace Sqlite

/-! ## Patterns and prefixes -/

/-- Whether a text matches a pattern: `%` stands for any text, `_` for any character, and the
case of ASCII letters does not count. -/
def like : List Char → List Char → Bool
  | [], text => text.isEmpty
  | letter :: pattern, text =>
    if letter = '%' then text.tails.any (like pattern)
    else
      match text with
      | [] => false
      | c :: rest => (letter = '_' || c.toLower == letter.toLower) && like pattern rest

/-- Whether a name starts like those of internal tables, in any case. -/
def hasReservedPrefix (name : String) : Bool :=
  Text.sameLetters (String.ofList (name.toList.take 7)) "sqlite_"

private theorem any_tails (text : List Char) : text.tails.any List.isEmpty = true :=
  List.any_eq_true.mpr ⟨[], by simp [List.mem_tails], rfl⟩

private theorem toList_sqlite : "sqlite".toList = ['s', 'q', 'l', 'i', 't', 'e'] := by decide

/-- What is left out of the listing is what matches the pattern of its statement. -/
theorem isReserved_eq_like (name : String) :
    isReserved name = like "sqlite_%".toList name.toList := by
  have pattern : "sqlite_%".toList = ['s', 'q', 'l', 'i', 't', 'e', '_', '%'] := by decide
  unfold isReserved
  rw [pattern]
  -- a name of less than seven characters has no place for the wildcard
  rcases name.toList with _ | ⟨s, _ | ⟨q, _ | ⟨l, _ | ⟨i, _ | ⟨t, _ | ⟨e, _ | ⟨c, rest⟩⟩⟩⟩⟩⟩⟩
  case cons.cons.cons.cons.cons.cons.cons => simp [like, any_tails, Text.sameLetters, toList_sqlite]
  all_goals simp [like]

theorem toLower_eq_underscore (c : Char) : c.toLower = '_' ↔ c = '_' := by
  unfold Char.toLower
  split
  next upper =>
    -- a capital stays a letter, and the underscore is none
    have low : 65 ≤ c.val.toNat := upper.1
    have high : c.val.toNat ≤ 90 := upper.2
    constructor
    · intro same
      have value : (c.val + 32).toNat = 95 := congrArg (fun d => d.val.toNat) same
      have shift : (32 : UInt32).toNat = 32 := rfl
      have small : c.val.toNat + 32 < 2 ^ 32 := by omega
      rw [UInt32.toNat_add, shift, Nat.mod_eq_of_lt small] at value
      omega
    · rintro rfl
      exact absurd high (by decide)
  next => rfl

/-- A reserved prefix is a match of the pattern by an underscore in the place of its wildcard. -/
theorem hasReservedPrefix_iff (name : String) :
    hasReservedPrefix name = true ↔ isReserved name = true ∧ name.toList[6]? = some '_' := by
  have longer : "sqlite_".toList = ['s', 'q', 'l', 'i', 't', 'e', '_'] := by decide
  unfold isReserved hasReservedPrefix
  rcases name.toList with _ | ⟨s, _ | ⟨q, _ | ⟨l, _ | ⟨i, _ | ⟨t, _ | ⟨e, _ | ⟨c, rest⟩⟩⟩⟩⟩⟩⟩
  case cons.cons.cons.cons.cons.cons.cons =>
    simp [Text.sameLetters, toList_sqlite, longer, toLower_eq_underscore, and_assoc]
  all_goals simp [Text.sameLetters, longer]

/-! ## Listings -/

namespace Catalog

/-- The names of all tables that are not internal. -/
def userNames (catalog : Catalog) : List String :=
  (catalog.tables.map Table.name).filter fun name => !hasReservedPrefix name

theorem listed_eq_like (catalog : Catalog) :
    catalog.listed =
      (catalog.tables.map Table.name).filter fun name => !like "sqlite_%".toList name.toList := by
  unfold listed
  congr 1
  funext name
  rw [isReserved_eq_like]

/-- No user table is left out exactly if each name that matches has the reserved prefix. -/
theorem listed_eq_userNames_iff (catalog : Catalog) :
    catalog.listed = catalog.userNames ↔
      ∀ table ∈ catalog.tables, isReserved table.name = true → table.name.toList[6]? = some '_' := by
  unfold listed userNames
  rw [← List.forall_mem_map (f := Table.name)
    (P := fun name => isReserved name = true → name.toList[6]? = some '_')]
  constructor
  · intro same name member reserved
    by_contra other
    -- the table would be a user table, which the listing leaves out
    have user : hasReservedPrefix name = false := by
      rw [← Bool.not_eq_true, hasReservedPrefix_iff]
      exact fun both => other both.2
    have kept : name ∈ (catalog.tables.map Table.name).filter fun name => !isReserved name := by
      rw [same]
      simpa [user] using member
    simp [reserved] at kept
  · intro exact_
    apply List.filter_congr
    intro name member
    have same : isReserved name = hasReservedPrefix name := by
      rw [Bool.eq_iff_iff, hasReservedPrefix_iff]
      exact ⟨fun reserved => ⟨reserved, exact_ name member reserved⟩, And.left⟩
    rw [same]

theorem reply_listTables (catalog : Catalog) {history : List Call} (opened : .close ∉ history) :
    (catalog.database.storage.reply history .listTables).outcome = TableName.all catalog.listed := by
  have still : Database.isClosed history .listTables = false := by
    simp [Database.isClosed, opened]
  simp [Database.storage, Database.reply, still, Database.answer, database, Reply.quiet]

end Catalog

/-! ## Main result -/

/-- The listing of an open database is that of its tables, in order, without the names that
match the pattern; it fails exactly if one of them is empty. It is complete exactly if no
name that matches has another character than an underscore after its first six. A full
export writes the listed tables. -/
theorem listTables_complete_iff (catalog : Catalog) {history : List Call}
    (opened : .close ∉ history) :
    catalog.listed =
        (catalog.tables.map Table.name).filter (fun name => !like "sqlite_%".toList name.toList) ∧
      ("" ∈ catalog.listed → (catalog.database.storage.reply history .listTables).outcome =
        .error (.raised (.configuration "table name cannot be empty"))) ∧
      ("" ∉ catalog.listed → ∃ tables,
        (catalog.database.storage.reply history .listTables).outcome = .ok tables ∧
          tables.map TableName.text = catalog.listed) ∧
      (catalog.listed = catalog.userNames ↔
        ∀ table ∈ catalog.tables,
          like "sqlite_%".toList table.name.toList = true → table.name.toList[6]? = some '_') ∧
      ((catalog.tables.map Table.name).Nodup → catalog.listed.Nodup) ∧
      ((∀ view ∈ catalog.views, view.1 ∉ catalog.tables.map Table.name) →
        ∀ view ∈ catalog.views, view.1 ∉ catalog.listed) ∧
      (∀ name ∈ catalog.listed, hasReservedPrefix name = false) ∧
      ∀ target options capture summary world world', world.calls = history →
        exportDatabase catalog.database.storage target options capture world = .ok summary world' →
        summary.tables.map (fun entry => entry.table.text) = catalog.listed := by
  have answer := catalog.reply_listTables opened
  obtain ⟨refused, given⟩ := TableName.all_eq catalog.listed
  have sublist : catalog.listed.Sublist (catalog.tables.map Table.name) := List.filter_sublist
  refine ⟨catalog.listed_eq_like, ?_, ?_, ?_, fun distinct => distinct.sublist sublist, ?_, ?_, ?_⟩
  · rw [answer]
    exact refused
  · rw [answer]
    exact given
  · simpa only [isReserved_eq_like] using catalog.listed_eq_userNames_iff
  · exact fun apart view member listed => apart view member (sublist.subset listed)
  · intro name member
    have left : isReserved name = false := by simpa using (List.mem_filter.mp member).2
    rw [← Bool.not_eq_true, hasReservedPrefix_iff, left]
    simp
  · rintro target options capture summary world world' rfl h
    obtain ⟨ran, captured⟩ := exportAll_of_exportDatabase h
    obtain ⟨survey, seen, -, rfl, -, ⟨talks, -⟩, -⟩ := Run.exportAll_ok captured ran
    have listing : TableName.all catalog.listed = .ok survey.names := answer ▸ talks.gives.1
    -- a run that succeeds has a listing, so no listed name is empty
    have named : "" ∉ catalog.listed := by
      intro empty
      rw [refused empty] at listing
      cases listing
    obtain ⟨tables, same, texts⟩ := given named
    rw [same] at listing
    cases listing
    rw [← texts]
    simp [Survey.summary, Survey.names, TableData.summary, Function.comp_def]

/-- A table whose name has another letter in the place of the underscore. -/
def nearCatalog : Catalog where
  tables := [⟨"sqliteXfoo", [("id", "INTEGER")], [[.integer 1]]⟩,
    ⟨"SQLITE_stat1", [("tbl", "TEXT")], []⟩, ⟨"apps", [("id", "INTEGER")], []⟩]
  views := [("v", "apps")]

theorem listTables_complete_iff_nearCatalog :
    (∃ tables, (nearCatalog.database.storage.reply [] .listTables).outcome = .ok tables ∧
      tables.map TableName.text = nearCatalog.listed) ∧
    ¬nearCatalog.listed = nearCatalog.userNames := by
  have opened : Call.close ∉ [] := by simp
  obtain ⟨-, -, given, complete, -⟩ := listTables_complete_iff nearCatalog opened
  refine ⟨given (by decide +kernel), fun same => ?_⟩
  have mark := complete.mp same _ List.mem_cons_self (by decide +kernel)
  revert mark
  decide +kernel

/-- The user table is not listed. -/
theorem nearCatalog_incomplete :
    (nearCatalog.database.storage.reply [] .listTables).outcome =
        .ok [⟨"apps", by decide⟩] ∧
      "sqliteXfoo" ∈ nearCatalog.userNames := by
  constructor
  · cbv
  · decide +kernel

end Sqlite

end TableExport
