import Mathlib
import TableExport.Proofs.Sqlite.DisabledRules

/-!
# Users who disabled a rule

A record says that a user of an organisation disabled a rule, for one of possibly several clusters.
The statement counts the records of a rule, so what is reported is the number of its users exactly
where no user has several records of the rule.
-/
namespace TableExport.Sqlite

/-! ## Records -/

/-- A record of a disabled rule. -/
structure Disabling where
  org : Stored
  user : Stored
  rule : Stored
  deriving DecidableEq, Repr

/-- The records of a table, by the columns that say who disabled what. -/
structure Recorded (table : Table) (records : List Disabling) : Prop where
  orgs : Catalog.columnValues table "org_id" = some (records.map Disabling.org)
  users : Catalog.columnValues table "user_id" = some (records.map Disabling.user)
  rules : Catalog.columnValues table "rule_id" = some (records.map Disabling.rule)

/-- A table that has the columns has records, one for each of its rows. -/
theorem exists_recorded {table : Table}
    (columns : ∀ name ∈ ["org_id", "user_id", "rule_id"],
      (Catalog.columnValues table name).isSome = true) :
    ∃ records, Recorded table records := by
  have column (name : String) (present : (Catalog.columnValues table name).isSome = true) :
      ∃ index : Nat, Catalog.columnValues table name =
        some (table.rows.map fun row => (row[index]?).getD .null) := by
    obtain ⟨values, held⟩ := Option.isSome_iff_exists.mp present
    obtain ⟨index, -, rfl⟩ := Option.map_eq_some_iff.mp held
    exact ⟨index, held⟩
  simp only [List.forall_mem_cons] at columns
  obtain ⟨org, atOrg⟩ := column _ columns.1
  obtain ⟨user, atUser⟩ := column _ columns.2.1
  obtain ⟨rule, atRule⟩ := column _ columns.2.2.1
  refine ⟨table.rows.map fun row => ⟨(row[org]?).getD .null, (row[user]?).getD .null,
    (row[rule]?).getD .null⟩, ⟨?_, ?_, ?_⟩⟩
  · rw [atOrg, List.map_map]
    rfl
  · rw [atUser, List.map_map]
    rfl
  · rw [atRule, List.map_map]
    rfl

/-- The records of one rule, in all the forms that the collation takes for it. -/
def recordsOf (collation : Collation) (rule : String) (records : List Disabling) :
    List Disabling :=
  records.filter fun record => sameGroup collation (.text (Bytes.ofText rule)) record.rule

/-- The user of a record: an identifier within an organisation. NULL is no user. -/
def Disabling.user? (record : Disabling) : Option ((Int ⊕ Stored) × (Int ⊕ Stored)) :=
  if record.user = .null then none
  else some (record.org.meaning .binary, record.user.meaning .binary)

/-- The number of different users in some records. -/
def userCount (records : List Disabling) : Nat := (records.filterMap Disabling.user?).dedup.length

/-- Every record has a user, and each another one. -/
def OncePerUser (records : List Disabling) : Prop :=
  (∀ record ∈ records, (record.user?).isSome) ∧ (records.map Disabling.user?).Nodup

theorem countP_rules (collation : Collation) (rule : String) (records : List Disabling) :
    (records.map Disabling.rule).countP (sameGroup collation (.text (Bytes.ofText rule))) =
      (recordsOf collation rule records).length := by
  rw [List.countP_map, List.countP_eq_length_filter, recordsOf]
  rfl

theorem userCount_le (records : List Disabling) : userCount records ≤ records.length :=
  (List.dedup_sublist _).length_le.trans (List.length_filterMap_le _ _)

/-- There are as many users as records if each record has a user of its own. -/
theorem userCount_eq_iff {records : List Disabling} :
    userCount records = records.length ↔ OncePerUser records := by
  have users := List.length_filterMap_le Disabling.user? records
  have fewer := (List.dedup_sublist (records.filterMap Disabling.user?)).length_le
  -- where every record has a user, the users are told apart as they are in the records
  have told (all : ∀ record ∈ records, (record.user?).isSome = true) :
      (records.map Disabling.user?).Nodup ↔ (records.filterMap Disabling.user?).Nodup := by
    have whole : (records.filterMap Disabling.user?).map some = records.map Disabling.user? := by
      rw [List.map_filterMap_some_eq_filter_map_isSome, List.filter_eq_self]
      exact List.forall_mem_map.mpr all
    rw [← whole, List.nodup_map_iff (Option.some_injective _)]
  unfold userCount
  constructor
  · intro same
    have all : ∀ record ∈ records, (record.user?).isSome = true :=
      List.filterMap_length_eq_length.mp (by omega)
    have distinct : (records.filterMap Disabling.user?).dedup = records.filterMap Disabling.user? :=
      (List.dedup_sublist _).eq_of_length (by omega)
    exact ⟨all, (told all).mpr (List.dedup_eq_self.mp distinct)⟩
  · rintro ⟨all, distinct⟩
    rw [List.dedup_eq_self.mpr ((told all).mp distinct), List.filterMap_length_eq_length.mpr all]

/-! ## Reports -/

/-- A rule is reported exactly if its number is at least two, and with that number. -/
structure ReportedAs (collation : Collation) (rules : List DisabledRule) (rule : String)
    (number : Nat) : Prop where
  listed : (∃ entry ∈ rules, collation.Equal entry.rule rule) ↔ 2 ≤ number
  count : ∀ entry ∈ rules, collation.Equal entry.rule rule → entry.count = number

section Collated
variable {collation : Collation} {rules : List DisabledRule} {rule : String}

/-- The report has one number for a rule, unless there is none in it. -/
theorem ReportedAs.iff {number other : Nat} (reported : ReportedAs collation rules rule number) :
    ReportedAs collation rules rule other ↔ other = number ∨ number < 2 ∧ other < 2 := by
  constructor
  · intro again
    by_cases several : 2 ≤ number
    · obtain ⟨entry, member, named⟩ := reported.listed.mpr several
      have same := (again.count entry member named).symm.trans (reported.count entry member named)
      exact .inl (Int.ofNat_inj.mp same)
    · have absent : ¬2 ≤ other := fun listed =>
        several (reported.listed.mp (again.listed.mpr listed))
      exact .inr ⟨Nat.lt_of_not_le several, Nat.lt_of_not_le absent⟩
  · rintro (rfl | ⟨few, fewer⟩)
    · exact reported
    · have unlisted : ¬∃ entry ∈ rules, collation.Equal entry.rule rule := fun listed =>
        absurd (reported.listed.mp listed) (Nat.not_le_of_lt few)
      exact ⟨⟨fun listed => absurd listed unlisted, fun several => absurd several (by omega)⟩,
        fun entry member named => absurd ⟨entry, member, named⟩ unlisted⟩

/-- Equal rules have the same values in their group. -/
theorem sameGroup_of_equal {other : String} (equal : collation.Equal other rule) :
    sameGroup collation (.text (Bytes.ofText other)) =
      sameGroup collation (.text (Bytes.ofText rule)) :=
  sameGroup_congr (meaning_text_eq_iff.mpr equal)

theorem Reported.reportedAs {records : List Disabling}
    (reported : Reported collation (records.map Disabling.rule) rules) (rule : String) :
    ReportedAs collation rules rule (recordsOf collation rule records).length := by
  rw [← countP_rules]
  have number : ∀ entry ∈ rules, collation.Equal entry.rule rule → entry.count =
      (records.map Disabling.rule).countP (sameGroup collation (.text (Bytes.ofText rule))) := by
    intro entry member equal
    rw [(reported.counted entry member).2.1, sameGroup_of_equal equal]
  refine ⟨⟨?_, fun several => ?_⟩, number⟩
  · rintro ⟨entry, member, equal⟩
    have twice := (reported.counted entry member).2.2
    rw [number entry member equal] at twice
    exact Int.ofNat_le.mp twice
  · -- one of the values that are counted leads to the entry of their group
    obtain ⟨value, present, same⟩ := List.countP_pos_iff.mp (Nat.zero_lt_of_lt several)
    have some_ : value ≠ .null := by
      rintro rfl
      have text : Stored.text (Bytes.ofText rule) ≠ .null := nofun
      exact not_sameGroup_null text same
    have group := sameGroup_congr ((sameGroup_iff _ _).mp same)
    rw [group] at several
    obtain ⟨entry, member, shown⟩ := reported.complete value present some_ several
    rw [← group, sameGroup_iff, meaning_text_eq_iff] at shown
    exact ⟨entry, member, shown.symm⟩

end Collated

namespace Catalog
variable {catalog : Catalog} {table : Table}

/-- If the rules that are to be shown can be read, each is reported with the number of its records,
provided there are at least two. That is the number of its users, and the rule is reported exactly
if there are at least two users, if and only if every record of the rule has a user of its own or
there is at most one record. Else the answer is a failed query. The rules to be shown can be read if
all repeated ones can; where bytes are compared, only then. -/
theorem disabledRules_users {history : List Call}
    (found : catalog.find? "rule_disable" = some table)
    (columns : ∀ name ∈ ["org_id", "user_id", "rule_id"], (columnValues table name).isSome = true)
    (opened : Call.close ∉ history) :
    ∃ records, Recorded table records ∧
      (∀ collation, columnCollation table "rule_id" = some collation →
        Readable collation (catalog.visited collation (records.map Disabling.rule)) → ∃ rules,
        (catalog.database.storage.reply history .disabledRules).outcome = .ok rules ∧
        ∀ rule, ReportedAs collation rules rule (recordsOf collation rule records).length ∧
          (ReportedAs collation rules rule (userCount (recordsOf collation rule records)) ↔
            (2 ≤ (recordsOf collation rule records).length →
              OncePerUser (recordsOf collation rule records)))) ∧
      ((∀ collation, columnCollation table "rule_id" = some collation →
          ¬Readable collation (catalog.visited collation (records.map Disabling.rule))) →
        ∃ error, error.kind = .query ∧
          (catalog.database.storage.reply history .disabledRules).outcome =
            .error (.raised error)) ∧
      (∀ collation, Legible collation (records.map Disabling.rule) →
        Readable collation (catalog.visited collation (records.map Disabling.rule))) ∧
      (Readable .binary (catalog.visited .binary (records.map Disabling.rule)) →
        Legible .binary (records.map Disabling.rule)) := by
  obtain ⟨records, recorded⟩ := exists_recorded columns
  have replied := @reply_disabledRules catalog _ opened
  refine ⟨records, recorded, ?_, fun unreadable => ?_, fun _ => readable_visited,
    legible_of_visited⟩
  · intro collation collated readable
    obtain ⟨rules, answered⟩ :=
      (disabledRules_answered_iff found recorded.rules collated).mpr readable
    rw [answered] at replied
    refine ⟨rules, replied, fun rule => ?_⟩
    have counted := (reported_of_some found recorded.rules collated answered).reportedAs rule
    have most := userCount_le (recordsOf collation rule records)
    refine ⟨counted, ?_⟩
    rw [counted.iff, ← userCount_eq_iff]
    omega
  · rw [disabledRules_unanswered found recorded.rules unreadable] at replied
    exact ⟨_, rfl, replied⟩

/-- The records of one rule that is disabled by organisation, user and cluster. -/
def ruleTable (rows : List (Int64 × Bytes × Bytes)) : Table where
  name := "rule_disable"
  columns := [("org_id", "INTEGER"), ("user_id", "TEXT"), ("cluster_id", "TEXT"),
    ("rule_id", "TEXT"), ("error_key", "TEXT")]
  rows := rows.map fun (org, user, cluster) =>
    [.integer org, .text user, .text cluster, .text [0x72], .text [0x6B]]

def disabledBy (rows : List (Int64 × Bytes × Bytes)) : Catalog where
  tables := [ruleTable rows]

theorem disabledBy_found (rows : List (Int64 × Bytes × Bytes)) :
    (disabledBy rows).find? "rule_disable" = some (ruleTable rows) := by
  have named : Text.sameLetters "rule_disable" "rule_disable" = true := by decide
  simp [find?, disabledBy, ruleTable, named]

/-- The user u of one organisation with two clusters, and the user u of another. -/
def twoUsers : List (Int64 × Bytes × Bytes) :=
  [(1, [0x75], [0x63]), (1, [0x75], [0x64]), (2, [0x75], [0x63])]

theorem disabledBy_collation (rows : List (Int64 × Bytes × Bytes)) :
    columnCollation (ruleTable rows) "rule_id" = some .binary := by
  show collation? "TEXT" = some .binary
  exact collation?_unnamed (by decide +kernel)

theorem disabledRules_users_twoUsers :
    ∃ rules, ((disabledBy twoUsers).database.storage.reply [] .disabledRules).outcome = .ok rules ∧
      ReportedAs .binary rules "r" 3 ∧ ¬ReportedAs .binary rules "r" 2 := by
  have found := disabledBy_found twoUsers
  have collated := disabledBy_collation twoUsers
  have column : columnValues (ruleTable twoUsers) "rule_id" =
      some (List.replicate 3 (.text [0x72])) := by decide
  have answered : (disabledBy twoUsers).disabledRules = some [⟨"r", 3⟩] := by
    rw [disabledRules_eq found column collated]
    cbv
  obtain ⟨records, recorded, readable, -⟩ :=
    disabledRules_users found (by decide) (List.not_mem_nil : Call.close ∉ [])
  obtain ⟨rules, replied, reported⟩ := readable _ collated
    ((disabledRules_answered_iff found recorded.rules collated).mp ⟨_, answered⟩)
  rw [reply_disabledRules List.not_mem_nil, answered] at replied
  cases replied
  have counted := (reported "r").1
  have three : 3 = (recordsOf .binary "r" records).length :=
    Int.ofNat_inj.mp (counted.count _ List.mem_cons_self rfl)
  rw [← three] at counted
  refine ⟨_, (reply_disabledRules List.not_mem_nil).trans (by rw [answered]), counted, ?_⟩
  rw [counted.iff]
  decide

/-- One user who disables a rule for two clusters. -/
def oneUser : List (Int64 × Bytes × Bytes) := [(1, [0x75], [0x63]), (1, [0x75], [0x64])]

/-- A rule that one user has disabled twice is reported as disabled by two. -/
theorem disabledRules_counts_records :
    ∃ table records, (disabledBy oneUser).find? "rule_disable" = some table ∧
      Recorded table records ∧ userCount (recordsOf .binary "r" records) = 1 ∧
      ((disabledBy oneUser).database.storage.reply [] .disabledRules).outcome =
        .ok [⟨"r", 2⟩] := by
  have found := disabledBy_found oneUser
  have column : columnValues (ruleTable oneUser) "rule_id" =
      some (List.replicate 2 (.text [0x72])) := by decide
  have answered : (disabledBy oneUser).disabledRules = some [⟨"r", 2⟩] := by
    rw [disabledRules_eq found column (disabledBy_collation oneUser)]
    cbv
  refine ⟨_, List.replicate 2 ⟨.integer 1, .text [0x75], .text [0x72]⟩, found, ?_, ?_, ?_⟩
  · exact ⟨by decide, by decide, by decide⟩
  · decide
  · rw [reply_disabledRules List.not_mem_nil, answered]

end Catalog

end TableExport.Sqlite
