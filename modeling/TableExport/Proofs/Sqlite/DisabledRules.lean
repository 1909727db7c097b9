import Mathlib
import TableExport.Proofs.Export.Interruptions
import TableExport.Proofs.Sqlite.Counts
import TableExport.Proofs.Sqlite.Groups
import TableExport.Proofs.Text.Utf8
import TableExport.Proofs.Traversals

/-!
# Disabled rules of a SQLite database

A rule is reported if its identifier occurs more than once, as the column's collation compares
identifiers, with the number of times it does, and the most frequent rule comes first. That takes an
identifier that is a text: the statement fails if anything else but NULL occurs more than once.

Of equal identifiers only the first is seen. So which of them is shown, and whether it can be read,
may depend on the order in which the database groups them; what is counted does not.
-/
namespace TableExport.Sqlite

/-! ## The order of rules -/

/-- Rules are listed by falling numbers. -/
theorem Catalog.sorted_counts (texts : List (Bytes × Nat)) :
    (texts.mergeSort moreDisabled).Pairwise fun a b => b.2 ≤ a.2 := by
  have sorted := @List.pairwise_mergeSort _ moreDisabled
    (fun a b c first second => by simp only [moreDisabled, decide_eq_true_eq] at *; omega)
    (fun a b => by simp only [moreDisabled, Bool.or_eq_true, decide_eq_true_eq]; omega) texts
  exact sorted.imp of_decide_eq_true

/-! ## The statement -/

/-- A counted text as it is stored. -/
def storedText (entry : Bytes × Nat) : Stored × Nat := (.text entry.1, entry.2)

/-- A counted text by its bytes. -/
def textBytes (entry : String × Nat) : Bytes × Nat := (Bytes.ofText entry.1, entry.2)

def countedRule (entry : String × Nat) : DisabledRule := ⟨entry.1, entry.2⟩

def storedText? : Stored × Nat → Option (Bytes × Nat)
  | (.text bytes, n) => some (bytes, n)
  | _ => none

def countedRule? (entry : Bytes × Nat) : Option DisabledRule :=
  (Utf8.decode? entry.1).map fun rule => ⟨rule, entry.2⟩

theorem storedText?_iff (entry : Stored × Nat) (text : Bytes × Nat) :
    storedText? entry = some text ↔ ∃ c, entry = storedText c ∧ text = id c := by
  obtain ⟨value, n⟩ := entry
  cases value with
  | text bytes => simp [storedText?, storedText, Prod.ext_iff, eq_comm]
  | _ => simp [storedText?, storedText]

theorem countedRule?_iff (text : Bytes × Nat) (rule : DisabledRule) :
    countedRule? text = some rule ↔ ∃ c, text = textBytes c ∧ rule = countedRule c := by
  obtain ⟨bytes, n⟩ := text
  simp only [countedRule?, Option.map_eq_some_iff, Utf8.decode?_iff]
  constructor
  · rintro ⟨name, rfl, rfl⟩
    exact ⟨(name, n), rfl, rfl⟩
  · rintro ⟨⟨name, m⟩, same, rfl⟩
    cases same
    exact ⟨name, rfl, rfl⟩

/-- The groups of more than one value. -/
def repeated (collation : Collation) (values : List Stored) : List (Stored × Nat) :=
  (tally collation values).filter fun entry => 1 < entry.2

namespace Catalog
variable {catalog : Catalog} {table : Table} {values : List Stored} {rules : List DisabledRule}
  {collation : Collation}

/-- The values of a column in the order in which they are grouped. -/
abbrev visited (catalog : Catalog) (collation : Collation) (values : List Stored) : List Stored :=
  catalog.plan.visit collation values

theorem disabledRules_eq (found : catalog.find? "rule_disable" = some table)
    (column : columnValues table "rule_id" = some values)
    (collated : columnCollation table "rule_id" = some collation) :
    catalog.disabledRules =
      ((repeated collation (catalog.visited collation values)).mapM storedText?).bind fun texts =>
        (texts.mergeSort moreDisabled).mapM countedRule? := by
  simp only [disabledRules, found, column, collated, Option.bind_eq_bind, Option.bind_some]
  rfl

/-- Without a collation there is no answer. -/
theorem disabledRules_uncollated (found : catalog.find? "rule_disable" = some table)
    (unknown : columnCollation table "rule_id" = none) : catalog.disabledRules = none := by
  simp only [disabledRules, found, unknown, Option.bind_eq_bind, Option.bind_some,
    Option.bind_none, Option.bind_fun_none]

/-- The statement is answered if the repeated groups are those of texts; these are then sorted. -/
theorem disabledRules_some_iff (found : catalog.find? "rule_disable" = some table)
    (column : columnValues table "rule_id" = some values)
    (collated : columnCollation table "rule_id" = some collation) :
    catalog.disabledRules = some rules ↔
      ∃ (texts : List (Bytes × Nat)) (entries : List (String × Nat)),
        repeated collation (catalog.visited collation values) = texts.map storedText ∧
        texts.mergeSort moreDisabled = entries.map textBytes ∧ rules = entries.map countedRule := by
  rw [disabledRules_eq found column collated, Option.bind_eq_some_iff]
  simp only [mapM_reads_iff storedText?_iff, mapM_reads_iff countedRule?_iff]
  constructor
  · rintro ⟨_, ⟨texts, split, rfl⟩, entries, sorted, rfl⟩
    exact ⟨texts, entries, split, by simpa using sorted, rfl⟩
  · rintro ⟨texts, entries, split, sorted, rfl⟩
    exact ⟨texts, ⟨texts, split, by simp⟩, entries, sorted, rfl⟩

end Catalog

/-! ## What is reported -/

/-- Texts that a collation takes for the same. -/
def Collation.Equal (collation : Collation) (s t : String) : Prop :=
  collation.canonical (Bytes.ofText s) = collation.canonical (Bytes.ofText t)

/-- The rules that are reported for these values: one of the texts of each group of at least two
values, with the number of values in the group, the most frequent first. -/
structure Reported (collation : Collation) (values : List Stored) (rules : List DisabledRule) :
    Prop where
  distinct : rules.Pairwise fun a b => ¬collation.Equal a.rule b.rule
  counted : ∀ rule ∈ rules, .text (Bytes.ofText rule.rule) ∈ values ∧
    rule.count = values.countP (sameGroup collation (.text (Bytes.ofText rule.rule))) ∧
    2 ≤ rule.count
  complete : ∀ value ∈ values, value ≠ .null → 2 ≤ values.countP (sameGroup collation value) →
    ∃ rule ∈ rules, sameGroup collation value (.text (Bytes.ofText rule.rule)) = true
  ordered : rules.Pairwise fun a b => b.count ≤ a.count

/-- The value that a repeated group shows, its first one, is a text that can be read. NULL is in
no group. -/
def Readable (collation : Collation) (values : List Stored) : Prop :=
  ∀ value, value ≠ .null → values.find? (sameGroup collation value) = some value →
    2 ≤ values.countP (sameGroup collation value) → ∃ rule, value = .text (Bytes.ofText rule)

/-- Every repeated value but NULL is a text that can be read. -/
def Legible (collation : Collation) (values : List Stored) : Prop :=
  ∀ value ∈ values, value ≠ .null → 2 ≤ values.countP (sameGroup collation value) →
    ∃ rule, value = .text (Bytes.ofText rule)

section Values
variable {collation : Collation} {values : List Stored}

theorem meaning_text_eq_iff {a b : Bytes} :
    (Stored.text a).meaning collation = (Stored.text b).meaning collation ↔
      collation.canonical a = collation.canonical b := by
  simp [Stored.meaning]

theorem storedText_injective : Function.Injective storedText := by
  rintro ⟨b, n⟩ ⟨c, m⟩ same
  cases same
  rfl

theorem textBytes_injective : Function.Injective textBytes := by
  rintro ⟨s, n⟩ ⟨t, m⟩ same
  obtain ⟨text, rfl⟩ := Prod.mk.inj same
  obtain rfl : s = t := Utf8.ofText_injective text
  rfl

theorem mem_repeated_iff {value : Stored} {n : Nat} :
    (value, n) ∈ repeated collation values ↔
      (value ≠ .null ∧ values.find? (sameGroup collation value) = some value ∧
        n = values.countP (sameGroup collation value)) ∧ 2 ≤ n := by
  rw [repeated, List.mem_filter, (groups_tally collation values).mem_iff, decide_eq_true_iff]
  rfl

/-- A value that occurs with others in its group leads to the entry of the group. -/
theorem exists_repeated {value : Stored} (present : value ∈ values) (some_ : value ≠ .null)
    (twice : 2 ≤ values.countP (sameGroup collation value)) :
    ∃ entry ∈ repeated collation values, entry.1.meaning collation = value.meaning collation := by
  obtain ⟨entry, listed, meaning⟩ := (groups_tally collation values).complete value present some_
  have count := ((groups_tally collation values).counted entry listed).2
  rw [sameGroup_congr meaning] at count
  exact ⟨entry, List.mem_filter.mpr ⟨listed, decide_eq_true (count ▸ twice)⟩, meaning⟩

theorem readable_iff :
    Readable collation values ↔
      ∀ entry ∈ repeated collation values, ∃ rule, entry.1 = .text (Bytes.ofText rule) := by
  constructor
  · rintro readable ⟨value, n⟩ member
    obtain ⟨⟨some_, first, rfl⟩, twice⟩ := mem_repeated_iff.mp member
    exact readable value some_ first twice
  · intro readable value some_ first twice
    exact readable _ (mem_repeated_iff.mpr ⟨⟨some_, first, rfl⟩, twice⟩)

/-- It is enough that all repeated values can be read. -/
theorem Legible.readable (legible : Legible collation values) : Readable collation values :=
  fun value some_ first twice => legible value (List.mem_of_find?_eq_some first) some_ twice

/-- Where bytes are compared, all values of a group are judged by its first one. -/
theorem readable_binary_iff : Readable .binary values ↔ Legible .binary values := by
  constructor
  · intro readable value present some_ twice
    obtain ⟨first, shown⟩ := Option.isSome_iff_exists.mp
      (List.find?_isSome.mpr ⟨value, present, sameGroup_refl value⟩)
    -- equal bytes make the value and the first one of its group the same text
    have same := List.find?_some shown
    have group := sameGroup_congr ((sameGroup_iff _ _).mp same)
    have apart : first ≠ .null := by
      rintro rfl
      exact not_sameGroup_null some_ same
    rw [group] at shown twice
    obtain ⟨rule, rfl⟩ := readable first apart shown twice
    rw [sameGroup_comm, sameGroup_binary, beq_iff_eq] at same
    exact ⟨rule, same⟩
  · exact Legible.readable

/-- The order of the values makes no difference to whether they can all be read. -/
theorem legible_perm {visited : List Stored} (perm : visited.Perm values) :
    Legible collation visited ↔ Legible collation values := by
  simp only [Legible, perm.mem_iff, perm.countP_eq]

/-- Groups that show readable texts are counted texts. -/
theorem exists_texts {groups : List (Stored × Nat)}
    (readable : ∀ entry ∈ groups, ∃ rule, entry.1 = .text (Bytes.ofText rule)) :
    ∃ entries : List (String × Nat), groups = (entries.map textBytes).map storedText := by
  obtain ⟨entries, same⟩ : groups ∈ Set.range (List.map (storedText ∘ textBytes)) := by
    rw [Set.range_list_map]
    intro entry member
    obtain ⟨rule, text⟩ := readable entry member
    exact ⟨(rule, entry.2), Prod.ext text.symm rfl⟩
  exact ⟨entries, by rw [← same, List.map_map]⟩

/-- Sorting keeps texts readable. -/
theorem exists_sorted (entries : List (String × Nat)) :
    ∃ sorted : List (String × Nat),
      (entries.map textBytes).mergeSort moreDisabled = sorted.map textBytes := by
  obtain ⟨sorted, same⟩ :
      (entries.map textBytes).mergeSort moreDisabled ∈ Set.range (List.map textBytes) := by
    rw [Set.range_list_map]
    intro text member
    rw [List.mem_mergeSort] at member
    obtain ⟨entry, -, rfl⟩ := List.mem_map.mp member
    exact ⟨entry, rfl⟩
  exact ⟨sorted, same.symm⟩

/-- What is listed in the end are the repeated groups. -/
theorem mem_listed_iff {texts : List (Bytes × Nat)} {entries : List (String × Nat)}
    (split : repeated collation values = texts.map storedText)
    (sorted : texts.mergeSort moreDisabled = entries.map textBytes) {rule : String} {n : Nat} :
    (rule, n) ∈ entries ↔ (.text (Bytes.ofText rule), n) ∈ repeated collation values := by
  rw [split, ← List.mem_map_of_injective textBytes_injective, ← sorted, List.mem_mergeSort,
    ← List.mem_map_of_injective storedText_injective]
  rfl

/-- Different groups of texts have texts that are not equal. -/
theorem distinct_texts {texts : List (Bytes × Nat)}
    (split : repeated collation values = texts.map storedText) :
    texts.Pairwise fun a b => collation.canonical a.1 ≠ collation.canonical b.1 := by
  have distinct : (repeated collation values).Pairwise fun a b =>
      a.1.meaning collation ≠ b.1.meaning collation :=
    (groups_tally collation values).distinct.filter _
  rw [split, List.pairwise_map] at distinct
  exact distinct.imp fun other same => other (meaning_text_eq_iff.mpr same)

namespace Reported
variable {rules : List DisabledRule}

/-- The order in which values are grouped does not matter. -/
theorem of_perm {visited : List Stored} (reported : Reported collation visited rules)
    (perm : visited.Perm values) : Reported collation values rules where
  distinct := reported.distinct
  counted := by
    intro rule member
    obtain ⟨present, count, twice⟩ := reported.counted rule member
    exact ⟨perm.mem_iff.mp present, by rw [count, perm.countP_eq], twice⟩
  complete := by
    intro value present some_ twice
    rw [← perm.countP_eq] at twice
    exact reported.complete value (perm.mem_iff.mpr present) some_ twice
  ordered := reported.ordered

end Reported
end Values

namespace Catalog
variable {catalog : Catalog} {table : Table} {values : List Stored} {rules : List DisabledRule}
  {collation : Collation}

theorem reported_of_some (found : catalog.find? "rule_disable" = some table)
    (column : columnValues table "rule_id" = some values)
    (collated : columnCollation table "rule_id" = some collation)
    (answered : catalog.disabledRules = some rules) : Reported collation values rules := by
  -- the values are taken in the order of grouping, in which the first of a group is shown
  refine Reported.of_perm ?_ (catalog.plan.perm collation values)
  obtain ⟨texts, entries, split, sorted, rfl⟩ :=
    (disabledRules_some_iff found column collated).mp answered
  have perm : (entries.map textBytes).Perm texts := sorted ▸ List.mergeSort_perm texts moreDisabled
  constructor
  case distinct =>
    have apart := distinct_texts split
    rw [← perm.pairwise_iff Ne.symm, List.pairwise_map] at apart
    exact List.pairwise_map.mpr apart
  case counted =>
    intro rule listed
    obtain ⟨⟨name, n⟩, entry, rfl⟩ := List.mem_map.mp listed
    have group := (mem_listed_iff split sorted).mp entry
    obtain ⟨⟨-, first, count⟩, twice⟩ := mem_repeated_iff.mp group
    exact ⟨List.mem_of_find?_eq_some first, congrArg Nat.cast count, Int.ofNat_le.mpr twice⟩
  case complete =>
    intro value present some_ twice
    obtain ⟨⟨first, n⟩, group, meaning⟩ := exists_repeated present some_ twice
    -- the group is one of texts, as all repeated ones are
    rw [split] at group
    obtain ⟨counted, inTexts, same⟩ := List.mem_map.mp group
    rw [← perm.mem_iff] at inTexts
    obtain ⟨⟨name, _⟩, entry, rfl⟩ := List.mem_map.mp inTexts
    obtain ⟨rfl, -⟩ := Prod.mk.inj same
    exact ⟨_, List.mem_map_of_mem entry, (sameGroup_iff _ _).mpr meaning.symm⟩
  case ordered =>
    have falling := sorted_counts texts
    rw [sorted, List.pairwise_map] at falling
    exact List.pairwise_map.mpr (falling.imp Int.ofNat_le.mpr)

/-- The statement is answered if all that is shown can be read, and only then. -/
theorem disabledRules_answered_iff (found : catalog.find? "rule_disable" = some table)
    (column : columnValues table "rule_id" = some values)
    (collated : columnCollation table "rule_id" = some collation) :
    (∃ rules, catalog.disabledRules = some rules) ↔
      Readable collation (catalog.visited collation values) := by
  rw [readable_iff]
  constructor
  · rintro ⟨rules, answered⟩ entry member
    obtain ⟨texts, entries, split, sorted, -⟩ :=
      (disabledRules_some_iff found column collated).mp answered
    rw [split] at member
    obtain ⟨text, counted, rfl⟩ := List.mem_map.mp member
    rw [← (List.mergeSort_perm texts moreDisabled).mem_iff, sorted] at counted
    obtain ⟨rule, -, rfl⟩ := List.mem_map.mp counted
    exact ⟨rule.1, rfl⟩
  · intro readable
    obtain ⟨entries, split⟩ := exists_texts readable
    obtain ⟨sorted, same⟩ := exists_sorted entries
    exact ⟨_, (disabledRules_some_iff found column collated).mpr ⟨_, sorted, split, same, rfl⟩⟩

/-- If all repeated values can be read, no order of grouping shows one that cannot. -/
theorem readable_visited (legible : Legible collation values) :
    Readable collation (catalog.visited collation values) :=
  ((legible_perm (catalog.plan.perm collation values)).mpr legible).readable

/-- Where bytes are compared, what is shown in some order can be read only if all can. -/
theorem legible_of_visited (readable : Readable .binary (catalog.visited .binary values)) :
    Legible .binary values :=
  (legible_perm (catalog.plan.perm .binary values)).mp (readable_binary_iff.mp readable)

theorem disabledRules_unanswered (found : catalog.find? "rule_disable" = some table)
    (column : columnValues table "rule_id" = some values)
    (unreadable : ∀ collation, columnCollation table "rule_id" = some collation →
      ¬Readable collation (catalog.visited collation values)) : catalog.disabledRules = none := by
  cases collated : columnCollation table "rule_id" with
  | none => exact disabledRules_uncollated found collated
  | some collation =>
    have unanswered := (disabledRules_answered_iff found column collated).not.mpr
      (unreadable collation collated)
    exact Option.eq_none_iff_forall_ne_some.mpr (not_exists.mp unanswered)

/-! ## Main result -/

theorem reply_disabledRules {history : List Call} (opened : Call.close ∉ history) :
    (catalog.database.storage.reply history .disabledRules).outcome =
      match catalog.disabledRules with
      | some rules => .ok rules
      | none => .error (.raised (.query Call.disabledRules.context .refused)) := by
  have held : catalog.database.disabledRules = catalog.disabledRules := rfl
  rw [Database.reply_open opened, Database.answer, held]
  cases catalog.disabledRules <;> rfl

end Catalog

end TableExport.Sqlite
