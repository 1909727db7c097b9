import Mathlib
import TableExport.Proofs.Decimal.Integers
import TableExport.Sqlite.Catalog

/-!
# Groups of values

Values are counted in groups of those that are equal. A number equals every other form of the same
number, a text every text that the collation takes for the same, and any other value only itself; so
values are equal if they stand for the same. The count of groups has one entry for each thing that
values stand for: the first of these values, with their number. There is none for NULL.
-/
namespace TableExport.Sqlite

section Collated
variable {collation : Collation}

/-! ## What values stand for -/

/-- What a value stands for: an integer if it equals one, a text by its canonical form, and else
only itself. -/
def Stored.meaning (collation : Collation) : Stored → Int ⊕ Stored
  | .integer n => .inl n.toInt
  | .real x =>
    match x.toInt? with
    | some n => .inl n
    | none => .inr (.real x)
  | .text bytes => .inr (.text (collation.canonical bytes))
  | other => .inr other

namespace Stored
open Decimal (Binary64)

theorem meaning_whole {x : Binary64} {n : Int} (whole : x.toInt? = some n) :
    (real x).meaning collation = .inl n := by
  simp only [meaning, whole]

theorem meaning_broken {x : Binary64} (broken : x.toInt? = none) :
    (real x).meaning collation = .inr (.real x) := by
  simp only [meaning, broken]

theorem meaning_real_iff {x : Binary64} {n : Int} :
    (real x).meaning collation = .inl n ↔ x.toInt? = some n := by
  cases whole : x.toInt? with
  | none => simp [meaning_broken whole]
  | some m => simp [meaning_whole whole]

/-- Two real numbers stand for the same if they are the same, or both are a zero. -/
theorem meaning_real_eq_iff {x y : Binary64} :
    (real x).meaning collation = (real y).meaning collation ↔
      x = y ∨ x.toInt? = some 0 ∧ y.toInt? = some 0 := by
  constructor
  · intro same
    cases whole : x.toInt? with
    | none =>
      rw [meaning_broken whole] at same
      cases other : y.toInt? with
      | none =>
        rw [meaning_broken other] at same
        cases same
        exact .inl rfl
      | some n =>
        rw [meaning_whole other] at same
        cases same
    | some n =>
      rw [meaning_whole whole, eq_comm, meaning_real_iff] at same
      -- only zero is written in two ways
      obtain rfl | nonzero := eq_or_ne n 0
      · exact .inr ⟨rfl, same⟩
      · exact .inl (Binary64.eq_of_toInt? whole same nonzero)
  · rintro (rfl | ⟨left, right⟩)
    · rfl
    · rw [meaning_whole left, meaning_whole right]

theorem meaning_null_iff {value : Stored} :
    value.meaning collation = .inr .null ↔ value = .null := by
  cases value with
  | real x => cases whole : x.toInt? <;> simp [meaning, whole]
  | _ => simp [meaning]

/-- Only texts stand for a text. -/
theorem meaning_text_iff {value : Stored} {form : Bytes} :
    value.meaning collation = .inr (.text form) ↔
      ∃ bytes, value = .text bytes ∧ collation.canonical bytes = form := by
  cases value with
  | real x => cases whole : x.toInt? <;> simp [meaning, whole]
  | _ => simp [meaning]

end Stored

open Stored in
/-- Values are in one group if they stand for the same. -/
theorem sameGroup_iff (a b : Stored) :
    sameGroup collation a b = true ↔ a.meaning collation = b.meaning collation := by
  cases a with
  | integer m =>
    cases b with
    | integer n => simp [sameGroup, meaning, Int64.toInt_inj]
    | real y => exact decide_eq_true_iff.trans (meaning_real_iff.symm.trans eq_comm)
    | _ => simp [sameGroup, meaning]
  | real x =>
    cases b with
    | integer n => exact decide_eq_true_iff.trans meaning_real_iff.symm
    | real y => simp [sameGroup, meaning_real_eq_iff]
    | _ => cases whole : x.toInt? <;> simp [sameGroup, meaning, whole]
  | _ =>
    cases b with
    | real y => cases whole : y.toInt? <;> simp [sameGroup, meaning, whole]
    | _ => simp [sameGroup, meaning]

theorem sameGroup_refl (value : Stored) : sameGroup collation value value = true :=
  (sameGroup_iff _ _).mpr rfl

theorem sameGroup_comm (a b : Stored) : sameGroup collation a b = sameGroup collation b a := by
  rw [Bool.eq_iff_iff, sameGroup_iff, sameGroup_iff, eq_comm]

/-- Values of one group have the same values in their group. -/
theorem sameGroup_congr {a b : Stored} (same : a.meaning collation = b.meaning collation) :
    sameGroup collation a = sameGroup collation b := by
  funext value
  rw [Bool.eq_iff_iff, sameGroup_iff, sameGroup_iff, same]

/-- A text equals the texts of its canonical form. -/
theorem sameGroup_text_iff {bytes : Bytes} {value : Stored} :
    sameGroup collation (.text bytes) value = true ↔
      ∃ other, value = .text other ∧ collation.canonical other = collation.canonical bytes := by
  rw [sameGroup_iff, eq_comm]
  exact Stored.meaning_text_iff

/-- Where bytes are compared, a text equals itself only. -/
theorem sameGroup_binary (bytes : Bytes) :
    sameGroup .binary (.text bytes) = fun value => value == .text bytes := by
  funext value
  rw [Bool.eq_iff_iff, sameGroup_text_iff, beq_iff_eq]
  simp [Collation.canonical]

/-! ## Counting -/

/-- Entries that count values: one for each group of them but NULL, with the first value of the
group and the number of values in it. -/
structure Groups (collation : Collation) (values : List Stored) (entries : List (Stored × Nat)) :
    Prop where
  distinct : entries.Pairwise fun a b => a.1.meaning collation ≠ b.1.meaning collation
  complete : ∀ value ∈ values, value ≠ .null →
    ∃ entry ∈ entries, entry.1.meaning collation = value.meaning collation
  counted : ∀ entry ∈ entries,
    entry.1 ≠ .null ∧ entry.2 = values.countP (sameGroup collation entry.1)
  first : ∀ entry ∈ entries, values.find? (sameGroup collation entry.1) = some entry.1

theorem not_sameGroup_null {value : Stored} (some_ : value ≠ .null) :
    ¬sameGroup collation value .null = true := by
  rw [sameGroup_iff]
  exact fun same => some_ (Stored.meaning_null_iff.mp same)

namespace Groups
variable {value : Stored} {values : List Stored} {entries : List (Stored × Nat)}

theorem null (groups : Groups collation values entries) :
    Groups collation (.null :: values) entries where
  distinct := groups.distinct
  complete := by
    intro other member some_
    obtain rfl | later := List.mem_cons.mp member
    · exact absurd rfl some_
    · exact groups.complete other later some_
  counted := by
    intro entry member
    obtain ⟨some_, count⟩ := groups.counted entry member
    exact ⟨some_, by rw [count, List.countP_cons_of_neg (not_sameGroup_null some_)]⟩
  first := by
    intro entry member
    rw [List.find?_cons_of_neg (not_sameGroup_null (groups.counted entry member).1)]
    exact groups.first entry member

/-- The number in the entry of a value's group. -/
def found (collation : Collation) (entries : List (Stored × Nat)) (value : Stored) : Nat :=
  ((entries.find? fun entry => sameGroup collation value entry.1).map Prod.snd).getD 0

theorem found_eq (groups : Groups collation values entries) (some_ : value ≠ .null) :
    found collation entries value = values.countP (sameGroup collation value) := by
  unfold found
  cases hit : entries.find? fun entry => sameGroup collation value entry.1 with
  | some entry =>
    have same := List.find?_some hit
    rw [sameGroup_iff] at same
    rw [sameGroup_congr same]
    exact (groups.counted entry (List.mem_of_find?_eq_some hit)).2
  | none =>
    -- a value of the group would have an entry, as it is not NULL
    refine (List.countP_eq_zero.mpr fun other member same => ?_).symm
    have someOther : other ≠ .null := by
      rintro rfl
      exact not_sameGroup_null some_ same
    rw [sameGroup_iff] at same
    obtain ⟨entry, listed, meaning⟩ := groups.complete other member someOther
    have missed := List.find?_eq_none.mp hit entry listed
    exact missed ((sameGroup_iff _ _).mpr (same.trans meaning.symm))

/-- One more value is counted in the entry of its group, which now comes first. -/
theorem cons (groups : Groups collation values entries) (some_ : value ≠ .null) :
    Groups collation (value :: values) ((value, found collation entries value + 1) ::
      entries.filter fun entry => !sameGroup collation value entry.1) where
  distinct := by
    refine List.pairwise_cons.mpr ⟨fun entry member => ?_, groups.distinct.filter _⟩
    have apart : ¬sameGroup collation value entry.1 = true := by
      simpa using (List.mem_filter.mp member).2
    rwa [sameGroup_iff] at apart
  complete := by
    intro other member someOther
    -- the entry of any other group is kept
    by_cases same : value.meaning collation = other.meaning collation
    · exact ⟨_, List.mem_cons_self, same⟩
    · obtain rfl | later := List.mem_cons.mp member
      · exact absurd rfl same
      obtain ⟨entry, listed, meaning⟩ := groups.complete other later someOther
      have apart : ¬sameGroup collation value entry.1 = true := by rwa [sameGroup_iff, meaning]
      exact ⟨entry, List.mem_cons_of_mem _ (List.mem_filter.mpr ⟨listed, by simpa using apart⟩),
        meaning⟩
  counted := by
    intro entry member
    obtain rfl | later := List.mem_cons.mp member
    · exact ⟨some_, by rw [groups.found_eq some_, List.countP_cons_of_pos (sameGroup_refl value)]⟩
    · obtain ⟨listed, apart⟩ := List.mem_filter.mp later
      obtain ⟨someEntry, count⟩ := groups.counted entry listed
      rw [Bool.not_eq_true', sameGroup_comm] at apart
      exact ⟨someEntry, by rw [count, List.countP_cons_of_neg (by simp [apart])]⟩
  first := by
    intro entry member
    obtain rfl | later := List.mem_cons.mp member
    · exact List.find?_cons_of_pos (sameGroup_refl value)
    · obtain ⟨listed, apart⟩ := List.mem_filter.mp later
      rw [Bool.not_eq_true', sameGroup_comm] at apart
      rw [List.find?_cons_of_neg (by simp [apart])]
      exact groups.first entry listed

/-- What is counted of a group is told by the values alone. -/
theorem mem_iff (groups : Groups collation values entries) {n : Nat} :
    (value, n) ∈ entries ↔ value ≠ .null ∧
      values.find? (sameGroup collation value) = some value ∧
      n = values.countP (sameGroup collation value) := by
  constructor
  · intro member
    obtain ⟨some_, count⟩ := groups.counted _ member
    exact ⟨some_, groups.first _ member, count⟩
  · rintro ⟨some_, first, rfl⟩
    obtain ⟨entry, listed, meaning⟩ :=
      groups.complete value (List.mem_of_find?_eq_some first) some_
    -- both are the first of one group
    have shown := groups.first entry listed
    rw [sameGroup_congr meaning, first] at shown
    obtain rfl := Option.some.inj shown
    rw [← (groups.counted entry listed).2]
    exact listed

end Groups

theorem tally_of_none {value : Stored} {rest : List Stored} (some_ : value ≠ .null)
    (none_ : (tally collation rest).find? (fun entry => sameGroup collation value entry.1) = none) :
    tally collation (value :: rest) = (value, 1) :: tally collation rest := by
  cases value with
  | null => exact absurd rfl some_
  | _ => simp only [tally, none_]

theorem tally_of_some {value : Stored} {rest : List Stored} {entry : Stored × Nat}
    (some_ : value ≠ .null)
    (hit : (tally collation rest).find? (fun entry => sameGroup collation value entry.1) =
      some entry) :
    tally collation (value :: rest) = (value, entry.2 + 1) ::
      (tally collation rest).filter fun entry => !sameGroup collation value entry.1 := by
  cases value with
  | null => exact absurd rfl some_
  | _ => simp only [tally, hit]

theorem tally_cons {value : Stored} (some_ : value ≠ .null) (rest : List Stored) :
    tally collation (value :: rest) =
      (value, Groups.found collation (tally collation rest) value + 1) ::
        (tally collation rest).filter fun entry => !sameGroup collation value entry.1 := by
  cases hit : (tally collation rest).find? fun entry => sameGroup collation value entry.1 with
  | some entry =>
    rw [tally_of_some some_ hit, Groups.found, hit]
    rfl
  | none =>
    -- there is nothing to take out
    have all : (tally collation rest).filter (fun entry => !sameGroup collation value entry.1) =
        tally collation rest := by
      simpa [List.filter_eq_self] using List.find?_eq_none.mp hit
    rw [tally_of_none some_ hit, Groups.found, hit, all]
    rfl

theorem groups_tally (collation : Collation) (values : List Stored) :
    Groups collation values (tally collation values) := by
  induction values with
  | nil => exact ⟨.nil, nofun, nofun, nofun⟩
  | cons value rest ih =>
    by_cases none : value = .null
    · rw [none]
      exact ih.null
    · rw [tally_cons none]
      exact ih.cons none

end Collated

end TableExport.Sqlite
