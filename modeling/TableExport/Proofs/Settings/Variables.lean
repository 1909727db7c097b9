import Mathlib
import TableExport.Proofs.Text.Trimming
import TableExport.Settings.Environment

/-!
# What a variable says

A variable addresses a setting by its name and gives it a value by its text. Both are stated here
as relations on the characters, and the functions that read names and values are shown to follow
them.
-/
namespace TableExport

/-! ## Names -/

/-- The text before the first two underscores in a row, and the text after them. -/
structure Cut (whole front back : List Char) : Prop where
  parts : whole = front ++ '_' :: '_' :: back
  first : ∀ {front' back'}, whole = front' ++ '_' :: '_' :: back' → front.length ≤ front'.length

theorem Cut.unique {whole front back front' back' : List Char} (cut : Cut whole front back)
    (other : Cut whole front' back') : front = front' ∧ back = back' := by
  have length := Nat.le_antisymm (cut.first other.parts) (other.first cut.parts)
  obtain ⟨fronts, rest⟩ := List.append_inj (cut.parts.symm.trans other.parts) length
  exact ⟨fronts, by simpa using rest⟩

/-- Where no two underscores stand at the front, the cut lies behind the first character. -/
theorem Cut.cons {c : Char} {rest front back : List Char} (cut : Cut rest front back)
    (later : ∀ back', c :: rest ≠ '_' :: '_' :: back') : Cut (c :: rest) (c :: front) back := by
  refine ⟨congrArg _ cut.parts, fun {front' back'} other => ?_⟩
  cases front' with
  | nil => exact absurd other (later back')
  | cons d front' =>
    obtain ⟨-, other⟩ := List.cons.inj other
    exact Nat.succ_le_succ (cut.first other)

theorem cut_of_splitUnderscores {whole front back : List Char}
    (split : splitUnderscores whole = some (front, back)) : Cut whole front back := by
  induction whole using splitUnderscores.induct generalizing front back with
  | case1 rest =>
    cases split
    exact ⟨rfl, fun _ => Nat.zero_le _⟩
  | case2 c rest later ih =>
    rw [splitUnderscores] at split
    · obtain ⟨⟨front', back'⟩, found, same⟩ := Option.map_eq_some_iff.mp split
      cases same
      refine (ih found).cons fun back'' same => ?_
      obtain ⟨rfl, rfl⟩ := List.cons.inj same
      exact later back'' rfl rfl
    · exact later
  | case3 => cases split

theorem exists_splitUnderscores (front back : List Char) :
    ∃ parts, splitUnderscores (front ++ '_' :: '_' :: back) = some parts := by
  induction front with
  | nil => exact ⟨_, rfl⟩
  | cons c front ih =>
    obtain ⟨parts, found⟩ := ih
    rw [List.cons_append]
    unfold splitUnderscores
    split
    · exact ⟨_, rfl⟩
    next same =>
      obtain ⟨rfl, rfl⟩ := List.cons.inj same
      rw [found]
      exact ⟨_, rfl⟩
    next same => cases same

theorem splitUnderscores_iff {whole front back : List Char} :
    splitUnderscores whole = some (front, back) ↔ Cut whole front back := by
  constructor
  · exact cut_of_splitUnderscores
  · intro cut
    obtain ⟨⟨front', back'⟩, found⟩ := exists_splitUnderscores front back
    rw [← cut.parts] at found
    obtain ⟨rfl, rfl⟩ := cut.unique (cut_of_splitUnderscores found)
    exact found

/-- A name that addresses a setting: behind the prefix stand section and key, cut at the first two
underscores in a row and compared without their letter case. -/
def Addresses (name : String) (key : Key) : Prop :=
  ∃ rest front back, name.toList = overridePrefix.toList ++ rest ∧ Cut rest front back ∧
    (Text.lower (String.ofList front), Text.lower (String.ofList back)) = key.path

theorem Key.find?_path (key : Key) :
    all.find? (fun other => other.path == key.path) = some key := by
  cases key <;> decide

theorem addressed?_iff {name : String} {key : Key} :
    addressed? name = some key ↔ Addresses name key := by
  unfold addressed?
  constructor
  · intro found
    dsimp only at found
    split at found
    next marked =>
      obtain ⟨rest, whole⟩ := List.isPrefixOf_iff_prefix.mp marked
      obtain ⟨⟨front, back⟩, split, found⟩ := Option.bind_eq_some_iff.mp found
      rw [← whole, List.drop_left, splitUnderscores_iff] at split
      have same := List.find?_some found
      exact ⟨rest, front, back, whole.symm, split, (beq_iff_eq.mp same).symm⟩
    next => cases found
  · rintro ⟨rest, front, back, whole, cut, same⟩
    dsimp only
    rw [if_pos (List.isPrefixOf_iff_prefix.mpr ⟨rest, whole.symm⟩), whole, List.drop_left,
      splitUnderscores_iff.mpr cut, Option.bind_some, same]
    exact key.find?_path

theorem Addresses.unique {name : String} {key other : Key} (here : Addresses name key)
    (there : Addresses name other) : key = other :=
  Option.some.inj ((addressed?_iff.mpr here).symm.trans (addressed?_iff.mpr there))

/-! ## Values -/

namespace Text

theorem padded_trimmed (text : List Char) : Padded isBlank text (trimmed text) :=
  padded_trim text

/-- Blanks around a text that has none of its own are taken away, and nothing else. -/
theorem trimmed_of_padded {text core : List Char} (padded : Padded isBlank text core)
    (some : core ≠ []) (solid : ∀ c ∈ core, isBlank c = false) : trimmed text = core :=
  trim_of_padded padded some ⟨fun c first => solid c (List.mem_of_mem_head? first),
    fun c last => solid c (List.mem_of_mem_getLast? last)⟩

/-- No blank is a letter, a digit or a sign of ASCII. -/
theorem toNat_of_isBlank {c : Char} (blank : isBlank c = true) : c.toNat ≤ 32 ∨ 133 ≤ c.toNat := by
  simp only [isBlank, Bool.or_eq_true, Bool.and_eq_true, decide_eq_true_eq, Char.le_def,
    UInt32.le_iff_toNat_le] at blank
  rcases blank with
    ((((((((((low | rfl) | rfl) | rfl) | rfl) | high) | rfl) | rfl) | rfl) | rfl) | rfl)
  · exact .inl (low.2.trans (by decide))
  all_goals try decide
  exact .inr (le_trans (by decide) high.1)

theorem isBlank_of_toNat {c : Char} (low : 32 < c.toNat) (high : c.toNat < 133) :
    isBlank c = false := by
  rw [Bool.eq_false_iff]
  intro blank
  have sides := toNat_of_isBlank blank
  omega

theorem lowerChar_blank {c : Char} (blank : isBlank c = true) : lowerChar c = c := by
  have sides := toNat_of_isBlank blank
  have other : c ≠ '\u212a' := by
    rintro rfl
    cases blank
  have small : ¬(c.val ≥ 'A'.val ∧ c.val ≤ 'Z'.val) := by
    rintro ⟨low, high⟩
    have low : 65 ≤ c.toNat := low
    have high : c.toNat ≤ 90 := high
    omega
  rw [lowerChar, if_neg other, Char.toLower, dif_neg small]

end Text

namespace Decimal

/-- Digits with an optional sign, and the integer that they stand for. -/
inductive Signed : List Char → Int → Prop
  | plain {ds} (some : ds ≠ []) (digits : ∀ d ∈ ds, d.isDigit = true) : Signed ds (value ds)
  | plus {ds} (some : ds ≠ []) (digits : ∀ d ∈ ds, d.isDigit = true) : Signed ('+' :: ds) (value ds)
  | minus {ds} (some : ds ≠ []) (digits : ∀ d ∈ ds, d.isDigit = true) :
      Signed ('-' :: ds) (-(value ds : Int))

theorem integer?_iff {cs : List Char} {n : Int} : integer? cs = some n ↔ Signed cs n := by
  have read {ds : List Char} {m : Int} :
      ((if ds.isEmpty || !ds.all Char.isDigit then none else some (value ds) : Option Nat) >>=
          fun m => pure (m : Int)) = some m ↔
        ds ≠ [] ∧ (∀ d ∈ ds, d.isDigit = true) ∧ (value ds : Int) = m := by
    split
    next other =>
      have fails : ds ≠ [] → ¬∀ d ∈ ds, d.isDigit = true := by
        simpa [or_iff_not_imp_left] using other
      exact ⟨nofun, fun ⟨nonempty, digits, _⟩ => absurd digits (fails nonempty)⟩
    next digits =>
      have passes : ds ≠ [] ∧ ∀ d ∈ ds, d.isDigit = true := by simpa using digits
      exact ⟨fun same => ⟨passes.1, passes.2, Option.some.inj same⟩, fun h => congrArg some h.2.2⟩
  constructor
  · intro found
    unfold integer? at found
    dsimp only at found
    split at found
    all_goals
      obtain ⟨absolute, unsigned, rfl⟩ := Option.map_eq_some_iff.mp found
      obtain ⟨nonempty, isDigit, rfl⟩ := read.mp unsigned
    · exact .minus nonempty isDigit
    · exact .plus nonempty isDigit
    · exact .plain nonempty isDigit
  · intro signed
    unfold integer?
    dsimp only
    cases signed with
    | minus nonempty digits | plus nonempty digits =>
      exact Option.map_eq_some_iff.mpr ⟨_, read.mpr ⟨nonempty, digits, rfl⟩, rfl⟩
    | plain nonempty digits =>
      split
      · exact absurd (digits '-' List.mem_cons_self) (by decide)
      · exact absurd (digits '+' List.mem_cons_self) (by decide)
      · exact Option.map_eq_some_iff.mpr ⟨_, read.mpr ⟨nonempty, digits, rfl⟩, rfl⟩

theorem Signed.solid {cs : List Char} {n : Int} (signed : Signed cs n) :
    cs ≠ [] ∧ ∀ c ∈ cs, Text.isBlank c = false := by
  have digit {c : Char} (isDigit : c.isDigit = true) : Text.isBlank c = false := by
    simp only [Char.isDigit, Bool.and_eq_true, decide_eq_true_eq] at isDigit
    have low : 48 ≤ c.toNat := isDigit.1
    have high : c.toNat ≤ 57 := isDigit.2
    exact Text.isBlank_of_toNat (by omega) (by omega)
  cases signed with
  | plain nonempty digits => exact ⟨nonempty, fun c member => digit (digits c member)⟩
  | plus nonempty digits | minus nonempty digits =>
    exact ⟨List.cons_ne_nil _ _,
      List.forall_mem_cons.mpr ⟨by decide, fun c member => digit (digits c member)⟩⟩

end Decimal

/-- The words for a truth value. -/
def wordsFor : Bool → List String
  | true => trueWords
  | false => falseWords

/-- What the text of a variable says as a value of a type: a text as it is, an integer of 64 bits
or a word for a truth value with blanks around it, the word in any letter case. -/
inductive Reads : ScalarType → String → Scalar → Prop
  | text (raw : String) : Reads .text raw (.text raw)
  | integer {raw : String} {core : List Char} {n : Int}
      (padded : Text.Padded Text.isBlank raw.toList core)
      (signed : Decimal.Signed core n) (low : Int64.minValue.toInt ≤ n)
      (high : n ≤ Int64.maxValue.toInt) : Reads .integer raw (.integer n)
  | boolean {raw : String} {core : List Char} {b : Bool}
      (padded : Text.Padded Text.isBlank raw.toList core)
      (word : Text.lower (String.ofList core) ∈ wordsFor b) : Reads .boolean raw (.boolean b)

theorem words_plain (b : Bool) : ∀ word ∈ wordsFor b,
    word.toList ≠ [] ∧ ∀ c ∈ word.toList, 32 < c.toNat ∧ c.toNat < 133 := by
  cases b <;> simp [wordsFor, trueWords, falseWords]

/-- Words have no blanks in them. -/
theorem solid_of_word {core : List Char} {b : Bool}
    (word : Text.lower (String.ofList core) ∈ wordsFor b) :
    core ≠ [] ∧ ∀ c ∈ core, Text.isBlank c = false := by
  obtain ⟨nonempty, plain⟩ := words_plain b _ word
  rw [Text.lower, String.toList_ofList, String.toList_ofList] at nonempty plain
  refine ⟨by simpa using nonempty, fun c member => ?_⟩
  rw [Bool.eq_false_iff]
  intro blank
  have kept := plain c (List.mem_map.mpr ⟨c, member, Text.lowerChar_blank blank⟩)
  have sides := Text.toNat_of_isBlank blank
  omega

theorem words_apart : ∀ word ∈ falseWords, word ∉ trueWords := by decide

theorem read_iff {type : ScalarType} {raw : String} {value : Scalar} :
    type.read raw = some value ↔ Reads type raw value := by
  cases type with
  | text =>
    constructor
    · rintro ⟨⟩
      exact .text raw
    · rintro ⟨⟩
      rfl
  | integer =>
    show (int64? (Text.trim raw)).map Scalar.integer = some value ↔ _
    simp only [int64?, Option.map_eq_some_iff, Option.filter_eq_some_iff, Text.trim,
      String.toList_ofList, Decimal.integer?_iff, Bool.and_eq_true, decide_eq_true_eq]
    constructor
    · rintro ⟨n, ⟨signed, low, high⟩, rfl⟩
      exact .integer (Text.padded_trimmed _) signed low high
    · rintro (_ | @⟨_, core, n, padded, signed, low, high⟩)
      obtain ⟨nonempty, solid⟩ := signed.solid
      rw [Text.trimmed_of_padded padded nonempty solid]
      exact ⟨n, ⟨signed, low, high⟩, rfl⟩
  | boolean =>
    constructor
    · intro found
      unfold ScalarType.read at found
      dsimp only at found
      split at found
      next yes =>
        cases found
        exact .boolean (Text.padded_trimmed _) (List.contains_iff_mem.mp yes)
      next =>
        split at found
        next no =>
          cases found
          exact .boolean (Text.padded_trimmed _) (List.contains_iff_mem.mp no)
        next => cases found
    · rintro (_ | _ | @⟨_, core, b, padded, word⟩)
      obtain ⟨nonempty, solid⟩ := solid_of_word word
      unfold ScalarType.read Text.trim
      rw [Text.trimmed_of_padded padded nonempty solid]
      cases b with
      | true => exact if_pos (List.contains_iff_mem.mpr word)
      | false =>
        have other := mt List.contains_iff_mem.mp (words_apart _ word)
        exact (if_neg other).trans (if_pos (List.contains_iff_mem.mpr word))

theorem Reads.unique {type : ScalarType} {raw : String} {value other : Scalar}
    (here : Reads type raw value) (there : Reads type raw other) : value = other :=
  Option.some.inj ((read_iff.mpr here).symm.trans (read_iff.mpr there))

end TableExport
