import Mathlib
import TableExport.Proofs.Calendar.Rereading
import TableExport.Proofs.Postgres.Reading

/-!
# Values with one text

A table is exported as text. In the types that are read without a cast, floats and bytes apart,
the text of a value tells which value it is, with one exception: a time of day may be 24:00:00,
and that is written as 00:00:00 is.
-/
namespace TableExport.Postgres
open Calendar (Clock)

/-! ## Sixteen digits -/

theorem digitChar_inj :
    ∀ m < 16, ∀ n < 16, Nat.digitChar m = Nat.digitChar n → m = n := by decide

theorem hexByte_inj {a b : UInt8} (same : hexByte a = hexByte b) : a = b := by
  simp only [hexByte, List.cons.injEq, and_true] at same
  obtain ⟨high, low⟩ := same
  have sizeA := a.toNat_lt
  have sizeB := b.toNat_lt
  have front := digitChar_inj _ (by omega) _ (by omega) high
  have back := digitChar_inj _ (by omega) _ (by omega) low
  exact UInt8.toNat_inj.mp (by omega)

theorem length_hexBytes (bytes : Bytes) : (bytes.flatMap hexByte).length = 2 * bytes.length := by
  simp [List.length_flatMap, hexByte, Nat.mul_comm]

theorem hexBytes_inj {bytes others : Bytes}
    (same : bytes.flatMap hexByte = others.flatMap hexByte) : bytes = others := by
  induction bytes generalizing others with
  | nil =>
    have length := congrArg List.length same
    rw [length_hexBytes, length_hexBytes] at length
    exact (List.eq_nil_of_length_eq_zero (by simpa using length.symm)).symm
  | cons byte rest ih =>
    cases others with
    | nil => cases same
    | cons other more =>
      -- every byte has two digits, so the first ones end at one place
      rw [List.flatMap_cons, List.flatMap_cons] at same
      obtain ⟨here, later⟩ := List.append_inj same rfl
      rw [hexByte_inj here, ih later]

/-- A number of `width + 1` bytes in sixteen digits. -/
def hexField (width n : Nat) : List Char := (Nat.toDigits 16 n).leftpad (2 * (width + 1)) '0'

theorem hexField_length {width n : Nat} (fits : n < 256 ^ (width + 1)) :
    (hexField width n).length = 2 * (width + 1) := by
  rw [hexField, ← hexBytes_unsigned fits, length_hexBytes, unsigned_length]

theorem hexField_inj {width m n : Nat} (fits : m < 256 ^ (width + 1))
    (other : n < 256 ^ (width + 1)) (same : hexField width m = hexField width n) : m = n := by
  rw [hexField, hexField, ← hexBytes_unsigned fits, ← hexBytes_unsigned other] at same
  rw [← bigEndian_unsigned fits, hexBytes_inj same, bigEndian_unsigned other]

/-- A field is read off the end of a text. -/
theorem hexField_last {width m n : Nat} (fits : m < 256 ^ (width + 1))
    (other : n < 256 ^ (width + 1)) {front back : List Char}
    (same : front ++ '-' :: hexField width m = back ++ '-' :: hexField width n) :
    front = back ∧ m = n := by
  have length : ('-' :: hexField width m).length = ('-' :: hexField width n).length := by
    rw [List.length_cons, List.length_cons, hexField_length fits, hexField_length other]
  obtain ⟨fronts, fields⟩ := List.append_inj' same length
  exact ⟨fronts, hexField_inj fits other (List.cons_inj_right _ |>.mp fields)⟩

theorem Uuid.hyphenated_inj {u v : Uuid} (same : u.hyphenated = v.hyphenated) : u = v := by
  -- the fields have fixed lengths, so the last one comes off first
  obtain ⟨same, node⟩ := @hexField_last 5 _ _ u.node.isLt v.node.isLt _ _ same
  obtain ⟨same, clock⟩ := @hexField_last 1 _ _ u.clock.isLt v.clock.isLt _ _ same
  obtain ⟨same, timeHigh⟩ := @hexField_last 1 _ _ u.timeHigh.isLt v.timeHigh.isLt _ _ same
  obtain ⟨same, timeMid⟩ := @hexField_last 1 _ _ u.timeMid.isLt v.timeMid.isLt _ _ same
  have timeLow := @hexField_inj 3 _ _ u.timeLow.isLt v.timeLow.isLt same
  obtain ⟨_, _, _, _, _⟩ := u
  obtain ⟨_, _, _, _, _⟩ := v
  simp only [BitVec.toNat_inj] at node clock timeHigh timeMid timeLow
  simp only [node, clock, timeHigh, timeMid, timeLow]

/-! ## Values of one type -/

/-- The types with values that are not told apart: every float that is not a number has the same
text, and bytes that are no text are replaced. -/
def lossyTypes : List String := ["FLOAT4", "FLOAT8", "BYTEA"]

/-- One of two values is the first moment of a day and the other its end. -/
def Wraps (d e : Datum) : Prop :=
  d = .time Clock.midnight ∧ e = .endOfDay ∨ d = .endOfDay ∧ e = .time Clock.midnight

/-- Values of one of the other types, by their forms. -/
inductive Paired : Datum → Datum → Prop
  | bool (a b : Bool) : Paired (.bool a) (.bool b)
  | int2 (m n : Int16) : Paired (.int2 m) (.int2 n)
  | int4 (m n : Int32) : Paired (.int4 m) (.int4 n)
  | int8 (m n : Int64) : Paired (.int8 m) (.int8 n)
  | uuid (u v : Uuid) : Paired (.uuid u) (.uuid v)
  | moment (m n : Calendar.Moment) : Paired (.moment m) (.moment n)
  | date (d e : Calendar.Date) (valid : d.Valid) (other : e.Valid) :
      Paired (.date d valid) (.date e other)
  | time (c d : Clock) : Paired (.time c) (.time d)
  | timeEnd (c : Clock) : Paired (.time c) .endOfDay
  | endTime (c : Clock) : Paired .endOfDay (.time c)
  | ends : Paired .endOfDay .endOfDay
  | text (s t : String) : Paired (.text s) (.text t)

theorem paired {typeName : String} (exact : typeName ∉ lossyTypes) {d e : Datum}
    (has : typeName ∈ d.typeNames) (also : typeName ∈ e.typeNames) : Paired d e := by
  cases d <;> cases e <;>
    simp only [Datum.typeNames, List.mem_cons, List.not_mem_nil, or_false] at has also
  -- two forms that are not paired have no type in common, or one that is lossy
  all_goals first | constructor | grind [lossyTypes]

theorem bool_shown_inj : ∀ a b, (Datum.bool a).shown = (Datum.bool b).shown → a = b := by decide

theorem endOfDay_shown : Datum.endOfDay.shown = (Datum.time Clock.midnight).shown := by decide

theorem time_shown_inj {c d : Clock} (same : (Datum.time c).shown = (Datum.time d).shown) :
    c = d :=
  Clock.text_inj (String.ofList_inj.mp same)

theorem shown_eq_iff {d e : Datum} (paired : Paired d e) :
    d.shown = e.shown ↔ d = e ∨ Wraps d e := by
  constructor
  · intro same
    cases paired with
    | bool a b => exact .inl (congrArg _ (bool_shown_inj a b same))
    | int2 m n => exact .inl (congrArg _ (Int16.toInt_inj.mp (Int.repr_injective same)))
    | int4 m n => exact .inl (congrArg _ (Int32.toInt_inj.mp (Int.repr_injective same)))
    | int8 m n => exact .inl (congrArg _ (Int64.toInt_inj.mp (Int.repr_injective same)))
    | uuid u v => exact .inl (congrArg _ (Uuid.hyphenated_inj (String.ofList_inj.mp same)))
    | moment m n => exact .inl (congrArg _ (Calendar.Moment.iso_inj (String.ofList_inj.mp same)))
    | date d e valid other =>
      obtain rfl := Calendar.Date.iso_inj valid other (String.ofList_inj.mp same)
      exact .inl rfl
    | time c d => exact .inl (congrArg _ (time_shown_inj same))
    | timeEnd c => exact .inr (.inl ⟨congrArg _ (time_shown_inj (same.trans endOfDay_shown)), rfl⟩)
    | endTime c =>
      exact .inr (.inr ⟨rfl, congrArg _ (time_shown_inj (same.symm.trans endOfDay_shown))⟩)
    | ends => exact .inl rfl
    | text s t => exact .inl (congrArg _ same)
  · rintro (rfl | ⟨rfl, rfl⟩ | ⟨rfl, rfl⟩)
    · rfl
    · exact endOfDay_shown.symm
    · exact endOfDay_shown

/-! ## Exported texts -/

/-- What is written of a row of one cell. -/
def exported (table : String) (column : Column) (cell : Cell) :
    Except (Fault ExportError) (List String) :=
  (Row.materialize (rowSource [cell]) table [column]).map fun row => row.project [column]

theorem exported_plain {column : Column} {d : Datum} (has : column.typeName ∈ d.typeNames)
    (table : String) : exported table column ⟨column.typeName, some d.bytes⟩ = .ok [d.shown] := by
  obtain ⟨slot, decoded, -, shown⟩ := present_bytes has
  have read : Row.materialize (rowSource [⟨column.typeName, some d.bytes⟩]) table [column] =
      .ok ⟨[(column.name, slot.value)]⟩ := by
    have asked : (rowSource [⟨column.typeName, some d.bytes⟩]).decode 0 column.kind = .ok slot :=
      decoded
    have width : (rowSource [⟨column.typeName, some d.bytes⟩]).width = [column].length := rfl
    simp only [Row.materialize, width, ne_eq, not_true_eq_false, if_false, RowSource.fields, asked,
      Except.map]
  rw [exported, read, ← shown]
  simp [Except.map, Row.project, Row.get?]

/-- Two values of a column are sent in answer to the item of the select list that asks for the
column. If the column is read without a cast, and is neither of floats nor of bytes, then both are
exported, with one text only if they are the same or if one is midnight and the other the end of a
day. -/
theorem exported_eq_iff {column : Column} (native : needsCast column = false)
    (exact : column.typeName ∉ lossyTypes) {d e : Datum} {sent other : Cell}
    (answer : Answer.To column.typeName (SelectItem.ofColumn column) ⟨some d, sent⟩)
    (another : Answer.To column.typeName (SelectItem.ofColumn column) ⟨some e, other⟩)
    (table : String) :
    ∃ s t, exported table column sent = .ok [s] ∧ exported table column other = .ok [t] ∧
      (s = t ↔ d = e ∨ Wraps d e) := by
  rw [SelectItem.ofColumn, native] at answer another
  cases answer with | plain _ _ has =>
  cases another with | plain _ _ also =>
  have has := typeNames_of_not_needsCast native has
  have also := typeNames_of_not_needsCast native also
  exact ⟨d.shown, e.shown, exported_plain has table, exported_plain also table,
    shown_eq_iff (paired exact has also)⟩

section Days

def seen : Column := ⟨"seen", "DATE"⟩

/-- A day of the year -43. -/
def earlyDay : Calendar.Date := ⟨-43, 3, 15⟩

theorem earlyDay_valid : earlyDay.Valid := by decide

theorem exported_eq_iff_days :
    needsCast seen = false ∧ seen.typeName ∉ lossyTypes ∧
      ∃ s t,
        exported "people" seen ⟨"DATE", some (Datum.date firstDay firstDay_valid).bytes⟩ =
          .ok [s] ∧
        exported "people" seen ⟨"DATE", some (Datum.date earlyDay earlyDay_valid).bytes⟩ =
          .ok [t] ∧ s ≠ t := by
  have native : needsCast seen = false := by decide
  have exact : seen.typeName ∉ lossyTypes := by decide
  obtain ⟨s, t, first, second, same⟩ := exported_eq_iff native exact
    (.plain "seen" (.date firstDay firstDay_valid) (.head _))
    (.plain "seen" (.date earlyDay earlyDay_valid) (.head _)) "people"
  refine ⟨native, exact, s, t, first, second, fun equal => ?_⟩
  obtain day | ⟨day, -⟩ | ⟨day, -⟩ := same.mp equal <;> cases day

end Days

/-- Midnight and the end of a day are different times, and one text is written for both. -/
theorem exported_endOfDay :
    ∃ d e : Datum, d ≠ e ∧ d.HasType "TIME" ∧ e.HasType "TIME" ∧
      exported "shifts" ⟨"over", "TIME"⟩ ⟨"TIME", some d.bytes⟩ = .ok ["00:00:00"] ∧
      exported "shifts" ⟨"over", "TIME"⟩ ⟨"TIME", some e.bytes⟩ = .ok ["00:00:00"] := by
  refine ⟨.time Clock.midnight, .endOfDay, nofun, .head _, .head _, ?_, ?_⟩
  · rw [@exported_plain ⟨"over", "TIME"⟩ _ (.head _), ← endOfDay_shown, Datum.shown]
  · rw [@exported_plain ⟨"over", "TIME"⟩ _ (.head _), Datum.shown]

end TableExport.Postgres
