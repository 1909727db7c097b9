import Mathlib
import TableExport.Export.Summary
import TableExport.Proofs.Decimal.Digits
import TableExport.Proofs.Text.Trimming

/-!
# Printed summaries

The column of names is as wide as the longest name has bytes, and names are filled up by
characters. No text has more characters than bytes, so every name fits: the rows end at one
position in all lines, and the artifacts begin at another. A reader who takes that position from
the heading gets back what the lines were made of.
-/
namespace TableExport

/-! ## Fields -/

namespace Text

theorem length_le_utf8ByteSize (text : String) : text.length ≤ text.utf8ByteSize := by
  have bytes : text.utf8ByteSize = String.utf8Len text.toList := by
    rw [← String.utf8ByteSize_ofList, String.ofList_toList]
  rw [bytes, ← String.length_toList]
  induction text.toList with
  | nil => exact le_rfl
  | cons c rest ih =>
    have some := c.utf8Size_pos
    rw [List.length_cons, String.utf8Len_cons]
    omega

theorem toList_padEnd (width : Nat) (text : String) :
    (padEnd width text).toList = text.toList ++ List.replicate (width - text.length) ' ' := by
  simp [padEnd, fill]

theorem toList_padStart (width : Nat) (text : String) :
    (padStart width text).toList = List.replicate (width - text.length) ' ' ++ text.toList := by
  simp [padStart, fill]

end Text

namespace Summary

/-! ## The width of names -/

theorem foldl_max_le_iff {sizes : List Nat} {least n : Nat} :
    sizes.foldl max least ≤ n ↔ least ≤ n ∧ ∀ size ∈ sizes, size ≤ n := by
  induction sizes generalizing least with
  | nil => simp
  | cons size rest ih =>
    rw [List.foldl_cons, ih, max_le_iff, List.forall_mem_cons, and_assoc]

theorem nameWidth_le_iff (s : Summary) {n : Nat} :
    s.nameWidth ≤ n ↔ 5 ≤ n ∧ ∀ entry ∈ s.tables, entry.table.text.utf8ByteSize ≤ n := by
  rw [nameWidth, foldl_max_le_iff, List.forall_mem_map]

theorem length_le_nameWidth (s : Summary) :
    "Table".length ≤ s.nameWidth ∧ ∀ entry ∈ s.tables, entry.table.text.length ≤ s.nameWidth := by
  obtain ⟨least, sizes⟩ := s.nameWidth_le_iff.mp le_rfl
  exact ⟨least, fun entry member => (Text.length_le_utf8ByteSize _).trans (sizes entry member)⟩

/-- A summary can be printed exactly if a field can be as wide as each of its names. -/
theorem printed_ok (s : Summary)
    (narrow : ∀ entry ∈ s.tables, entry.table.text.utf8ByteSize ≤ Text.greatestWidth) :
    s.printed = .ok s.text :=
  if_pos (s.nameWidth_le_iff.mpr ⟨by decide, narrow⟩)

theorem printed_crash (s : Summary)
    (wide : ∃ entry ∈ s.tables, Text.greatestWidth < entry.table.text.utf8ByteSize) :
    s.printed = .error .crash := by
  obtain ⟨entry, member, long⟩ := wide
  exact if_neg fun narrow =>
    absurd ((s.nameWidth_le_iff.mp narrow).2 entry member) (Nat.not_le.mpr long)

/-! ## Lines -/

/-- In the line the rows end at a position, and the artifact begins two blanks behind it. The whole
name is in front, with blanks behind it. -/
structure Aligned (stop : Nat) (name rows artifact line : List Char) : Prop where
  front : ∃ gap, 2 ≤ gap ∧ line.take stop = name ++ List.replicate gap ' ' ++ rows
  between : (line.drop stop).take 2 = [' ', ' ']
  back : line.drop (stop + 2) = artifact

theorem Aligned.length {stop : Nat} {name rows artifact line : List Char}
    (aligned : Aligned stop name rows artifact line) :
    line.length = stop + (2 + artifact.length) := by
  have blanks := congrArg List.length aligned.between
  have rest := congrArg List.length aligned.back
  rw [List.length_take, List.length_drop, List.length_cons, List.length_singleton] at blanks
  rw [List.length_drop] at rest
  omega

/-- The characters of a line, without the line feed at its end. -/
def lineChars (width : Nat) (name rows artifact : String) : List Char :=
  (Text.padEnd width name ++ "  " ++ Text.padStart 10 rows ++ "  " ++ artifact).toList

theorem toList_line (width : Nat) (name rows artifact : String) :
    (line width name rows artifact).toList = lineChars width name rows artifact ++ ['\n'] := by
  simp [line, lineChars]

theorem aligned_line {width : Nat} {name rows artifact : String} (fits : name.length ≤ width)
    (counted : rows.length ≤ 10) :
    Aligned (width + 12) name.toList rows.toList artifact.toList
      (lineChars width name rows artifact) := by
  -- the blanks that fill up the name, the two behind it and those before the rows are one gap
  generalize gap_eq : width - name.length + (2 + (10 - rows.length)) = gap
  have front : (name.toList ++ List.replicate gap ' ' ++ rows.toList).length = width + 12 := by
    simp only [List.length_append, List.length_replicate, String.length_toList]
    omega
  have whole : lineChars width name rows artifact =
      (name.toList ++ List.replicate gap ' ' ++ rows.toList) ++ ([' ', ' '] ++ artifact.toList) := by
    simp [lineChars, Text.toList_padEnd, Text.toList_padStart, ← gap_eq, List.replicate_add]
  refine ⟨⟨gap, by omega, ?_⟩, ?_, ?_⟩
  · rw [whole, List.take_left' front]
  · rw [whole, List.drop_left' front]
    rfl
  · rw [← List.drop_drop, whole, List.drop_left' front]
    rfl

theorem not_mem_lineChars {width : Nat} {name rows artifact : String} (inName : '\n' ∉ name.toList)
    (inRows : '\n' ∉ rows.toList) (inArtifact : '\n' ∉ artifact.toList) :
    '\n' ∉ lineChars width name rows artifact := by
  simp [lineChars, Text.toList_padEnd, Text.toList_padStart, inName, inRows, inArtifact]

/-- Lines that each end in a line feed are found again, with nothing behind the last. -/
theorem splitOn_lines {lines : List (List Char)} (unbroken : ∀ line ∈ lines, '\n' ∉ line) :
    (lines.flatMap (· ++ ['\n'])).splitOn '\n' = lines ++ [[]] := by
  induction lines with
  | nil => rfl
  | cons line rest ih =>
    obtain ⟨here, later⟩ := List.forall_mem_cons.mp unbroken
    rw [List.flatMap_cons, List.append_assoc, List.singleton_append,
      List.splitOn_append_cons_self, ih later, List.splitOn_eq_singleton here]
    rfl

/-! ## The text -/

/-- The line of totals. -/
def totals (s : Summary) : List Char :=
  (toString s.tables.length).toList ++ " tables, ".toList ++
    (toString (s.tables.map TableSummary.rows).sum).toList ++ " rows exported".toList

theorem totalRows_eq (s : Summary) : s.totalRows = (s.tables.map TableSummary.rows).sum := by
  rw [totalRows, List.sum_eq_foldr, List.foldr_map]

def header (s : Summary) : List Char := lineChars s.nameWidth "Table" "Rows" "Artifact"

def tableLine (s : Summary) (entry : TableSummary) : List Char :=
  lineChars s.nameWidth entry.table.text (toString entry.rows) entry.artifact

theorem toList_text (s : Summary) : s.text.toList =
    (s.header :: s.tables.map s.tableLine ++ [s.totals]).flatMap (· ++ ['\n']) := by
  have joined : (String.join (s.tables.map fun entry => line s.nameWidth entry.table.text
      (Decimal.natural entry.rows) entry.artifact)).toList =
      (s.tables.map s.tableLine).flatMap (· ++ ['\n']) := by
    simp [String.toList_join, List.flatMap_def, Function.comp_def, toList_line, tableLine,
      Decimal.natural_eq]
  simp only [text, String.toList_append, joined, toList_line]
  simp [header, totals, Decimal.natural_eq, totalRows_eq]

theorem splitOn_text {s : Summary}
    (unbroken : ∀ entry ∈ s.tables, '\n' ∉ entry.table.text.toList ∧ '\n' ∉ entry.artifact.toList) :
    s.text.toList.splitOn '\n' = s.header :: s.tables.map s.tableLine ++ [s.totals, []] := by
  have digits (n : Nat) : '\n' ∉ (toString n).toList := fun member =>
    absurd (Decimal.isDigit_toString n _ member) (by decide)
  have lines : ∀ line ∈ s.header :: s.tables.map s.tableLine ++ [s.totals], '\n' ∉ line := by
    intro line member
    simp only [List.cons_append, List.mem_cons, List.mem_append, List.mem_map, List.not_mem_nil,
      or_false] at member
    obtain rfl | ⟨entry, member, rfl⟩ | rfl := member
    · exact not_mem_lineChars (by decide) (by decide) (by decide)
    · obtain ⟨inName, inArtifact⟩ := unbroken entry member
      exact not_mem_lineChars inName (digits _) inArtifact
    · simp only [totals, List.mem_append, digits, or_false, false_or]
      decide
  rw [toList_text, splitOn_lines lines]
  simp

/-! ## Reading -/

/-- Name, rows and artifact of a line in which the rows end at a position. Blanks behind the name
are not read. -/
def readLine (stop : Nat) (line : List Char) : List Char × Nat × List Char :=
  (((line.take stop).rdropWhile Char.isDigit).rdropWhile (· = ' '),
    Decimal.value ((line.take stop).rtakeWhile Char.isDigit), line.drop (stop + 2))

/-- What the lines between the heading and the totals say. The last column begins where its
heading does. -/
def read (text : String) : List (List Char × Nat × List Char) :=
  match text.toList.splitOn '\n' with
  | [] => []
  | header :: lines =>
    lines.dropLast.dropLast.map (readLine (header.length - "  Artifact".length))

theorem Aligned.readLine {stop rows : Nat} {name artifact line : List Char}
    (aligned : Aligned stop name (toString rows).toList artifact line) :
    readLine stop line = (name.rdropWhile (· = ' '), rows, artifact) := by
  obtain ⟨⟨gap, wide, front⟩, -, back⟩ := aligned
  -- a name may end in digits of its own, but the gap keeps them from those of the rows
  have digits := Decimal.isDigit_toString rows
  have blank : ∀ c ∈ (name ++ List.replicate gap ' ').getLast?, c.isDigit = false := by
    intro c last
    rw [List.getLast?_append_of_ne_nil _ (by simp; omega)] at last
    rw [List.eq_of_mem_replicate (List.mem_of_getLast? last)]
    rfl
  have blanks : ∀ c ∈ List.replicate gap ' ', decide (c = ' ') = true :=
    fun c member => decide_eq_true (List.eq_of_mem_replicate member)
  rw [Summary.readLine, front, Text.rdropWhile_back blank digits,
    Text.rdropWhile_append name blanks, Text.rtakeWhile_back blank digits,
    Decimal.value_toString, back]

/-! ## Main result -/

theorem aligned_header (s : Summary) : Aligned (s.nameWidth + 12) "Table".toList "Rows".toList
    "Artifact".toList s.header :=
  aligned_line s.length_le_nameWidth.1 (by decide)

theorem aligned_tableLine {s : Summary} {entry : TableSummary} (member : entry ∈ s.tables)
    (counted : entry.rows < 10 ^ 10) : Aligned (s.nameWidth + 12) entry.table.text.toList
      (toString entry.rows).toList entry.artifact.toList (s.tableLine entry) :=
  aligned_line (s.length_le_nameWidth.2 entry member)
    (Decimal.length_toString_le (by decide) counted)

/-- The last column begins where its heading does. -/
theorem length_header (s : Summary) :
    s.header.length - "  Artifact".length = s.nameWidth + 12 := by
  rw [s.aligned_header.length]
  rfl

/-- If a field can be as wide as each name, a summary is printed: a heading, a line for each table
in their order, and the totals. The rows end at one position in all lines but the last, and the
artifacts begin at one position; no name is cut off. From the text alone the names (without blanks
at their end), rows and artifacts can be read. If a name is longer than any field, printing the
summary ends the process. -/
theorem printed_aligned (s : Summary)
    (unbroken : ∀ entry ∈ s.tables,
      '\n' ∉ entry.table.text.toList ∧ '\n' ∉ entry.artifact.toList)
    (counted : ∀ entry ∈ s.tables, entry.rows < 10 ^ 10) :
    ((∀ entry ∈ s.tables, entry.table.text.utf8ByteSize ≤ Text.greatestWidth) →
      ∃ text, s.printed = .ok text ∧
        (∃ stop header lines,
          text.toList.splitOn '\n' = header :: lines ++ [s.totals, []] ∧
          Aligned stop "Table".toList "Rows".toList "Artifact".toList header ∧
          List.Forall₂ (fun entry line => Aligned stop entry.table.text.toList
            (toString entry.rows).toList entry.artifact.toList line) s.tables lines) ∧
        read text = s.tables.map fun entry =>
          (entry.table.text.toList.rdropWhile (· = ' '), entry.rows, entry.artifact.toList)) ∧
    ((∃ entry ∈ s.tables, Text.greatestWidth < entry.table.text.utf8ByteSize) →
      s.printed = .error .crash) := by
  refine ⟨fun narrow => ⟨s.text, s.printed_ok narrow, ?_, ?_⟩, s.printed_crash⟩
  · refine ⟨s.nameWidth + 12, s.header, s.tables.map s.tableLine, splitOn_text unbroken,
      s.aligned_header, ?_⟩
    rw [List.forall₂_map_right_iff, List.forall₂_same]
    exact fun entry member => aligned_tableLine member (counted entry member)
  · have tables : (s.tables.map s.tableLine ++ [s.totals, []]).dropLast.dropLast =
        s.tables.map s.tableLine := by
      simp
    rw [read, splitOn_text unbroken, List.cons_append]
    simp only [tables, s.length_header, List.map_map]
    refine List.map_congr_left fun entry member => ?_
    exact (aligned_tableLine member (counted entry member)).readLine

/-- Names with characters of two and three bytes, and one that ends in blanks. -/
def accents : Summary where
  tables := [⟨⟨"é€", by decide⟩, "é€.csv", 7⟩, ⟨⟨"rule  ", by decide⟩, "a  b.csv", 9999999999⟩]

theorem printed_aligned_accents : ∃ text, accents.printed = .ok text ∧
    read text =
      [("é€".toList, 7, "é€.csv".toList), ("rule".toList, 9999999999, "a  b.csv".toList)] := by
  have unbroken : ∀ entry ∈ accents.tables,
      '\n' ∉ entry.table.text.toList ∧ '\n' ∉ entry.artifact.toList := by decide +kernel
  obtain ⟨text, printed, -, found⟩ :=
    (printed_aligned accents unbroken (by decide +kernel)).1 (by decide +kernel)
  exact ⟨text, printed, found.trans (by decide +kernel)⟩

/-- A name of one character more than a field can have. -/
def longName : TableName where
  text := String.ofList (List.replicate (Text.greatestWidth + 1) 'a')
  nonempty same := by
    have length := congrArg String.length same
    rw [String.length_ofList, List.length_replicate] at length
    cases length

def overlong : Summary where
  tables := [⟨longName, "a.csv", 1⟩]

/-- A summary with a name that is too long cannot be printed, although no line is broken and no
count is long. -/
theorem printed_overlong :
    (∀ entry ∈ overlong.tables,
      '\n' ∉ entry.table.text.toList ∧ '\n' ∉ entry.artifact.toList) ∧
    (∀ entry ∈ overlong.tables, entry.rows < 10 ^ 10) ∧ overlong.printed = .error .crash := by
  have long : Text.greatestWidth < longName.text.utf8ByteSize := by
    refine Nat.lt_of_lt_of_le ?_ (Text.length_le_utf8ByteSize _)
    rw [longName, String.length_ofList, List.length_replicate]
    exact Nat.lt_succ_self _
  have unbroken : '\n' ∉ longName.text.toList := by
    rw [longName, String.toList_ofList]
    exact fun member => absurd (List.eq_of_mem_replicate member) (by decide)
  refine ⟨?_, ?_, printed_crash _ ⟨_, List.mem_singleton_self _, long⟩⟩
  · exact List.forall_mem_singleton.mpr ⟨unbroken, by decide⟩
  · exact List.forall_mem_singleton.mpr (by decide)

end Summary
end TableExport
