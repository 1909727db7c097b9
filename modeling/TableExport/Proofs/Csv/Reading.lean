import TableExport.Csv.Record

/-!
# Reading CSV records

A standard reader, one byte at a time. Commas separate fields, a line feed, a carriage
return or both end a record, and blank lines are skipped. A field that starts with a quote
goes on to the next single quote; a doubled one inside stands for itself.

## Main result

`read_encode`: records of at least one field are read back as they were written. The
reader is followed through one field, then one record, then all records; between two
records it is idle, with nothing but the records so far.
-/
namespace TableExport

namespace Csv

/-- Where a reader stands. -/
inductive Mode
  -- Before the first byte of a record.
  | recordStart
  -- After a comma.
  | fieldStart
  -- In a field without quotes, or after its quotes.
  | plain
  -- Between the quotes of a field.
  | quoted
  -- After a quote that ends the field unless another one follows.
  | quoteSeen
  deriving DecidableEq, Repr

/-- A reader: the complete records, the fields of the record under way, the bytes of the
field under way, and where it stands. -/
structure Reader where
  records : List (List Bytes) := []
  fields : List Bytes := []
  field : Bytes := []
  mode : Mode := .recordStart
  deriving DecidableEq, Repr

namespace Reader

def endField (r : Reader) : Reader :=
  { r with fields := r.fields ++ [r.field], field := [], mode := .fieldStart }

def endRecord (r : Reader) : Reader :=
  { records := r.records ++ [r.fields ++ [r.field]] }

def push (r : Reader) (byte : UInt8) (mode : Mode) : Reader :=
  { r with field := r.field ++ [byte], mode := mode }

/-- A byte outside quotes. -/
def delimit (r : Reader) (byte : UInt8) : Reader :=
  if byte = comma then r.endField
  else if byte = lineFeed ∨ byte = carriageReturn then r.endRecord
  else r.push byte .plain

def step (r : Reader) (byte : UInt8) : Reader :=
  match r.mode with
  | .recordStart =>
    if byte = lineFeed ∨ byte = carriageReturn then r
    else if byte = quote then { r with mode := .quoted }
    else r.delimit byte
  | .fieldStart => if byte = quote then { r with mode := .quoted } else r.delimit byte
  | .plain => r.delimit byte
  -- delimiters are ordinary bytes until the closing quote
  | .quoted => if byte = quote then { r with mode := .quoteSeen } else r.push byte .quoted
  | .quoteSeen => if byte = quote then r.push byte .quoted else r.delimit byte

/-- A record that is under way at the end of the input ends there. -/
def finish (r : Reader) : List (List Bytes) :=
  if r.mode = .recordStart then r.records else r.endRecord.records

end Reader

def read (bytes : Bytes) : List (List Bytes) := (bytes.foldl Reader.step {}).finish

/-! ## One field -/

section Field
variable {r : Reader} {byte : UInt8}

theorem step_quotedUnit (quoted : r.mode = .quoted) :
    (quotedUnit byte).foldl Reader.step r = r.push byte .quoted := by
  obtain ⟨records, fields, field, mode⟩ := r
  obtain rfl : mode = .quoted := quoted
  unfold quotedUnit
  split
  next same => simp [same, Reader.step, Reader.push]
  next other => simp [other, Reader.step, Reader.push]

theorem foldl_quotedUnits (field : Bytes) (quoted : r.mode = .quoted) :
    (field.map quotedUnit).flatten.foldl Reader.step r = { r with field := r.field ++ field } := by
  induction field generalizing r with
  | nil => simp
  | cons byte rest ih =>
    rw [List.map_cons, List.flatten_cons, List.foldl_append, step_quotedUnit quoted, ih rfl]
    simp [Reader.push, quoted]

private theorem not_special (h : isSpecial byte = false) :
    byte ≠ comma ∧ byte ≠ quote ∧ byte ≠ lineFeed ∧ byte ≠ carriageReturn := by
  simpa [isSpecial, and_assoc] using h

theorem delimit_ordinary (ordinary : isSpecial byte = false) :
    r.delimit byte = r.push byte .plain := by
  obtain ⟨notComma, -, notFeed, notReturn⟩ := not_special ordinary
  simp [Reader.delimit, notComma, notFeed, notReturn]

theorem step_ordinary (ordinary : isSpecial byte = false) (outside : r.mode ≠ .quoted) :
    r.step byte = r.push byte .plain := by
  obtain ⟨-, notQuote, notFeed, notReturn⟩ := not_special ordinary
  unfold Reader.step
  cases mode : r.mode with
  | quoted => exact absurd mode outside
  | recordStart => simp [notQuote, notFeed, notReturn, delimit_ordinary ordinary]
  | fieldStart => simp [notQuote, delimit_ordinary ordinary]
  | plain => exact delimit_ordinary ordinary
  | quoteSeen => simp [notQuote, delimit_ordinary ordinary]

theorem foldl_ordinary (field : Bytes) (ordinary : ∀ byte ∈ field, isSpecial byte = false)
    (outside : r.mode ≠ .quoted) :
    field.foldl Reader.step r =
      { r with field := r.field ++ field, mode := if field = [] then r.mode else .plain } := by
  induction field generalizing r with
  | nil => simp
  | cons byte rest ih =>
    have first := ordinary byte List.mem_cons_self
    have later := fun b h => ordinary b (List.mem_cons_of_mem byte h)
    rw [List.foldl_cons, step_ordinary first outside, ih later (by simp [Reader.push])]
    simp [Reader.push]

theorem flatten_fieldUnits (field : Bytes) :
    (fieldUnits field).flatten =
      if field.any isSpecial then quote :: ((field.map quotedUnit).flatten ++ [quote]) else field := by
  unfold fieldUnits
  split
  next => simp
  next => rw [← List.flatMap_def, List.flatMap_singleton']

/-- Where a reader stands after a field that started at `start`. -/
def modeAfter (start : Mode) (field : Bytes) : Mode :=
  if field.any isSpecial then .quoteSeen else if field = [] then start else .plain

/-- A reader before a field. -/
def AtStart (r : Reader) : Prop := (r.mode = .recordStart ∨ r.mode = .fieldStart) ∧ r.field = []

/-- A field is read up to its end, where a comma or the end of the record may follow. -/
theorem foldl_fieldUnits (field : Bytes) (start : AtStart r) :
    (fieldUnits field).flatten.foldl Reader.step r =
      { r with field := field, mode := modeAfter r.mode field } := by
  obtain ⟨mode, empty⟩ := start
  rw [flatten_fieldUnits]
  unfold modeAfter
  split
  next special =>
    -- the opening quote, the units inside, and a closing quote that may yet be doubled
    have opened : r.step quote = { r with mode := .quoted } := by
      rcases mode with mode | mode <;> simp [Reader.step, mode, quote, lineFeed, carriageReturn]
    rw [List.foldl_cons, opened, List.foldl_append, foldl_quotedUnits field rfl]
    simp [Reader.step, empty]
  next plain =>
    have ordinary : ∀ byte ∈ field, isSpecial byte = false := by simpa using plain
    have outside : r.mode ≠ .quoted := by rcases mode with mode | mode <;> simp [mode]
    rw [foldl_ordinary field ordinary outside, empty, List.nil_append]

end Field

/-! ## One record -/

section Record
variable {r : Reader}

theorem step_comma (field : Bytes) {start : Mode}
    (mode : start = .recordStart ∨ start = .fieldStart) :
    ({ r with field := field, mode := modeAfter start field } : Reader).step comma =
      { r with fields := r.fields ++ [field], field := [], mode := .fieldStart } := by
  unfold modeAfter
  split
  next => rfl
  next =>
    split
    next => rcases mode with rfl | rfl <;> rfl
    next => rfl

/-- After a field a line feed ends the record, unless the line is blank so far. -/
theorem step_lineFeed (field : Bytes) {start : Mode} (mode : start = .fieldStart ∨ field ≠ []) :
    ({ r with field := field, mode := modeAfter start field } : Reader).step lineFeed =
      { records := r.records ++ [r.fields ++ [field]] } := by
  unfold modeAfter
  split
  next => rfl
  next =>
    split
    next empty =>
      rcases mode with rfl | nonempty
      · rfl
      · exact absurd empty nonempty
    next => rfl

private theorem joined_cons_cons (first second : Bytes) (rest : List Bytes) :
    (joined (first :: second :: rest)).flatten =
      (fieldUnits first).flatten ++ comma :: (joined (second :: rest)).flatten := by
  simp [joined]

/-- The fields of a record that is not a single empty field, and the line feed after them. -/
theorem foldl_joined (fields : List Bytes) (nonempty : fields ≠ []) (start : AtStart r)
    (visible : r.mode = .fieldStart ∨ fields ≠ [[]]) :
    ((joined fields).flatten ++ [lineFeed]).foldl Reader.step r =
      { records := r.records ++ [r.fields ++ fields] } := by
  -- after the first comma the line is not blank, whatever its fields are
  induction fields generalizing r with
  | nil => exact absurd rfl nonempty
  | cons field rest ih =>
    cases rest with
    | nil =>
      have last : r.mode = .fieldStart ∨ field ≠ [] := by simpa using visible
      rw [List.foldl_append, joined, foldl_fieldUnits field start]
      exact step_lineFeed field last
    | cons second more =>
      rw [joined_cons_cons, List.append_assoc, List.foldl_append, foldl_fieldUnits field start,
        List.cons_append, List.foldl_cons, step_comma field start.1,
        ih (by simp) ⟨.inr rfl, rfl⟩ (.inl rfl)]
      simp

private theorem joined_ne_nil (first second : Bytes) (rest : List Bytes) :
    joined (first :: second :: rest) ≠ [] := by
  simp [joined]

/-- A record has no byte of its own if its only field is empty. -/
theorem joined_eq_nil {fields : List Bytes} (nonempty : fields ≠ []) :
    joined fields = [] ↔ fields = [[]] := by
  match fields with
  | [] => exact absurd rfl nonempty
  | [field] =>
    unfold joined fieldUnits
    split
    next special =>
      have some : field ≠ [] := by
        rintro rfl
        simp at special
      simp [some]
    next => simp
  | first :: second :: rest => simp [joined_ne_nil]

/-- The bytes of a record without the line feed that ends it. -/
def line (fields : List Bytes) : Bytes :=
  if (joined fields).isEmpty then [quote, quote] else (joined fields).flatten

theorem encodeRecord_eq_line (fields : List Bytes) : encodeRecord fields = line fields ++ [lineFeed] := by
  simp only [encodeRecord, recordUnits, line]
  split
  next => rfl
  next => rw [List.flatten_append, List.flatten_singleton]

theorem line_ne_nil (fields : List Bytes) : line fields ≠ [] := by
  unfold line
  split
  next => simp
  next visible =>
    match fields with
    | [] => exact absurd rfl visible
    | [field] =>
      have units : fieldUnits field ≠ [] := by simpa [joined] using visible
      rw [joined, flatten_fieldUnits]
      split
      next => simp
      next plain =>
        rintro rfl
        exact units rfl
    | first :: second :: rest => simp [joined_cons_cons]

private theorem last_of_joined (fields : List Bytes) :
    (joined fields).flatten.getLast? ≠ some lineFeed := by
  induction fields with
  | nil => simp [joined]
  | cons field rest ih =>
    cases rest with
    | nil =>
      rw [joined, flatten_fieldUnits]
      split
      next =>
        rw [← List.cons_append, List.getLast?_concat]
        simp [quote, lineFeed]
      next plain =>
        -- a field with a line feed would stand in quotes
        intro last
        have special : isSpecial lineFeed = true := rfl
        have member := List.mem_of_getLast? last
        exact plain (List.any_eq_true.mpr ⟨lineFeed, member, special⟩)
    | cons second more =>
      rw [joined_cons_cons, List.getLast?_append, List.getLast?_cons]
      -- if the fields after the comma are empty, the comma itself is the last byte
      cases last : (joined (second :: more)).flatten.getLast? with
      | none => simp [comma, lineFeed]
      | some byte => simpa [last] using ih

theorem getLast?_line (fields : List Bytes) : (line fields).getLast? ≠ some lineFeed := by
  unfold line
  split
  next => simp [quote, lineFeed]
  next => exact last_of_joined fields

theorem foldl_encodeRecord (records : List (List Bytes)) {fields : List Bytes}
    (nonempty : fields ≠ []) :
    (encodeRecord fields).foldl Reader.step { records := records } =
      { records := records ++ [fields] } := by
  rw [encodeRecord_eq_line]
  unfold line
  split
  -- a single empty field is written as two quotes
  next blank =>
    obtain rfl := (joined_eq_nil nonempty).mp (List.isEmpty_iff.mp blank)
    rfl
  next visible =>
    have several : fields ≠ [[]] := by
      rintro rfl
      exact visible rfl
    exact foldl_joined fields nonempty ⟨.inl rfl, rfl⟩ (.inr several)

end Record

/-! ## All records -/

theorem foldl_encode (before records : List (List Bytes))
    (nonempty : ∀ fields ∈ records, fields ≠ []) :
    (encode records).foldl Reader.step { records := before } =
      { records := before ++ records } := by
  -- between two records the reader holds nothing but the records so far
  induction records generalizing before with
  | nil => simp [encode]
  | cons fields rest ih =>
    have first := nonempty fields List.mem_cons_self
    have later := fun f h => nonempty f (List.mem_cons_of_mem fields h)
    have cut : encode (fields :: rest) = encodeRecord fields ++ encode rest := rfl
    rw [cut, List.foldl_append, foldl_encodeRecord before first, ih _ later, List.append_assoc]
    rfl

/-- Records of at least one field are read back as they were written. -/
theorem read_encode (records : List (List Bytes)) (nonempty : ∀ fields ∈ records, fields ≠ []) :
    read (encode records) = records := by
  unfold read
  rw [foldl_encode [] records nonempty]
  rfl

end Csv

/-! ## Texts -/

/-- The text that bytes are the UTF-8 form of. -/
def Bytes.text? (bytes : Bytes) : Option String := String.fromUTF8? ⟨bytes.toArray⟩

theorem Bytes.text?_ofText (text : String) : (ofText text).text? = some text := by
  have same : (⟨(ofText text).toArray⟩ : ByteArray) = text.toByteArray := rfl
  unfold text? String.fromUTF8?
  rw [same, dif_pos text.isValidUTF8]
  rfl

namespace Csv

def document (records : List (List String)) : Bytes :=
  encode (records.map fun fields => fields.map Bytes.ofText)

@[simp] theorem document_nil : document [] = [] := rfl

theorem document_cons (fields : List String) (records : List (List String)) :
    document (fields :: records) = encodeRecord (fields.map Bytes.ofText) ++ document records :=
  rfl

/-- The records of texts that bytes hold, if all of them are texts. -/
def readText (bytes : Bytes) : Option (List (List String)) :=
  (read bytes).mapM fun fields => fields.mapM Bytes.text?

private theorem mapM_text? (fields : List String) :
    (fields.map Bytes.ofText).mapM Bytes.text? = some fields := by
  induction fields with
  | nil => rfl
  | cons field rest ih => simp [List.mapM_cons, Bytes.text?_ofText, ih]

theorem readText_document (records : List (List String))
    (nonempty : ∀ fields ∈ records, fields ≠ []) : readText (document records) = some records := by
  have encoded : ∀ fields ∈ records.map fun fields => fields.map Bytes.ofText, fields ≠ [] := by
    simpa using nonempty
  unfold readText document
  rw [read_encode _ encoded]
  clear encoded nonempty
  induction records with
  | nil => rfl
  | cons fields rest ih => simp only [List.map_cons, List.mapM_cons, mapM_text?, ih]; rfl

/-- A document is a sequence of lines, none of them blank, with one line feed after each. -/
theorem document_lines (records : List (List String)) :
    ∃ lines : List Bytes, document records = (lines.map fun line => line ++ [lineFeed]).flatten ∧
      lines.length = records.length ∧
      ∀ line ∈ lines, line ≠ [] ∧ line.getLast? ≠ some lineFeed := by
  refine ⟨records.map fun fields => line (fields.map Bytes.ofText), ?_, by simp, ?_⟩
  · simp [document, encode, encodeRecord_eq_line, Function.comp_def]
  · intro text member
    obtain ⟨fields, -, rfl⟩ := List.mem_map.mp member
    exact ⟨line_ne_nil _, getLast?_line _⟩

end Csv

end TableExport
