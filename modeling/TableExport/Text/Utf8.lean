import TableExport.Bytes

/-!
# Reading UTF-8

Bytes are cut into characters and maximal ill-formed pieces. An ill-formed
piece is the longest start of a well-formed sequence that the next byte does
not continue, or one byte that starts no sequence. Strict reading refuses any
ill-formed piece; lossy reading puts one replacement character in its place.
-/
namespace TableExport.Utf8

/-- What the first byte of a longer sequence announces: the bits it carries,
the range its second byte must lie in, and how many bytes follow that one. -/
structure Lead where
  bits : Nat
  low : UInt8
  high : UInt8
  more : Nat

/-- The first bytes of sequences of two to four bytes. The ranges of the second
byte rule out overlong forms, surrogates and values above U+10FFFF. -/
def lead? (byte : UInt8) : Option Lead :=
  if byte < 0xC2 then none
  else if byte < 0xE0 then some ⟨byte.toNat - 0xC0, 0x80, 0xBF, 0⟩
  else if byte < 0xF0 then
    some ⟨byte.toNat - 0xE0, if byte = 0xE0 then 0xA0 else 0x80,
      if byte = 0xED then 0x9F else 0xBF, 1⟩
  else if byte < 0xF5 then
    some ⟨byte.toNat - 0xF0, if byte = 0xF0 then 0x90 else 0x80,
      if byte = 0xF4 then 0x8F else 0xBF, 2⟩
  else none

/-- Adds the six bits of a continuation byte. -/
def extend (value : Nat) (byte : UInt8) : Nat := value * 64 + (byte.toNat - 0x80)

/-- Reads `count` continuation bytes; stops before the first byte that is none. -/
def continuation : Nat → Nat → Bytes → Option Nat × Bytes
  | 0, value, rest => (some value, rest)
  | _ + 1, _, [] => (none, [])
  | count + 1, value, byte :: rest =>
    if 0x80 ≤ byte ∧ byte ≤ 0xBF then continuation count (extend value byte) rest
    else (none, byte :: rest)

theorem continuation_length (count value : Nat) (bytes : Bytes) :
    (continuation count value bytes).2.length ≤ bytes.length := by
  induction count generalizing value bytes with
  | zero => simp [continuation]
  | succ count ih =>
    cases bytes with
    | nil => simp [continuation]
    | cons byte rest =>
      simp only [continuation]
      split
      · exact Nat.le_succ_of_le (ih _ rest)
      · exact Nat.le_refl _

/-- One character, or `none` for an ill-formed piece, and the bytes after it. -/
def step (byte : UInt8) (rest : Bytes) : Option Char × Bytes :=
  if byte < 0x80 then (some (Char.ofNat byte.toNat), rest)
  else
    match lead? byte, rest with
    | none, rest => (none, rest)
    | some _, [] => (none, [])
    | some lead, second :: tail =>
      if lead.low ≤ second ∧ second ≤ lead.high then
        let read := continuation lead.more (extend lead.bits second) tail
        (read.1.map Char.ofNat, read.2)
      else (none, second :: tail)

theorem step_length (byte : UInt8) (rest : Bytes) : (step byte rest).2.length ≤ rest.length := by
  simp only [step]
  split
  · exact Nat.le_refl _
  · split
    · exact Nat.le_refl _
    · exact Nat.le_refl _
    · split
      · exact Nat.le_succ_of_le (continuation_length _ _ _)
      · exact Nat.le_refl _

/-- The characters and ill-formed pieces (`none`) that the bytes consist of. -/
def pieces : Bytes → List (Option Char)
  | [] => []
  | byte :: rest => (step byte rest).1 :: pieces (step byte rest).2
termination_by bytes => bytes.length
decreasing_by exact Nat.lt_succ_of_le (step_length byte rest)

/-- Strict reading: the text, unless a piece is ill-formed. -/
def decode? (bytes : Bytes) : Option String :=
  ((pieces bytes).mapM id).map String.ofList

/-- Lossy reading: U+FFFD stands for each ill-formed piece. -/
def decodeLossy (bytes : Bytes) : String :=
  String.ofList ((pieces bytes).map (·.getD '\ufffd'))

end TableExport.Utf8
