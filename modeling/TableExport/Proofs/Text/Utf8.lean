import Mathlib
import TableExport.Proofs.Traversals
import TableExport.Text.Utf8

/-!
# Reading what is well-formed

Text in its UTF-8 form is read back, strictly and lossily, character by character. Strict reading
takes nothing else: bytes that are read are those of the text that they are read as.
-/
namespace TableExport.Utf8

/-! ## Bytes of one character -/

/-- A continuation byte with six bits. -/
def trailing (n : Nat) : UInt8 := UInt8.ofNat (n % 64 + 0x80)

theorem trailing_toNat (n : Nat) : (trailing n).toNat = n % 64 + 0x80 := by
  rw [trailing, UInt8.toNat_ofNat', Nat.mod_eq_of_lt]
  omega

theorem le_trailing (n : Nat) {low : UInt8} (h : low.toNat ≤ n % 64 + 0x80) : low ≤ trailing n := by
  rwa [UInt8.le_iff_toNat_le, trailing_toNat]

theorem trailing_le (n : Nat) {high : UInt8} (h : n % 64 + 0x80 ≤ high.toNat) :
    trailing n ≤ high := by
  rwa [UInt8.le_iff_toNat_le, trailing_toNat]

theorem extend_trailing (value n : Nat) : extend value (trailing n) = value * 64 + n % 64 := by
  have six : (trailing n).toNat - 0x80 = n % 64 := by
    rw [trailing_toNat, Nat.add_sub_cancel]
  exact congrArg (value * 64 + ·) six

theorem continuation_trailing (count value n : Nat) (rest : Bytes) :
    continuation (count + 1) value (trailing n :: rest) =
      continuation count (value * 64 + n % 64) rest := by
  have low : 128 ≤ n % 64 + 0x80 := by omega
  have high : n % 64 + 0x80 ≤ 191 := by omega
  have continues : 0x80 ≤ trailing n ∧ trailing n ≤ 0xBF := ⟨le_trailing n low, trailing_le n high⟩
  rw [continuation, if_pos continues, extend_trailing]

theorem continuation_done (value : Nat) (rest : Bytes) :
    continuation 0 value rest = (some value, rest) := rfl

deriving instance DecidableEq for Lead

theorem lead?_two : ∀ n < 32, 2 ≤ n → lead? (UInt8.ofNat (n + 0xC0)) = some ⟨n, 0x80, 0xBF, 0⟩ := by
  decide

/-- A second byte that is too low would be overlong, one too high a surrogate. -/
theorem lead?_three : ∀ n < 16, lead? (UInt8.ofNat (n + 0xE0)) =
    some ⟨n, if n = 0 then 0xA0 else 0x80, if n = 13 then 0x9F else 0xBF, 1⟩ := by
  decide

theorem lead?_four : ∀ n < 5, lead? (UInt8.ofNat (n + 0xF0)) =
    some ⟨n, if n = 0 then 0x90 else 0x80, if n = 4 then 0x8F else 0xBF, 2⟩ := by
  decide

/-! ## Steps -/

theorem step_lead {byte : UInt8} {lead : Lead} {n : Nat} {rest : Bytes} (large : ¬byte < 0x80)
    (found : lead? byte = some lead) (low : lead.low.toNat ≤ n % 64 + 0x80)
    (high : n % 64 + 0x80 ≤ lead.high.toNat) :
    step byte (trailing n :: rest) =
      ((continuation lead.more (lead.bits * 64 + n % 64) rest).1.map Char.ofNat,
        (continuation lead.more (lead.bits * 64 + n % 64) rest).2) := by
  simp only [step, if_neg large, found, if_pos (And.intro (le_trailing n low) (trailing_le n high)),
    extend_trailing]

theorem not_ascii {n : Nat} (low : 128 ≤ n) (high : n < 256) : ¬UInt8.ofNat n < 0x80 := by
  rw [UInt8.lt_iff_toNat_lt, UInt8.toNat_ofNat', Nat.mod_eq_of_lt high]
  show ¬n < 128
  omega

theorem step_ascii {v : Nat} (high : v ≤ 127) (rest : Bytes) :
    step (UInt8.ofNat v) rest = (some (Char.ofNat v), rest) := by
  have same : (UInt8.ofNat v).toNat = v := by
    rw [UInt8.toNat_ofNat', Nat.mod_eq_of_lt (by omega)]
  have ascii : UInt8.ofNat v < 0x80 := by
    rw [UInt8.lt_iff_toNat_lt, same]
    exact Nat.lt_succ_of_le high
  simp only [step, if_pos ascii, same]

theorem step_two {v : Nat} (low : 128 ≤ v) (high : v < 2048) (rest : Bytes) :
    step (UInt8.ofNat (v / 64 % 32 + 0xC0)) (trailing v :: rest) = (some (Char.ofNat v), rest) := by
  have lead := lead?_two (v / 64 % 32) (Nat.mod_lt _ (by decide)) (by omega)
  have value : v / 64 % 32 * 64 + v % 64 = v := by omega
  rw [step_lead (not_ascii (by omega) (by omega)) lead]
  · simp only [continuation_done, value, Option.map_some]
  · exact Nat.le_add_left ..
  · show v % 64 + 128 ≤ 191
    omega

/-- The second byte is in range since the value is not a surrogate. -/
theorem step_three {v : Nat} (low : 2048 ≤ v) (high : v < 65536)
    (valid : v < 0xD800 ∨ 0xDFFF < v) (rest : Bytes) :
    step (UInt8.ofNat (v / 4096 % 16 + 0xE0)) (trailing (v / 64) :: trailing v :: rest) =
      (some (Char.ofNat v), rest) := by
  have lead := lead?_three (v / 4096 % 16) (Nat.mod_lt _ (by decide))
  have value : (v / 4096 % 16 * 64 + v / 64 % 64) * 64 + v % 64 = v := by omega
  rw [step_lead (not_ascii (by omega) (by omega)) lead]
  · simp only [continuation_trailing 0, continuation_done, value, Option.map_some]
  · dsimp only
    split
    next => show 160 ≤ _; omega
    next => show 128 ≤ _; omega
  · dsimp only
    split
    next => show _ ≤ 159; omega
    next => show _ ≤ 191; omega

theorem step_four {v : Nat} (low : 65536 ≤ v) (high : v < 0x110000) (rest : Bytes) :
    step (UInt8.ofNat (v / 262144 % 8 + 0xF0))
        (trailing (v / 4096) :: trailing (v / 64) :: trailing v :: rest) =
      (some (Char.ofNat v), rest) := by
  have lead := lead?_four (v / 262144 % 8) (by omega)
  have value : ((v / 262144 % 8 * 64 + v / 4096 % 64) * 64 + v / 64 % 64) * 64 + v % 64 = v := by
    omega
  rw [step_lead (not_ascii (by omega) (by omega)) lead]
  · simp only [continuation_trailing 1, continuation_trailing 0, continuation_done, value,
      Option.map_some]
  · dsimp only
    split
    next => show 144 ≤ _; omega
    next => show 128 ≤ _; omega
  · dsimp only
    split
    next => show _ ≤ 143; omega
    next => show _ ≤ 191; omega

/-- Of the bytes of a character and others after them, one step reads that character. -/
theorem step_encode (c : Char) : ∃ byte tail, String.utf8EncodeChar c = byte :: tail ∧
    ∀ rest, step byte (tail ++ rest) = (some c, rest) := by
  have back : Char.ofNat c.val.toNat = c := Char.ofNat_toNat c
  have valid : c.val.toNat < 0xD800 ∨ 0xDFFF < c.val.toNat ∧ c.val.toNat < 0x110000 := c.valid
  unfold String.utf8EncodeChar
  generalize c.val.toNat = v at *
  subst back
  dsimp only
  split
  next one => exact ⟨_, [], rfl, step_ascii one⟩
  next =>
    split
    next two => exact ⟨_, [trailing v], rfl, step_two (by omega) (by omega)⟩
    next =>
      split
      next three =>
        exact ⟨_, [trailing (v / 64), trailing v], rfl,
          step_three (by omega) (by omega) (by omega)⟩
      next =>
        exact ⟨_, [trailing (v / 4096), trailing (v / 64), trailing v], rfl,
          step_four (by omega) (by omega)⟩

/-! ## Whole texts -/

theorem ofText_eq (text : String) :
    Bytes.ofText text = text.toList.flatMap String.utf8EncodeChar := by
  have bytes : text.toUTF8 = (text.toList.flatMap String.utf8EncodeChar).toByteArray := by
    rw [String.toUTF8, ← String.utf8Encode_toList, List.utf8Encode]
  rw [Bytes.ofText, bytes, List.toList_data_toByteArray]

/-- The pieces of a text are its characters. -/
theorem pieces_ofText (text : String) : pieces (Bytes.ofText text) = text.toList.map some := by
  rw [ofText_eq]
  induction text.toList with
  | nil => simp [pieces]
  | cons c rest ih =>
    obtain ⟨byte, tail, bytes, read⟩ := step_encode c
    rw [List.flatMap_cons, bytes, List.cons_append, pieces, read, ih, List.map_cons]

theorem decode?_ofText (text : String) : decode? (Bytes.ofText text) = some text := by
  have all : (text.toList.map some).mapM id = some text.toList := mapM_id_iff.mpr rfl
  rw [decode?, pieces_ofText, all, Option.map_some, String.ofList_toList]

theorem ofText_injective : Function.Injective Bytes.ofText := by
  intro a b same
  have read := decode?_ofText a
  rw [same, decode?_ofText] at read
  exact (Option.some.inj read).symm

theorem encode_injective :
    Function.Injective fun cs : List Char => cs.flatMap String.utf8EncodeChar := by
  intro as bs same
  have texts : Bytes.ofText (String.ofList as) = Bytes.ofText (String.ofList bs) := by
    rwa [ofText_eq, ofText_eq, String.toList_ofList, String.toList_ofList]
  exact String.ofList_inj.mp (ofText_injective texts)

/-! ## What is read -/

/-- A continuation byte has six bits. -/
theorem exists_trailing {byte : UInt8} (low : 0x80 ≤ byte) (high : byte ≤ 0xBF) :
    ∃ n < 64, byte = trailing n := by
  have start : 128 ≤ byte.toNat := UInt8.le_iff_toNat_le.mp low
  have last : byte.toNat ≤ 191 := UInt8.le_iff_toNat_le.mp high
  refine ⟨byte.toNat - 0x80, by omega, UInt8.toNat_inj.mp ?_⟩
  rw [trailing_toNat]
  omega

theorem continuation_zero {value v : Nat} {bytes left : Bytes}
    (read : continuation 0 value bytes = (some v, left)) : v = value ∧ bytes = left := by
  cases read
  exact ⟨rfl, rfl⟩

theorem continuation_succ {count value v : Nat} {bytes left : Bytes}
    (read : continuation (count + 1) value bytes = (some v, left)) :
    ∃ n < 64, ∃ rest, bytes = trailing n :: rest ∧
      continuation count (value * 64 + n) rest = (some v, left) := by
  cases bytes with
  | nil => cases read
  | cons byte rest =>
    rw [continuation] at read
    split at read
    next continues =>
      obtain ⟨n, six, rfl⟩ := exists_trailing continues.1 continues.2
      rw [extend_trailing, Nat.mod_eq_of_lt six] at read
      exact ⟨n, six, rest, rfl, read⟩
    next => cases read

/-- The forms that a first byte of a longer sequence has. -/
inductive Leads : UInt8 → Lead → Prop
  | two (n : Nat) (bits : 2 ≤ n ∧ n < 32) : Leads (UInt8.ofNat (n + 0xC0)) ⟨n, 0x80, 0xBF, 0⟩
  | three (n : Nat) (bits : n < 16) : Leads (UInt8.ofNat (n + 0xE0))
      ⟨n, if n = 0 then 0xA0 else 0x80, if n = 13 then 0x9F else 0xBF, 1⟩
  | four (n : Nat) (bits : n < 5) : Leads (UInt8.ofNat (n + 0xF0))
      ⟨n, if n = 0 then 0x90 else 0x80, if n = 4 then 0x8F else 0xBF, 2⟩

theorem lead?_none {byte : UInt8} (out : byte.toNat < 0xC2 ∨ 0xF5 ≤ byte.toNat) :
    lead? byte = none := by
  have bounds : byte < 0xC2 ∨ ¬byte < 0xC2 ∧ ¬byte < 0xE0 ∧ ¬byte < 0xF0 ∧ ¬byte < 0xF5 := by
    simp only [UInt8.lt_iff_toNat_lt, UInt8.reduceToNat]
    omega
  obtain low | ⟨two, three, four, high⟩ := bounds
  · rw [lead?, if_pos low]
  · rw [lead?, if_neg two, if_neg three, if_neg four, if_neg high]

theorem leads_of_lead? {byte : UInt8} {lead : Lead} (found : lead? byte = some lead) :
    Leads byte lead := by
  obtain out | ⟨m, bits, at_byte⟩ | ⟨m, bits, at_byte⟩ | ⟨m, bits, at_byte⟩ :
      (byte.toNat < 0xC2 ∨ 0xF5 ≤ byte.toNat) ∨ (∃ m, (2 ≤ m ∧ m < 32) ∧ byte.toNat = m + 0xC0) ∨
        (∃ m, m < 16 ∧ byte.toNat = m + 0xE0) ∨ ∃ m, m < 5 ∧ byte.toNat = m + 0xF0 := by
    obtain two | three | four | out : 0xC2 ≤ byte.toNat ∧ byte.toNat < 0xE0 ∨
        0xE0 ≤ byte.toNat ∧ byte.toNat < 0xF0 ∨ 0xF0 ≤ byte.toNat ∧ byte.toNat < 0xF5 ∨
          (byte.toNat < 0xC2 ∨ 0xF5 ≤ byte.toNat) := by omega
    · exact .inr (.inl ⟨byte.toNat - 0xC0, by omega, by omega⟩)
    · exact .inr (.inr (.inl ⟨byte.toNat - 0xE0, by omega, by omega⟩))
    · exact .inr (.inr (.inr ⟨byte.toNat - 0xF0, by omega, by omega⟩))
    · exact .inl out
  · rw [lead?_none out] at found
    cases found
  all_goals
    have same := UInt8.ofNat_toNat (x := byte)
    rw [at_byte] at same
    subst same
  · rw [lead?_two m bits.2 bits.1] at found
    exact Option.some.inj found ▸ .two m bits
  · rw [lead?_three m bits] at found
    exact Option.some.inj found ▸ .three m bits
  · rw [lead?_four m bits] at found
    exact Option.some.inj found ▸ .four m bits

theorem toNat_ofNat {v : Nat} (valid : v < 0xD800 ∨ 0xDFFF < v ∧ v < 0x110000) :
    (Char.ofNat v).val.toNat = v := by
  have found : (Char.ofNat v).toNat = v := by
    rw [Char.toNat_ofNat, if_pos valid]
  exact found

theorem trailing_mod {v n : Nat} (six : n < 64) (same : v % 64 = n) : trailing v = trailing n := by
  rw [trailing, trailing, same, Nat.mod_eq_of_lt six]

theorem encode_one {v : Nat} (high : v ≤ 127) :
    String.utf8EncodeChar (Char.ofNat v) = [UInt8.ofNat v] := by
  have same := @toNat_ofNat v (by omega)
  unfold String.utf8EncodeChar
  simp only [same, if_pos high]

theorem encode_two {m a : Nat} (bits : 2 ≤ m ∧ m < 32) (six : a < 64) :
    String.utf8EncodeChar (Char.ofNat (m * 64 + a)) = [UInt8.ofNat (m + 0xC0), trailing a] := by
  have same := @toNat_ofNat (m * 64 + a) (by omega)
  have one : ¬m * 64 + a ≤ 127 := by omega
  have two : m * 64 + a ≤ 2047 := by omega
  have first : (m * 64 + a) / 64 % 32 = m := by omega
  have second : trailing (m * 64 + a) = trailing a := trailing_mod six (by omega)
  unfold String.utf8EncodeChar
  simp only [same, if_neg one, if_pos two, first]
  exact congrArg₂ _ rfl (congrArg₂ _ second rfl)

/-- Without an overlong form and without a surrogate. -/
theorem encode_three {m a b : Nat} (bits : m < 16) (first : a < 64) (second : b < 64)
    (long : 0 < m ∨ 32 ≤ a) (valid : m ≠ 13 ∨ a < 32) :
    String.utf8EncodeChar (Char.ofNat ((m * 64 + a) * 64 + b)) =
      [UInt8.ofNat (m + 0xE0), trailing a, trailing b] := by
  have same := @toNat_ofNat ((m * 64 + a) * 64 + b) (by omega)
  have one : ¬(m * 64 + a) * 64 + b ≤ 127 := by omega
  have two : ¬(m * 64 + a) * 64 + b ≤ 2047 := by omega
  have three : (m * 64 + a) * 64 + b ≤ 65535 := by omega
  have lead : ((m * 64 + a) * 64 + b) / 4096 % 16 = m := by omega
  have middle : trailing (((m * 64 + a) * 64 + b) / 64) = trailing a :=
    trailing_mod first (by omega)
  have lowest : trailing ((m * 64 + a) * 64 + b) = trailing b := trailing_mod second (by omega)
  unfold String.utf8EncodeChar
  simp only [same, if_neg one, if_neg two, if_pos three, lead]
  exact congrArg₂ _ rfl (congrArg₂ _ middle (congrArg₂ _ lowest rfl))

theorem encode_four {m a b c : Nat} (bits : m < 5) (first : a < 64) (second : b < 64)
    (third : c < 64) (long : 0 < m ∨ 16 ≤ a) (valid : m ≠ 4 ∨ a < 16) :
    String.utf8EncodeChar (Char.ofNat (((m * 64 + a) * 64 + b) * 64 + c)) =
      [UInt8.ofNat (m + 0xF0), trailing a, trailing b, trailing c] := by
  have same := @toNat_ofNat (((m * 64 + a) * 64 + b) * 64 + c) (by omega)
  have one : ¬((m * 64 + a) * 64 + b) * 64 + c ≤ 127 := by omega
  have two : ¬((m * 64 + a) * 64 + b) * 64 + c ≤ 2047 := by omega
  have three : ¬((m * 64 + a) * 64 + b) * 64 + c ≤ 65535 := by omega
  have lead : (((m * 64 + a) * 64 + b) * 64 + c) / 262144 % 8 = m := by omega
  have upper : trailing ((((m * 64 + a) * 64 + b) * 64 + c) / 4096) = trailing a :=
    trailing_mod first (by omega)
  have middle : trailing ((((m * 64 + a) * 64 + b) * 64 + c) / 64) = trailing b :=
    trailing_mod second (by omega)
  have lowest : trailing (((m * 64 + a) * 64 + b) * 64 + c) = trailing c :=
    trailing_mod third (by omega)
  unfold String.utf8EncodeChar
  simp only [same, if_neg one, if_neg two, if_neg three, lead]
  exact congrArg₂ _ rfl (congrArg₂ _ upper (congrArg₂ _ middle (congrArg₂ _ lowest rfl)))

/-- A second byte is a continuation byte at least. -/
theorem Leads.range {byte : UInt8} {lead : Lead} (leads : Leads byte lead) :
    0x80 ≤ lead.low.toNat ∧ lead.high.toNat ≤ 0xBF := by
  cases leads with
  | two => exact ⟨Nat.le_refl _, Nat.le_refl _⟩
  | three n => dsimp only; constructor <;> split <;> decide
  | four n => dsimp only; constructor <;> split <;> decide

/-- A character that is read from a longer sequence. -/
theorem step_longer {byte : UInt8} {rest left : Bytes} {c : Char} (large : ¬byte < 0x80)
    (read : step byte rest = (some c, left)) : ∃ lead, Leads byte lead ∧ ∃ n < 64, ∃ tail,
      lead.low.toNat ≤ n + 0x80 ∧ n + 0x80 ≤ lead.high.toNat ∧ rest = trailing n :: tail ∧
        ∃ v, continuation lead.more (lead.bits * 64 + n) tail = (some v, left) ∧
          Char.ofNat v = c := by
  simp only [step, if_neg large] at read
  split at read
  next => cases read
  next => cases read
  next lead second tail found =>
    split at read
    next range =>
      have leads := leads_of_lead? found
      have low := UInt8.le_iff_toNat_le.mp range.1
      have high := UInt8.le_iff_toNat_le.mp range.2
      obtain ⟨n, six, rfl⟩ := exists_trailing
        (UInt8.le_iff_toNat_le.mpr (leads.range.1.trans low))
        (UInt8.le_iff_toNat_le.mpr (high.trans leads.range.2))
      obtain ⟨chars, rfl⟩ := Prod.mk.inj read
      obtain ⟨v, value, rfl⟩ := Option.map_eq_some_iff.mp chars
      rw [trailing_toNat, Nat.mod_eq_of_lt six] at low high
      rw [extend_trailing, Nat.mod_eq_of_lt six] at value ⊢
      exact ⟨lead, leads, n, six, tail, low, high, rfl, v, Prod.ext value rfl, rfl⟩
    next => cases read

/-- The bytes of a character that one step reads are those that it takes. -/
theorem step_some {byte : UInt8} {rest left : Bytes} {c : Char}
    (read : step byte rest = (some c, left)) :
    byte :: rest = String.utf8EncodeChar c ++ left := by
  by_cases ascii : byte < 0x80
  · simp only [step, if_pos ascii] at read
    cases read
    have low : byte.toNat < 128 := UInt8.lt_iff_toNat_lt.mp ascii
    rw [encode_one (Nat.le_of_lt_succ low), UInt8.ofNat_toNat]
    rfl
  obtain ⟨lead, leads, a, six, tail, low, high, rfl, v, continued, rfl⟩ := step_longer ascii read
  cases leads with
  | two m bits =>
    obtain ⟨rfl, rfl⟩ := continuation_zero continued
    rw [encode_two bits six]
    rfl
  | three m bits =>
    obtain ⟨b, sixth, tail, rfl, more⟩ := continuation_succ continued
    obtain ⟨rfl, rfl⟩ := continuation_zero more
    rw [encode_three bits six sixth]
    · rfl
    · dsimp only at low
      split at low <;> simp only [UInt8.reduceToNat] at low <;> omega
    · dsimp only at high
      split at high <;> simp only [UInt8.reduceToNat] at high <;> omega
  | four m bits =>
    obtain ⟨b, sixth, tail, rfl, more⟩ := continuation_succ continued
    obtain ⟨c, last, tail, rfl, most⟩ := continuation_succ more
    obtain ⟨rfl, rfl⟩ := continuation_zero most
    rw [encode_four bits six sixth last]
    · rfl
    · dsimp only at low
      split at low <;> simp only [UInt8.reduceToNat] at low <;> omega
    · dsimp only at high
      split at high <;> simp only [UInt8.reduceToNat] at high <;> omega

theorem pieces_some {bytes : Bytes} {chars : List Char}
    (read : pieces bytes = chars.map some) : bytes = chars.flatMap String.utf8EncodeChar := by
  induction chars generalizing bytes with
  | nil =>
    cases bytes with
    | nil => rfl
    | cons byte rest =>
      rw [pieces] at read
      cases read
  | cons c chars ih =>
    cases bytes with
    | nil =>
      rw [pieces] at read
      cases read
    | cons byte rest =>
      rw [pieces, List.map_cons, List.cons.injEq] at read
      have taken : byte :: rest = String.utf8EncodeChar c ++ (step byte rest).2 :=
        step_some (Prod.ext read.1 rfl)
      rw [taken, List.flatMap_cons]
      exact congrArg _ (ih read.2)

/-- The text that bytes are read as has these bytes. -/
theorem ofText_of_decode? {bytes : Bytes} {s : String} (read : decode? bytes = some s) :
    bytes = Bytes.ofText s := by
  obtain ⟨chars, found, rfl⟩ := Option.map_eq_some_iff.mp read
  rw [ofText_eq, String.toList_ofList]
  exact pieces_some (mapM_id_iff.mp found)

/-- Bytes are read strictly if, and only if, they are those of a text. -/
theorem decode?_iff {bytes : Bytes} {s : String} :
    decode? bytes = some s ↔ bytes = Bytes.ofText s :=
  ⟨ofText_of_decode?, fun same => same ▸ decode?_ofText s⟩

theorem decode?_none_iff {bytes : Bytes} : decode? bytes = none ↔ ∀ s, bytes ≠ Bytes.ofText s := by
  simp only [Option.eq_none_iff_forall_ne_some, ne_eq, decode?_iff]

end TableExport.Utf8
