import Mathlib
import TableExport.Proofs.Calendar
import TableExport.Proofs.Text.Trimming

/-!
# Reading dates and times

Dates and times are read field by field: fixed numbers of digits between marks, a sign where a year
has not four digits, and a fraction of up to nine digits. What is written for a date, a clock or a
fraction is read as it, whatever follows; so different instants have different texts.
-/
namespace TableExport.Decimal

/-! ## Values of digits -/

theorem value_append (front back : List Char) :
    value (front ++ back) = back.foldl (fun n c => n * 10 + (c.toNat - 48)) (value front) :=
  List.foldl_append

theorem value_zeros (count : Nat) (ds : List Char) :
    value (List.replicate count '0' ++ ds) = value ds := by
  induction count with
  | zero => rfl
  | succ count ih => exact ih

/-- Zeros at the end count as powers of ten. -/
theorem value_append_zeros (ds : List Char) (count : Nat) :
    value (ds ++ List.replicate count '0') = value ds * 10 ^ count := by
  induction count with
  | zero => simp
  | succ count ih =>
    rw [List.replicate_succ', ← List.append_assoc, value_append, ih, Nat.pow_succ, ← Nat.mul_assoc]
    rfl

end TableExport.Decimal

namespace TableExport.Calendar
open Decimal (value value_digits value_zeros value_append_zeros digits_eq)

/-! ## Numerals -/

theorem isDigit_numeral {width n : Nat} : ∀ c ∈ numeral width n, c.isDigit = true := by
  intro c member
  obtain zero | digit := List.mem_append.mp member
  · rw [List.eq_of_mem_replicate zero]
    rfl
  · exact Nat.isDigit_of_mem_toDigits (by decide) (by decide) digit

theorem value_numeral (width n : Nat) : value (numeral width n) = n := by
  rw [numeral, List.leftpad, value_zeros, ← digits_eq, value_digits]

theorem numeral_length {width n : Nat} (fits : n < 10 ^ width) (some : width ≠ 0) :
    (numeral width n).length = width := by
  rw [numeral, List.length_leftpad]
  exact max_eq_left (Nat.toDigits_length 10 n width (Nat.pos_of_ne_zero some) fits)

theorem width_le_numeral (width n : Nat) : width ≤ (numeral width n).length := by
  rw [numeral, List.length_leftpad]
  exact le_max_left _ _

/-! ## Reading -/

/-- The number that so many digits at the front of a text stand for, and what follows them. -/
def figures? (width : Nat) (cs : List Char) : Option (Nat × List Char) :=
  if (cs.take width).length = width ∧ (cs.take width).all Char.isDigit then
    some (value (cs.take width), cs.drop width)
  else none

/-- What follows a mark. -/
def after? (mark : Char) : List Char → Option (List Char)
  | [] => none
  | c :: rest => if c = mark then some rest else none

/-- All digits at the front, of which there are at least four. -/
def longYear? (cs : List Char) : Option (Nat × List Char) :=
  figures? (max 4 (cs.takeWhile Char.isDigit).length) cs

/-- A year of four digits, or of at least four behind a sign. -/
def year? : List Char → Option (Int × List Char)
  | '-' :: cs => (longYear? cs).map fun (n, rest) => (-(n : Int), rest)
  | '+' :: cs => (longYear? cs).map fun (n, rest) => (n, rest)
  | cs => (figures? 4 cs).map fun (n, rest) => (n, rest)

def date? (cs : List Char) : Option (Date × List Char) := do
  let (year, cs) ← year? cs
  let cs ← after? '-' cs
  let (month, cs) ← figures? 2 cs
  let cs ← after? '-' cs
  let (day, cs) ← figures? 2 cs
  some (⟨year, month, day⟩, cs)

/-- The seconds of a day until a time. -/
def seconds? (cs : List Char) : Option (Nat × List Char) := do
  let (hour, cs) ← figures? 2 cs
  let cs ← after? ':' cs
  let (minute, cs) ← figures? 2 cs
  let cs ← after? ':' cs
  let (second, cs) ← figures? 2 cs
  if hour < 24 ∧ minute < 60 ∧ second < 60 then some (hour * 3600 + minute * 60 + second, cs)
  else none

/-- The nanoseconds of a fraction of up to nine digits. Without a point there is none. -/
def fraction? : List Char → Option (Nat × List Char)
  | '.' :: cs =>
    let digits := cs.takeWhile Char.isDigit
    if digits = [] ∨ 9 < digits.length then none
    else some (value digits * 10 ^ (9 - digits.length), cs.dropWhile Char.isDigit)
  | cs => some (0, cs)

instance (d : Date) : Decidable d.Valid :=
  decidable_of_iff ((firstYear ≤ d.year ∧ d.year ≤ lastYear) ∧ (1 ≤ d.month ∧ d.month ≤ 12) ∧
    (1 ≤ d.day ∧ d.day ≤ monthLength d.year d.month))
    ⟨fun ⟨year, month, day⟩ => ⟨year, month, day⟩, fun ⟨year, month, day⟩ => ⟨year, month, day⟩⟩

/-- The instant of a text: date, `T`, time of day, fraction and `Z`. -/
def Instant.ofText? (cs : List Char) : Option Instant := do
  let (date, cs) ← date? cs
  let cs ← after? 'T' cs
  let (seconds, cs) ← seconds? cs
  let (nanos, cs) ← fraction? cs
  if date.Valid ∧ cs = ['Z'] then some ⟨date.number, seconds * 1000000000 + nanos⟩ else none

/-! ## Fields -/

theorem figures?_append {ds : List Char} (digits : ∀ c ∈ ds, c.isDigit = true) (rest : List Char) :
    figures? ds.length (ds ++ rest) = some (value ds, rest) := by
  rw [figures?, List.take_left, List.drop_left, if_pos ⟨rfl, List.all_eq_true.mpr digits⟩]

theorem figures?_numeral {width n : Nat} (fits : n < 10 ^ width) (some : width ≠ 0)
    (rest : List Char) : figures? width (numeral width n ++ rest) = .some (n, rest) := by
  have read := figures?_append (@isDigit_numeral width n) rest
  rwa [numeral_length fits some, value_numeral] at read

theorem after?_mark (mark : Char) (rest : List Char) : after? mark (mark :: rest) = some rest :=
  if_pos rfl

/-- A text that does not begin with a digit. -/
def NoDigit (cs : List Char) : Prop := ∀ c ∈ cs.head?, c.isDigit = false

theorem longYear?_numeral (n : Nat) {rest : List Char} (stop : NoDigit rest) :
    longYear? (numeral 4 n ++ rest) = some (n, rest) := by
  have digits := @isDigit_numeral 4 n
  rw [longYear?, takeWhile_front digits stop, max_eq_right (width_le_numeral 4 n),
    figures?_append digits, value_numeral]

/-- How a year is written: four digits at least, behind a sign if they are not the four of a year
without. -/
def yearIso (year : Int) : List Char :=
  (if year < 0 then ['-'] else if 9999 < year then ['+'] else []) ++ numeral 4 year.natAbs

theorem year?_iso (year : Int) {rest : List Char} (stop : NoDigit rest) :
    year? (yearIso year ++ rest) = some (year, rest) := by
  have long := longYear?_numeral year.natAbs stop
  unfold yearIso
  split_ifs with before after
  · have negative : -(year.natAbs : Int) = year := by omega
    rw [List.append_assoc, List.singleton_append, year?, long, Option.map_some]
    exact congrArg (fun y => some (y, rest)) negative
  · have positive : (year.natAbs : Int) = year := by omega
    rw [List.append_assoc, List.singleton_append, year?, long, Option.map_some]
    exact congrArg (fun y => some (y, rest)) positive
  · have positive : (year.natAbs : Int) = year := by omega
    have read := @figures?_numeral 4 year.natAbs (by omega) (by decide) rest
    -- a numeral begins with a digit, and so with no sign
    have signless {mark : Char} (noDigit : mark.isDigit = false) (more : List Char) :
        [] ++ numeral 4 year.natAbs ++ rest ≠ mark :: more := by
      intro same
      have start : mark ∈ numeral 4 year.natAbs := by
        cases whole : numeral 4 year.natAbs with
        | nil =>
          have long := width_le_numeral 4 year.natAbs
          rw [whole] at long
          exact absurd long (by decide)
        | cons c cs =>
          rw [whole] at same
          rw [(List.cons.inj same).1]
          exact List.mem_cons_self
      exact absurd (isDigit_numeral mark start) (by rw [noDigit]; decide)
    rw [year?, List.nil_append, read, Option.map_some]
    · exact congrArg (fun y => some (y, rest)) positive
    · exact fun more => signless rfl more
    · exact fun more => signless rfl more

theorem date?_iso {d : Date} (valid : d.Valid) (rest : List Char) :
    date? (d.iso ++ rest) = some (d, rest) := by
  have most := valid.day_le
  obtain ⟨year, month, day⟩ := d
  have fits : month < 10 ^ 2 ∧ day < 10 ^ 2 := by
    have december := valid.month.2
    split at most <;> simp only at * <;> omega
  have text : Date.iso ⟨year, month, day⟩ ++ rest =
      yearIso year ++ ('-' :: (numeral 2 month ++ '-' :: (numeral 2 day ++ rest))) := by
    simp [Date.iso, yearIso]
  rw [date?, text, year?_iso year (by simp [NoDigit])]
  simp only [Option.bind_eq_bind, Option.bind_some, after?_mark,
    figures?_numeral fits.1 two_ne_zero, figures?_numeral fits.2 two_ne_zero]

theorem seconds?_iso (c : Clock) (rest : List Char) :
    seconds? (c.iso ++ rest) = some (c.seconds, rest) := by
  obtain ⟨⟨hour, inDay⟩, ⟨minute, inHour⟩, ⟨second, inMinute⟩, micro⟩ := c
  have text : Clock.iso ⟨⟨hour, inDay⟩, ⟨minute, inHour⟩, ⟨second, inMinute⟩, micro⟩ ++ rest =
      numeral 2 hour ++ ':' :: (numeral 2 minute ++ ':' :: (numeral 2 second ++ rest)) := by
    simp [Clock.iso]
  have two {n : Nat} (below : n < 60) (more : List Char) :
      figures? 2 (numeral 2 n ++ more) = some (n, more) :=
    figures?_numeral (by omega) two_ne_zero more
  rw [seconds?, text, two (by omega)]
  simp only [Option.bind_eq_bind, Option.bind_some, after?_mark, two inHour, two inMinute,
    if_pos (And.intro inDay (And.intro inHour inMinute)), Clock.seconds]

/-! ## Fractions -/

/-- The digits of a fraction without zeros at the end. -/
def fractionDigits (nanos : Nat) : List Char := (numeral 9 nanos).rdropWhile (· = '0')

theorem fractionText_eq (nanos : Nat) :
    fractionText nanos = if nanos = 0 then [] else '.' :: fractionDigits nanos := by
  rw [fractionText, Decimal.padded_eq]
  rfl

/-- The zeros that are left out are those that make nine digits. -/
theorem numeral_eq {nanos : Nat} (second : nanos < 1000000000) :
    numeral 9 nanos = fractionDigits nanos ++
      List.replicate (9 - (fractionDigits nanos).length) '0' := by
  obtain ⟨zeros, whole, all⟩ := Text.exists_rdropWhile (p := (· = '0')) (numeral 9 nanos)
  have nine := @numeral_length 9 nanos (by omega) (by decide)
  have zeros_eq : zeros = List.replicate zeros.length '0' :=
    List.eq_replicate_iff.mpr ⟨rfl, fun c member => of_decide_eq_true (all c member)⟩
  have count : zeros.length = 9 - (fractionDigits nanos).length := by
    have total := congrArg List.length whole
    rw [List.length_append, nine] at total
    rw [fractionDigits]
    omega
  rw [← count, ← zeros_eq]
  exact whole

/-- The digits of a fraction: some, but at most nine, and the last is no zero. -/
structure FractionDigits (ds : List Char) : Prop where
  some : ds ≠ []
  most : ds.length ≤ 9
  digits : ∀ c ∈ ds, c.isDigit = true
  last : ∀ c ∈ ds.getLast?, c ≠ '0'

theorem fractionDigits_of_pos {nanos : Nat} (positive : 0 < nanos) (second : nanos < 1000000000) :
    FractionDigits (fractionDigits nanos) := by
  have front : fractionDigits nanos <+: numeral 9 nanos :=
    List.rdropWhile_prefix _ _
  refine ⟨?_, ?_, ?_, ?_⟩
  · -- nothing but zeros would be the number zero
    intro none
    have whole := congrArg value (numeral_eq second)
    rw [value_numeral, value_append_zeros, none] at whole
    simp [value] at whole
    omega
  · exact front.length_le.trans (numeral_length (by omega) (by decide)).le
  · exact fun c member => isDigit_numeral c (front.subset member)
  · intro c last
    simpa using Text.last_rdropWhile _ c last

theorem fraction?_text {nanos : Nat} (second : nanos < 1000000000) {rest : List Char}
    (stop : NoDigit rest) (noPoint : '.' ∉ rest.head?) :
    fraction? (fractionText nanos ++ rest) = some (nanos, rest) := by
  rw [fractionText_eq]
  split_ifs with whole
  · subst whole
    rw [List.nil_append, fraction?]
    rintro more rfl
    exact noPoint rfl
  · have kept := fractionDigits_of_pos (Nat.pos_of_ne_zero whole) second
    have read :
        value (fractionDigits nanos) * 10 ^ (9 - (fractionDigits nanos).length) = nanos := by
      rw [← value_append_zeros, ← numeral_eq second, value_numeral]
    rw [List.cons_append, fraction?, takeWhile_front kept.digits stop,
      dropWhile_front kept.digits stop, read,
      if_neg (not_or.mpr ⟨kept.some, Nat.not_lt.mpr kept.most⟩)]

/-! ## Instants -/

def nanosPerDay : Nat := 86400000000000

/-- The time of day, without what is less than a microsecond. -/
theorem exists_clock {nanos : Nat} (inDay : nanos < nanosPerDay) :
    ∃ c : Clock, c.seconds = nanos / 1000000000 := by
  obtain ⟨c, micros⟩ := @Clock.exists_micros (nanos / 1000 : Nat) (by omega) (by
    simp only [nanosPerDay, microsPerDay] at *
    omega)
  refine ⟨c, ?_⟩
  rw [← c.micros_div, Int.ofNat_inj.mp micros, microsPerSecond]
  omega

namespace Instant

/-- An instant on a day of the calendar. -/
structure Dated (i : Instant) : Prop where
  day : ∃ d : Date, d.Valid ∧ d.number = i.day
  nanos : i.nanos < nanosPerDay

/-- How an instant is written: date, `T`, time of day, fraction and `Z`. A whole second has no
fraction, and a fraction has no zero at its end. -/
structure Written (i : Instant) (date : Date) (clock : Clock) (fraction : List Char) : Prop where
  valid : date.Valid
  day : date.number = i.day
  seconds : clock.seconds = i.nanos / 1000000000
  text : i.text = date.iso ++ 'T' :: clock.iso ++ fraction ++ ['Z']
  whole : fraction = [] ↔ i.nanos % 1000000000 = 0
  digits : fraction ≠ [] → ∃ ds, fraction = '.' :: ds ∧ FractionDigits ds

theorem Dated.written {i : Instant} (dated : i.Dated) :
    ∃ date clock, i.Written date clock (fractionText (i.nanos % 1000000000)) := by
  obtain ⟨⟨d, valid, day⟩, inDay⟩ := dated
  obtain ⟨c, seconds⟩ := exists_clock inDay
  refine ⟨d, c, valid, day, seconds, ?_, ?_, fun present => ?_⟩
  · rw [Instant.text, ← day, d.ofDay_number valid, Date.text_eq, ← seconds, c.clockText_eq]
  · rw [fractionText_eq]
    split_ifs with whole <;> simp [whole]
  · rw [fractionText_eq] at present ⊢
    split_ifs at present ⊢ with whole
    · exact absurd rfl present
    · exact ⟨_, rfl, fractionDigits_of_pos (Nat.pos_of_ne_zero whole) (Nat.mod_lt _ (by decide))⟩

/-- The text of an instant is read as that instant. -/
theorem Dated.ofText?_text {i : Instant} (dated : i.Dated) : ofText? i.text = some i := by
  obtain ⟨d, c, written⟩ := dated.written
  have text : i.text =
      d.iso ++ 'T' :: (c.iso ++ (fractionText (i.nanos % 1000000000) ++ ['Z'])) := by
    rw [written.text]
    simp
  have fraction : fraction? (fractionText (i.nanos % 1000000000) ++ ['Z']) =
      some (i.nanos % 1000000000, ['Z']) :=
    fraction?_text (Nat.mod_lt _ (by decide)) (by simp [NoDigit]) (by simp)
  rw [ofText?, text, date?_iso written.valid]
  simp only [Option.bind_eq_bind, Option.bind_some, after?_mark, seconds?_iso, fraction,
    written.seconds, Nat.div_add_mod', and_true, if_pos written.valid, written.day]

/-- Different instants have different texts. -/
theorem Dated.text_inj {i j : Instant} (dated : i.Dated) (other : j.Dated)
    (same : i.text = j.text) : i = j := by
  have read := dated.ofText?_text
  rw [same, other.ofText?_text] at read
  exact (Option.some.inj read).symm

theorem exists_moment {micros : Int} {i : Instant} (found : ofMicros? micros = some i) :
    ∃ m : Moment, m.micros = micros ∧ i = ⟨m.date.number, m.clock.micros * 1000⟩ := by
  obtain ⟨m, rfl⟩ : ∃ m : Moment, m.micros = micros := by
    by_contra other
    rw [Moment.ofMicros?_none_iff.mpr (not_exists.mp other)] at found
    cases found
  rw [m.ofMicros?_micros] at found
  exact ⟨m, rfl, (Option.some.inj found).symm⟩

theorem dated_of_micros {micros : Int} {i : Instant} (found : ofMicros? micros = some i) :
    i.Dated := by
  obtain ⟨m, -, rfl⟩ := exists_moment found
  have inDay := m.clock.micros_lt
  refine ⟨⟨m.date, m.valid, rfl⟩, ?_⟩
  simp only [nanosPerDay, microsPerDay] at *
  omega

theorem ofMicros?_inj {micros others : Int} {i : Instant} (found : ofMicros? micros = some i)
    (also : ofMicros? others = some i) : micros = others := by
  obtain ⟨m, rfl, rfl⟩ := exists_moment found
  obtain ⟨n, rfl, same⟩ := exists_moment also
  obtain ⟨day, nanos⟩ := Instant.mk.inj same
  have clock : m.clock.micros = n.clock.micros := by omega
  rw [Moment.micros, Moment.micros, day, clock]

end Instant

/-! ## Times of day -/

namespace Clock

theorem micros_inj {c d : Clock} (same : c.micros = d.micros) : c = d := by
  obtain ⟨⟨hour, _⟩, ⟨minute, _⟩, ⟨second, _⟩, ⟨micro, _⟩⟩ := c
  obtain ⟨⟨hour', _⟩, ⟨minute', _⟩, ⟨second', _⟩, ⟨micro', _⟩⟩ := d
  simp only [micros, seconds, microsPerSecond] at same
  have hours : hour = hour' := by omega
  have minutes : minute = minute' := by omega
  have seconds : second = second' := by omega
  have micros : micro = micro' := by omega
  simp only [hours, minutes, seconds, micros]

/-- Thousandths and millionths are both read as nanoseconds. -/
theorem fraction?_fraction (c : Clock) : fraction? c.fraction = some (c.micro.val * 1000, []) := by
  have read {width n : Nat} (some_ : width ≠ 0) (most : width ≤ 9) (fits : n < 10 ^ width) :
      fraction? ('.' :: numeral width n) = some (n * 10 ^ (9 - width), []) := by
    have digits := @isDigit_numeral width n
    have front := @takeWhile_front _ Char.isDigit (numeral width n) [] digits nofun
    have back := @dropWhile_front _ Char.isDigit (numeral width n) [] digits nofun
    rw [List.append_nil] at front back
    have length := numeral_length fits some_
    have present : numeral width n ≠ [] := List.ne_nil_of_length_pos (by omega)
    rw [fraction?, front, back, length, value_numeral,
      if_neg (not_or.mpr ⟨present, Nat.not_lt.mpr most⟩)]
  have below := c.micro.isLt
  unfold fraction
  split_ifs with whole thousand
  · rw [whole]
    rfl
  · have nanos : c.micro.val / 1000 * 10 ^ (9 - 3) = c.micro.val * 1000 := by
      norm_num
      omega
    rw [read (by decide) (by decide) (by norm_num; omega : c.micro.val / 1000 < 10 ^ 3), nanos]
  · rw [read (by decide) (by decide) (by norm_num : c.micro.val < 10 ^ 6)]
    norm_num

/-- Different times of a day have different texts. -/
theorem text_inj {c d : Clock} (same : c.iso ++ c.fraction = d.iso ++ d.fraction) : c = d := by
  -- what is left when the seconds are read is the fraction, so it is the same as well
  have read := seconds?_iso c c.fraction
  rw [same, seconds?_iso] at read
  obtain ⟨seconds, fraction⟩ := Prod.mk.inj (Option.some.inj read)
  have nanos := c.fraction?_fraction
  rw [← fraction, fraction?_fraction] at nanos
  obtain ⟨micro, -⟩ := Prod.mk.inj (Option.some.inj nanos)
  refine micros_inj ?_
  rw [micros, micros, seconds]
  omega

end Clock

theorem Date.iso_inj {d e : Date} (valid : d.Valid) (other : e.Valid) (same : d.iso = e.iso) :
    d = e := by
  have read := date?_iso valid []
  rw [same, date?_iso other] at read
  exact (Prod.mk.inj (Option.some.inj read)).1.symm

theorem Moment.iso_inj {m n : Moment} (same : m.iso = n.iso) : m = n := by
  rw [← m.text_eq, ← n.text_eq] at same
  have equal := (Instant.dated_of_micros m.ofMicros?_micros).text_inj
    (Instant.dated_of_micros n.ofMicros?_micros) same
  obtain ⟨day, nanos⟩ := Instant.mk.inj equal
  have clock : m.clock = n.clock := Clock.micros_inj (by omega)
  have date : m.date = n.date := by
    rw [← m.date.ofDay_number m.valid, day, n.date.ofDay_number n.valid]
  obtain ⟨_, _, _⟩ := m
  obtain ⟨_, _, _⟩ := n
  simp only at clock date
  subst clock date
  rfl

/-! ## Trimming a fraction of nine digits -/

/-- Date and time of day with nine digits of the second's fraction. -/
def Instant.nineDigits (i : Instant) : List Char :=
  (Date.ofDay i.day).text ++ 'T' :: clockText (i.nanos / 1000000000) ++
    '.' :: numeral 9 (i.nanos % 1000000000)

/-- A text that ends in digits does not end in a point. -/
theorem point_not_last {ds : List Char} (digits : ∀ c ∈ ds, c.isDigit = true) (some : ds ≠ [])
    (front : List Char) : ∀ c ∈ (front ++ ds).getLast?, decide (c = '.') = false := by
  intro c last
  rw [List.getLast?_append_of_ne_nil _ some] at last
  refine decide_eq_false ?_
  rintro rfl
  cases digits _ (List.mem_of_mem_getLast? last)

theorem point_not_last_clock (front : List Char) (seconds : Nat) :
    ∀ c ∈ (front ++ clockText seconds).getLast?, decide (c = '.') = false := by
  have two := width_le_numeral 2 (seconds % 60)
  have some : numeral 2 (seconds % 60) ≠ [] := List.ne_nil_of_length_pos (by omega)
  rw [clockText, Decimal.padded_eq 2 (seconds % 60), List.append_cons, ← List.append_assoc]
  exact point_not_last isDigit_numeral some _

/-- Trimming zeros, and then a point, takes from nine digits what is not written of a fraction, and
nothing of the text before the point. -/
theorem trim_fraction {front : List Char} (stop : ∀ c ∈ front.getLast?, decide (c = '.') = false)
    {fraction : Nat} (second : fraction < 1000000000) :
    ((front ++ '.' :: numeral 9 fraction).rdropWhile (· = '0')).rdropWhile (· = '.') =
      front ++ fractionText fraction := by
  have zeros (count : Nat) : ∀ c ∈ List.replicate count '0', decide (c = '0') = true :=
    fun c member => decide_eq_true (List.eq_of_mem_replicate member)
  rw [fractionText_eq]
  obtain rfl | positive := Nat.eq_zero_or_pos fraction
  · -- all nine digits go, and the point that is then last
    have nine : numeral 9 0 = List.replicate 9 '0' := by decide
    rw [nine, List.append_cons, Text.rdropWhile_back (by simp) (zeros 9),
      Text.rdropWhile_back stop (by simp), if_pos rfl, List.append_nil]
  · have kept := fractionDigits_of_pos positive second
    have last : ∀ c ∈ (front ++ ['.'] ++ fractionDigits fraction).getLast?,
        decide (c = '0') = false := by
      intro c last
      rw [List.getLast?_append_of_ne_nil _ kept.some] at last
      exact decide_eq_false (kept.last c last)
    have point := Text.rdropWhile_eq (point_not_last kept.digits kept.some (front ++ ['.']))
    rw [numeral_eq second, List.append_cons, ← List.append_assoc,
      Text.rdropWhile_back last (zeros _), point, if_neg positive.ne', ← List.append_cons]

/-- If zeros are trimmed from the nine digits, and then the point if it is last, what is left is the
text of the instant: zeros of the seconds stand before the point and are kept. -/
theorem Instant.text_eq_trimmed (i : Instant) :
    i.text = (i.nineDigits.rdropWhile (· = '0')).rdropWhile (· = '.') ++ ['Z'] := by
  have stop := point_not_last_clock ((Date.ofDay i.day).text ++ ['T']) (i.nanos / 1000000000)
  rw [← List.append_cons] at stop
  rw [Instant.nineDigits, trim_fraction stop (Nat.mod_lt _ (by decide)), Instant.text]

end TableExport.Calendar
