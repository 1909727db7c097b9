import Mathlib
import TableExport.Calendar
import TableExport.Proofs.Decimal.Digits

/-!
# Dates and times

Dates of the Gregorian calendar have numbers, counted from 1970-01-01. The calendar is
described by its months and leap years; the date of a number is found in years that start in
March, so that the leap day is the last one. Moments are counted in microseconds and shown by
the fields of their date and their clock.
-/
namespace TableExport.Calendar

open Decimal (padded_eq withoutTrailingZeros_padded)

/-! ## Months and years -/

def isLeap (year : Int) : Bool := year % 4 = 0 && (year % 100 ≠ 0 || year % 400 = 0)

def monthLength (year : Int) : Nat → Nat
  | 2 => if isLeap year then 29 else 28
  | 4 | 6 | 9 | 11 => 30
  | _ => 31

/-- The leap years up to a year, less those up to the year 0. -/
def leapYears (year : Int) : Int := year / 4 - year / 100 + year / 400

namespace Date

/-- A date that there is, in a year of the calendar. -/
structure Valid (d : Date) : Prop where
  year : firstYear ≤ d.year ∧ d.year ≤ lastYear
  month : 1 ≤ d.month ∧ d.month ≤ 12
  day : 1 ≤ d.day ∧ d.day ≤ monthLength d.year d.month

end Date

/-- The days of a year before a month. -/
def daysBefore (year : Int) (month : Nat) : Nat :=
  ((List.range (month - 1)).map fun before => monthLength year (before + 1)).sum

/-- The days between 1970-01-01 and the date. -/
def Date.number (d : Date) : Int :=
  365 * (d.year - 1970) + (leapYears (d.year - 1) - leapYears 1969) + daysBefore d.year d.month +
    d.day - 1

theorem leapYears_succ (year : Int) :
    leapYears year = leapYears (year - 1) + if isLeap year then 1 else 0 := by
  unfold leapYears isLeap
  split <;> simp_all <;> omega

/-- From March on the months are 153 days in five. -/
theorem daysBefore_eq (year : Int) {month : Nat} (valid : 1 ≤ month ∧ month ≤ 12) :
    daysBefore year month =
      if month ≤ 2 then 31 * (month - 1)
      else (153 * (month - 3) + 2) / 5 + 59 + if isLeap year then 1 else 0 := by
  obtain ⟨low, high⟩ := valid
  interval_cases month <;> cases leap : isLeap year <;>
    simp [daysBefore, List.range_succ, monthLength, leap]

/-! ## Years that start in March -/

namespace Date

/-- The year that starts in March and has the date. -/
def marchYear (d : Date) : Int := if d.month ≤ 2 then d.year - 1 else d.year

/-- The months since March. -/
def marchMonth (d : Date) : Nat := if d.month ≤ 2 then d.month + 9 else d.month - 3

/-- The days since the first of March. -/
def marchDay (d : Date) : Nat := (153 * d.marchMonth + 2) / 5 + d.day - 1

/-- February is shorter than the other months. -/
theorem Valid.day_le {d : Date} (valid : d.Valid) :
    d.day ≤ if d.month = 2 then 29 else 31 := by
  refine valid.day.2.trans ?_
  unfold monthLength
  split
  next => split <;> decide
  all_goals simp_all

theorem number_march {d : Date} (valid : d.Valid) :
    d.number + 719468 = 365 * d.marchYear + leapYears d.marchYear + d.marchDay := by
  have start : leapYears 1969 = 477 := by decide
  have leap := leapYears_succ d.year
  have before := daysBefore_eq d.year valid.month
  have day := valid.day.1
  have month := valid.month
  simp only [number, marchYear, marchMonth, marchDay, start, before]
  -- in January and February the leap day of the year is still to come
  by_cases winter : d.month ≤ 2
  · simp only [if_pos winter]
    omega
  · simp only [if_neg winter]
    split_ifs at leap ⊢ <;> omega

/-- A day tells its month, since the months from March on are 153 days in five. -/
theorem month_of_marchDay {d : Date} (valid : d.Valid) :
    (5 * d.marchDay + 2) / 153 = d.marchMonth ∧
      d.marchDay - (153 * d.marchMonth + 2) / 5 + 1 = d.day := by
  have most := valid.day_le
  obtain ⟨year, month, day⟩ := d
  obtain ⟨-, ⟨low, high⟩, ⟨one, length⟩⟩ := valid
  simp only [marchMonth, marchDay] at *
  interval_cases month <;> simp [monthLength] at * <;> omega

/-- The day that only leap years have is the last one. -/
theorem marchDay_le {d : Date} (valid : d.Valid) :
    d.marchDay ≤ 364 ∨ d.marchDay = 365 ∧ isLeap (d.marchYear + 1) = true := by
  obtain ⟨year, month, day⟩ := d
  obtain ⟨-, ⟨low, high⟩, ⟨one, length⟩⟩ := valid
  simp only [marchMonth, marchDay, marchYear] at *
  by_cases february : month = 2
  · subst february
    simp only [monthLength] at length
    split at length
    next leap =>
      have after : year - 1 + 1 = year := by omega
      simp only [if_pos (le_refl 2), after, leap, and_true]
      omega
    next =>
      simp only [if_pos (le_refl 2)]
      omega
  · left
    interval_cases month <;> simp [monthLength] at * <;> omega

end Date

/-- The year of a day within 400 years, which are four centuries of 25 leap periods less the
leap days of three of the centuries. -/
theorem yearOfEra_eq {century period year day : Nat} (centuries : century < 4)
    (periods : period < 25) (years : year < 4)
    (last : day ≤ 364 ∨ day = 365 ∧ year = 3 ∧ (period = 24 → century = 3)) {dayOfEra : Nat}
    (split : dayOfEra = 36524 * century + 1461 * period + 365 * year + day) :
    (dayOfEra - dayOfEra / 1460 + dayOfEra / 36524 - dayOfEra / 146096) / 365 =
      100 * century + 4 * period + year := by
  have whole : dayOfEra / 36524 = century + dayOfEra / 146096 := by
    -- the leap day of the last century is the only day beyond its century
    obtain inner | ⟨rfl, rfl, rfl, rfl⟩ : 1461 * period + 365 * year + day ≤ 36523 ∨
        (century = 3 ∧ period = 24 ∧ year = 3 ∧ day = 365) := by omega
    · have before : dayOfEra / 146096 = 0 := by omega
      omega
    · rw [split]
  have block : dayOfEra / 1460 =
      25 * century + period + (24 * century + period + 365 * year + day) / 1460 := by omega
  omega

namespace Date

/-- The date of a day that is given by its era, and by century, leap period, year and day in
it. -/
theorem ofDay_eq {era : Int} {century period year day : Nat} (centuries : century < 4)
    (periods : period < 25) (years : year < 4)
    (last : day ≤ 364 ∨ day = 365 ∧ year = 3 ∧ (period = 24 → century = 3)) {n : Int}
    (at_day : n + 719468 =
      era * 146097 + (36524 * century + 1461 * period + 365 * year + day : Nat)) :
    Date.ofDay n =
      let month := (5 * day + 2) / 153
      let shown := if month < 10 then month + 3 else month - 9
      ⟨(100 * century + 4 * period + year : Nat) + era * 400 + (if shown ≤ 2 then 1 else 0), shown,
        day - (153 * month + 2) / 5 + 1⟩ := by
  have era_eq : (n + 719468).fdiv 146097 = era := by
    rw [at_day, Int.fdiv_eq_ediv_of_nonneg _ (by decide)]
    omega
  have rest_eq : ((n + 719468).fmod 146097).toNat =
      36524 * century + 1461 * period + 365 * year + day := by
    rw [at_day, Int.fmod_eq_emod_of_nonneg _ (by decide)]
    omega
  have year_eq := yearOfEra_eq centuries periods years last rfl
  have day_eq : 36524 * century + 1461 * period + 365 * year + day -
      (365 * (100 * century + 4 * period + year) + (100 * century + 4 * period + year) / 4 -
        (100 * century + 4 * period + year) / 100) = day := by omega
  simp only [Date.ofDay, era_eq, rest_eq, year_eq, day_eq]

/-- The date of the number of a date is that date. -/
theorem ofDay_number {d : Date} (valid : d.Valid) : Date.ofDay d.number = d := by
  have number := number_march valid
  obtain ⟨month_eq, day_eq⟩ := month_of_marchDay valid
  have last := marchDay_le valid
  obtain ⟨first, december⟩ := valid.month
  simp only [leapYears, isLeap] at number last
  obtain ⟨era, century, period, year, centuries, periods, years, split⟩ :
      ∃ (era : Int) (century period year : Nat), century < 4 ∧ period < 25 ∧ year < 4 ∧
        d.marchYear = 400 * era + 100 * century + 4 * period + year :=
    ⟨d.marchYear / 400, (d.marchYear % 400 / 100).toNat, (d.marchYear % 100 / 4).toNat,
      (d.marchYear % 4).toNat, by omega⟩
  have at_day : d.number + 719468 = era * 146097 +
      (36524 * century + 1461 * period + 365 * year + d.marchDay : Nat) := by omega
  have month : (if d.marchMonth < 10 then d.marchMonth + 3 else d.marchMonth - 9) = d.month := by
    unfold marchMonth
    split_ifs <;> omega
  have year : ((100 * century + 4 * period + year : Nat) : Int) + era * 400 +
      (if d.month ≤ 2 then 1 else 0) = d.year := by
    unfold marchYear at split
    split_ifs at split ⊢ <;> omega
  rw [ofDay_eq centuries periods years ?_ at_day]
  · simp only [month_eq, month, day_eq, year]
  · simp only [Bool.and_eq_true, Bool.or_eq_true, decide_eq_true_eq] at last
    omega

/-- A date in the calendar is found by its number. -/
theorem ofDay?_number {d : Date} (valid : d.Valid) : Date.ofDay? d.number = some d := by
  simp only [Date.ofDay?, ofDay_number valid, if_pos valid.year]

/-- Every day lies in an era of 400 years, and in a century, a leap period and a year of it. -/
theorem exists_era (n : Int) : ∃ (era : Int) (century period year day : Nat),
    century < 4 ∧ period < 25 ∧ year < 4 ∧
      (day ≤ 364 ∨ day = 365 ∧ year = 3 ∧ (period = 24 → century = 3)) ∧
      n + 719468 = era * 146097 + (36524 * century + 1461 * period + 365 * year + day : Nat) := by
  obtain ⟨era, rest, bound, at_era⟩ :
      ∃ (era : Int) (rest : Nat), rest < 146097 ∧ n + 719468 = era * 146097 + rest :=
    ⟨(n + 719468) / 146097, ((n + 719468) % 146097).toNat, by omega, by omega⟩
  -- the last century of an era and the last year of a leap period are a day longer
  obtain ⟨century, inCentury, centuries, most, at_century⟩ :
      ∃ century inCentury : Nat, century < 4 ∧
        inCentury ≤ (if century = 3 then 36524 else 36523) ∧ rest = 36524 * century + inCentury :=
    ⟨min 3 (rest / 36524), rest - 36524 * min 3 (rest / 36524), by omega,
      by split <;> omega, by omega⟩
  obtain ⟨period, inPeriod, at_period, inner⟩ :
      ∃ period inPeriod : Nat, inCentury = 1461 * period + inPeriod ∧ inPeriod < 1461 :=
    ⟨inCentury / 1461, inCentury % 1461, by omega, by omega⟩
  obtain ⟨year, day, at_year, years, days⟩ :
      ∃ year day : Nat, inPeriod = 365 * year + day ∧ year < 4 ∧
        (day ≤ 364 ∨ day = 365 ∧ year = 3) :=
    ⟨min 3 (inPeriod / 365), inPeriod - 365 * min 3 (inPeriod / 365), by omega, by omega, by omega⟩
  refine ⟨era, century, period, year, day, centuries, ?_, years, ?_, by omega⟩
  · split at most <;> omega
  · split at most <;> omega

/-- A day of a year that starts in March is in one of its months. -/
theorem exists_month {day : Nat} (inYear : day ≤ 365) :
    ∃ month ≤ 11, (5 * day + 2) / 153 = month ∧
      (153 * month + 2) / 5 ≤ day ∧ day < (153 * (month + 1) + 2) / 5 :=
  ⟨(5 * day + 2) / 153, by omega, rfl, by omega, by omega⟩

/-- A date that is given by its month and day from March on. -/
theorem valid_of_march {year : Int} {month day : Nat} (december : month ≤ 11)
    (first : (153 * month + 2) / 5 ≤ day) (next : day < (153 * (month + 1) + 2) / 5)
    (last : day ≤ 364 ∨ day = 365 ∧ isLeap (year + 1) = true)
    {d : Date} (shown : d = ⟨year + if month < 10 then 0 else 1,
      if month < 10 then month + 3 else month - 9, day - (153 * month + 2) / 5 + 1⟩)
    (inCalendar : firstYear ≤ d.year ∧ d.year ≤ lastYear) :
    d.Valid ∧ d.marchYear = year ∧ d.marchDay = day := by
  subst shown
  refine ⟨⟨inCalendar, ?_, ?_⟩, ?_, ?_⟩
  · dsimp only
    split <;> omega
  · by_cases february : month = 11
    · subst february
      obtain short | ⟨rfl, leap⟩ := last
      · simp only [monthLength, if_neg (show ¬11 < 10 by decide)]
        split <;> omega
      · simp [monthLength, leap]
    · interval_cases month <;> simp [monthLength] <;> omega
  · simp only [marchYear]
    split_ifs <;> omega
  · simp only [marchDay, marchMonth]
    split_ifs <;> omega

/-- The date that is found for a day is the date of that number. -/
theorem ofDay?_some {n : Int} {d : Date} (found : Date.ofDay? n = some d) :
    d.Valid ∧ d.number = n := by
  obtain ⟨era, century, period, year, day, centuries, periods, years, last, at_day⟩ := exists_era n
  obtain ⟨month, december, at_month, first, next⟩ := @exists_month day (by omega)
  have shown := ofDay_eq centuries periods years last at_day
  simp only [Date.ofDay?, at_month] at shown found
  split at found
  next inCalendar =>
    obtain rfl := Option.some.inj found
    have leap : day ≤ 364 ∨ day = 365 ∧
        isLeap ((100 * century + 4 * period + year : Nat) + era * 400 + 1) = true := by
      simp only [isLeap, Bool.and_eq_true, Bool.or_eq_true, decide_eq_true_eq]
      omega
    have march : Date.ofDay n = ⟨(100 * century + 4 * period + year : Nat) + era * 400 +
        if month < 10 then 0 else 1, if month < 10 then month + 3 else month - 9,
        day - (153 * month + 2) / 5 + 1⟩ := by
      rw [shown]
      split_ifs <;> first | rfl | omega
    obtain ⟨valid, inYear, onDay⟩ := valid_of_march december first next leap march inCalendar
    have number := number_march valid
    have leaps : leapYears ((100 * century + 4 * period + year : Nat) + era * 400) =
        24 * century + period + 97 * era := by
      have fourth : ((100 * century + 4 * period + year : Nat) + era * 400) / 4 =
          25 * century + period + 100 * era := by omega
      have hundredth : ((100 * century + 4 * period + year : Nat) + era * 400) / 100 =
          century + 4 * era := by omega
      have whole : ((100 * century + 4 * period + year : Nat) + era * 400) / 400 = era := by omega
      rw [leapYears, fourth, hundredth, whole]
      ring
    rw [inYear, onDay, leaps] at number
    exact ⟨valid, by omega⟩
  next => cases found

/-- A day has no date only if it is the number of none. -/
theorem ofDay?_none_iff {n : Int} : Date.ofDay? n = none ↔ ∀ d : Date, d.Valid → d.number ≠ n := by
  constructor
  · rintro none d valid rfl
    rw [ofDay?_number valid] at none
    cases none
  · intro other
    cases found : Date.ofDay? n with
    | none => rfl
    | some d =>
      obtain ⟨valid, number⟩ := ofDay?_some found
      exact absurd number (other d valid)

/-- The days of the calendar are fewer than a hundred million in either direction. -/
theorem number_bounds {d : Date} (valid : d.Valid) :
    -100000000 < d.number ∧ d.number < 100000000 := by
  have number := number_march valid
  have last := marchDay_le valid
  obtain ⟨low, high⟩ := valid.year
  have year : d.year - 1 ≤ d.marchYear ∧ d.marchYear ≤ d.year := by
    unfold marchYear
    split <;> omega
  unfold leapYears at number
  unfold firstYear at low
  unfold lastYear at high
  omega

end Date

/-! ## Texts by fields -/

/-- A number of at least `width` digits. -/
def numeral (width n : Nat) : List Char := (Nat.toDigits 10 n).leftpad width '0'

/-- Year, month and day. A year that has not four digits has a sign. -/
def Date.iso (d : Date) : List Char :=
  (if d.year < 0 then ['-'] else if 9999 < d.year then ['+'] else []) ++
    numeral 4 d.year.natAbs ++ '-' :: numeral 2 d.month ++ '-' :: numeral 2 d.day

theorem Date.text_eq (d : Date) : d.text = d.iso := by
  have year : yearText d.year =
      (if d.year < 0 then ['-'] else if 9999 < d.year then ['+'] else []) ++
        numeral 4 d.year.natAbs := by
    unfold yearText numeral
    split_ifs <;> first | omega | simp [padded_eq]
  simp only [Date.text, Date.iso, year, padded_eq, numeral]

/-- A time of day to the microsecond. -/
structure Clock where
  hour : Fin 24
  minute : Fin 60
  second : Fin 60
  micro : Fin 1000000
  deriving DecidableEq, Repr

namespace Clock

def midnight : Clock := ⟨0, 0, 0, 0⟩

def seconds (c : Clock) : Nat := c.hour * 3600 + c.minute * 60 + c.second

def micros (c : Clock) : Nat := c.seconds * microsPerSecond + c.micro

def iso (c : Clock) : List Char :=
  numeral 2 c.hour ++ ':' :: numeral 2 c.minute ++ ':' :: numeral 2 c.second

theorem clockText_eq (c : Clock) : clockText c.seconds = c.iso := by
  obtain ⟨⟨hour, _⟩, ⟨minute, _⟩, ⟨second, _⟩, _⟩ := c
  have hours : (hour * 3600 + minute * 60 + second) / 3600 = hour := by omega
  have minutes : (hour * 3600 + minute * 60 + second) / 60 % 60 = minute := by omega
  have seconds : (hour * 3600 + minute * 60 + second) % 60 = second := by omega
  simp only [clockText, Clock.seconds, iso, numeral, padded_eq, hours, minutes, seconds]

theorem micros_lt (c : Clock) : c.micros < microsPerDay := by
  obtain ⟨⟨hour, _⟩, ⟨minute, _⟩, ⟨second, _⟩, ⟨micro, _⟩⟩ := c
  simp only [micros, seconds, microsPerSecond, microsPerDay]
  omega

/-- Every time of a day is on a clock. -/
theorem exists_micros {micros : Int} (start : 0 ≤ micros) (before : micros < microsPerDay) :
    ∃ c : Clock, (c.micros : Int) = micros := by
  simp only [microsPerDay] at before
  refine ⟨⟨⟨(micros / 3600000000).toNat, by omega⟩, ⟨(micros / 60000000 % 60).toNat, by omega⟩,
    ⟨(micros / 1000000 % 60).toNat, by omega⟩, ⟨(micros % 1000000).toNat, by omega⟩⟩, ?_⟩
  simp only [Clock.micros, Clock.seconds, microsPerSecond]
  omega

theorem micros_div (c : Clock) : c.micros / microsPerSecond = c.seconds := by
  have := c.micro.isLt
  simp only [micros, microsPerSecond]
  omega

theorem micros_mod (c : Clock) : c.micros % microsPerSecond = c.micro := by
  have := c.micro.isLt
  simp only [micros, microsPerSecond]
  omega

/-- The fraction of the second in thousandths or millionths; nothing for a whole second. -/
def fraction (c : Clock) : List Char :=
  if c.micro = 0 then []
  else if c.micro.val % 1000 = 0 then '.' :: numeral 3 (c.micro / 1000)
  else '.' :: numeral 6 c.micro

theorem timeText_eq (c : Clock) : timeText c.micros = c.iso ++ c.fraction := by
  simp only [timeText, micros_div, micros_mod, clockText_eq, fraction, numeral, padded_eq,
    Fin.ext_iff, Fin.val_zero]

/-- The fraction of the second without zeros at its end; nothing for a whole second. -/
def shortFraction (c : Clock) : List Char :=
  if c.micro = 0 then [] else '.' :: (numeral 6 c.micro).rdropWhile (· = '0')

end Clock

/-! ## Moments -/

/-- A time on a day of the calendar. -/
structure Moment where
  date : Date
  valid : date.Valid
  clock : Clock

namespace Moment

/-- The microseconds from the start of 2000 on. -/
def micros (m : Moment) : Int :=
  (m.date.number - millennium) * microsPerDay + m.clock.micros

/-- Date and time in universal time. -/
def iso (m : Moment) : List Char :=
  m.date.iso ++ 'T' :: m.clock.iso ++ m.clock.shortFraction ++ ['Z']

theorem micros_bounds (m : Moment) : -2 ^ 63 ≤ m.micros ∧ m.micros < 2 ^ 63 := by
  have days := m.date.number_bounds m.valid
  have clock := m.clock.micros_lt
  simp only [micros, millennium, microsPerDay] at *
  omega

theorem ofMicros?_micros (m : Moment) :
    Instant.ofMicros? m.micros = some ⟨m.date.number, m.clock.micros * 1000⟩ := by
  have clock := m.clock.micros_lt
  have day : millennium + m.micros.fdiv microsPerDay = m.date.number := by
    rw [micros, Int.fdiv_eq_ediv_of_nonneg _ (Int.natCast_nonneg _)]
    simp only [microsPerDay, millennium] at *
    omega
  have rest : (m.micros.fmod microsPerDay).toNat = m.clock.micros := by
    rw [micros, Int.fmod_eq_emod_of_nonneg _ (Int.natCast_nonneg _)]
    simp only [microsPerDay, millennium] at *
    omega
  simp only [Instant.ofMicros?, day, rest, m.date.ofDay?_number m.valid, Option.map_some]

/-- A count of microseconds stands for an instant only if it is that of a moment. -/
theorem ofMicros?_none_iff {micros : Int} :
    Instant.ofMicros? micros = none ↔ ∀ m : Moment, m.micros ≠ micros := by
  constructor
  · rintro none m rfl
    rw [ofMicros?_micros] at none
    cases none
  · intro other
    by_contra found
    obtain ⟨d, dated⟩ : ∃ d, Date.ofDay? (millennium + micros.fdiv microsPerDay) = some d := by
      simpa [Instant.ofMicros?, ← Option.isSome_iff_exists, Option.isSome_iff_ne_none] using found
    obtain ⟨valid, number⟩ := Date.ofDay?_some dated
    obtain ⟨clock, rest⟩ := Clock.exists_micros (Int.fmod_nonneg_of_pos micros (by decide))
      (Int.fmod_lt_of_pos micros (by decide))
    refine other ⟨d, valid, clock⟩ ?_
    have whole := Int.mul_fdiv_add_fmod micros microsPerDay
    rw [Moment.micros, number, rest]
    linarith

theorem text_eq (m : Moment) : Instant.text ⟨m.date.number, m.clock.micros * 1000⟩ = m.iso := by
  have seconds : m.clock.micros * 1000 / 1000000000 = m.clock.seconds := by
    rw [← m.clock.micros_div, microsPerSecond]
    omega
  have nanos : m.clock.micros * 1000 % 1000000000 = m.clock.micro * 1000 := by
    rw [← m.clock.micros_mod, microsPerSecond]
    omega
  have fraction : fractionText (m.clock.micro * 1000) = m.clock.shortFraction := by
    by_cases whole : m.clock.micro = 0
    · rw [Clock.shortFraction, if_pos whole, whole, Fin.val_zero, Nat.zero_mul, fractionText,
        if_pos rfl]
    · have positive : 0 < m.clock.micro.val := Nat.pos_of_ne_zero (Fin.val_ne_zero_iff.mpr whole)
      have thousand : m.clock.micro.val * 1000 = 10 * (10 * (10 * m.clock.micro)) := by omega
      rw [fractionText, if_neg (by omega), Clock.shortFraction, if_neg whole, thousand,
        withoutTrailingZeros_padded 8 (by omega), withoutTrailingZeros_padded 7 (by omega),
        withoutTrailingZeros_padded 6 positive, padded_eq]
      rfl
  simp only [Instant.text, seconds, nanos, fraction, m.date.ofDay_number m.valid, Date.text_eq,
    Clock.clockText_eq, iso]

end Moment

end TableExport.Calendar
