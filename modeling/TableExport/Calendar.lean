import TableExport.Decimal.Digits

/-!
# Calendar

Days counted from 1970-01-01 as dates of the Gregorian calendar extended in both
directions, times of day in microseconds, and instants. Years run from -262143
to 262142; days outside that range have no date.
-/
namespace TableExport.Calendar

open Decimal (padded digits withoutTrailingZeros)

structure Date where
  year : Int
  month : Nat
  day : Nat
  deriving DecidableEq, Repr

/-- The years that have dates. -/
def firstYear : Int := -262143
def lastYear : Int := 262142

/-- The date of a day. The year starts in March here, so that the leap day ends
it; an era of 400 years has 146097 days. -/
def Date.ofDay (day : Int) : Date :=
  let shifted := day + 719468
  let era := shifted.fdiv 146097
  let dayOfEra := (shifted.fmod 146097).toNat
  let yearOfEra :=
    (dayOfEra - dayOfEra / 1460 + dayOfEra / 36524 - dayOfEra / 146096) / 365
  let dayOfYear := dayOfEra - (365 * yearOfEra + yearOfEra / 4 - yearOfEra / 100)
  let shiftedMonth := (5 * dayOfYear + 2) / 153
  let month := if shiftedMonth < 10 then shiftedMonth + 3 else shiftedMonth - 9
  let year := (yearOfEra : Int) + era * 400 + (if month ≤ 2 then 1 else 0)
  ⟨year, month, dayOfYear - (153 * shiftedMonth + 2) / 5 + 1⟩

def Date.ofDay? (day : Int) : Option Date :=
  let date := Date.ofDay day
  if firstYear ≤ date.year ∧ date.year ≤ lastYear then some date else none

/-- Four digits at least; a sign outside the years 0 to 9999. -/
def yearText (year : Int) : List Char :=
  if 0 ≤ year ∧ year ≤ 9999 then padded 4 year.natAbs
  else (if year < 0 then '-' else '+') :: padded 4 year.natAbs

def Date.text (d : Date) : List Char :=
  yearText d.year ++ '-' :: padded 2 d.month ++ '-' :: padded 2 d.day

def microsPerSecond : Nat := 1000000
def microsPerDay : Nat := 86400000000

def clockText (seconds : Nat) : List Char :=
  padded 2 (seconds / 3600) ++ ':' :: padded 2 (seconds / 60 % 60) ++
    ':' :: padded 2 (seconds % 60)

/-- A time of day in microseconds; the fraction has no, three or six digits. -/
def timeText (micros : Nat) : List Char :=
  let fraction := micros % microsPerSecond
  clockText (micros / microsPerSecond) ++
    (if fraction = 0 then []
     else if fraction % 1000 = 0 then '.' :: padded 3 (fraction / 1000)
     else '.' :: padded 6 fraction)

/-- A moment in universal time: a day and the nanoseconds since its start. -/
structure Instant where
  day : Int
  nanos : Nat
  deriving DecidableEq, Repr

/-- The fraction of a second without the zeros at its end; nothing for a whole second. -/
def fractionText (nanos : Nat) : List Char :=
  if nanos = 0 then [] else '.' :: withoutTrailingZeros (padded 9 nanos)

/-- Date, `T`, time, fraction and `Z`. -/
def Instant.text (i : Instant) : List Char :=
  (Date.ofDay i.day).text ++ 'T' :: clockText (i.nanos / 1000000000) ++
    fractionText (i.nanos % 1000000000) ++ ['Z']

/-- The day 2000-01-01. -/
def millennium : Int := 10957

/-- The instant that lies some microseconds after the start of 2000, if it has a date. -/
def Instant.ofMicros? (micros : Int) : Option Instant :=
  let day := millennium + micros.fdiv microsPerDay
  (Date.ofDay? day).map fun _ => ⟨day, (micros.fmod microsPerDay).toNat * 1000⟩

end TableExport.Calendar
