import BuildAtlas.Text.Digit

/-!
# BuildAtlas.Time

Points in time, and what a clock shows.

A time is written as a date and a time of day, down to the microsecond. For the date, years are
counted from the first of March, so that the day that only some years have is the last of its year,
and in cycles of 400 years, after which the calendar repeats.
-/

namespace BuildAtlas

/-- A point in time. -/
structure Time where
  /-- The nanoseconds since the beginning of the year 1970. -/
  nanoseconds : Nat
  deriving Repr, DecidableEq

namespace Time

/-- The beginning of the year 1970. -/
def start : Time := ⟨0⟩

/-! ### Dates -/

/-- A day of the calendar. -/
structure Date where
  year : Nat
  month : Nat
  day : Nat
  deriving Repr, DecidableEq

/-- The days of a cycle. -/
def cycleLength : Nat := 146097

/-- The first of March of the year 0 is this many days before the beginning of the year 1970. -/
def daysBefore : Nat := 719468

/-- The date that many days after the beginning of the year 1970. -/
def Date.ofDays (days : Nat) : Date :=
  let shifted := days + daysBefore
  let inCycle := shifted % cycleLength
  -- every fourth year has one day more, but not every hundredth, and the last of the cycle has
  let year := (inCycle - inCycle / 1460 + inCycle / 36524 - inCycle / (cycleLength - 1)) / 365
  let inYear := inCycle - (365 * year + year / 4 - year / 100)
  -- from March on, five months have 153 days
  let month := (5 * inYear + 2) / 153
  { year := shifted / cycleLength * 400 + year + if month < 10 then 0 else 1
    month := if month < 10 then month + 3 else month - 9
    day := inYear - (153 * month + 2) / 5 + 1 }

/-! ### Texts -/

/-- The digits of a number with zeros before them, so that there are at least that many. -/
def padded (width n : Nat) : List Char :=
  let digits := Text.decimal n
  List.replicate (width - digits.length) '0' ++ digits

/-- The digits of a year. One that does not fit into four has a sign. -/
def yearText (year : Nat) : List Char :=
  if 9999 < year then '+' :: Text.decimal year else padded 4 year

/-- A time as a text. -/
def text (time : Time) : String :=
  let seconds := time.nanoseconds / 1000000000
  let date := Date.ofDays (seconds / 86400)
  .ofList <|
    yearText date.year ++ '-' :: padded 2 date.month ++ '-' :: padded 2 date.day
      ++ 'T' :: padded 2 (seconds / 3600 % 24) ++ ':' :: padded 2 (seconds / 60 % 60)
      ++ ':' :: padded 2 (seconds % 60) ++ '.' :: padded 6 (time.nanoseconds / 1000 % 1000000)
      ++ ['Z']

end Time

/-! ### Clocks -/

/-- What a clock shows each time it is looked at. -/
abbrev Clock := Nat → Time

namespace Clock

/-- What the clock shows next. -/
def now (clock : Clock) : Time :=
  clock 0

/-- The clock after it was looked at so often. -/
def after (clock : Clock) (count : Nat) : Clock :=
  fun n => clock (count + n)

end Clock

end BuildAtlas
