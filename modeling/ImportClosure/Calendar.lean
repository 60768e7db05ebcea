import ImportClosure.Text.Basic
/-!
Days, times of a day and points in time.

Nothing here knows a clock: a point in time is what a calendar and a clock show, possibly with
the distance of that clock from the zero meridian.
-/

namespace ImportClosure

/-- A number with leading zeros. -/
def Text.padded (width n : Nat) : Text :=
  let t := Text.ofNat n
  List.replicate (width - t.length) (CodePoint.ofChar '0') ++ t

/-! ## Days -/

/-- A day of the calendar. -/
structure Date where
  /-- The year. -/
  year : Nat
  /-- The month, from one. -/
  month : Nat
  /-- The day of the month, from one. -/
  day : Nat
deriving DecidableEq, Repr

namespace Date

/-- The year can be divided by four, and by four hundred if by a hundred. -/
def isLeapYear (year : Nat) : Bool :=
  year % 4 = 0 && (year % 100 ≠ 0 || year % 400 = 0)

/-- The number of days of a month. -/
def daysIn (year month : Nat) : Nat :=
  if month = 2 then (if isLeapYear year then 29 else 28)
  else if month = 4 ∨ month = 6 ∨ month = 9 ∨ month = 11 then 30
  else 31

/-- The day so many days after the first of January 1970. Years are counted from March on, so that
the day that a leap year adds is its last; 400 of them have 146097 days. -/
def ofDays (n : Nat) : Date :=
  let shifted := n + 719468
  let inEra := shifted % 146097
  let yearOfEra := (inEra - inEra / 1460 + inEra / 36524 - inEra / 146096) / 365
  let dayOfYear := inEra - (365 * yearOfEra + yearOfEra / 4 - yearOfEra / 100)
  let fromMarch := (5 * dayOfYear + 2) / 153
  let month := if fromMarch < 10 then fromMarch + 3 else fromMarch - 9
  let year := yearOfEra + shifted / 146097 * 400
  ⟨if month ≤ 2 then year + 1 else year, month, dayOfYear - (153 * fromMarch + 2) / 5 + 1⟩

/-- The numbers with a separator between them. -/
def joined (separator : Text) (d : Date) : Text :=
  Text.joinWith separator [Text.padded 4 d.year, Text.padded 2 d.month, Text.padded 2 d.day]

end Date

/-! ## Times -/

/-- A time of a day, with the distance from the zero meridian if it is known. -/
structure TimeOfDay where
  /-- The hour. -/
  hour : Nat
  /-- The minute. -/
  minute : Nat
  /-- The second. -/
  second : Nat
  /-- The millionths of a second. -/
  microsecond : Nat
  /-- The minutes by which the local time is ahead. -/
  ahead : Option Int
deriving DecidableEq, Repr

namespace TimeOfDay

/-- Hour, minute and second with colons between them. -/
def clock (t : TimeOfDay) : Text :=
  Text.joinWith ":" [Text.padded 2 t.hour, Text.padded 2 t.minute, Text.padded 2 t.second]

/-- The distance from the zero meridian, with its sign. -/
def distance (minutes : Int) : Text :=
  CodePoint.ofChar (if minutes < 0 then '-' else '+')
    :: (Text.padded 2 (minutes.natAbs / 60) ++ ":" ++ Text.padded 2 (minutes.natAbs % 60))

/-- The time to the last digit; the fraction only if there is one. -/
def precise (t : TimeOfDay) : Text :=
  t.clock
    ++ (if t.microsecond = 0 then [] else CodePoint.ofChar '.' :: Text.padded 6 t.microsecond)
    ++ (t.ahead.map distance).getD []

end TimeOfDay

/-- A point in time. -/
structure Moment where
  /-- The day. -/
  date : Date
  /-- The time of the day. -/
  time : TimeOfDay
deriving DecidableEq, Repr

namespace Moment

/-- The moment so many seconds and millionths after the start of 1970, at the zero meridian. -/
def ofSeconds (seconds microseconds : Nat) : Moment where
  date := Date.ofDays (seconds / 86400)
  time :=
    ⟨seconds % 86400 / 3600, seconds % 3600 / 60, seconds % 60, microseconds, some 0⟩

end Moment

end ImportClosure
