import LiveTrace.Files.Tree

/-
  Moments as a calendar gives them: a day, a second of that day, and nanoseconds. During a
  leap second the nanoseconds go on past a whole second.
-/
namespace LiveTrace

def secondsPerDay : Int := 86400

/-- Days are counted from 1970-01-01. The nanoseconds are at least a thousand million in a leap
second, which follows the last second of a minute. -/
structure Timestamp where
  day : Int
  second : Int
  nanos : Int
  deriving DecidableEq, Repr

/-- A date of the calendar that has had its present rules for ever. -/
structure Date where
  year : Int
  month : Int
  dayOfMonth : Int
  deriving DecidableEq, Repr

namespace Date

def isLeapYear (year : Int) : Bool := year % 4 == 0 && (year % 100 != 0 || year % 400 == 0)

def daysInMonth (year month : Int) : Int :=
  if month == 2 then (if isLeapYear year then 29 else 28)
  else if month == 4 || month == 6 || month == 9 || month == 11 then 30
  else 31

/-- Whether the date exists. -/
def isValid (d : Date) : Bool :=
  1 ≤ d.month && d.month ≤ 12 && 1 ≤ d.dayOfMonth && d.dayOfMonth ≤ daysInMonth d.year d.month

/-- Days from March 1st of year zero to 1970-01-01. -/
def epochOffset : Int := 719468

/-- The number of a date's day. A year is taken to begin in March, so that the day to leap is its
last one, and four hundred years make a full turn. -/
def toDay (d : Date) : Int :=
  let year := if d.month ≤ 2 then d.year - 1 else d.year
  let turn := year / 400
  let yearOfTurn := year - turn * 400
  let month := if 2 < d.month then d.month - 3 else d.month + 9
  let dayOfYear := (153 * month + 2) / 5 + d.dayOfMonth - 1
  let dayOfTurn := yearOfTurn * 365 + yearOfTurn / 4 - yearOfTurn / 100 + dayOfYear
  turn * 146097 + dayOfTurn - epochOffset

/-- The date of a day. -/
def ofDay (day : Int) : Date :=
  let shifted := day + epochOffset
  let turn := shifted / 146097
  let dayOfTurn := shifted - turn * 146097
  let yearOfTurn := (dayOfTurn - dayOfTurn / 1460 + dayOfTurn / 36524 - dayOfTurn / 146096) / 365
  let dayOfYear := dayOfTurn - (365 * yearOfTurn + yearOfTurn / 4 - yearOfTurn / 100)
  let month := (5 * dayOfYear + 2) / 153
  let dayOfMonth := dayOfYear - (153 * month + 2) / 5 + 1
  let year := yearOfTurn + turn * 400
  if month < 10 then ⟨year, month + 3, dayOfMonth⟩ else ⟨year + 1, month - 9, dayOfMonth⟩

/-- The first and last years that are told apart. -/
def inRange (d : Date) : Bool := -262143 ≤ d.year && d.year ≤ 262142

end Date

namespace Timestamp

def ofInstant (t : Instant) : Timestamp :=
  let seconds := t / nanosPerSecond
  ⟨seconds / secondsPerDay, seconds % secondsPerDay, t % nanosPerSecond⟩

/-- The same moment, `seconds` earlier on the clock. -/
def earlier (t : Timestamp) (seconds : Int) : Timestamp :=
  let second := t.second - seconds
  ⟨t.day + second / secondsPerDay, second % secondsPerDay, t.nanos⟩

/-- The leap second that lies between two times of day and that their seconds do not count. -/
def leapBetween (t s : Timestamp) : Int :=
  if s.second < t.second then (if nanosPerSecond ≤ s.nanos then 1 else 0)
  else if t.second < s.second then (if nanosPerSecond ≤ t.nanos then -1 else 0)
  else 0

/-- The nanoseconds from `s` to `t`. -/
def nanosSince (t s : Timestamp) : Int :=
  ((t.day - s.day) * secondsPerDay + (t.second - s.second) + leapBetween t s) * nanosPerSecond +
    (t.nanos - s.nanos)

/-- The milliseconds from `s` to `t`, cut off toward zero. -/
def millisSince (t s : Timestamp) : Int := (nanosSince t s).tdiv 1000000

end Timestamp

end LiveTrace
