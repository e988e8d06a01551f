/-
Moments in time.

A moment is a count of microseconds, and its date follows from the count by the rules of the Gregorian calendar,
which repeats every 400 years.  Only the years from 1 to 9999 are written.
-/
import PartProgram.Decimal.Binary
import PartProgram.Decimal.Digits
import PartProgram.Text.Quoted
import PartProgram.Value.Basic

namespace PartProgram

/-- A moment, in microseconds from the beginning of the year 1970. -/
structure Instant where
  micros : Int
deriving DecidableEq, Repr

/-- Why a value is not a moment that can be written. -/
inductive InstantError where
  | notNumber (kind : String)
  | undefined
  /-- The count of seconds does not fit the clock. -/
  | beyondClock
  /-- The year does not fit the calendar. -/
  | beyondCalendar
  /-- The year is given as it comes out of 32 bits. -/
  | yearNotWritten (year : Int)
deriving DecidableEq, Repr

/-- What went wrong, in words. -/
def InstantError.message : InstantError → String
  | notNumber kind => Text.quoted kind ++
      " object cannot be interpreted as an integer"
  | undefined => "Invalid value NaN (not a number)"
  | beyondClock => "timestamp out of range for platform time_t"
  | beyondCalendar => "[Errno 75] Value too large for defined data type"
  | yearNotWritten year => "year " ++ Decimal.intText year ++ " is out of range"

namespace Instant

/-- The moment so many whole seconds and microseconds after the beginning. -/
def ofParts (seconds micros : Int) : Except InstantError Instant :=
  if seconds < -2 ^ 63 ∨ 2 ^ 63 ≤ seconds then .error .beyondClock
  else .ok ⟨seconds * 1000000 + micros⟩

/-- The moment that a count of seconds stands for.  What a float has behind its point is rounded to
microseconds, half way to the even one. -/
def ofSeconds : Value → Except InstantError Instant
  | .int i => ofParts i 0
  | .bool b => ofParts (if b then 1 else 0) 0
  | .float x =>
    if x.isNaN then .error .undefined
    else
      let whole := if x < 0 then x.ceil else x.floor
      match Decimal.Binary.ofFloat? x, Decimal.Binary.ofFloat? ((x - whole) * 1000000.0) with
      | some seconds, some micros => ofParts seconds.truncate micros.roundToEven
      | _, _ => .error .beyondClock
  | v => .error (.notNumber v.kindName)

end Instant

/-- A day of the Gregorian calendar. -/
structure Day where
  year : Int
  month : Nat
  day : Nat
deriving DecidableEq, Repr

/-- The day so many days after the first one of 1970.  The year is taken to begin in March, so that the day that
is not in every year is the last one. -/
def Day.ofNumber (n : Int) : Day :=
  let n := n + 719468
  let cycle := n.fdiv 146097
  let inCycle := (n.fmod 146097).toNat
  let year := (inCycle - inCycle / 1460 + inCycle / 36524 - inCycle / 146096) / 365
  let inYear := inCycle - (365 * year + year / 4 - year / 100)
  let month := (5 * inYear + 2) / 153
  let day := inYear - (153 * month + 2) / 5 + 1
  if month < 10 then ⟨cycle * 400 + year, month + 3, day⟩
  else ⟨cycle * 400 + year + 1, month - 9, day⟩

/-- A moment by its date and time of day. -/
structure Stamp where
  year : Nat
  month : Nat
  day : Nat
  hour : Nat
  minute : Nat
  second : Nat
  micro : Nat
deriving DecidableEq, Repr

/-- The date and time of day of a moment. -/
def Instant.stamp (i : Instant) : Except InstantError Stamp :=
  let seconds := i.micros.fdiv 1000000
  let date := Day.ofNumber (seconds.fdiv 86400)
  let inDay := (seconds.fmod 86400).toNat
  if date.year - 1900 < -2 ^ 31 ∨ 2 ^ 31 ≤ date.year - 1900 then .error .beyondCalendar
  else if date.year < 1 ∨ 9999 < date.year then .error (.yearNotWritten (date.year.bmod (2 ^ 32)))
  else .ok {
    year := date.year.toNat
    month := date.month
    day := date.day
    hour := inDay / 3600
    minute := inDay / 60 % 60
    second := inDay % 60
    micro := (i.micros.fmod 1000000).toNat }

namespace Stamp

/-- A number in a column of the given width. -/
def column (width n : Nat) : String := String.ofList (Decimal.paddedDigits width n)

/-- The date behind its year, and the time of day in seconds. -/
def rest (s : Stamp) : String :=
  "-" ++ column 2 s.month ++ "-" ++ column 2 s.day ++ "T" ++ column 2 s.hour ++ ":" ++ column 2 s.minute ++ ":"
    ++ column 2 s.second

/-- The moment in milliseconds, what is beyond them cut off.  The year has as many digits as it needs. -/
def shortText (s : Stamp) : String :=
  Decimal.natText s.year ++ s.rest ++ "." ++ column 3 (s.micro / 1000) ++ "Z"

/-- The moment in microseconds, which are left out where there are none. -/
def longText (s : Stamp) : String :=
  column 4 s.year ++ s.rest ++ (if s.micro = 0 then "" else "." ++ column 6 s.micro) ++ "+00:00"

end Stamp

end PartProgram
