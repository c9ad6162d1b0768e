/-!
# Dates and times of day

The proleptic Gregorian calendar with the years from -262143 to 262142, and times of day to the nanosecond. The second
60 of a minute is a leap second.
-/

set_option autoImplicit false

namespace FilterSql.Calendar

structure Date where
  year : Int
  month : Nat
  day : Nat
  deriving DecidableEq, Repr, Inhabited

structure TimeOfDay where
  hour : Nat
  minute : Nat
  second : Nat
  nanosecond : Nat
  deriving DecidableEq, Repr, Inhabited

/-- A date and a time of day at the meridian. -/
structure Timestamp where
  date : Date
  time : TimeOfDay
  deriving DecidableEq, Repr, Inhabited

def firstYear : Int := -262143

def lastYear : Int := 262142

def isLeapYear (year : Int) : Bool :=
  year % 4 == 0 && (year % 100 != 0 || year % 400 == 0)

def daysInMonth (year : Int) (month : Nat) : Nat :=
  if month = 2 then (if isLeapYear year then 29 else 28)
  else if month = 4 ∨ month = 6 ∨ month = 9 ∨ month = 11 then 30
  else 31

namespace Date

def exists? (date : Date) : Bool :=
  firstYear ≤ date.year && date.year ≤ lastYear && 1 ≤ date.month && date.month ≤ 12 &&
    1 ≤ date.day && date.day ≤ daysInMonth date.year date.month

def tomorrow (date : Date) : Date :=
  if date.day < daysInMonth date.year date.month then ⟨date.year, date.month, date.day + 1⟩
  else if date.month < 12 then ⟨date.year, date.month + 1, 1⟩
  else ⟨date.year + 1, 1, 1⟩

def yesterday (date : Date) : Date :=
  if 1 < date.day then ⟨date.year, date.month, date.day - 1⟩
  else if 1 < date.month then ⟨date.year, date.month - 1, daysInMonth date.year (date.month - 1)⟩
  else ⟨date.year - 1, 12, 31⟩

end Date

/-- The digits of a number, with zeros in front up to a width. -/
def padded (width : Nat) (n : Nat) : String :=
  let digits := Nat.toDigits 10 n
  String.ofList (List.replicate (width - digits.length) '0' ++ digits)

/-- Four digits from year 0 to 9999, a sign and at least four digits elsewhere. -/
def yearText (year : Int) : String :=
  if 0 ≤ year ∧ year ≤ 9999 then padded 4 year.natAbs
  else (if year < 0 then "-" else "+") ++ padded 4 year.natAbs

def Date.text (date : Date) : String :=
  yearText date.year ++ "-" ++ padded 2 date.month ++ "-" ++ padded 2 date.day

/-- The fraction of a second with none, three, six or nine digits, as few as lose nothing. -/
def fractionText (nanosecond : Nat) : String :=
  if nanosecond = 0 then ""
  else if nanosecond % 1000000 = 0 then "." ++ padded 3 (nanosecond / 1000000)
  else if nanosecond % 1000 = 0 then "." ++ padded 6 (nanosecond / 1000)
  else "." ++ padded 9 nanosecond

def TimeOfDay.text (time : TimeOfDay) : String :=
  padded 2 time.hour ++ ":" ++ padded 2 time.minute ++ ":" ++ padded 2 time.second ++ fractionText time.nanosecond

def Timestamp.text (timestamp : Timestamp) : String :=
  timestamp.date.text ++ "T" ++ timestamp.time.text ++ "Z"

/-- The moment whose local date and time are given, `offset` minutes ahead of the meridian, if its date exists. A leap
second stays one. -/
def Timestamp.ofLocal? (local_ : Timestamp) (offset : Int) : Option Timestamp :=
  let minutes : Int := local_.time.hour * 60 + local_.time.minute - offset
  let date :=
    if minutes < 0 then local_.date.yesterday
    else if 1440 ≤ minutes then local_.date.tomorrow
    else local_.date
  let minuteOfDay := (minutes % 1440).toNat
  if date.exists? then
    some ⟨date, { local_.time with hour := minuteOfDay / 60, minute := minuteOfDay % 60 }⟩
  else none

end FilterSql.Calendar
