import FilterSql.Calendar.Date
import FilterSql.Text.Blank

/-!
# Reading dates and times

Readers for dates, for date-times without an offset and for date-times with one. Blanks may stand before each number
and each mark, and numbers may have fewer digits than their place.
-/

set_option autoImplicit false

namespace FilterSql.Calendar

open Text (trimLeft)

inductive ReadError where
  | premature
  | malformed
  | outOfRange
  | trailing
  | impossible
  deriving DecidableEq, Repr

def ReadError.message : ReadError → String
  | premature => "premature end of input"
  | malformed => "input contains invalid characters"
  | outOfRange => "input is out of range"
  | trailing => "trailing input"
  | impossible => "no possible date and time matching input"

abbrev Reading (α : Type) := List Char → Except ReadError (α × List Char)

def decimalValue (digits : List Char) : Nat :=
  digits.foldl (fun value c => 10 * value + (c.toNat - 48)) 0

def readDigits (width : Nat) : Reading Nat := fun text =>
  let digits := (text.take width).takeWhile Char.isDigit
  if text.isEmpty then .error .premature
  else if digits.isEmpty then .error .malformed
  else .ok (decimalValue digits, text.drop digits.length)

/-- Reads a number of at most two digits that must lie in a range. -/
def readField (low high : Nat) : Reading Nat := fun text => do
  let (value, rest) ← readDigits 2 (trimLeft text)
  if low ≤ value ∧ value ≤ high then .ok (value, rest) else .error .outOfRange

/-- Reads a year: four digits at most, or any number of them after a sign. -/
def readYear : Reading Int := fun text => do
  let (year, rest) ←
    match trimLeft text with
    | '-' :: rest => do
      let (value, rest) ← readDigits rest.length rest
      pure (-(value : Int), rest)
    | '+' :: rest => do
      let (value, rest) ← readDigits rest.length rest
      pure ((value : Int), rest)
    | text => do
      let (value, rest) ← readDigits 4 text
      pure ((value : Int), rest)
  if -2147483648 ≤ year ∧ year ≤ 2147483647 then .ok (year, rest) else .error .outOfRange

def readMark (mark : Char) : List Char → Except ReadError (List Char) := fun text =>
  match trimLeft text with
  | [] => .error .premature
  | c :: rest => if c = mark then .ok rest else .error .malformed

def readDate : Reading Date := fun text => do
  let (year, rest) ← readYear text
  let rest ← readMark '-' rest
  let (month, rest) ← readField 1 12 rest
  let rest ← readMark '-' rest
  let (day, rest) ← readField 1 31 rest
  .ok (⟨year, month, day⟩, rest)

/-- Reads a fraction of a second in nanoseconds. Digits after the ninth are left out. -/
def readFraction : Reading Nat := fun text =>
  match text with
  | '.' :: rest => do
    let (value, after) ← readDigits 9 rest
    let count := rest.length - after.length
    .ok (value * Nat.pow 10 (9 - count), after.dropWhile Char.isDigit)
  | _ => .ok (0, text)

def readTime : Reading TimeOfDay := fun text => do
  let (hour, rest) ← readField 0 23 text
  let rest ← readMark ':' rest
  let (minute, rest) ← readField 0 59 rest
  let rest ← readMark ':' rest
  let (second, rest) ← readField 0 60 rest
  let (nanosecond, rest) ← readFraction rest
  .ok (⟨hour, minute, second, nanosecond⟩, rest)

/-- Reads exactly two digits. The bound on the first one tells minutes from what can be no minutes. -/
def readPair (greatestTens : Nat) : Reading Nat := fun text =>
  match text with
  | [] => .error .premature
  | [c] => if c.utf8Size < 2 then .error .premature else .error .malformed
  | tens :: ones :: rest =>
    if tens.isDigit ∧ ones.isDigit then
      if decimalValue [tens] ≤ greatestTens then .ok (decimalValue [tens, ones], rest)
      else .error .outOfRange
    else .error .malformed

/-- Reads an offset in minutes: `Z`, or a sign, hours and minutes. -/
def readOffset : Reading Int := fun text =>
  let hoursAndMinutes (sign : Int) (text : List Char) : Except ReadError (Int × List Char) := do
    let (hours, rest) ← readPair 9 text
    let (minutes, rest) ← readPair 5 (rest.dropWhile fun c => c = ':' ∨ Text.isBlank c)
    .ok (sign * (hours * 60 + minutes), rest)
  match text with
  | [] => .error .premature
  | c :: rest =>
    if c = 'Z' ∨ c = 'z' then .ok (0, rest)
    else if c = '+' then hoursAndMinutes 1 rest
    else if c = '-' ∨ c = '−' then hoursAndMinutes (-1) rest
    else .error .malformed

/-- Reads the word `UTC` in any case, or an offset. -/
def readZone : Reading Int := fun text =>
  if (text.take 3).map Char.toLower = ['u', 't', 'c'] then .ok (0, text.drop 3)
  else readOffset text

def finish (text : List Char) : Except ReadError Unit :=
  if (trimLeft text).isEmpty then .ok () else .error .trailing

def existing (date : Date) : Except ReadError Date :=
  if date.exists? then .ok date else .error .outOfRange

def Date.parse (text : String) : Except ReadError Date := do
  let (date, rest) ← readDate text.toList
  finish rest
  existing date

/-- The moment that a date-time without an offset stands for at the meridian. -/
def Timestamp.parseNaive (text : String) : Except ReadError Timestamp := do
  let (date, rest) ← readDate text.toList
  let rest ← readMark 'T' rest
  let (time, rest) ← readTime rest
  finish rest
  let date ← existing date
  .ok ⟨date, time⟩

def Timestamp.parse (text : String) : Except ReadError Timestamp := do
  let (date, rest) ← readDate text.toList
  let rest ←
    match rest with
    | [] => .error .premature
    | c :: rest => if c = 't' ∨ c = 'T' ∨ c = ' ' then .ok rest else .error .malformed
  let (time, rest) ← readTime rest
  let (offset, rest) ← readZone (trimLeft rest)
  finish rest
  let date ← existing date
  if offset.natAbs < 1440 then
    match Timestamp.ofLocal? ⟨date, time⟩ offset with
    | some moment => .ok moment
    | none => .error .impossible
  else .error .outOfRange

end FilterSql.Calendar
