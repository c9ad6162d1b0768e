import FilterSql.Json.Fault

/-!
# Words, strings and numbers of a JSON text

Readers for what stands between the brackets of a JSON text. A reader takes the text that is left and gives what it
read with the text left after it, or the first fault.
-/

set_option autoImplicit false

namespace FilterSql.Json

open Numeric (Double)

abbrev Reader (α : Type) := List Char → Except Fault (α × List Char)

def isBlank (c : Char) : Bool :=
  c == ' ' || c == '\n' || c == '\t' || c == '\r'

def skipBlank (text : List Char) : List Char :=
  text.dropWhile isBlank

def readLetters : (letters : List Char) → Reader Unit
  | [], text => .ok ((), text)
  | _ :: _, [] => .error (.before .endInValue [])
  | letter :: letters, c :: rest =>
    if c = letter then readLetters letters rest else .error (.upon .expectedKeyword (c :: rest))

/-! ## Strings -/

def hexValue? (c : Char) : Option Nat :=
  if '0' ≤ c ∧ c ≤ '9' then some (c.toNat - 48)
  else if 'a' ≤ c ∧ c ≤ 'f' then some (c.toNat - 87)
  else if 'A' ≤ c ∧ c ≤ 'F' then some (c.toNat - 55)
  else none

def byteCount (text : List Char) : Nat :=
  (String.ofList text).utf8ByteSize

def readHex (text : List Char) : Except Fault (Nat × List Char) :=
  let digits := (text.take 4).filterMap hexValue?
  if digits.length = 4 then .ok (digits.foldl (fun value digit => 16 * value + digit) 0, text.drop 4)
  else if byteCount (text.take 4) < 4 then .error (.before .endInString [])
  else .error ⟨.invalidEscape, text, 4⟩

/-- Reads one given character inside a string, where the given reason stands for any other character. -/
def readMark (mark : Char) (reason : Reason) : List Char → Except Fault (List Char)
  | [] => .error (.before .endInString [])
  | c :: rest => if c = mark then .ok rest else .error (.upon reason (c :: rest))

/-- Reads the hexadecimal digits of an escape, and of a second escape where the first is the first half of a
surrogate pair. -/
def readCodePoint (text : List Char) : Except Fault (Char × List Char) := do
  let (first, rest) ← readHex text
  if 0xDC00 ≤ first ∧ first ≤ 0xDFFF then
    .error (.before .loneSurrogate rest)
  else if first < 0xD800 ∨ 0xDBFF < first then
    .ok (Char.ofNat first, rest)
  else
    let rest ← readMark '\\' .unfinishedSurrogatePair rest
    let rest ← readMark 'u' .unfinishedSurrogatePair rest
    let (second, rest) ← readHex rest
    if second < 0xDC00 ∨ 0xDFFF < second then
      .error (.before .loneSurrogate rest)
    else
      .ok (Char.ofNat (0x10000 + (first - 0xD800) * 0x400 + (second - 0xDC00)), rest)

def escaped? (c : Char) : Option Char :=
  match c with
  | '"' => some '"'
  | '\\' => some '\\'
  | '/' => some '/'
  | 'b' => some '\x08'
  | 'f' => some '\x0c'
  | 'n' => some '\n'
  | 'r' => some '\r'
  | 't' => some '\t'
  | _ => none

def readStringChar (c : Char) (rest : List Char) : Except Fault (Char × List Char) :=
  if c = '\\' then
    match rest with
    | [] => .error (.before .endInString [])
    | letter :: rest =>
      if letter = 'u' then readCodePoint rest
      else
        match escaped? letter with
        | some plain => .ok (plain, rest)
        | none => .error (.upon .invalidEscape (letter :: rest))
  else if c.toNat < 0x20 then .error (.upon .controlCharacter (c :: rest))
  else .ok (c, rest)

/-- Reads the characters of a string up to its closing quote. `fuel` bounds the number of characters. -/
def readStringChars : (fuel : Nat) → Reader (List Char)
  | 0, text => .error (.before .endInString text)
  | _ + 1, [] => .error (.before .endInString [])
  | fuel + 1, c :: rest =>
    if c = '"' then .ok ([], rest)
    else do
      let (plain, rest) ← readStringChar c rest
      let (plains, rest) ← readStringChars fuel rest
      .ok (plain :: plains, rest)

def readString (text : List Char) : Except Fault (String × List Char) := do
  let (chars, rest) ← readStringChars (text.length + 1) text
  .ok (String.ofList chars, rest)

/-! ## Numbers -/

def digitValue (c : Char) : Nat := c.toNat - 48

def startsWithDigit : List Char → Bool
  | [] => false
  | c :: _ => c.isDigit

/-- Reads digits onto `value` as long as it stays at most `bound`. Gives the value, the number of digits read, and
what is left. -/
def accumulate (bound : Nat) : (value : Nat) → List Char → Nat × Nat × List Char
  | value, [] => (value, 0, [])
  | value, c :: rest =>
    if c.isDigit ∧ 10 * value + digitValue c ≤ bound then
      let (total, count, left) := accumulate bound (10 * value + digitValue c) rest
      (total, count + 1, left)
    else (value, 0, c :: rest)

/-- The greatest significand that is kept exactly: more digits only scale it. -/
def maxSignificand : Nat := 18446744073709551615

def maxExponent : Nat := 2147483647

/-- The greatest power of ten that a scaling step uses. -/
def maxScale : Nat := 308

/-- Scales by a power of ten, in steps of at most `maxScale`, each rounded. No value means out of range. -/
def scale : (steps : Nat) → Double → Int → Option Double
  | 0, x, _ => some x
  | steps + 1, x, exponent =>
    if exponent.natAbs ≤ maxScale then
      let power := Double.powerOfTen exponent.natAbs
      if 0 ≤ exponent then
        let scaled := x.mul power
        if scaled.isFinite then some scaled else none
      else some (x.div power)
    else if x.isZero then some x
    else if 0 ≤ exponent then none
    else scale steps (x.div (Double.powerOfTen maxScale)) (exponent + maxScale)

/-- The number `significand * 10 ^ exponent`. Four steps bring every significand within range. -/
def makeFloat (negative : Bool) (significand : Nat) (exponent : Int) (rest : List Char) :
    Except Fault (Number × List Char) :=
  match scale 4 (.ofNat significand) exponent with
  | some x => .ok (.float ⟨negative, x.word⟩, rest)
  | none => .error (.before .numberOutOfRange rest)

def readExponent (negative : Bool) (significand : Nat) (exponent : Int) (text : List Char) :
    Except Fault (Number × List Char) :=
  let (down, text) :=
    match text with
    | '+' :: rest => (false, rest)
    | '-' :: rest => (true, rest)
    | _ => (false, text)
  match text with
  | [] => .error (.before .endInValue [])
  | c :: rest =>
    if c.isDigit then
      let (size, _, rest) := accumulate maxExponent 0 (c :: rest)
      if startsWithDigit rest then
        if significand ≠ 0 ∧ !down then .error (.before .numberOutOfRange (rest.drop 1))
        else .ok (.float (.zero negative), rest.dropWhile Char.isDigit)
      else makeFloat negative significand (if down then exponent - size else exponent + size) rest
    else .error (.upon .invalidNumber (c :: rest))

def finishFloat (negative : Bool) (significand : Nat) (exponent : Int) (text : List Char) :
    Except Fault (Number × List Char) :=
  match text with
  | c :: rest =>
    if c = 'e' ∨ c = 'E' then readExponent negative significand exponent rest
    else makeFloat negative significand exponent text
  | [] => makeFloat negative significand exponent []

/-- Reads a fraction after its point. Digits that a full significand cannot take are left out. -/
def readFraction (negative : Bool) (significand : Nat) (exponent : Int) (text : List Char) :
    Except Fault (Number × List Char) :=
  let (total, count, rest) := accumulate maxSignificand significand text
  if startsWithDigit rest then
    finishFloat negative total (exponent - count) (rest.dropWhile Char.isDigit)
  else if count = 0 then
    .error (.upon (if rest.isEmpty then .endInValue else .invalidNumber) rest)
  else finishFloat negative total (exponent - count) rest

/-- An integer as it stands, or a float where the 64-bit integers end or the sign of zero would be lost. -/
def makeInteger (negative : Bool) (significand : Nat) : Number :=
  if negative then
    if significand = 0 ∨ 9223372036854775808 < significand then .float (Double.ofNat significand).neg
    else .integer (-significand)
  else .integer significand

def finishNumber (negative : Bool) (significand : Nat) (text : List Char) : Except Fault (Number × List Char) :=
  match text with
  | [] => .ok (makeInteger negative significand, [])
  | c :: rest =>
    if c = '.' then readFraction negative significand 0 rest
    else if c = 'e' ∨ c = 'E' then readExponent negative significand 0 rest
    else .ok (makeInteger negative significand, text)

/-- Reads what follows an integer part that is longer than the significand: its further digits only scale. -/
def finishLongNumber (negative : Bool) (significand : Nat) (text : List Char) :
    Except Fault (Number × List Char) :=
  let exponent := (text.takeWhile Char.isDigit).length
  match text.dropWhile Char.isDigit with
  | '.' :: rest => readFraction negative significand exponent rest
  | rest => finishFloat negative significand exponent rest

def readNumber (negative : Bool) (text : List Char) : Except Fault (Number × List Char) :=
  match text with
  | [] => .error (.before .endInValue [])
  | c :: rest =>
    if c = '0' then
      if startsWithDigit rest then .error (.upon .invalidNumber rest) else finishNumber negative 0 rest
    else if c.isDigit then
      let (significand, _, rest) := accumulate maxSignificand 0 (c :: rest)
      if startsWithDigit rest then finishLongNumber negative significand rest
      else finishNumber negative significand rest
    else .error (.upon .invalidNumber (c :: rest))

end FilterSql.Json
