/-!
# Binary floating point

The finite and infinite numbers of a binary interchange format, held as the magnitude word of their encoding, and
the correctly rounded operations on them. All arithmetic is exact arithmetic on natural numbers, rounded once.
-/

set_option autoImplicit false

namespace FilterSql.Numeric

/-- A binary interchange format. A magnitude word counts the representable magnitudes from zero upwards, so that the
words below `infinity` are the finite magnitudes in increasing order. -/
structure BinaryFormat where
  fractionBits : Nat
  /-- The least positive magnitude is two to the power `-leastExponent`. -/
  leastExponent : Nat
  infinity : Nat
  deriving DecidableEq, Repr

namespace BinaryFormat

def double : BinaryFormat := ⟨52, 1074, 2047 * Nat.pow 2 52⟩

def single : BinaryFormat := ⟨23, 149, 255 * Nat.pow 2 23⟩

end BinaryFormat

/-- The quotient rounded to the nearest natural number, a half to the even neighbour. -/
def roundHalfEven (numerator denominator : Nat) : Nat :=
  let quotient := numerator / denominator
  let remainder := numerator % denominator
  if 2 * remainder < denominator then quotient
  else if denominator < 2 * remainder then quotient + 1
  else if quotient % 2 = 0 then quotient
  else quotient + 1

/-- The exponent of the greatest power of two that is at most `numerator / denominator`. -/
def floorLog2 (numerator denominator : Nat) : Int :=
  let estimate : Int := (numerator.log2 : Int) - (denominator.log2 : Int)
  let reached :=
    if 0 ≤ estimate then denominator * Nat.pow 2 estimate.toNat ≤ numerator
    else denominator ≤ numerator * Nat.pow 2 (-estimate).toNat
  if reached then estimate else estimate - 1

/-- The magnitude word nearest to `numerator / denominator`, a tie to the even word. -/
def BinaryFormat.round (format : BinaryFormat) (numerator denominator : Nat) : Nat :=
  if numerator = 0 then 0
  else
    let unit : Int := max (floorLog2 numerator denominator - format.fractionBits) (-format.leastExponent)
    let significand :=
      if 0 ≤ unit then roundHalfEven numerator (denominator * Nat.pow 2 unit.toNat)
      else roundHalfEven (numerator * Nat.pow 2 (-unit).toNat) denominator
    min ((unit + format.leastExponent).toNat * Nat.pow 2 format.fractionBits + significand) format.infinity

/-- The significand `m` and exponent `p` of a finite magnitude word, whose value is `m * 2 ^ p`. -/
def BinaryFormat.decode (format : BinaryFormat) (word : Nat) : Nat × Int :=
  let hidden := Nat.pow 2 format.fractionBits
  if word < hidden then (word, -format.leastExponent)
  else (word % hidden + hidden, (word / hidden : Nat) - 1 - (format.leastExponent : Int))

/-- The value of a finite magnitude word as a quotient of natural numbers. -/
def BinaryFormat.ratio (format : BinaryFormat) (word : Nat) : Nat × Nat :=
  let (significand, exponent) := format.decode word
  if 0 ≤ exponent then (significand * Nat.pow 2 exponent.toNat, 1)
  else (significand, Nat.pow 2 (-exponent).toNat)

/-- A number of the 64-bit format other than NaN. The two zeros differ in sign. -/
structure Double where
  negative : Bool
  word : Nat
  deriving DecidableEq, Repr, Inhabited

namespace Double

def isFinite (x : Double) : Bool :=
  x.word < BinaryFormat.double.infinity

def isZero (x : Double) : Bool :=
  x.word == 0

def zero (negative : Bool) : Double := ⟨negative, 0⟩

def neg (x : Double) : Double := ⟨!x.negative, x.word⟩

def ofNat (n : Nat) : Double := ⟨false, BinaryFormat.double.round n 1⟩

def ofInt (n : Int) : Double := ⟨n < 0, BinaryFormat.double.round n.natAbs 1⟩

def powerOfTen (exponent : Nat) : Double := ofNat (Nat.pow 10 exponent)

def mul (x y : Double) : Double :=
  let (a, b) := BinaryFormat.double.ratio x.word
  let (c, d) := BinaryFormat.double.ratio y.word
  ⟨x.negative != y.negative, BinaryFormat.double.round (a * c) (b * d)⟩

/-- The rounded quotient of a finite number by a finite number other than zero. -/
def div (x y : Double) : Double :=
  let (a, b) := BinaryFormat.double.ratio x.word
  let (c, d) := BinaryFormat.double.ratio y.word
  ⟨x.negative != y.negative, BinaryFormat.double.round (a * d) (b * c)⟩

/-- The number as the 32-bit format keeps it: rounded there, then read back without loss. -/
def ofSingle (negative : Bool) (word : Nat) : Double :=
  if word < BinaryFormat.single.infinity then
    let (a, b) := BinaryFormat.single.ratio word
    ⟨negative, BinaryFormat.double.round a b⟩
  else ⟨negative, BinaryFormat.double.infinity⟩

/-- The nearest number that the 32-bit format has too. -/
def toSingle (x : Double) : Double :=
  if x.isFinite then
    let (a, b) := BinaryFormat.double.ratio x.word
    ofSingle x.negative (BinaryFormat.single.round a b)
  else x

/-- The nearest number of the 32-bit format to an integer, rounded once. -/
def singleOfInt (n : Int) : Double :=
  ofSingle (n < 0) (BinaryFormat.single.round n.natAbs 1)

end Double

end FilterSql.Numeric
