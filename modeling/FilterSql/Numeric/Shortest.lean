import FilterSql.Numeric.Binary

/-!
# Shortest decimals

The shortest decimal that reads back as a given binary number: the fewest digits, and of those the nearest.
-/

set_option autoImplicit false

namespace FilterSql.Numeric

/-- The decimal `digits * 10 ^ exponent`. -/
structure Decimal where
  digits : Nat
  exponent : Int
  deriving DecidableEq, Repr

def digitCount (n : Nat) : Nat :=
  (Nat.toDigits 10 n).length

/-- The number `k` with `10 ^ (k - 1) ≤ numerator / denominator < 10 ^ k`, for a positive quotient. -/
def decimalMagnitude (numerator denominator : Nat) : Int :=
  if denominator ≤ numerator then digitCount (numerator / denominator)
  else 1 - (digitCount ((denominator + numerator - 1) / numerator - 1) : Int)

/-- The reals that round to one binary number, in common units: the number itself, the two ends, and whether the ends
belong to it. -/
structure RoundingInterval where
  low : Nat
  value : Nat
  high : Nat
  scale : Nat
  closed : Bool

namespace RoundingInterval

/-- The reals that round to a positive finite magnitude word. Below a power of two the numbers lie twice as close. -/
def ofWord (format : BinaryFormat) (word : Nat) : RoundingInterval :=
  let (significand, exponent) := format.decode word
  let hidden := Nat.pow 2 format.fractionBits
  let atBinade := word % hidden = 0 ∧ 2 * hidden ≤ word
  let quarter := exponent - 2
  let factor := if 0 ≤ quarter then Nat.pow 2 quarter.toNat else 1
  { low := (4 * significand - if atBinade then 1 else 2) * factor
    value := 4 * significand * factor
    high := (4 * significand + 2) * factor
    scale := if 0 ≤ quarter then 1 else Nat.pow 2 (-quarter).toNat
    closed := significand % 2 = 0 }

def contains (interval : RoundingInterval) (numerator denominator : Nat) : Bool :=
  let point := numerator * interval.scale
  let low := interval.low * denominator
  let high := interval.high * denominator
  (low < point && point < high) || (interval.closed && (low == point || point == high))

/-- The decimals with the given exponent that lie next to the value, below and above. -/
def neighbours (interval : RoundingInterval) (exponent : Int) : Nat × Nat × Bool :=
  let numerator := interval.value * if exponent < 0 then Nat.pow 10 (-exponent).toNat else 1
  let denominator := interval.scale * if exponent < 0 then 1 else Nat.pow 10 exponent.toNat
  let below := numerator / denominator
  let remainder := numerator % denominator
  let upperIsNearer :=
    denominator < 2 * remainder || (denominator == 2 * remainder && below % 2 == 1)
  (below, below + 1, upperIsNearer)

/-- The nearest decimal of the interval with the given exponent, if there is one. -/
def nearest? (interval : RoundingInterval) (exponent : Int) : Option Nat :=
  let (below, above, upperIsNearer) := interval.neighbours exponent
  let holds (digits : Nat) : Bool :=
    if exponent < 0 then interval.contains digits (Nat.pow 10 (-exponent).toNat)
    else interval.contains (digits * Nat.pow 10 exponent.toNat) 1
  match holds below, holds above with
  | true, true => some (if upperIsNearer then above else below)
  | true, false => some below
  | false, true => some above
  | false, false => none

/-- The first hit among the grids with exponents `top - 1`, `top - 2`, and so on. -/
def firstHit? (interval : RoundingInterval) : Nat → Int → Option Decimal
  | 0, _ => none
  | grids + 1, top =>
    match interval.nearest? (top - 1) with
    | some digits => some ⟨digits, top - 1⟩
    | none => firstHit? interval grids (top - 1)

end RoundingInterval

def Decimal.strip : Nat → Decimal → Decimal
  | 0, decimal => decimal
  | steps + 1, decimal =>
    if decimal.digits ≠ 0 ∧ decimal.digits % 10 = 0 then
      strip steps ⟨decimal.digits / 10, decimal.exponent + 1⟩
    else decimal

/-- The shortest decimal that rounds to a positive finite magnitude word. Seventeen digits always suffice. -/
def BinaryFormat.shortest (format : BinaryFormat) (word : Nat) : Decimal :=
  let interval := RoundingInterval.ofWord format word
  let top := decimalMagnitude interval.value interval.scale
  match interval.firstHit? 17 top with
  | some decimal => decimal.strip 17
  | none => ⟨0, 0⟩

end FilterSql.Numeric
