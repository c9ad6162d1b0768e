import FilterSql.Numeric.Shortest

/-!
# Notation of floating-point numbers

How a floating-point number is written: the shortest digits that read back, always with a fraction or an exponent.
-/

set_option autoImplicit false

namespace FilterSql.Numeric

/-- Where positional notation ends. The bounds are decimal exponents of the leading digit. -/
structure NotationBounds where
  least : Int
  greatest : Int

/-- Positional from `0.00001` up to sixteen digits before the point. -/
def NotationBounds.standard : NotationBounds := ⟨-5, 15⟩

/-- A decimal with a point among, before or after its digits. -/
def positional (digits : List Char) (leading : Int) : List Char :=
  if leading < 0 then
    '0' :: '.' :: (List.replicate ((-leading).toNat - 1) '0' ++ digits)
  else
    let whole := leading.toNat + 1
    let fraction := digits.drop whole
    digits.take whole ++ List.replicate (whole - digits.length) '0' ++
      '.' :: (if fraction.isEmpty then ['0'] else fraction)

/-- A decimal with one digit before the point and a signed exponent. -/
def scientific (digits : List Char) (leading : Int) : List Char :=
  let fraction := digits.drop 1
  let exponent := Nat.toDigits 10 leading.natAbs
  digits.take 1 ++ (if fraction.isEmpty then [] else '.' :: fraction) ++
    'e' :: (if leading < 0 then '-' else '+') :: exponent

/-- The digits of a decimal, positional within the bounds and scientific outside them. -/
def Decimal.text (bounds : NotationBounds) (decimal : Decimal) : List Char :=
  let digits := Nat.toDigits 10 decimal.digits
  let leading := decimal.exponent + digits.length - 1
  if bounds.least ≤ leading ∧ leading ≤ bounds.greatest then positional digits leading
  else scientific digits leading

def Double.text (x : Double) : String :=
  let magnitude :=
    if x.isZero then ['0', '.', '0']
    else (BinaryFormat.double.shortest x.word).text .standard
  String.ofList (if x.negative then '-' :: magnitude else magnitude)

end FilterSql.Numeric
