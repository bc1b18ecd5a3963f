import StructuralTypes.Decimal.Shortest

/-!
The number nearest to a decimal, halfway cases to the even significand. A decimal
is taken as an exact quotient of naturals; dividing that by the right power of two
leaves a significand, which is rounded once. A decimal that rounds beyond the
greatest finite number has none.
-/

namespace StructuralTypes.Decimal

def roundedQuotient (top bottom : Nat) : Nat :=
  let whole := top / bottom
  let twice := 2 * (top % bottom)
  if twice < bottom then whole
  else if bottom < twice then whole + 1
  else whole + whole % 2

def leadingBit (top bottom : Nat) : Int :=
  let power : Int := (Nat.log2 top : Int) - Nat.log2 bottom
  if scaled bottom power 0 ≤ scaled top (-power) 0 then power else power - 1

/-- The scale of the number nearest to a positive quotient: its significand has 53
bits, or fewer at the least scale. -/
def nearestScale (top bottom : Nat) : Int := max (leadingBit top bottom - 52) (-1074)

/-- The bit pattern of `significand * 2 ^ scale`. The leading bit of a normal number
carries into the exponent, and so does a significand that was rounded up to 54 bits. -/
def packed (significand : Nat) (scale : Int) : Nat :=
  (scale + 1074).toNat * 0x10000000000000 + significand

def nearestQuotient? (top bottom : Nat) : Option Number :=
  let scale := nearestScale top bottom
  let significand := roundedQuotient (scaled top (-scale) 0) (scaled bottom scale 0)
  let bits := packed significand scale
  if bits < 0x7ff0000000000000 then some ⟨bits.toUInt64⟩ else none

/-- The number nearest to a decimal. Far outside the range of the exponents the
answer is known without the powers of ten. -/
def Scientific.nearest? (decimal : Scientific) : Option Number :=
  let point := digitCount decimal.digits + decimal.exponent
  if decimal.digits = 0 ∨ point < -330 then some ⟨0⟩
  else if 310 < point then none
  else nearestQuotient? (scaled decimal.digits 0 decimal.exponent) (scaled 1 0 (-decimal.exponent))

end StructuralTypes.Decimal
