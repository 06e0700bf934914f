import WhereClause.Double.Basic

/-!
# Rounding: the double nearest to a quotient

Every operation here is exact in whole numbers and rounds once, to the nearest double, a tie going to the even significand; what
is too large for the format becomes an infinity. Multiplication and division are those of magnitudes: the signs are the
caller's.
-/

namespace WhereClause

/-- A quotient of whole numbers rounded to the nearest whole number, a tie to the even one. -/
def Double.roundDiv (num den : Nat) : Nat :=
  let whole := num / den
  let twice := 2 * (num % den)
  if twice < den then whole
  else if den < twice then whole + 1
  else if whole % 2 = 0 then whole else whole + 1

/-- The double nearest to a quotient. Counted in units of 2⁻¹⁰⁷⁴, the quotient is cut to 53 binary places from its first, and
not below one unit; the bits of the result are the significand added to the scale, which also carries a significand that
rounding has lengthened into the next scale. -/
def Double.nearest (num den : Nat) : Double :=
  let scaled := num <<< 1074
  let scale := (scaled / den).log2 - 52
  let word := scale * 0x10000000000000 + Double.roundDiv scaled (den <<< scale)
  if word < 0x7FF0000000000000 then ⟨UInt64.ofNat word⟩ else Double.infinity

/-- The double nearest to a whole number. -/
def Double.ofNat (n : Nat) : Double := Double.nearest n 1

/-- The product of the magnitudes of two finite doubles, rounded. -/
def Double.times (x y : Double) : Double := Double.nearest (x.units * y.units) (1 <<< 2148)

/-- The quotient of the magnitudes of two finite doubles, rounded; the second is not zero. -/
def Double.over (x y : Double) : Double := Double.nearest x.units y.units

end WhereClause
