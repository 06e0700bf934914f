/-!
# Double: numbers of the binary64 format, held as their bits

A double is its 64 bits and nothing else, so that two of them are equal exactly when their bits are: a NaN equals itself, and
the two zeros differ. The other comparison, the one IEEE 754 prescribes, is `Double.same`: no NaN is the same as anything, and
the two zeros are the same.

The magnitude of a finite double is a whole number of units of 2⁻¹⁰⁷⁴ (`Double.units`), which is how rounding and printing see
it.
-/

namespace WhereClause

/-- A number of the binary64 format, an infinity or a NaN, as its bits. -/
structure Double where
  bits : UInt64
  deriving DecidableEq

/-- Whether the sign bit is set. -/
def Double.isNegative (x : Double) : Bool := decide (0x8000000000000000 ≤ x.bits.toNat)

/-- The eleven bits of the exponent. -/
def Double.exponentField (x : Double) : Nat := x.bits.toNat / 0x10000000000000 % 0x800

/-- The fifty-two bits of the fraction. -/
def Double.fractionField (x : Double) : Nat := x.bits.toNat % 0x10000000000000

/-- Whether a double is a number: neither an infinity nor a NaN. -/
def Double.isFinite (x : Double) : Bool := x.exponentField != 2047

/-- Whether a double is no number at all. -/
def Double.isNaN (x : Double) : Bool := x.exponentField == 2047 && x.fractionField != 0

/-- Whether a double is one of the two zeros. -/
def Double.isZero (x : Double) : Bool := x.exponentField == 0 && x.fractionField == 0

/-- The comparison of IEEE 754: equal numbers, where no NaN equals anything and the two zeros are equal. -/
def Double.same (x y : Double) : Bool := !x.isNaN && !y.isNaN && (x == y || (x.isZero && y.isZero))

/-- The significand of a finite double: the fraction, with the leading one that a normal number implies. -/
def Double.significand (x : Double) : Nat :=
  if x.exponentField = 0 then x.fractionField else 0x10000000000000 + x.fractionField

/-- The power of two that scales the significand, counted from the least, 2⁻¹⁰⁷⁴. -/
def Double.scale (x : Double) : Nat := x.exponentField - 1

/-- The magnitude of a finite double in units of 2⁻¹⁰⁷⁴. -/
def Double.units (x : Double) : Nat := x.significand <<< x.scale

/-- The double with the same magnitude and the other sign. -/
def Double.negate (x : Double) : Double := ⟨x.bits ^^^ 0x8000000000000000⟩

/-- The zero with the sign bit clear. -/
def Double.zero : Double := ⟨0⟩

/-- The infinity with the sign bit clear. -/
def Double.infinity : Double := ⟨0x7FF0000000000000⟩

theorem Double.same_self {x : Double} (h : x.isNaN = false) : x.same x = true := by
  simp [Double.same, h]

theorem Double.same_comm (x y : Double) : x.same y = y.same x := by
  have h : (x == y) = (y == x) := BEq.comm
  simp [Double.same, h, Bool.and_comm]

end WhereClause
