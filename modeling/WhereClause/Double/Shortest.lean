import WhereClause.Double.Basic

/-!
# Shortest: the fewest decimal digits that tell a double from its neighbours

The reals that round to a double form an interval around it; the shortest decimal in that interval, and of several of that
length the nearest to the double, names it. Everything is counted in quarters of the unit 2⁻¹⁰⁷⁴, so that the ends of the
interval are whole numbers.
-/

namespace WhereClause

/-- A decimal: `digits` times ten to the power `exponent`. -/
structure Decimal where
  digits : Nat
  exponent : Int
  deriving DecidableEq

/-- The reals that round to a positive double, as three whole numbers over one denominator: the lower end, the double and the
upper end. The ends belong to it when the significand is even, since a tie goes to the even significand. -/
structure Double.Interval where
  low : Nat
  value : Nat
  high : Nat
  closed : Bool

/-- The interval of a double, in quarters of a unit. Below a power of two the doubles lie twice as close. -/
def Double.interval (x : Double) : Double.Interval :=
  let step := 1 <<< x.scale
  let below := if x.significand = 0x10000000000000 ∧ 0 < x.scale then step else 2 * step
  ⟨4 * x.units - below, 4 * x.units, 4 * x.units + 2 * step, x.significand % 2 == 0⟩

/-- Whether a number over the same denominator lies in the interval. -/
def Double.Interval.holds (i : Double.Interval) (n : Nat) : Bool :=
  if i.closed then decide (i.low ≤ n) && decide (n ≤ i.high) else decide (i.low < n) && decide (n < i.high)

/-- The interval with all three numbers multiplied. -/
def Double.Interval.times (i : Double.Interval) (factor : Nat) : Double.Interval :=
  ⟨i.low * factor, i.value * factor, i.high * factor, i.closed⟩

/-- The power of ten of the first digit of a positive quotient. -/
def Double.firstPower (num den : Nat) : Int :=
  if den ≤ num then ((Nat.toDigits 10 (num / den)).length : Int) - 1
  else -((Nat.toDigits 10 ((den - 1) / num)).length : Int)

/-- The point of the grid of multiples of `unit` that lies in the interval, if one does: of the two around the value the nearer,
and of two equally near the even one. -/
def Double.Interval.gridPoint (i : Double.Interval) (unit : Nat) : Option Nat :=
  let down := i.value / unit
  let up := down + 1
  let beneath := i.value - down * unit
  let above := up * unit - i.value
  match i.holds (down * unit), i.holds (up * unit) with
  | true, true =>
    if beneath < above then some down
    else if above < beneath then some up
    else if down % 2 = 0 then some down else some up
  | true, false => some down
  | false, true => some up
  | false, false => none

/-- The decimal of so many digits that lies in the interval of a double, if one does. -/
def Double.decimalOf (x : Double) (count : Nat) : Option Decimal :=
  let i := x.interval
  let power := Double.firstPower i.value (1 <<< 1076) - (count : Int) + 1
  ((i.times (Nat.pow 10 (-power).toNat)).gridPoint (Nat.pow 10 power.toNat <<< 1076)).map fun d => ⟨d, power⟩

/-- A decimal without the zeros its digits end in; `fuel` bounds how many are dropped. -/
def Decimal.trimmed : Nat → Decimal → Decimal
  | 0, d => d
  | fuel + 1, d => if d.digits % 10 = 0 ∧ d.digits ≠ 0 then Decimal.trimmed fuel ⟨d.digits / 10, d.exponent + 1⟩ else d

/-- The shortest decimal that names a positive finite double. Seventeen digits always suffice. -/
def Double.shortest (x : Double) : Decimal :=
  (((List.range 17).findSome? fun i => x.decimalOf (i + 1)).getD ⟨0, 0⟩).trimmed 17

end WhereClause
