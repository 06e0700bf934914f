import WhereClause.Double.Rounding
import WhereClause.Json.Basic
import WhereClause.Text.Digits

/-!
# Numeral: numbers as they are written, and the numbers they stand for

A numeral is the digits of a JSON number before anything is made of them. Written without fraction and exponent it stands for
a whole number where that fits 64 bits. Otherwise it stands for a double that is found in two rounded steps: its leading
digits, as many as fit 64 bits, are taken as a whole number and rounded to a double, and that double is multiplied or divided
by the power of ten that is left. So the double is the nearest one to a short numeral, and to a long one it may be a neighbour
of the nearest.
-/

namespace WhereClause

/-- A JSON number as it is written: sign, digits before the point, digits after it (none where there is no point), exponent. -/
structure Numeral where
  negative : Bool
  whole : List Nat
  fraction : List Nat
  exponent : Option Int
  deriving DecidableEq

/-! ## Reading -/

/-- Whether the text starts with a digit. -/
def Numeral.digitNext : List Char → Bool
  | c :: _ => c.isDigit
  | [] => false

/-- The values of digits. -/
def Numeral.values (digits : List Char) : List Nat := digits.map fun c => c.toNat - '0'.toNat

/-- The digits before the point: a single zero, or a run that does not start with one. -/
def Numeral.readWhole (s : List Char) : Option (List Nat × List Char) :=
  match s with
  | '0' :: rest => if Numeral.digitNext rest then none else some ([0], rest)
  | _ =>
    let (digits, rest) := Text.spanDigits s
    if digits.isEmpty then none else some (Numeral.values digits, rest)

/-- The digits after the point, of which there is at least one if there is a point. -/
def Numeral.readFraction (s : List Char) : Option (List Nat × List Char) :=
  match s with
  | '.' :: rest =>
    let (digits, rest) := Text.spanDigits rest
    if digits.isEmpty then none else some (Numeral.values digits, rest)
  | _ => some ([], s)

/-- The sign of an exponent, if it has one. -/
def Numeral.readSign (s : List Char) : Bool × List Char :=
  match s with
  | '+' :: rest => (false, rest)
  | '-' :: rest => (true, rest)
  | _ => (false, s)

/-- The exponent, which has at least one digit if there is its mark. -/
def Numeral.readExponent (s : List Char) : Option (Option Int × List Char) :=
  match s with
  | c :: rest =>
    if c = 'e' ∨ c = 'E' then
      let (negative, rest) := Numeral.readSign rest
      let (digits, rest) := Text.spanDigits rest
      let n : Int := Text.valueOf 10 (Numeral.values digits)
      if digits.isEmpty then none else some (some (if negative then -n else n), rest)
    else some (none, s)
  | [] => some (none, s)

/-- The numeral a text starts with, and what follows it; none where the text breaks off inside one. -/
def Numeral.read (s : List Char) : Option (Numeral × List Char) := do
  let (negative, s) := match s with
    | '-' :: rest => (true, rest)
    | _ => (false, s)
  let (whole, s) ← Numeral.readWhole s
  let (fraction, s) ← Numeral.readFraction s
  let (exponent, s) ← Numeral.readExponent s
  return (⟨negative, whole, fraction, exponent⟩, s)

/-! ## The number it stands for -/

/-- The digits before the point, taken into a number as long as it stays below 2⁶⁴, and how many are left out: once one does not
fit, it and those after it only count as powers of ten. -/
def Numeral.takeWhole (n : Nat) : List Nat → Nat × Nat
  | [] => (n, 0)
  | d :: ds => if 10 * n + d < 0x10000000000000000 then Numeral.takeWhole (10 * n + d) ds else (n, ds.length + 1)

/-- The digits after the point, taken on into the number as long as it stays below 2⁶⁴, and how many were taken. -/
def Numeral.takeFraction (n : Nat) : List Nat → Nat × Nat
  | [] => (n, 0)
  | d :: ds =>
    if 10 * n + d < 0x10000000000000000 then
      let (m, count) := Numeral.takeFraction (10 * n + d) ds
      (m, count + 1)
    else (n, 0)

/-- A magnitude times a power of ten, each step rounded; none where the result is too large. Powers of ten down from the least
that is no double are reached in two divisions, after which what is left is nothing. -/
def Numeral.scaled (x : Double) (power : Int) : Option Double :=
  if x.isZero then some x
  else if 308 < power then none
  else if 0 ≤ power then
    let r := x.times (Double.ofNat (Nat.pow 10 power.toNat))
    if r.isFinite then some r else none
  else if -308 ≤ power then some (x.over (Double.ofNat (Nat.pow 10 (-power).toNat)))
  else if -616 ≤ power then
    some ((x.over (Double.ofNat (Nat.pow 10 308))).over (Double.ofNat (Nat.pow 10 (-308 - power).toNat)))
  else some Double.zero

/-- The double a numeral stands for; none where it is too large. -/
def Numeral.toDouble? (n : Numeral) : Option Double :=
  let (kept, dropped) := Numeral.takeWhole 0 n.whole
  let (kept, taken) := Numeral.takeFraction kept n.fraction
  let magnitude := Numeral.scaled (Double.ofNat kept) ((dropped : Int) - taken + n.exponent.getD 0)
  magnitude.map fun x => if n.negative then x.negate else x

/-- The double a numeral stands for, as a JSON number. -/
def Numeral.toFloat? (n : Numeral) : Option Json.Number :=
  n.toDouble?.bind fun x => if h : x.isFinite = true then some (.float x h) else none

/-- The number a numeral stands for: whole if it is written without fraction and exponent and fits 64 bits, a double otherwise,
also for the zero with a sign; none where it is too large. -/
def Numeral.toNumber? (n : Numeral) : Option Json.Number :=
  let m := Text.valueOf 10 n.whole
  let value : Int := if n.negative then -m else m
  if h : -0x8000000000000000 ≤ value ∧ value < 0x10000000000000000 then
    if n.fraction = [] ∧ n.exponent = none ∧ (n.negative = false ∨ m ≠ 0) then some (.whole value h)
    else n.toFloat?
  else n.toFloat?

end WhereClause
