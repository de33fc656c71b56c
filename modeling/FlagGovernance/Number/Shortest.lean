import FlagGovernance.Number.Double
/-
The shortest decimal that reads back as a given double.

The reals that round to a double form an interval. On each decimal grid, from
the coarsest, the two grid points around the double are tested; the first grid
with a point in the interval wins, and of two points the nearer. Which of two
equally near is taken is up to the caller.
-/

namespace FlagGovernance

/-- A positive decimal `0.d₁d₂… * 10 ^ point`: its digits, the first not zero,
and the place of its point. -/
structure Decimal where
  digits : List Nat
  point : Int
deriving DecidableEq, Repr

namespace Decimal

/-- The decimal digits of a natural, the first the most significant. -/
def digitsOf (n : Nat) : List Nat :=
  (Nat.toDigits 10 n).map (fun c => c.toNat - 48)

/-- The digits less the zeros at their end. -/
def withoutTrailingZeros (digits : List Nat) : List Nat :=
  (digits.reverse.dropWhile (· == 0)).reverse

/-- `n * 10 ^ e`, for positive `n`. -/
def ofScaled (n : Nat) (e : Int) : Decimal :=
  let digits := digitsOf n
  ⟨withoutTrailingZeros digits, digits.length + e⟩

end Decimal

namespace Double

/-- Three naturals over one denominator: the lower end of the interval of a
positive double, the double, and the upper end. -/
structure Interval where
  low : Nat
  mid : Nat
  high : Nat
  unit : Nat
  closed : Bool
deriving Repr

/-- The reals that round to a positive finite double. Below a power of two the
gap is half as wide; the ends belong to it if the significand is even. -/
def interval (d : Double) : Interval :=
  let m := d.significand
  let narrow := m == fractionLimit && -1074 < d.exponent
  let scale := scaleRatio 1 1 (d.exponent - 2)
  { low := (4 * m - (if narrow then 1 else 2)) * scale.1
    mid := 4 * m * scale.1
    high := (4 * m + 2) * scale.1
    unit := scale.2
    closed := m % 2 == 0 }

/-- The grid point `n * 10 ^ e` rounds to the double. -/
def Interval.holds (i : Interval) (n : Nat) (e : Int) : Bool :=
  let point := if 0 ≤ e then n * Nat.pow 10 e.toNat * i.unit else n * i.unit
  let scale := if 0 ≤ e then 1 else Nat.pow 10 (-e).toNat
  if i.closed then i.low * scale ≤ point && point ≤ i.high * scale
  else i.low * scale < point && point < i.high * scale

/-- The grid of step `10 ^ e` around the double: the point at or below it, and
how twice the rest compares with the step. -/
def Interval.around (i : Interval) (e : Int) : Nat × Ordering :=
  let n := if 0 ≤ e then i.mid else i.mid * Nat.pow 10 (-e).toNat
  let d := if 0 ≤ e then i.unit * Nat.pow 10 e.toNat else i.unit
  (n / d, compare (2 * (n % d)) d)

/-- Which of two grid points is taken when the double is halfway between. -/
inductive TieRule
  | even
  | away
deriving DecidableEq, Repr

/-- The grid point taken of `below` and its successor. -/
def TieRule.choose (below : Nat) : TieRule → Nat
  | .even => below + below % 2
  | .away => below + 1

/-- The better grid point of step `10 ^ e` in the interval, if there is one. -/
def Interval.pick? (i : Interval) (ties : TieRule) (e : Int) : Option Nat :=
  let (below, side) := i.around e
  match i.holds below e && below != 0, i.holds (below + 1) e with
  | true, true =>
    match side with
    | .lt => some below
    | .gt => some (below + 1)
    | .eq => some (ties.choose below)
  | true, false => some below
  | false, true => some (below + 1)
  | false, false => none

/-- Tries grids of step `10 ^ e`, `10 ^ (e - 1)`, …, at most `fuel` of them. -/
def Interval.search (i : Interval) (ties : TieRule) : Nat → Int → Option (Nat × Int)
  | 0, _ => none
  | fuel + 1, e =>
    match i.pick? ties e with
    | some n => some (n, e)
    | none => i.search ties fuel (e - 1)

/-- An exponent of ten at least that of the double. -/
def decimalCeiling (d : Double) : Int :=
  (d.exponent + d.significand.log2) * 30103 / 100000 + 1

/-- The shortest decimal that rounds to the absolute value of a finite double
other than zero. Seventeen digits always suffice. -/
def shortest (d : Double) (ties : TieRule) : Decimal :=
  match d.interval.search ties 20 d.decimalCeiling with
  | some (n, e) => Decimal.ofScaled n e
  | none => ⟨[], 0⟩

end Double

end FlagGovernance
