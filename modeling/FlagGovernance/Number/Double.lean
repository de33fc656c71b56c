/-
Binary floating point numbers of sixty-four bits.

A `Double` is its bit pattern. Order, equality and arithmetic are read off the
pattern in exact integer arithmetic: a finite double is `± significand * 2 ^ exponent`,
and `ofRatio` picks the double nearest to a quotient, a tie going to the even
significand.
-/

namespace FlagGovernance

/-- A double, by its bits: sign, eleven of exponent, fifty-two of fraction. -/
structure Double where
  bits : UInt64
deriving DecidableEq, Repr

namespace Double

/-- The weight of the sign bit. -/
def signWeight : Nat := 0x8000000000000000

/-- One more than the largest fraction. -/
def fractionLimit : Nat := 0x10000000000000

/-- The least magnitude that is not finite. -/
def infiniteMagnitude : Nat := 0x7FF0000000000000

/-- The sign bit. -/
def negative (d : Double) : Bool :=
  signWeight ≤ d.bits.toNat

/-- All bits but the sign. -/
def magnitude (d : Double) : Nat :=
  d.bits.toNat % signWeight

/-- The double with the given sign and magnitude. -/
def ofMagnitude (negative : Bool) (magnitude : Nat) : Double :=
  ⟨UInt64.ofNat ((if negative then signWeight else 0) + magnitude % signWeight)⟩

def isNaN (d : Double) : Bool :=
  infiniteMagnitude < d.magnitude

def isFinite (d : Double) : Bool :=
  d.magnitude < infiniteMagnitude

def zero : Double := ofMagnitude false 0

def notANumber : Double := ofMagnitude false (infiniteMagnitude + fractionLimit / 2)

def infinity (negative : Bool) : Double := ofMagnitude negative infiniteMagnitude

/-- Doubles that are numbers are ordered as their ranks; the two zeros share
one. -/
def rank (d : Double) : Int :=
  if d.negative then -(d.magnitude : Int) else d.magnitude

/-- Strictly less as numbers; nothing is less than, or more than, a NaN. -/
def lt (a b : Double) : Bool :=
  !a.isNaN && !b.isNaN && a.rank < b.rank

/-- At most as numbers; false when either is a NaN. -/
def le (a b : Double) : Bool :=
  !a.isNaN && !b.isNaN && a.rank ≤ b.rank

/-- Equal as numbers: the zeros are equal, a NaN equals nothing. -/
def same (a b : Double) : Bool :=
  !a.isNaN && !b.isNaN && a.rank == b.rank

/-- The integer factor of a finite double. -/
def significand (d : Double) : Nat :=
  if d.magnitude < fractionLimit then d.magnitude
  else d.magnitude % fractionLimit + fractionLimit

/-- The power of two of a finite double. -/
def exponent (d : Double) : Int :=
  (max (d.magnitude / fractionLimit) 1 : Nat) - 1075

/-- `n / d` rounded to the nearest integer, a half to the even one. -/
def roundDiv (n d : Nat) : Nat :=
  let quotient := n / d
  let rest := 2 * (n % d)
  if rest < d then quotient
  else if rest > d then quotient + 1
  else quotient + quotient % 2

/-- The numerator and denominator of `n / d * 2 ^ k`. -/
def scaleRatio (n d : Nat) (k : Int) : Nat × Nat :=
  if 0 ≤ k then (n * Nat.pow 2 k.toNat, d) else (n, d * Nat.pow 2 (-k).toNat)

/-- The largest `k` with `2 ^ k ≤ n / d`, for positive `n` and `d`. -/
def ratioLog2 (n d : Nat) : Int :=
  let guess : Int := (n.log2 : Int) - d.log2
  let scaled := scaleRatio n d (-guess)
  if scaled.1 < scaled.2 then guess - 1 else guess

/-- The double nearest to `± n / d`, for positive `d`; too large a quotient
gives an infinity. -/
def ofRatio (negative : Bool) (n d : Nat) : Double :=
  if n = 0 then ofMagnitude negative 0
  else
    let q := max (ratioLog2 n d - 52) (-1074)
    let scaled := scaleRatio n d (-q)
    let magnitude := (q + 1074).toNat * fractionLimit + roundDiv scaled.1 scaled.2
    ofMagnitude negative (min magnitude infiniteMagnitude)

/-- The double nearest to an integer. -/
def ofInt (i : Int) : Double :=
  ofRatio (i < 0) i.natAbs 1

def ofNat (n : Nat) : Double :=
  ofRatio false n 1

/-- A quotient of two naturals that is the absolute value of a finite double. -/
def ratio (d : Double) : Nat × Nat :=
  scaleRatio d.significand 1 d.exponent

/-- The product of two finite doubles, rounded once. -/
def mul (a b : Double) : Double :=
  ofRatio (a.negative != b.negative) (a.ratio.1 * b.ratio.1) (a.ratio.2 * b.ratio.2)

/-- The quotient of two finite doubles, the second not zero, rounded once. -/
def div (a b : Double) : Double :=
  ofRatio (a.negative != b.negative) (a.ratio.1 * b.ratio.2) (a.ratio.2 * b.ratio.1)

def neg (d : Double) : Double :=
  ofMagnitude (!d.negative) d.magnitude

/-- The double nearest to `± n * 10 ^ e`. Far outside the range of doubles the
power is not computed. -/
def ofDecimal (negative : Bool) (n : Nat) (e : Int) : Double :=
  if n = 0 then ofMagnitude negative 0
  else
    let top : Int := (n.log2 : Int) / 3 + e
    if 400 < e && 400 < top then infinity negative
    else if e + (n.log2 : Int) < -400 then ofMagnitude negative 0
    else if 0 ≤ e then ofRatio negative (n * Nat.pow 10 e.toNat) 1
    else ofRatio negative n (Nat.pow 10 (-e).toNat)

end Double

end FlagGovernance
