import FlagGovernance.Number.Shortest
/-
How a double is laid out as text.

Two layouts are in use. Documents hold numbers that always look fractional and
turn to an exponent outside a band of magnitudes; messages spell every digit out
and never show an exponent. They also part two equally short decimals that are
equally near by rules of their own.
-/

namespace FlagGovernance.Double

/-- What a layout decides about a finite double. -/
structure Layout where
  /-- The leading digit's power of ten allows positional notation. -/
  positional : Int → Bool
  /-- What a whole number in positional notation ends in. -/
  wholeMark : String
  /-- The decimal taken of two that are equally short and equally near. -/
  ties : TieRule

/-- Documents: positional from `0.00001` to below `1e16`, `.0` kept, and ties to
the even digit. -/
def documentLayout : Layout :=
  ⟨fun power => -5 ≤ power && power ≤ 15, ".0", .even⟩

/-- Messages: always positional, no `.0`, and ties away from zero. -/
def messageLayout : Layout :=
  ⟨fun _ => true, "", .away⟩

def digitText (digits : List Nat) : String :=
  String.ofList (digits.map Nat.digitChar)

/-- Positional notation: zeros fill the places between the digits and the
point. -/
def positionalText (layout : Layout) (decimal : Decimal) : String :=
  let digits := decimal.digits
  if decimal.point ≤ 0 then
    "0." ++ digitText (List.replicate (-decimal.point).toNat 0 ++ digits)
  else
    let whole := decimal.point.toNat
    if digits.length ≤ whole then
      digitText (digits ++ List.replicate (whole - digits.length) 0) ++ layout.wholeMark
    else
      digitText (digits.take whole) ++ "." ++ digitText (digits.drop whole)

/-- One digit before the point, and a signed power of ten. -/
def exponentText (decimal : Decimal) : String :=
  let power := decimal.point - 1
  let fraction :=
    match decimal.digits.drop 1 with
    | [] => ""
    | rest => "." ++ digitText rest
  digitText (decimal.digits.take 1) ++ fraction ++ "e" ++
    (if power < 0 then "-" else "+") ++ toString power.natAbs

/-- A finite double in the given layout. -/
def finiteText (layout : Layout) (d : Double) : String :=
  let sign := if d.negative then "-" else ""
  if d.magnitude = 0 then sign ++ "0" ++ layout.wholeMark
  else
    let decimal := d.shortest layout.ties
    sign ++ (if layout.positional (decimal.point - 1) then positionalText layout decimal
             else exponentText decimal)

/-- A finite double as a document shows it. -/
def documentText (d : Double) : String :=
  finiteText documentLayout d

/-- Any double as a message shows it. -/
def messageText (d : Double) : String :=
  if d.isNaN then "NaN"
  else if !d.isFinite then (if d.negative then "-inf" else "inf")
  else finiteText messageLayout d

end FlagGovernance.Double
