/-
Whole numbers in configuration and query texts.
-/

namespace FlagGovernance.Text

/-- The first number that does not fit a machine word. -/
def wordLimit : Nat := 0x10000000000000000

/-- A number below the word limit: an optional plus and at least one digit. -/
def readWord? (text : String) : Option Nat :=
  let digits :=
    match text.toList with
    | '+' :: rest => rest
    | chars => chars
  if digits.isEmpty || !digits.all Char.isDigit then none
  else
    let n := digits.foldl (fun n c => n * 10 + (c.toNat - 48)) 0
    if n < wordLimit then some n else none

end FlagGovernance.Text
