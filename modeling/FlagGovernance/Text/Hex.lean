/-
Hexadecimal digits.
-/

namespace FlagGovernance.Text

/-- The value of a digit of either case. -/
def hexValue? (c : Char) : Option Nat :=
  let code := c.toNat
  if 48 ≤ code ∧ code ≤ 57 then some (code - 48)
  else if 65 ≤ code ∧ code ≤ 70 then some (code - 55)
  else if 97 ≤ code ∧ code ≤ 102 then some (code - 87)
  else none

def isHexDigit (c : Char) : Bool := (hexValue? c).isSome

/-- The lowercase digit of the last place of a number. -/
def hexDigit (n : Nat) : Char := Nat.digitChar (n % 16)

theorem hexValue?_hexDigit (n : Nat) : hexValue? (hexDigit n) = some (n % 16) := by
  have below : ∀ m : Nat, m < 16 → hexValue? (Nat.digitChar m) = some m := by decide
  exact below (n % 16) (Nat.mod_lt n (by decide))

end FlagGovernance.Text
