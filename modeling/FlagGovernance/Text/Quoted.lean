import FlagGovernance.Text.Case
import FlagGovernance.Text.HiddenTable
/-
Text in quotes, as messages show it.

Quotes and backslashes are escaped, line breaks, tabs and the zero character by
letters, and every character that is not shown as itself by its code point.
-/

namespace FlagGovernance.Text

/-- Hexadecimal digits without leading zeros. -/
def hexText (n : Nat) : List Char :=
  Nat.toDigits 16 n

/-- One character between the quotes. -/
def shownChar (c : Char) : List Char :=
  match c with
  | '"' => ['\\', '"']
  | '\\' => ['\\', '\\']
  | '\n' => ['\\', 'n']
  | '\r' => ['\\', 'r']
  | '\t' => ['\\', 't']
  | '\x00' => ['\\', '0']
  | c =>
    if (0x7F ≤ c.toNat || c.toNat < 0x20) && inRanges hiddenRanges c then
      ['\\', 'u', '\x7b'] ++ hexText c.toNat ++ ['\x7d']
    else [c]

/-- The text in quotes. -/
def quoted (text : String) : String :=
  String.ofList ('"' :: text.toList.flatMap shownChar ++ ['"'])

end FlagGovernance.Text
