/-
Blank characters and trimming.

Blank means the Unicode property `White_Space`. `trim` drops the blanks at both
ends of a text and touches nothing between them.
-/

namespace FlagGovernance.Text

/-- The property `White_Space`: twenty-five code points. -/
def isBlank (c : Char) : Bool :=
  let code := c.toNat
  (9 ≤ code && code ≤ 13) || code == 0x20 || code == 0x85 || code == 0xA0 ||
  code == 0x1680 || (0x2000 ≤ code && code ≤ 0x200A) || code == 0x2028 ||
  code == 0x2029 || code == 0x202F || code == 0x205F || code == 0x3000

/-- What is left after the characters at the end that satisfy `p`. -/
def dropRightWhile (p : Char → Bool) (text : List Char) : List Char :=
  (text.reverse.dropWhile p).reverse

/-- The characters of a text without the blanks at either end. -/
def trimChars (text : List Char) : List Char :=
  dropRightWhile isBlank (text.dropWhile isBlank)

/-- A text without the blanks at either end. -/
def trim (text : String) : String :=
  String.ofList (trimChars text.toList)

/-- A text of blanks only; the empty text is one. -/
def allBlank (text : String) : Bool :=
  text.toList.all isBlank

end FlagGovernance.Text
