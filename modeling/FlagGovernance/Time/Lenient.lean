import FlagGovernance.Time.Reading
/-
A looser form of a moment, accepted where typed values are read.

Blanks may stand before numbers and separators, fields may be narrower, a sign
lifts the limit on the width of the year, `UTC` names the offset zero, and hours
and minutes of an offset may be parted by colons, blanks or nothing.
-/

namespace FlagGovernance

namespace DateReading

/-- A number of one digit or two after blanks. -/
def shortNumber (low high : Nat) : Piece Nat := fun text =>
  number 1 2 low high (skipBlank text)

/-- A separator after blanks. -/
def looseMark (c : Char) : Piece Unit := fun text =>
  mark c (skipBlank text)

/-- A year after blanks: up to four digits, or a sign and any number of them. -/
def looseYear : Piece Int := fun text =>
  let bounded (sign : Int) (text : List Char) : Except DateFault (Int × List Char) := do
    let (found, rest) ← digits 1 text.length text
    let year := sign * (valueOf found : Int)
    if -0x80000000 ≤ year ∧ year < 0x80000000 then return (year, rest) else throw .outOfRange
  match skipBlank text with
  | '-' :: rest => bounded (-1) rest
  | '+' :: rest => bounded 1 rest
  | rest => (number 1 4 0 9999 rest).map (fun r => ((r.1 : Int), r.2))

/-- Colons and blanks, or neither. -/
def skipColons (text : List Char) : List Char :=
  text.dropWhile (fun c => c == ':' || Text.isBlank c)

/-- `UTC` in any case, or an offset with a loose separator. -/
def looseOffset : Piece Int := fun text =>
  if (text.take 3).map Char.toUpper = ['U', 'T', 'C'] then .ok (0, text.drop 3)
  else offset (fun rest => .ok (skipColons rest)) text

end DateReading

open DateReading in
/-- Reads a moment in the looser form. -/
def Instant.ofLoose (text : String) : Except DateFault Instant := do
  let (year, rest) ← looseYear text.toList
  let ((), rest) ← looseMark '-' rest
  let (month, rest) ← shortNumber 1 12 rest
  let ((), rest) ← looseMark '-' rest
  let (day, rest) ← shortNumber 1 31 rest
  let ((), rest) ← timeMark rest
  let (hour, rest) ← shortNumber 0 23 rest
  let ((), rest) ← looseMark ':' rest
  let (minute, rest) ← shortNumber 0 59 rest
  let ((), rest) ← looseMark ':' rest
  let (second, rest) ← shortNumber 0 60 rest
  let (nano, rest) ← fraction rest
  let (offset, rest) ← looseOffset (skipBlank rest)
  if skipBlank rest ≠ [] then throw .tooLong
  Parts.instant ⟨year, month, day, hour, minute, second, nano, offset⟩

end FlagGovernance
