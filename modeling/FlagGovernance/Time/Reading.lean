import FlagGovernance.Text.Blank
import FlagGovernance.Time.Instant
/-
Pieces of a written moment: numbers of a given width, separators, offsets.

Both ways of reading a moment are put together from these. Every piece takes
what it needs from the front of the text and hands on the rest.
-/

namespace FlagGovernance

/-- Why a text is no moment. -/
inductive DateFault
  | outOfRange
  | impossible
  | invalid
  | tooShort
  | tooLong
deriving DecidableEq, Repr

def DateFault.message : DateFault → String
  | .outOfRange => "input is out of range"
  | .impossible => "no possible date and time matching input"
  | .invalid => "input contains invalid characters"
  | .tooShort => "premature end of input"
  | .tooLong => "trailing input"

namespace DateReading

abbrev Piece (α : Type) := List Char → Except DateFault (α × List Char)

/-- The value of decimal digits. -/
def valueOf (digits : List Char) : Nat :=
  digits.foldl (fun n c => n * 10 + (c.toNat - 48)) 0

/-- At least `least` digits, and at most `most` of those that are there. -/
def digits (least most : Nat) : Piece (List Char) := fun text =>
  let found := (text.takeWhile Char.isDigit).take most
  if least ≤ found.length then .ok (found, text.drop found.length)
  else if text.length < least then .error .tooShort
  else .error .invalid

/-- A number that must lie between two bounds. -/
def number (least most low high : Nat) : Piece Nat := fun text => do
  let (found, rest) ← digits least most text
  let n := valueOf found
  if low ≤ n ∧ n ≤ high then return (n, rest) else throw .outOfRange

/-- One given character. -/
def mark (c : Char) : Piece Unit := fun text =>
  match text with
  | [] => .error .tooShort
  | d :: rest => if d = c then .ok ((), rest) else .error .invalid

/-- The separator of date and time: a `T` of either case or a space. -/
def timeMark : Piece Unit := fun text =>
  match text with
  | [] => .error .tooShort
  | d :: rest => if d = 'T' ∨ d = 't' ∨ d = ' ' then .ok ((), rest) else .error .invalid

def skipBlank (text : List Char) : List Char :=
  text.dropWhile Text.isBlank

/-- A fraction of a second, if a point follows; digits past the ninth are read
over. -/
def fraction : Piece Nat := fun text =>
  match text with
  | '.' :: rest => do
    let (found, _) ← digits 1 9 rest
    return (valueOf found * Nat.pow 10 (9 - found.length), rest.dropWhile Char.isDigit)
  | _ => .ok (0, text)

/-- Two digits, the first at most `5` where a number of minutes is meant. -/
def twoDigits : Piece Nat := fun text =>
  match text with
  | [] => .error .tooShort
  | [a] => if a.toNat < 0x80 then .error .tooShort else .error .invalid
  | a :: b :: rest =>
    if a.isDigit ∧ b.isDigit then .ok (valueOf [a, b], rest) else .error .invalid

/-- The offset from universal time in minutes: `Z`, or a sign, two digits of
hours, a separator and two digits of minutes. -/
def offset (separator : List Char → Except DateFault (List Char)) : Piece Int := fun text =>
  let unsigned (text : List Char) : Except DateFault (Int × List Char) := do
    let (hours, rest) ← twoDigits text
    let rest ← separator rest
    let (minutes, rest) ← twoDigits rest
    if 60 ≤ minutes then throw .outOfRange
    return (hours * 60 + minutes, rest)
  match text with
  | [] => .error .tooShort
  | 'Z' :: rest | 'z' :: rest => .ok (0, rest)
  | '+' :: rest => unsigned rest
  | '-' :: rest | '−' :: rest => (unsigned rest).map (fun r => (-r.1, r.2))
  | _ => .error .invalid

/-- What a written moment says, before it is known to exist. -/
structure Parts where
  year : Int
  month : Nat
  day : Nat
  hour : Nat
  minute : Nat
  second : Nat
  nano : Nat
  offset : Int

/-- The moment that the parts name. Second sixty is the leap second after second
fifty-nine; an offset of a day or more does not exist. -/
def Parts.instant (p : Parts) : Except DateFault Instant := do
  let some date := Date.of? p.year p.month p.day | throw .outOfRange
  if 1440 ≤ p.offset.natAbs then throw .outOfRange
  let second := p.hour * 3600 + p.minute * 60 + min p.second 59
  let nano := if p.second = 60 then p.nano + 1000000000 else p.nano
  if h : isClockReading second nano then
    let some instant := Instant.ofLocal? date second nano p.offset h | throw .impossible
    return instant
  else throw .outOfRange

end DateReading

end FlagGovernance
