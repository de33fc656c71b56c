import FlagGovernance.Time.Date
/-
Moments of universal time.

A moment is a day, a second of it and a fraction in nanoseconds. A leap second
belongs to the second before it: its fraction runs from one to two thousand
million. Moments are ordered by day, second and fraction.
-/

namespace FlagGovernance

/-- A second of the day and a fraction that a clock can show. -/
def isClockReading (second nano : Nat) : Prop :=
  second < 86400 ∧ nano < 2000000000 ∧ (1000000000 ≤ nano → second % 60 = 59)

instance (second nano : Nat) : Decidable (isClockReading second nano) := by
  unfold isClockReading; infer_instance

/-- A moment of universal time. -/
structure Instant where
  date : Date
  second : Nat
  nano : Nat
  on_clock : isClockReading second nano
deriving DecidableEq, Repr

namespace Instant

instance : Ord Instant :=
  ⟨compareLex (compareOn (·.date.year)) (compareLex (compareOn (·.date.month))
    (compareLex (compareOn (·.date.day)) (compareLex (compareOn (·.second)) (compareOn (·.nano)))))⟩

/-- Strictly earlier. -/
def before (a b : Instant) : Bool := compare a b == .lt

/-- Not later. -/
def notAfter (a b : Instant) : Bool := compare a b != .gt

/-- The moment at which clocks that run `offset` minutes ahead of universal time
show the date and time given; the calendar may end before it. -/
def ofLocal? (date : Date) (second nano : Nat) (offset : Int)
    (h : isClockReading second nano) : Option Instant :=
  let shifted : Int := second - 60 * offset
  have leap : ∀ n : Nat, (n : Int) % 86400 = shifted % 86400 → n < 86400 → isClockReading n nano := by
    intro n hn hlt
    obtain ⟨_, h2, h3⟩ := h
    exact ⟨hlt, h2, fun h => by have := h3 h; omega⟩
  let clock := (shifted % 86400).toNat
  have hclock : isClockReading clock nano := leap clock (by omega) (by omega)
  let day? := if shifted < 0 then date.prev? else if 86400 ≤ shifted then date.next? else some date
  day?.map (fun day => ⟨day, clock, nano, hclock⟩)

/-- A number in decimal, with zeros before it up to the width. -/
def padded (width n : Nat) : String :=
  let digits := toString n
  String.ofList (List.replicate (width - digits.length) '0') ++ digits

/-- Four digits for the years they can tell, else a sign and at least four. -/
def yearText (year : Int) : String :=
  if 0 ≤ year ∧ year ≤ 9999 then padded 4 year.toNat
  else (if year < 0 then "-" else "+") ++ padded 4 year.natAbs

/-- No digits, three, six or nine, as few as tell the fraction. -/
def fractionText (nano : Nat) : String :=
  if nano = 0 then ""
  else if nano % 1000000 = 0 then "." ++ padded 3 (nano / 1000000)
  else if nano % 1000 = 0 then "." ++ padded 6 (nano / 1000)
  else "." ++ padded 9 nano

/-- The second of the minute, which is sixty in a leap second. -/
def secondOfMinute (i : Instant) : Nat :=
  i.second % 60 + i.nano / 1000000000

/-- The moment as `YYYY-MM-DDTHH:MM:SS[.fraction]Z`. -/
def text (i : Instant) : String :=
  yearText i.date.year ++ "-" ++ padded 2 i.date.month ++ "-" ++ padded 2 i.date.day ++ "T" ++
  padded 2 (i.second / 3600) ++ ":" ++ padded 2 (i.second / 60 % 60) ++ ":" ++
  padded 2 i.secondOfMinute ++ fractionText (i.nano % 1000000000) ++ "Z"

end Instant

end FlagGovernance
