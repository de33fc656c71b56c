import FlagGovernance.Time.Reading
/-
The RFC 3339 form of a moment, as documents must write it.

Every field has its full width: four digits of year, two of all else, a fraction
of at least one digit, and an offset with a colon.
-/

namespace FlagGovernance

open DateReading in
/-- Reads a moment in RFC 3339 form. -/
def Instant.ofRfc3339 (text : String) : Except DateFault Instant := do
  let (year, rest) ← number 4 4 0 9999 text.toList
  let ((), rest) ← mark '-' rest
  let (month, rest) ← number 2 2 1 12 rest
  let ((), rest) ← mark '-' rest
  let (day, rest) ← number 2 2 1 31 rest
  let ((), rest) ← timeMark rest
  let (hour, rest) ← number 2 2 0 23 rest
  let ((), rest) ← mark ':' rest
  let (minute, rest) ← number 2 2 0 59 rest
  let ((), rest) ← mark ':' rest
  let (second, rest) ← number 2 2 0 60 rest
  let (nano, rest) ← fraction rest
  let (offset, rest) ← offset (fun rest => (mark ':' rest).map Prod.snd) rest
  if rest ≠ [] then throw .tooLong
  Parts.instant ⟨year, month, day, hour, minute, second, nano, offset⟩

end FlagGovernance
