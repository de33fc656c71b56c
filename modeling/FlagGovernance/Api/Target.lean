import FlagGovernance.Text.Hex
import FlagGovernance.Text.Utf8
/-
The target of a request: a path of segments and the parameters after it.

A target is a path, or a path after a scheme and an authority, which lead nowhere
else. Segments are kept as they are written; a part of the path that is a value
has its percent escapes decoded when it is read. Parameters are decoded at once, a
plus sign standing for a space.
-/

namespace FlagGovernance.Api

structure Target where
  segments : List String
  parameters : List (String × String)
deriving DecidableEq, Repr

namespace Target

/-- The bytes of a text, a percent sign with two hexadecimal digits standing for
the byte that they spell. -/
def decodedBytes : List Char → List Nat
  | '%' :: a :: b :: rest =>
    match Text.hexValue? a, Text.hexValue? b with
    | some high, some low => (high * 16 + low) :: decodedBytes rest
    | _, _ => Text.utf8Bytes "%" ++ decodedBytes (a :: b :: rest)
  | c :: rest => Text.utf8Bytes (String.ofList [c]) ++ decodedBytes rest
  | [] => []

/-- The value of a segment, if its bytes are text. -/
def segmentValue? (segment : String) : Option String :=
  Text.ofUtf8? (decodedBytes segment.toList)

/-- The name or the value of a parameter; bytes that are no text are
replaced. -/
def parameterText (raw : List Char) : String :=
  Text.ofUtf8Lossy (decodedBytes (raw.map (fun c => if c = '+' then ' ' else c)))

/-- The name and the value of a parameter, which the first equals sign
separates. -/
def parameter (raw : List Char) : String × String :=
  (parameterText (raw.takeWhile (· != '=')),
    parameterText ((raw.dropWhile (· != '=')).drop 1))

def parametersOf (raw : List Char) : List (String × String) :=
  ((raw.splitOn '&').filter (fun piece => !piece.isEmpty)).map parameter

/-- A character of the name of a scheme. -/
def isSchemeChar (c : Char) : Bool :=
  c.isAlphanum || "+-.".toList.contains c

/-- A text from its path on: one that opens with a scheme loses the scheme and the
authority, which reaches to the first slash or question mark. -/
def fromPath (text : List Char) : List Char :=
  match text.dropWhile isSchemeChar with
  | ':' :: '/' :: '/' :: rest => rest.dropWhile (fun c => c != '/' && c != '?')
  | _ => text

/-- The target that a text spells. What follows a number sign is no part of
it. -/
def ofText (text : String) : Target :=
  let sent := fromPath (text.toList.takeWhile (· != '#'))
  let path := sent.takeWhile (· != '?')
  { segments := ((path.splitOn '/').drop 1).map String.ofList
    parameters := parametersOf ((sent.dropWhile (· != '?')).drop 1) }

end Target

end FlagGovernance.Api
