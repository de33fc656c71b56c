import FlagGovernance.Query.Expr
import FlagGovernance.Json.Reader
/-
The words of the query language.

A lexeme is cut from the front of a text, or is not there. Keywords ignore the
case of ASCII letters and end where a character that could continue a word does
not follow.
-/

namespace FlagGovernance.Query

abbrev Lexeme (α : Type) := List Char → Option (α × List Char)

def isSpace (c : Char) : Bool :=
  c == ' ' || c == '\t' || c == '\r' || c == '\n'

/-- Letters, digits, underscore, hyphen and point continue a word. -/
def continuesWord (c : Char) : Bool :=
  c.isAlphanum || c == '_' || c == '-' || c == '.'

/-- No character that continues a word comes next. -/
def atBoundary : List Char → Bool
  | [] => true
  | c :: _ => !continuesWord c

/-- A given word in any case, at whose end a word can end. -/
def keyword (word : String) : Lexeme Unit := fun text =>
  let length := word.toList.length
  if Text.lowerAscii (text.take length) = word.toList ∧ atBoundary (text.drop length) then
    some ((), text.drop length)
  else none

def startsIdent (c : Char) : Bool := c.isAlpha || c == '_'

def continuesIdent (c : Char) : Bool := c.isAlphanum || c == '_' || c == '-'

/-- A letter or underscore, and all that continues an identifier. -/
def ident : Lexeme (List Char)
  | [] => none
  | c :: rest =>
    if startsIdent c then some (c :: rest.takeWhile continuesIdent, rest.dropWhile continuesIdent)
    else none

/-- The further identifiers of a path, each after a point. -/
def pathTail : Nat → List Char → List Char × List Char
  | fuel + 1, '.' :: rest =>
    match ident rest with
    | some (name, rest') =>
      let (more, left) := pathTail fuel rest'
      ('.' :: name ++ more, left)
    | none => ([], '.' :: rest)
  | _, text => ([], text)

/-- Identifiers joined by points. -/
def path : Lexeme String := fun text =>
  match ident text with
  | some (name, rest) =>
    let (more, left) := pathTail rest.length rest
    some (String.ofList (name ++ more), left)
  | none => none

/-- The comparison that a keyword names. -/
def comparisonOp : Lexeme Operator := fun text =>
  [Operator.eq, .ne, .lt, .le, .gt, .ge, .co, .sw, .ew].findSome? (fun op =>
    (keyword op.keyword text).map (fun found => (op, found.2)))

/-- The longest run of string characters: any but a quote or backslash, an
escape of one letter, or `u` and four hexadecimal digits. -/
def stringBody : List Char → List Char × List Char
  | '\\' :: 'u' :: a :: b :: c :: d :: rest =>
    if [a, b, c, d].all Text.isHexDigit then
      let (body, left) := stringBody rest
      ('\\' :: 'u' :: a :: b :: c :: d :: body, left)
    else ([], '\\' :: 'u' :: a :: b :: c :: d :: rest)
  | '\\' :: e :: rest =>
    if (Json.simpleEscape? e).isSome then
      let (body, left) := stringBody rest
      ('\\' :: e :: body, left)
    else ([], '\\' :: e :: rest)
  | c :: rest =>
    if c = '"' ∨ c = '\\' then ([], c :: rest)
    else
      let (body, left) := stringBody rest
      (c :: body, left)
  | [] => ([], [])

/-- The characters between the quotes of a string, as they are written. -/
def stringLiteral : Lexeme (List Char)
  | '"' :: rest =>
    match stringBody rest with
    | (body, '"' :: left) => some (body, left)
    | _ => none
  | _ => none

/-- The text that a string body stands for. A `u` escape of half a surrogate pair
stands for nothing. -/
def unescape : List Char → Option (List Char)
  | [] => some []
  | '\\' :: 'u' :: a :: b :: c :: d :: rest => do
    let (unit, _) ← Json.hexUnit? [a, b, c, d]
    if 0xD800 ≤ unit ∧ unit < 0xE000 then none
    else (unescape rest).map (Char.ofNat unit :: ·)
  | '\\' :: e :: rest => do
    let c ← Json.simpleEscape? e
    (unescape rest).map (c :: ·)
  | c :: rest => if c = '\\' then none else (unescape rest).map (c :: ·)

/-- A number in its parts: sign, whole digits, fraction, exponent. -/
structure NumberParts where
  negative : Bool
  whole : List Char
  fraction : List Char
  exponent : Int
deriving Repr

def digitsValue (digits : List Char) : Nat :=
  digits.foldl (fun n c => n * 10 + (c.toNat - 48)) 0

/-- The double nearest to the number. -/
def NumberParts.value (n : NumberParts) : Double :=
  .ofDecimal n.negative (digitsValue (n.whole ++ n.fraction)) (n.exponent - n.fraction.length)

/-- A fraction of at least one digit after a point, if there is one. -/
def fractionPart (text : List Char) : List Char × List Char :=
  match text with
  | '.' :: rest =>
    match rest.takeWhile Char.isDigit with
    | [] => ([], text)
    | digits => (digits, rest.dropWhile Char.isDigit)
  | _ => ([], text)

/-- An exponent of at least one digit, if there is one. -/
def exponentPart (text : List Char) : Int × List Char :=
  match text with
  | c :: rest =>
    if c = 'e' ∨ c = 'E' then
      let (sign, digits) : Int × List Char :=
        match rest with
        | '+' :: rest => (1, rest)
        | '-' :: rest => (-1, rest)
        | _ => (1, rest)
      match digits.takeWhile Char.isDigit with
      | [] => (0, text)
      | found => (sign * digitsValue found, digits.dropWhile Char.isDigit)
    else (0, text)
  | [] => (0, [])

/-- An optional minus, digits, an optional fraction and an optional exponent. -/
def numberLiteral : Lexeme Double := fun text =>
  let (negative, unsigned) : Bool × List Char :=
    match text with
    | '-' :: rest => (true, rest)
    | _ => (false, text)
  match unsigned.takeWhile Char.isDigit with
  | [] => none
  | whole =>
    let (fraction, rest) := fractionPart (unsigned.dropWhile Char.isDigit)
    let (exponent, rest) := exponentPart rest
    some ((NumberParts.mk negative whole fraction exponent).value, rest)

def boolLiteral : Lexeme Bool := fun text =>
  match keyword "true" text with
  | some (_, rest) => some (true, rest)
  | none => (keyword "false" text).map (fun found => (false, found.2))

end FlagGovernance.Query
