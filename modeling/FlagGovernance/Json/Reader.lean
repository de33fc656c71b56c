import FlagGovernance.Json.Tree
import FlagGovernance.Text.Hex
import FlagGovernance.Text.Numeral
/-
Reading JSON text.

Numbers without point or exponent that fit sixty-four bits are integers. Any
other number is a real, read in two steps: as many leading digits as sixty-four
bits hold make a whole number, which is then scaled by one power of ten in
double arithmetic.
-/

namespace FlagGovernance.Json

/-- What is left of a text without its leading white space. -/
def skipSpace : List Char → List Char
  | [] => []
  | c :: rest =>
    if c = ' ' ∨ c = '\n' ∨ c = '\t' ∨ c = '\r' then skipSpace rest else c :: rest

/-- The number that four hexadecimal digits spell, and what follows them. -/
def hexUnit? : List Char → Option (Nat × List Char)
  | a :: b :: c :: d :: rest => do
    let a ← Text.hexValue? a
    let b ← Text.hexValue? b
    let c ← Text.hexValue? c
    let d ← Text.hexValue? d
    return (((a * 16 + b) * 16 + c) * 16 + d, rest)
  | _ => none

/-- What follows an escape after its `u`: the character of one unit or of a
surrogate pair written as two escapes, if it is one. -/
def unicodeEscape? (text : List Char) : Option (Option Char × List Char) := do
  let (unit, rest) ← hexUnit? text
  if 0xD800 ≤ unit ∧ unit < 0xDC00 then
    match lowUnit? rest with
    | some (low, rest) =>
      return (some (Char.ofNat (0x10000 + (unit - 0xD800) * 1024 + (low - 0xDC00))), rest)
    | none => return (none, rest)
  else if 0xDC00 ≤ unit ∧ unit < 0xE000 then return (none, rest)
  else return (some (Char.ofNat unit), rest)
where
  /-- The second half of a pair. -/
  lowUnit? : List Char → Option (Nat × List Char)
    | '\\' :: 'u' :: rest => do
      let (low, rest) ← hexUnit? rest
      if 0xDC00 ≤ low ∧ low < 0xE000 then return (low, rest) else none
    | _ => none

def simpleEscape? : Char → Option Char
  | '"' => some '"'
  | '\\' => some '\\'
  | '/' => some '/'
  | 'b' => some '\x08'
  | 'f' => some '\x0c'
  | 'n' => some '\n'
  | 'r' => some '\r'
  | 't' => some '\t'
  | _ => none

/-- Reads the rest of a string. Its characters so far are given in reverse, or
nothing if one of its escapes stands for no character. -/
def readString : Nat → Option (List Char) → List Char → Option (Option String × List Char)
  | 0, _, _ => none
  | _, _, [] => none
  | _, found, '"' :: rest => some (found.map (fun cs => String.ofList cs.reverse), rest)
  | fuel + 1, found, '\\' :: 'u' :: rest =>
    match unicodeEscape? rest with
    | some (c, rest) => readString fuel (found.bind (fun cs => c.map (· :: cs))) rest
    | none => none
  | fuel + 1, found, '\\' :: e :: rest =>
    match simpleEscape? e with
    | some c => readString fuel (found.map (c :: ·)) rest
    | none => none
  | fuel + 1, found, c :: rest =>
    if c.toNat < 0x20 ∨ c = '\\' then none else readString fuel (found.map (c :: ·)) rest

def digitValue (c : Char) : Nat := c.toNat - 48

/-- Takes digits into a whole number while it fits a word: the number, how many
were taken, how many were left out, and the text after all of them. -/
def takeDigits (n : Nat) : List Char → Nat × Nat × Nat × List Char
  | [] => (n, 0, 0, [])
  | c :: rest =>
    if c.isDigit then
      if n * 10 + digitValue c < Text.wordLimit then
        let (m, taken, dropped, left) := takeDigits (n * 10 + digitValue c) rest
        (m, taken + 1, dropped, left)
      else (n, 0, (rest.takeWhile Char.isDigit).length + 1, rest.dropWhile Char.isDigit)
    else (n, 0, 0, c :: rest)

/-- `n * 10 ^ e` as a double, by one multiplication or division of doubles;
powers below `-308` are reached in steps. Overflow has no value. -/
def scaleWord : Nat → Double → Int → Option Double
  | 0, d, _ => some d
  | fuel + 1, d, e =>
    if e.natAbs ≤ 308 then
      let power := Double.ofNat (Nat.pow 10 e.natAbs)
      if 0 ≤ e then
        let scaled := d.mul power
        if scaled.isFinite then some scaled else none
      else some (d.div power)
    else if d.magnitude = 0 then some d
    else if 0 ≤ e then none
    else scaleWord fuel (d.div (Double.ofNat (Nat.pow 10 308))) (e + 308)

def realOf (negative : Bool) (n : Nat) (e : Int) : Option Number :=
  (scaleWord 8 (Double.ofNat n) e).map
    (fun d => .real (if negative then d.neg else d))

/-- The largest exponent that is counted exactly. -/
def exponentLimit : Nat := 2147483647

/-- An exponent after its `e`: its sign, its value, the rest. -/
def readExponent? (text : List Char) : Option (Bool × Nat × List Char) :=
  let (negative, digits) :=
    match text with
    | '+' :: rest => (false, rest)
    | '-' :: rest => (true, rest)
    | _ => (false, text)
  match digits.takeWhile Char.isDigit with
  | [] => none
  | ds => some (negative, ds.foldl (fun n c => n * 10 + digitValue c) 0, digits.dropWhile Char.isDigit)

/-- A whole number times a power of ten, with an exponent part if one follows. A
number that is too large has no value. -/
def finishReal (negative : Bool) (n : Nat) (e : Int) :
    List Char → Option (Option Number × List Char)
  | c :: rest =>
    if c = 'e' ∨ c = 'E' then do
      let (down, power, rest) ← readExponent? rest
      if exponentLimit < power then
        if n ≠ 0 ∧ ¬down then return (none, rest)
        else return (some (.real (.ofMagnitude negative 0)), rest)
      else return (realOf negative n (if down then e - power else e + power), rest)
    else some (realOf negative n e, c :: rest)
  | [] => some (realOf negative n e, [])

/-- The number whose sign is known and whose whole digits start the text. -/
def readUnsigned (negative : Bool) (text : List Char) : Option (Option Number × List Char) :=
  match text with
  | '0' :: d :: rest =>
    if d.isDigit then none else finish 0 0 (d :: rest)
  | _ =>
    match text.takeWhile Char.isDigit with
    | [] => none
    | _ =>
      let (n, _, dropped, rest) := takeDigits 0 text
      finish n dropped rest
where
  finish (n : Nat) (dropped : Nat) (rest : List Char) : Option (Option Number × List Char) :=
    match rest with
    | '.' :: rest =>
      match rest.takeWhile Char.isDigit with
      | [] => none
      | _ =>
        let (m, taken, _, rest) := takeDigits n rest
        finishReal negative m (dropped - taken) rest
    | c :: rest =>
      if c = 'e' ∨ c = 'E' then finishReal negative n dropped (c :: rest)
      else some (whole n dropped, c :: rest)
    | [] => some (whole n dropped, [])
  whole (n : Nat) (dropped : Nat) : Option Number :=
    if dropped ≠ 0 then realOf negative n dropped
    else if ¬negative then some (.integer n)
    else if n = 0 ∨ Text.wordLimit / 2 < n then some (.real (Double.ofNat n).neg)
    else some (.integer (-n))

/-- A number, and what follows it. -/
def readNumber : List Char → Option (Option Number × List Char)
  | '-' :: rest => readUnsigned true rest
  | text => readUnsigned false text

/-- A leaf with a value, if it has one. -/
def leaf {α : Type} (make : α → Tree) : Option α → Tree
  | some a => make a
  | none => .unusable

def expectWord (word : List Char) (value : Tree) (text : List Char) : Tree × List Char :=
  if word.isPrefixOf text then (value, text.drop word.length) else (.broken, [])

mutual

/-- Reads one value. `fuel` bounds the steps; twice the length of the text is
enough. -/
def readTree : Nat → List Char → Tree × List Char
  | 0, _ => (.broken, [])
  | fuel + 1, text =>
    match skipSpace text with
    | [] => (.broken, [])
    | 'n' :: rest => expectWord "ull".toList .null rest
    | 't' :: rest => expectWord "rue".toList (.bool true) rest
    | 'f' :: rest => expectWord "alse".toList (.bool false) rest
    | '"' :: rest =>
      match readString (rest.length + 1) (some []) rest with
      | some (s, rest) => (leaf .string s, rest)
      | none => (.broken, [])
    | '[' :: rest =>
      match skipSpace rest with
      | ']' :: rest => (.array [], rest)
      | rest =>
        let (items, rest) := readItems fuel rest
        (.array items, rest)
    | '{' :: rest =>
      match skipSpace rest with
      | '}' :: rest => (.object [], rest)
      | rest =>
        let (members, rest) := readMembers fuel rest
        (.object members, rest)
    | c :: rest =>
      match readNumber (c :: rest) with
      | some (n, rest) => (leaf .number n, rest)
      | none => (.broken, [])

/-- Reads the items of an array from its first item on. -/
def readItems : Nat → List Char → List Tree × List Char
  | 0, _ => ([.broken], [])
  | fuel + 1, text =>
    let (item, rest) := readTree fuel text
    match skipSpace rest with
    | ',' :: rest =>
      let (items, rest) := readItems fuel rest
      (item :: items, rest)
    | ']' :: rest => ([item], rest)
    | _ => ([item, .broken], [])

/-- Reads the members of an object from its first key on. -/
def readMembers : Nat → List Char → List (Option String × Tree) × List Char
  | 0, _ => ([(none, .broken)], [])
  | fuel + 1, text =>
    match skipSpace text with
    | '"' :: rest =>
      match readString (rest.length + 1) (some []) rest with
      | none => ([(none, .broken)], [])
      | some (key, rest) =>
        match skipSpace rest with
        | ':' :: rest =>
          let (value, rest) := readTree fuel rest
          match skipSpace rest with
          | ',' :: rest =>
            let (members, rest) := readMembers fuel rest
            ((key, value) :: members, rest)
          | '}' :: rest => ([(key, value)], rest)
          | _ => ([(key, value), (none, .broken)], [])
        | _ => ([(key, .broken)], [])
    | _ => ([(none, .broken)], [])

end

/-- The tree of a text, and whether only white space follows it. -/
def treeOf (text : List Char) : Tree × Bool :=
  let (tree, rest) := readTree (2 * text.length + 2) text
  (tree, (skipSpace rest).isEmpty)

/-- The document that a text spells. -/
def ofText? (text : String) : Option Json :=
  let (tree, whole) := treeOf text.toList
  if whole then tree.toJson? Tree.depthLimit else none

end FlagGovernance.Json
