import FlagGovernance.Text.CaseTable
/-
Full lowercasing of a text.

Three rules apply, in this order: a capital sigma that ends a word becomes the
final form, a dotted capital I becomes two characters, and every other
character follows the simple mapping.
-/

namespace FlagGovernance.Text

/-- Some closed range of the table holds the character. -/
def inRanges (table : List (Nat × Nat)) (c : Char) : Bool :=
  table.any (fun range => range.1 ≤ c.toNat && c.toNat ≤ range.2)

def isCased (c : Char) : Bool :=
  inRanges casedRanges c

def isCaseIgnorable (c : Char) : Bool :=
  inRanges caseIgnorableRanges c

/-- The first character that is not case-ignorable is cased. -/
def meetsCased (text : List Char) : Bool :=
  match text.dropWhile isCaseIgnorable with
  | [] => false
  | c :: _ => isCased c

/-- The simple lowercase mapping of one character. -/
def lowerChar (c : Char) : Char :=
  if c.toNat < 0x80 then
    if 0x41 ≤ c.toNat && c.toNat ≤ 0x5A then Char.ofNat (c.toNat + 32) else c
  else
    match lowercaseRuns.find? (fun run => run.covers c.toNat) with
    | some run => Char.ofNat (c.toNat + run.shift).toNat
    | none => c

/-- Lowercases what follows, given the characters before it, nearest first. -/
def lowerAfter : List Char → List Char → List Char
  | _, [] => []
  | before, 'Σ' :: rest =>
    (if meetsCased before && !meetsCased rest then 'ς' else 'σ')
      :: lowerAfter ('Σ' :: before) rest
  | before, 'İ' :: rest => 'i' :: '\u0307' :: lowerAfter ('İ' :: before) rest
  | before, c :: rest => lowerChar c :: lowerAfter (c :: before) rest

/-- The lowercase form of a text, by the full mapping. -/
def lower (text : String) : String :=
  String.ofList (lowerAfter [] text.toList)

/-- The text with its ASCII capitals in lowercase and all else as it is. -/
def lowerAscii (text : List Char) : List Char :=
  text.map Char.toLower

/-- The first text occurs in the second as a run of consecutive characters. -/
def occursIn (needle : List Char) : List Char → Bool
  | [] => needle.isEmpty
  | c :: rest => needle.isPrefixOf (c :: rest) || occursIn needle rest

end FlagGovernance.Text
