import FlagGovernance.OrderedMap
import FlagGovernance.Text.Case
import FlagGovernance.Text.Hex
/-
Universally unique identifiers.

An identifier is a number of 128 bits, written as five groups of lowercase
hexadecimal digits. Reading also takes capitals, the digits without hyphens, and
the hyphenated form in braces or after `urn:uuid:` in any case.
-/

namespace FlagGovernance

/-- One more than the largest identifier. -/
def uuidLimit : Nat := 0x100000000000000000000000000000000

structure Uuid where
  value : Fin uuidLimit
deriving DecidableEq, Repr

namespace Uuid

instance : Ord Uuid := ⟨fun a b => compare a.value.val b.value.val⟩

theorem compare_def (a b : Uuid) : compare a b = compare a.value.val b.value.val := rfl

instance : Std.TransOrd Uuid where
  eq_swap := by intro a b; simp only [compare_def]; exact Std.OrientedCmp.eq_swap
  isLE_trans := by intro a b c; simp only [compare_def]; exact Std.TransCmp.isLE_trans

instance : Std.LawfulEqOrd Uuid where
  compare_self := by intro a; simp only [compare_def]; exact Std.ReflCmp.compare_self
  eq_of_compare := by
    intro a b h
    rw [compare_def] at h
    have h : a.value.val = b.value.val := Std.LawfulEqCmp.eq_of_compare h
    cases a; cases b; simp_all [Fin.ext_iff]

def ofNat (n : Nat) : Uuid := ⟨⟨n % uuidLimit, Nat.mod_lt _ (by decide)⟩⟩

/-- The last `count` hexadecimal digits of a number, the first the most
significant. -/
def hexDigits : Nat → Nat → List Char
  | 0, _ => []
  | count + 1, n => hexDigits count (n / 16) ++ [Text.hexDigit n]

/-- The lengths of the groups. -/
def groupLengths : List Nat := [8, 4, 4, 4, 12]

/-- The five groups of the identifier. -/
def groups (id : Uuid) : List (List Char) :=
  let digits := hexDigits 32 id.value.val
  [digits.take 8, (digits.drop 8).take 4, (digits.drop 12).take 4, (digits.drop 16).take 4,
    digits.drop 20]

/-- The identifier as five groups joined by hyphens. -/
def text (id : Uuid) : String :=
  String.ofList (List.intercalate ['-'] id.groups)

/-- Why a text is no identifier. -/
inductive Fault
  | character (found : Char) (index : Nat)
  | length (found : Nat)
  | groupCount (found : Nat)
  | groupLength (group expected found : Nat)
deriving DecidableEq, Repr

def Fault.message : Fault → String
  | .character found index =>
    "invalid character: found `" ++ String.ofList [found] ++ "` at " ++ toString index
  | .length found => "invalid length: found " ++ toString found
  | .groupCount found =>
    "invalid group count: expected 5, found " ++ toString found
  | .groupLength group expected found =>
    "invalid group length in group " ++ toString group ++ ": expected " ++ toString expected ++
      ", found " ++ toString found

/-- The identifier of thirty-two hexadecimal digits. -/
def ofDigits? (digits : List Char) : Option Uuid :=
  if digits.length = 32 then
    (digits.mapM Text.hexValue?).map (fun ds => ofNat (ds.foldl (fun n d => n * 16 + d) 0))
  else none

/-- The parts of a text between its hyphens. -/
def splitGroups (text : List Char) : List (List Char) :=
  text.splitOn '-'

/-- The identifier of a hyphenated text. -/
def ofGroups? (text : List Char) : Option Uuid :=
  let groups := splitGroups text
  if groups.map List.length = groupLengths then ofDigits? groups.flatten else none

/-- How the identifier stands in a text. -/
inductive Wrapping
  | bare
  | braced
  | scheme
deriving DecidableEq, Repr

/-- How many bytes stand before the identifier. -/
def Wrapping.offset : Wrapping → Nat
  | .bare => 0
  | .braced => 1
  | .scheme => 9

/-- The wrapping of a text, and what it wraps. -/
def unwrap (text : List Char) : Wrapping × List Char :=
  match text with
  | '{' :: rest =>
    if rest.getLast? = some '}' then (.braced, rest.dropLast) else (.bare, text)
  | _ =>
    if Text.lowerAscii (text.take 9) = "urn:uuid:".toList then (.scheme, text.drop 9)
    else (.bare, text)

/-- How many bytes a text takes. -/
def byteLength (text : List Char) : Nat :=
  text.foldl (fun n c => n + c.utf8Size) 0

/-- The length of a hyphenated identifier. -/
def hyphenatedLength : Nat := 36

/-- The length of the longest form, with a scheme. -/
def longestLength : Nat := 45

/-- The first character that no identifier has, with its place in bytes. -/
def badCharacter? : Nat → List Char → Option (Char × Nat)
  | _, [] => none
  | index, c :: rest =>
    if c = '-' ∨ Text.isHexDigit c then badCharacter? (index + c.utf8Size) rest
    else some (c, index)

/-- The first group of a wrong length; if only the last is left it is that
one, counted to the end of the whole text. -/
def badGroup (whole : Nat) : Nat → List Nat → List (List Char) → Fault
  | index, expected :: more, group :: rest =>
    if more.isEmpty then .groupLength index expected (whole - 24)
    else if group.length = expected then badGroup whole (index + 1) more rest
    else .groupLength index expected group.length
  | index, _, _ => .groupLength index 12 (whole - 24)

/-- What is wrong with the groups of a text of `whole` bytes. -/
def groupFault (whole : Nat) (text : List Char) : Fault :=
  let groups := splitGroups text
  if groups.length ≠ 5 then .groupCount groups.length else badGroup whole 0 groupLengths groups

/-- What is wrong with a text that has the length of a hyphenated identifier.
Places are counted from its own start. -/
def hyphenatedFault (text : List Char) : Fault :=
  match badCharacter? 0 text with
  | some (c, index) => .character c index
  | none => groupFault hyphenatedLength text

/-- What is wrong with a text of any other length. Places are counted from the
start of the whole, and a text without a wrapping or a hyphen was to be the
digits alone. -/
def looseFault (whole : List Char) (wrapping : Wrapping) (inner : List Char) : Fault :=
  match badCharacter? wrapping.offset inner with
  | some (c, index) => .character c index
  | none =>
    if wrapping = .bare ∧ '-' ∉ inner then .length whole.length
    else groupFault whole.length inner

/-- What is wrong with a text that is no identifier. A text longer than any form
is not looked into. -/
def faultOf (text : List Char) : Fault :=
  let (wrapping, inner) := unwrap text
  if longestLength < byteLength text then .length (byteLength text)
  else if byteLength text = hyphenatedLength then hyphenatedFault text
  else if byteLength inner = hyphenatedLength then hyphenatedFault inner
  else looseFault text wrapping inner

/-- Reads an identifier in any of its forms. -/
def ofText (text : String) : Except Fault Uuid :=
  let chars := text.toList
  let (wrapping, inner) := unwrap chars
  let found := ofGroups? inner <|> (if wrapping = .bare then ofDigits? inner else none)
  match found with
  | some id => .ok id
  | none => .error (faultOf chars)

end Uuid

end FlagGovernance
