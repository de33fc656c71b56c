import FlagGovernance.Number.Double
import FlagGovernance.OrderedMap
/-
JSON values.

A number keeps its kind: an integer stays one, and is never equal to a real.
The members of an object are a list; a document read from text lists them by
increasing key, one entry a key.
-/

namespace FlagGovernance

/-- A number as a document holds it. Integers range over what sixty-four bits
hold, with or without a sign; every other number is a real. -/
inductive Number
  | integer (value : Int)
  | real (value : Double)
deriving DecidableEq, Repr

/-- Equal kinds and equal values; the two zeros among the reals are equal. -/
def Number.equal : Number → Number → Bool
  | .integer a, .integer b => a == b
  | .real a, .real b => a.same b
  | _, _ => false

/-- The double nearest to a number. -/
def Number.toDouble : Number → Double
  | .integer i => .ofInt i
  | .real d => d

inductive Json
  | null
  | bool (value : Bool)
  | number (value : Number)
  | string (value : String)
  | array (items : List Json)
  | object (members : List (String × Json))
deriving Repr

namespace Json

instance : Inhabited Json := ⟨.null⟩

def ofNat (n : Nat) : Json := .number (.integer n)

/-- A real number; what is not finite has no JSON form and becomes `null`. -/
def ofDouble (d : Double) : Json :=
  if d.isFinite then .number (.real d) else .null

/-- `null` for nothing. -/
def ofOption {α : Type} (encode : α → Json) : Option α → Json
  | none => .null
  | some a => encode a

def ofString? : Option String → Json := ofOption .string

/-- The member of an object, present only if there is a value. -/
def optional {α : Type} (key : String) (encode : α → Json) : Option α → List (String × Json)
  | none => []
  | some a => [(key, encode a)]

/-- The value of a key among members. -/
def member? (key : String) : List (String × Json) → Option Json
  | [] => none
  | (k, v) :: rest => if key = k then some v else member? key rest

/-- The value of a key in an object; nothing has members but an object. -/
def get? (key : String) : Json → Option Json
  | .object members => member? key members
  | _ => none

/-- Members with one key set. -/
def setMember (members : List (String × Json)) (key : String) (value : Json) :
    List (String × Json) :=
  OrderedMap.insertEntry key value members

mutual

/-- Equality of documents: numbers by `Number.equal`, objects by members in
order, all else by structure. -/
def equal : Json → Json → Bool
  | .null, .null => true
  | .bool a, .bool b => a == b
  | .number a, .number b => a.equal b
  | .string a, .string b => a == b
  | .array a, .array b => equalItems a b
  | .object a, .object b => equalMembers a b
  | _, _ => false

def equalItems : List Json → List Json → Bool
  | [], [] => true
  | a :: as, b :: bs => equal a b && equalItems as bs
  | _, _ => false

def equalMembers : List (String × Json) → List (String × Json) → Bool
  | [], [] => true
  | (k, a) :: as, (l, b) :: bs => k == l && equal a b && equalMembers as bs
  | _, _ => false

end

mutual

/-- The document with the members of every object in order of key. -/
def sorted : Json → Json
  | .array items => .array (sortedItems items)
  | .object members => .object (sortedMembers members)
  | value => value

def sortedItems : List Json → List Json
  | [] => []
  | v :: rest => sorted v :: sortedItems rest

def sortedMembers : List (String × Json) → List (String × Json)
  | [] => []
  | (k, v) :: rest => setMember (sortedMembers rest) k (sorted v)

end

end Json

end FlagGovernance
