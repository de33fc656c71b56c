import FlagGovernance.Json.Basic
/-
JSON text as a tree, faults included.

Reading never fails: where the text stops being JSON the tree has a `broken`
leaf, and nothing follows it. A number or a string can keep to the grammar and
still have no value; it is an `unusable` leaf, and a key of that kind is nothing.
Members keep the order of the text and repeated keys, so a consumer that walks the
tree meets things in the order in which a reader of the text would.
-/

namespace FlagGovernance.Json

inductive Tree
  | broken
  | unusable
  | null
  | bool (value : Bool)
  | number (value : Number)
  | string (value : String)
  | array (items : List Tree)
  | object (members : List (Option String × Tree))
deriving Repr

namespace Tree

mutual

/-- The text of the tree is JSON throughout, whether or not it has a value. -/
def isWhole : Tree → Bool
  | .broken => false
  | .array items => itemsWhole items
  | .object members => membersWhole members
  | _ => true

def itemsWhole : List Tree → Bool
  | [] => true
  | t :: rest => t.isWhole && itemsWhole rest

def membersWhole : List (Option String × Tree) → Bool
  | [] => true
  | (_, t) :: rest => t.isWhole && membersWhole rest

end

mutual

/-- The document of a tree that has a value throughout and in which fewer than
`depth` arrays and objects are nested; the last of several values of a key
holds. -/
def toJson? (depth : Nat) : Tree → Option Json
  | .broken | .unusable => none
  | .null => some .null
  | .bool b => some (.bool b)
  | .number n => some (.number n)
  | .string s => some (.string s)
  | .array items =>
    if depth ≤ 1 then none else (itemsToJson? (depth - 1) items).map .array
  | .object members =>
    if depth ≤ 1 then none else (membersToJson? (depth - 1) [] members).map .object

def itemsToJson? (depth : Nat) : List Tree → Option (List Json)
  | [] => some []
  | t :: rest => do
    let v ← t.toJson? depth
    let vs ← itemsToJson? depth rest
    return v :: vs

def membersToJson? (depth : Nat) (found : List (String × Json)) :
    List (Option String × Tree) → Option (List (String × Json))
  | [] => some found
  | (key, t) :: rest => do
    let k ← key
    let v ← t.toJson? depth
    membersToJson? depth (setMember found k v) rest

end

/-- How deep a document may be nested, and one more. -/
def depthLimit : Nat := 128

end Tree

end FlagGovernance.Json
