import FlagGovernance.Json.Basic
import FlagGovernance.Decode.Record
/-
Differences between two documents, field by field.

Objects are compared key by key, in order of key, and everything else whole. A
change tells the path of a field and what stands there on either side; nothing
stands where the field is absent.
-/

namespace FlagGovernance

structure FieldChange where
  path : String
  before : Option Json
  after : Option Json
deriving Repr

namespace FieldChange

/-- The same change seen from the other side. -/
def swap (c : FieldChange) : FieldChange := ⟨c.path, c.after, c.before⟩

def toJson (c : FieldChange) : Json :=
  .object [("after", c.after.getD .null), ("before", c.before.getD .null),
    ("path", .string c.path)]

def decode : Decoder FieldChange :=
  Decode.record "FieldChange"
    (FieldChange.mk <$> .required "path" Decode.string <*> .nullable "before" Decode.json
      <*> .nullable "after" Decode.json)

end FieldChange

namespace Diff

/-- The path of a member: its key, after the path of the object around it. -/
def childPath (path key : String) : String :=
  if path.isEmpty then key else path ++ "." ++ key

/-- The path as a change tells it; the whole document is `$`. -/
def shownPath (path : String) : String :=
  if path.isEmpty then "$" else path

/-- A member that only the later object has. -/
def added (path : String) (m : String × Json) : FieldChange :=
  ⟨shownPath (childPath path m.1), none, some m.2⟩

/-- A member that only the earlier object has. -/
def removed (path : String) (m : String × Json) : FieldChange :=
  ⟨shownPath (childPath path m.1), some m.2, none⟩

mutual

/-- The changes at and below a path where both documents have a value. -/
def changes (path : String) : Json → Json → List FieldChange
  | .object as, .object bs => memberChanges path as bs
  | a, b => if a.equal b then [] else [⟨shownPath path, some a, some b⟩]

/-- The changes among the members of two objects, each in order of key. -/
def memberChanges (path : String) :
    List (String × Json) → List (String × Json) → List FieldChange
  | [], bs => bs.map (added path)
  | (k, a) :: as, bs =>
    (bs.takeWhile (fun b => b.1 < k)).map (added path) ++
      match bs.dropWhile (fun b => b.1 < k) with
      | [] => removed path (k, a) :: memberChanges path as []
      | (l, b) :: rest =>
        if k = l then changes (childPath path k) a b ++ memberChanges path as rest
        else removed path (k, a) :: memberChanges path as ((l, b) :: rest)

end

end Diff

/-- The changes that lead from one document to another; either may be absent. -/
def diff : Option Json → Option Json → List FieldChange
  | none, none => []
  | some a, some b => Diff.changes "" a b
  | before, after => [⟨Diff.shownPath "", before, after⟩]

/-- Both documents and the changes between them. -/
def diffReport (before after : Option Json) : Json :=
  .object [("after", after.getD .null), ("before", before.getD .null),
    ("fields", .array ((diff before after).map FieldChange.toJson))]

end FlagGovernance
