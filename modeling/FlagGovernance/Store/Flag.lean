import FlagGovernance.Change.Request
/-
Flags as they are stored, and what a write may expect to find.
-/

namespace FlagGovernance

/-- The place of a flag: its project and its key. -/
structure FlagId where
  project : String
  key : String
deriving DecidableEq, Repr

namespace FlagId

instance : Ord FlagId := ⟨compareLex (compareOn FlagId.project) (compareOn FlagId.key)⟩

instance : Std.TransOrd FlagId :=
  inferInstanceAs (Std.TransCmp (compareLex (compareOn FlagId.project) (compareOn FlagId.key)))

theorem compare_def (a b : FlagId) :
    compare a b = (compare a.project b.project).then (compare a.key b.key) := rfl

instance : Std.LawfulEqOrd FlagId where
  eq_of_compare := by
    intro a b h
    rw [compare_def, Ordering.then_eq_eq] at h
    have hp := Std.LawfulEqCmp.eq_of_compare h.1
    have hk := Std.LawfulEqCmp.eq_of_compare h.2
    cases a; cases b; simp_all

end FlagId

/-- The configuration in force for a flag. The revision starts at one and grows by
one with every write. -/
structure StoredFlag where
  project : String
  key : String
  config : FlagConfig
  revision : Nat
  updatedAt : Instant
deriving Repr

def StoredFlag.id (f : StoredFlag) : FlagId := ⟨f.project, f.key⟩

/-- A refusal of the store. -/
inductive StoreError
  | notFound (what : String)
  | conflict (what : String)
  /-- A guarded write found the request in a status that it does not allow. -/
  | statusMismatch (actual : Status)
  /-- A flag is no longer at the revision that a write expects. -/
  | revisionMismatch (expected actual : Nat)
  | backend (cause : String)
deriving DecidableEq, Repr

def StoreError.message : StoreError → String
  | .notFound what => what ++ " not found"
  | .conflict what => what ++ " already exists"
  | .statusMismatch actual => "change request is " ++ actual.name
  | .revisionMismatch expected actual =>
    "flag revision is " ++ toString actual ++ ", expected " ++ toString expected
  | .backend cause => "storage backend error: " ++ cause

/-- What a write expects to find. -/
inductive RevisionCheck
  | any
  | absent
  | at (revision : Nat)
deriving DecidableEq, Repr

namespace RevisionCheck

/-- The flag is still as it was when a request was opened. -/
def ofBase : Option Nat → RevisionCheck
  | some revision => .at revision
  | none => .absent

/-- Compares the expectation with the flag that is there; revision zero stands
for none. -/
def verify (check : RevisionCheck) (current : Option StoredFlag) : Except StoreError Unit :=
  let actual := (current.map StoredFlag.revision).getD 0
  match check with
  | .any => .ok ()
  | .absent => if actual = 0 then .ok () else .error (.revisionMismatch 0 actual)
  | .at expected =>
    if expected = actual then .ok () else .error (.revisionMismatch expected actual)

end RevisionCheck

end FlagGovernance
