import FlagGovernance.Change.Request
import FlagGovernance.Text.Blank
import FlagGovernance.Text.Case
/-
Which change requests a listing shows.
-/

namespace FlagGovernance

structure RequestFilter where
  status : Option Status
  search : Option String
deriving DecidableEq, Repr

namespace RequestFilter

def everything : RequestFilter := ⟨none, none⟩

def ofStatus (status : Status) : RequestFilter := ⟨some status, none⟩

/-- The lowercase form of one text occurs in that of the other. -/
def found (term text : String) : Bool :=
  Text.occursIn (Text.lower term).toList (Text.lower text).toList

/-- The request has the status, if one is given. -/
def statusMatches (f : RequestFilter) (request : ChangeRequest) : Bool :=
  match f.status with
  | some status => request.status == status
  | none => true

/-- The trimmed search text, unless it is blank, is found in the title, the flag
key or the project. -/
def searchMatches (f : RequestFilter) (request : ChangeRequest) : Bool :=
  match f.search.map Text.trim with
  | some term =>
    term.isEmpty || found term request.title || found term request.flagKey ||
      found term request.project
  | none => true

def accepts (f : RequestFilter) (request : ChangeRequest) : Bool :=
  f.statusMatches request && f.searchMatches request

end RequestFilter

end FlagGovernance
