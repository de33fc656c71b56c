/-
The life of a change request, and what reviews say.

    pending ──► approved ──► applied
       │  └───► rejected
       ├──────────────────► applied
       └──► cancelled ◄── approved | rejected
-/

namespace FlagGovernance

inductive Status
  | pending
  | approved
  | rejected
  | cancelled
  | applied
deriving DecidableEq, Repr

namespace Status

def all : List Status := [pending, approved, rejected, cancelled, applied]

def name : Status → String
  | pending => "pending"
  | approved => "approved"
  | rejected => "rejected"
  | cancelled => "cancelled"
  | applied => "applied"

def ofName? (text : String) : Option Status :=
  all.find? (fun s => s.name == text)

/-- Nothing follows. -/
def isTerminal : Status → Bool
  | applied | cancelled => true
  | _ => false

def canReview : Status → Bool
  | pending => true
  | _ => false

/-- A pending request can be applied without a review. -/
def canApply : Status → Bool
  | approved | pending => true
  | _ => false

def canCancel (s : Status) : Bool := !s.isTerminal

/-- The refusal of a text that names no status. -/
def unknownText (text : String) : String :=
  "unknown change request status '" ++ text ++ "'"

end Status

inductive Decision
  | approved
  | rejected
  | commented
deriving DecidableEq, Repr

namespace Decision

def all : List Decision := [approved, rejected, commented]

def name : Decision → String
  | approved => "approved"
  | rejected => "rejected"
  | commented => "commented"

def ofName? (text : String) : Option Decision :=
  all.find? (fun d => d.name == text)

/-- The status a review moves a request to; a comment moves nothing. -/
def resultingStatus : Decision → Option Status
  | approved => some .approved
  | rejected => some .rejected
  | commented => none

/-- The refusal of a text that names no decision. -/
def unknownText : String := "decision must be approved, rejected, or commented"

end Decision

end FlagGovernance
