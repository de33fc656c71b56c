import FlagGovernance.Config.Violation
import FlagGovernance.Store.Flag
/-
Why an operation on change requests is refused.
-/

namespace FlagGovernance

inductive WorkflowError
  | notFound (id : Uuid)
  | invalidState (status : Status) (reason : String)
  | invalidConfig (cause : Violation)
  | malformedQuery (cause : SyntaxError)
  | conflict (what : String)
  | invalidRequest (what : String)
  | store (context : String) (cause : StoreError)
deriving DecidableEq, Repr

namespace WorkflowError

def message : WorkflowError → String
  | notFound id => "change request " ++ id.text ++ " not found"
  | invalidState _ reason => reason
  | invalidConfig cause => "invalid config: " ++ cause.message
  | malformedQuery cause => "invalid query: " ++ cause.message
  | conflict what => "conflict: " ++ what
  | invalidRequest what => "invalid request: " ++ what
  | store context cause => context ++ ": " ++ cause.message

/-- A stable code for machines. -/
def code : WorkflowError → String
  | notFound _ => "not_found"
  | invalidState _ _ => "invalid_state"
  | invalidConfig _ => "invalid_config"
  | malformedQuery _ => "syntax_error"
  | conflict _ => "conflict"
  | invalidRequest _ => "invalid_request"
  | store _ _ => "store_error"

def notPending : String := "change request is not pending"

def notApplicable : String := "change request must be approved or pending to apply"

def cannotCancel (status : Status) : String :=
  "cannot cancel a change request that is already " ++ status.name

/-- A refusal of a guarded write as the workflow tells it; `reason` words the
status that the store found. -/
def ofStore (id : Uuid) (context : String) (reason : Status → String) : StoreError → WorkflowError
  | .notFound _ => notFound id
  | .statusMismatch actual => invalidState actual (reason actual)
  | .revisionMismatch expected actual =>
    conflict ("flag changed since the request was opened (expected revision " ++
      toString expected ++ ", found " ++ toString actual ++ ")")
  | .conflict what => conflict (what ++ " already exists")
  | .backend cause => store context (.backend cause)

end WorkflowError

end FlagGovernance
