import FlagGovernance.Workflow.Error
import FlagGovernance.Change.Codec
/-
Failures of the service and how they are answered.
-/

namespace FlagGovernance.Api

inductive Failure
  | workflow (cause : WorkflowError)
  | badRequest (what : String)
  | notFound (what : String)
  | internal (what : String)
deriving DecidableEq, Repr

namespace Failure

def message : Failure → String
  | workflow cause => cause.message
  | badRequest what => what
  | notFound what => what ++ " not found"
  | internal what => "internal error: " ++ what

/-- The status of the answer. -/
def status : Failure → Nat
  | workflow cause =>
    match cause with
    | .notFound _ => 404
    | .invalidState _ _ | .conflict _ => 409
    | .invalidConfig _ | .malformedQuery _ => 422
    | .invalidRequest _ => 400
    | .store _ _ => 500
  | badRequest _ => 400
  | notFound _ => 404
  | internal _ => 500

def code : Failure → String
  | workflow cause => cause.code
  | badRequest _ => "invalid_request"
  | notFound _ => "not_found"
  | internal _ => "internal_error"

/-- What the answer tells beside message and code. -/
def details : Failure → List (String × Json)
  | workflow (.invalidConfig cause) => [("field", .string cause.field)]
  | workflow (.malformedQuery cause) =>
    [("line", .ofNat cause.line), ("column", .ofNat cause.column)]
  | workflow (.invalidState status _) => [("status", status.toJson)]
  | _ => []

def body (f : Failure) : Json :=
  .object ([("error", .string f.message), ("code", .string f.code)] ++ f.details)

end Failure

end FlagGovernance.Api
