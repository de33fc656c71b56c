import FlagGovernance.Config.Basic
import FlagGovernance.Decode.Error
import FlagGovernance.Query.Parse
/-
What can be wrong with a configuration, and where.
-/

namespace FlagGovernance

/-- A broken rule of configurations. -/
inductive Fault
  | malformedDocument (cause : DecodeError)
  | noVariations
  | missingMode
  | conflictingModes (found : List Mode)
  | missingField (what : String)
  | invalidDate (raw : String)
  | unknownVariation (name : String)
  | missingRuleName
  | duplicateRuleName (name : String)
  | invalidQuery (cause : SyntaxError)
  | negativePercentage (variation : String) (value : Double)
  | percentageOutOfRange (value : Double)
  | endNotAfterStart
  | stepNotAfterPrevious
  | invalidName (what value : String)
deriving DecidableEq, Repr

def Fault.message : Fault → String
  | .malformedDocument cause => "malformed document: " ++ cause.message
  | .noVariations => "at least one variation is required"
  | .missingMode => "exactly one of variation, percentage or progressiveRollout is required"
  | .conflictingModes found =>
    "only one of variation, percentage or progressiveRollout may be set (found " ++
      String.intercalate ", " (found.map Mode.name) ++ ")"
  | .missingField what => what ++ " is required"
  | .invalidDate raw => "invalid date '" ++ raw ++ "', expected RFC 3339"
  | .unknownVariation name => "variation '" ++ name ++ "' not found in variations"
  | .missingRuleName => "targeting rule name is required"
  | .duplicateRuleName name => "duplicate targeting rule name '" ++ name ++ "'"
  | .invalidQuery cause => "invalid query: " ++ cause.message
  | .negativePercentage variation value =>
    "percentage for '" ++ variation ++ "' cannot be negative (got " ++ value.messageText ++ ")"
  | .percentageOutOfRange value =>
    "percentage must be between 0 and 100 (got " ++ value.messageText ++ ")"
  | .endNotAfterStart => "end date must be after start date"
  | .stepNotAfterPrevious => "step date must be after the previous step date"
  | .invalidName what value => "invalid " ++ what ++ " '" ++ value ++ "'"

/-- A broken rule and the path of the field that breaks it. -/
structure Violation where
  field : String
  fault : Fault
deriving DecidableEq, Repr

def Violation.message (v : Violation) : String := v.field ++ ": " ++ v.fault.message

end FlagGovernance
