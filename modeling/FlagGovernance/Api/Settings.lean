import FlagGovernance.Text.Blank
import FlagGovernance.Text.Numeral
import FlagGovernance.Workflow.Governance
/-
The settings of the service, from named variables.

Values are trimmed, and a blank value counts as unset. The first variable at fault
is told: the policy, then the size of the audit log, then the relay.
-/

namespace FlagGovernance.Api

/-- A variable with a value that it cannot have. -/
structure SettingError where
  name : String
  value : String
  reason : String
deriving DecidableEq, Repr

def SettingError.message (e : SettingError) : String :=
  "invalid " ++ e.name ++ "='" ++ e.value ++ "': " ++ e.reason

structure Settings where
  address : String
  /-- No refresh is sent without it. -/
  relayUrl : Option String
  adminKey : Option String
  stalePolicy : StalePolicy
  auditLimit : Nat
deriving DecidableEq, Repr

namespace Settings

def default : Settings := ⟨"0.0.0.0:8787", none, none, .lastWriteWins, 10000⟩

/-- The trimmed value of a variable, unless it is blank. -/
def value (lookup : String → Option String) (name : String) : Option String :=
  match lookup name with
  | some text => if Text.allBlank text then none else some (Text.trim text)
  | none => none

def policyOf (raw : Option String) : Except SettingError StalePolicy :=
  match raw with
  | none => .ok default.stalePolicy
  | some text =>
    match StalePolicy.ofName? text with
    | some policy => .ok policy
    | none => .error ⟨"ROLLGATE_STALE_APPLY", text, StalePolicy.unknownText text⟩

def auditLimitOf (raw : Option String) : Except SettingError Nat :=
  match raw with
  | none => .ok default.auditLimit
  | some text =>
    match Text.readWord? text with
    | some (n + 1) => .ok (n + 1)
    | _ => .error ⟨"ROLLGATE_AUDIT_MAX_ENTRIES", text, "expected a positive integer"⟩

def relayUrlOf (raw : Option String) : Except SettingError (Option String) :=
  match raw with
  | none => .ok none
  | some text =>
    if "http://".toList.isPrefixOf text.toList || "https://".toList.isPrefixOf text.toList then
      .ok (some text)
    else .error ⟨"RELAY_PROXY_URL", text, "expected an http(s) URL"⟩

/-- The settings that some variables give. -/
def ofVariables (lookup : String → Option String) : Except SettingError Settings := do
  let stalePolicy ← policyOf (value lookup "ROLLGATE_STALE_APPLY")
  let auditLimit ← auditLimitOf (value lookup "ROLLGATE_AUDIT_MAX_ENTRIES")
  let relayUrl ← relayUrlOf (value lookup "RELAY_PROXY_URL")
  return {
    address := (value lookup "ROLLGATE_ADDR").getD default.address
    adminKey := value lookup "ADMIN_API_KEY"
    relayUrl, stalePolicy, auditLimit }

end Settings

/-- Where a relay is asked to refresh, for the base of its addresses. -/
def relayEndpoint (base : String) : String :=
  String.ofList (Text.dropRightWhile (· == '/') base.toList) ++ "/admin/v1/retriever/refresh"

end FlagGovernance.Api
