import FlagGovernance.Change.Status
import FlagGovernance.Config.Basic
import FlagGovernance.Uuid
/-
Change requests, their reviews, and the actors behind them.
-/

namespace FlagGovernance

inductive ActorKind
  | user
  | apiKey
  | system
deriving DecidableEq, Repr

def ActorKind.name : ActorKind → String
  | .user => "user"
  | .apiKey => "api_key"
  | .system => "system"

/-- Who did something. -/
structure Actor where
  id : String
  email : Option String
  name : Option String
  kind : ActorKind
deriving DecidableEq, Repr

namespace Actor

def user (id : String) : Actor := ⟨id, none, none, .user⟩

def system : Actor := ⟨"system", none, none, .system⟩

/-- The name, else the address, else the id. -/
def displayName (a : Actor) : String :=
  (a.name <|> a.email).getD a.id

end Actor

inductive ResourceType
  | flag
  | segment
  | flagset
deriving DecidableEq, Repr

def ResourceType.name : ResourceType → String
  | .flag => "flag"
  | .segment => "segment"
  | .flagset => "flagset"

/-- A proposal to replace the configuration of a flag. -/
structure ChangeRequest where
  id : Uuid
  title : String
  description : Option String
  resourceType : ResourceType
  project : String
  flagKey : String
  /-- The configuration in force when the request was opened. -/
  currentConfig : Option Json
  proposedConfig : Json
  status : Status
  author : Actor
  createdAt : Instant
  updatedAt : Instant
  appliedAt : Option Instant
  appliedBy : Option Actor
  /-- The revision of the flag when the request was opened. -/
  baseRevision : Option Nat
deriving Repr

structure Review where
  id : Uuid
  requestId : Uuid
  reviewer : Actor
  decision : Decision
  comment : Option String
  createdAt : Instant
deriving DecidableEq, Repr

/-- What is given to open a change request. -/
structure Proposal where
  title : String
  description : Option String
  resourceType : ResourceType
  project : String
  flagKey : String
  proposedConfig : Json
deriving Repr

/-- A change request with its reviews, oldest first. -/
structure RequestDetail where
  request : ChangeRequest
  reviews : List Review
deriving Repr

end FlagGovernance
