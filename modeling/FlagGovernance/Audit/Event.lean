import FlagGovernance.Change.Codec
/-
Audit events: what was done to a change request, by whom and when.
-/

namespace FlagGovernance

inductive AuditAction
  | created
  | reviewed
  | applied
  | cancelled
deriving DecidableEq, Repr

namespace AuditAction

def all : List AuditAction := [created, reviewed, applied, cancelled]

def name : AuditAction → String
  | created => "change_request.created"
  | reviewed => "change_request.reviewed"
  | applied => "change_request.applied"
  | cancelled => "change_request.cancelled"

def toJson (a : AuditAction) : Json := .string a.name

def decode : Decoder AuditAction :=
  Decode.choice (all.map (fun a => (a.name, .nothing a)))

end AuditAction

/-- One entry of the audit trail. The resource is the change request; the flag it
is about stands in the metadata. -/
structure AuditEvent where
  id : Uuid
  timestamp : Instant
  actor : Actor
  action : AuditAction
  resourceType : String
  resourceId : String
  resourceName : String
  project : String
  changes : Option Json
  metadata : Option Json
deriving Repr

/-- A reading of the clock and an identifier not used before. -/
structure Stamp where
  time : Instant
  id : Uuid
deriving DecidableEq, Repr

namespace AuditEvent

/-- The event of an action on a request. -/
def forRequest (stamp : Stamp) (action : AuditAction) (actor : Actor) (request : ChangeRequest) :
    AuditEvent where
  id := stamp.id
  timestamp := stamp.time
  actor := actor
  action := action
  resourceType := "change_request"
  resourceId := request.id.text
  resourceName := request.title
  project := request.project
  changes := none
  metadata := some (.object [("flagKey", .string request.flagKey),
    ("targetType", request.resourceType.toJson)])

def withChanges (e : AuditEvent) (changes : Json) : AuditEvent :=
  { e with changes := some changes }

/-- Adds the members of an object to metadata that is an object; in any other case
the metadata is replaced. -/
def withMetadata (e : AuditEvent) (metadata : Json) : AuditEvent :=
  match e.metadata, metadata with
  | some (.object current), .object extra =>
    { e with metadata := some (.object (extra.foldl (fun ms m => Json.setMember ms m.1 m.2) current)) }
  | _, _ => { e with metadata := some metadata }

def toJson (e : AuditEvent) : Json :=
  .object ([("id", e.id.toJson), ("timestamp", e.timestamp.toJson), ("actor", e.actor.toJson),
    ("action", e.action.toJson), ("resourceType", .string e.resourceType),
    ("resourceId", .string e.resourceId), ("resourceName", .string e.resourceName),
    ("project", .string e.project)] ++
    Json.optional "changes" (fun v => v) e.changes ++
    Json.optional "metadata" (fun v => v) e.metadata)

open Decode in
def decode : Decoder AuditEvent :=
  record "AuditEvent"
    (AuditEvent.mk <$> .required "id" uuid <*> .required "timestamp" instant
      <*> .required "actor" Actor.decode <*> .required "action" AuditAction.decode
      <*> .required "resourceType" string <*> .required "resourceId" string
      <*> .required "resourceName" string <*> .required "project" string
      <*> .optional "changes" json <*> .optional "metadata" json)

end AuditEvent

end FlagGovernance
