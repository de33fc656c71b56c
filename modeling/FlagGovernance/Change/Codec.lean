import FlagGovernance.Change.Filter
import FlagGovernance.Config.Decode
import FlagGovernance.Config.Encode
/-
The JSON form of change requests, reviews and actors.
-/

namespace FlagGovernance

open Decode

def Uuid.toJson (id : Uuid) : Json := .string id.text

def Status.toJson (s : Status) : Json := .string s.name

def Status.decode : Decoder Status :=
  choice (Status.all.map (fun s => (s.name, .nothing s)))

def Decision.toJson (d : Decision) : Json := .string d.name

def Decision.decode : Decoder Decision :=
  choice (Decision.all.map (fun d => (d.name, .nothing d)))

def ActorKind.toJson (k : ActorKind) : Json := .string k.name

def ActorKind.decode : Decoder ActorKind :=
  choice ([ActorKind.user, .apiKey, .system].map (fun k => (k.name, .nothing k)))

def ResourceType.toJson (t : ResourceType) : Json := .string t.name

def ResourceType.decode : Decoder ResourceType :=
  choice ([ResourceType.flag, .segment, .flagset].map (fun t => (t.name, .nothing t)))

def Actor.toJson (a : Actor) : Json :=
  .object ([("id", .string a.id)] ++ Json.optional "email" .string a.email ++
    Json.optional "name" .string a.name ++ [("type", a.kind.toJson)])

def Actor.decode : Decoder Actor :=
  record "Actor"
    (Actor.mk <$> .required "id" string <*> .optional "email" string <*> .optional "name" string
      <*> .required "type" ActorKind.decode)

namespace ChangeRequest

def toMembers (r : ChangeRequest) : List (String × Json) :=
  [("id", r.id.toJson), ("title", .string r.title)] ++
  Json.optional "description" .string r.description ++
  [("resourceType", r.resourceType.toJson), ("project", .string r.project),
   ("flagKey", .string r.flagKey), ("currentConfig", r.currentConfig.getD .null),
   ("proposedConfig", r.proposedConfig), ("status", r.status.toJson),
   ("author", r.author.toJson), ("createdAt", r.createdAt.toJson),
   ("updatedAt", r.updatedAt.toJson)] ++
  Json.optional "appliedAt" Instant.toJson r.appliedAt ++
  Json.optional "appliedBy" Actor.toJson r.appliedBy ++
  Json.optional "baseRevision" Json.ofNat r.baseRevision

def toJson (r : ChangeRequest) : Json := .object r.toMembers

def fields : Record ChangeRequest :=
  ChangeRequest.mk <$> .required "id" uuid <*> .required "title" string
    <*> .optional "description" string <*> .required "resourceType" ResourceType.decode
    <*> .required "project" string <*> .required "flagKey" string
    <*> .nullable "currentConfig" json <*> .required "proposedConfig" json
    <*> .required "status" Status.decode <*> .required "author" Actor.decode
    <*> .required "createdAt" instant <*> .required "updatedAt" instant
    <*> .optional "appliedAt" instant <*> .optional "appliedBy" Actor.decode
    <*> .optional "baseRevision" (natural "u64")

def decode : Decoder ChangeRequest := record "ChangeRequest" fields

end ChangeRequest

def Review.toJson (r : Review) : Json :=
  .object ([("id", r.id.toJson), ("changeRequestId", r.requestId.toJson),
    ("reviewer", r.reviewer.toJson), ("decision", r.decision.toJson)] ++
    Json.optional "comment" .string r.comment ++ [("createdAt", r.createdAt.toJson)])

def Review.decode : Decoder Review :=
  record "ChangeRequestReview"
    (Review.mk <$> .required "id" uuid <*> .required "changeRequestId" uuid
      <*> .required "reviewer" Actor.decode <*> .required "decision" Decision.decode
      <*> .optional "comment" string <*> .required "createdAt" instant)

def Proposal.toJson (p : Proposal) : Json :=
  .object [("title", .string p.title), ("description", Json.ofString? p.description),
    ("resourceType", p.resourceType.toJson), ("project", .string p.project),
    ("flagKey", .string p.flagKey), ("proposedConfig", p.proposedConfig)]

def Proposal.decode : Decoder Proposal :=
  record "NewChangeRequest"
    (Proposal.mk <$> .required "title" string <*> .optional "description" string
      <*> .defaulted "resourceType" ResourceType.decode .flag <*> .required "project" string
      <*> .required "flagKey" string <*> .required "proposedConfig" json)

def RequestFilter.toJson (f : RequestFilter) : Json :=
  .object [("status", Json.ofOption Status.toJson f.status), ("search", Json.ofString? f.search)]

def RequestFilter.decode : Decoder RequestFilter :=
  record "ChangeRequestFilter"
    (RequestFilter.mk <$> .optional "status" Status.decode <*> .optional "search" string)

/-- The members of the request with the reviews after them. -/
def RequestDetail.toJson (d : RequestDetail) : Json :=
  .object (d.request.toMembers ++ [("reviews", .array (d.reviews.map Review.toJson))])

def RequestDetail.decode : Decoder RequestDetail := fun r v => do
  let (reviews, request) ← spread "ChangeRequestDetail"
    (.required "reviews" (list Review.decode)) (members ChangeRequest.fields .aside) r v
  return ⟨request, reviews⟩

end FlagGovernance
