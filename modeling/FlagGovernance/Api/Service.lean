import FlagGovernance.Api.Body
import FlagGovernance.Api.Failure
import FlagGovernance.Api.MediaType
import FlagGovernance.Api.Metrics
import FlagGovernance.Api.Route
import FlagGovernance.Api.Settings
import FlagGovernance.Api.Target
import FlagGovernance.Store.Codec
import FlagGovernance.Workflow.Operations
/-
The service: requests in, responses and the state after them out.

A request is refused for its path first, then for its parameters or its body; what
is left reaches the governance. A response of success to a change is the only thing
that moves a counter.
-/

namespace FlagGovernance.Api

structure Request where
  method : Method
  target : Target
  /-- Names and values in the order in which they count. -/
  headers : List (String × String)
  body : String
deriving Repr

inductive Payload
  | empty
  | document (value : Json)
  | plain (text : String)
  /-- A short text that says why the request could not be read. -/
  | refusal
deriving Repr

structure Response where
  status : Nat
  payload : Payload
deriving Repr

namespace Response

def ofDocument (status : Nat) (value : Json) : Response := ⟨status, .document value⟩

def ofFailure (f : Failure) : Response := ⟨f.status, .document f.body⟩

/-- The response with nothing in its payload; plain text stays text. -/
def withoutPayload (r : Response) : Response :=
  match r.payload with
  | .plain _ => { r with payload := .plain "" }
  | _ => { r with payload := .empty }

end Response

/-- Why a request could not be read. -/
inductive Refusal
  | path
  | parameters
  | contentType
  | body (fault : BodyFault)
deriving DecidableEq, Repr

namespace Refusal

def status : Refusal → Nat
  | path | parameters | body .malformed => 400
  | contentType => 415
  | body .misshapen => 422

def response (r : Refusal) : Response := ⟨r.status, .refusal⟩

end Refusal

namespace Request

/-- The value of a header, if it is plain text. -/
def header? (r : Request) (name : String) : Option String :=
  match r.headers.find? (fun h => Text.lowerAscii h.1.toList == name.toList) with
  | some (_, value) => if value.toList.all visible then some value else none
  | none => none
where
  visible (c : Char) : Bool := c == '\t' || (32 ≤ c.toNat && c.toNat < 127)

/-- The trimmed value of a header, unless it is blank. -/
def headerText? (r : Request) (name : String) : Option String :=
  match (r.header? name).map Text.trim with
  | some text => if text.isEmpty then none else some text
  | none => none

/-- Who asks. Without an id it is the system. -/
def actor (r : Request) : Actor :=
  let actor :=
    match r.headerText? "x-actor-id" with
    | some id => Actor.user id
    | none => Actor.system
  { actor with email := r.headerText? "x-actor-email", name := r.headerText? "x-actor-name" }

/-- The body is said to be JSON. -/
def isJson (r : Request) : Bool :=
  match (r.header? "content-type").bind MediaType.ofText? with
  | some media => media.isJson
  | none => false

def jsonBody {α : Type} (r : Request) (read : BodyReader α) : Except Refusal α :=
  if r.isJson then (readBody read r.body).mapError .body else .error .contentType

/-- The value of a parameter, which may be given once. -/
def parameter? (r : Request) (name : String) : Except Refusal (Option String) :=
  match r.target.parameters.filter (fun p => p.1 == name) with
  | [] => .ok none
  | [p] => .ok (some p.2)
  | _ => .error .parameters

/-- A parameter that is a whole number. -/
def wordParameter? (r : Request) (name : String) : Except Refusal (Option Nat) := do
  match ← r.parameter? name with
  | none => return none
  | some text =>
    match Text.readWord? text with
    | some n => return some n
    | none => throw .parameters

end Request

/-- The text that a part of a path stands for. -/
def pathText (segment : String) : Except Refusal String :=
  match Target.segmentValue? segment with
  | some text => .ok text
  | none => .error .path

/-- The identifier that a part of a path stands for. -/
def pathId (segment : String) : Except Refusal Uuid := do
  (Uuid.ofText (← pathText segment)).mapError (fun _ => .path)

/-- What a request may use: a reading of the clock, identifiers that were not used
before, and a stamp for the event that tells of it. -/
structure Fresh where
  time : Instant
  requestId : Uuid
  reviewId : Uuid
  event : Stamp
deriving DecidableEq, Repr

structure Service where
  governance : Governance
  metrics : Metrics
deriving Repr

namespace Service

def version : String := "1.0.0"

/-- A service with an empty store. -/
def start (s : Settings) : Service :=
  { governance := .start (.log (.empty s.auditLimit))
      (if s.relayUrl.isSome then .answering else .absent) s.stalePolicy
    metrics := ∅ }

/-- The log of the service. -/
def auditLog (s : Service) : AuditLog := s.governance.auditLog.getD (.empty 0)

abbrev Handled := Response × Service

/-- The response to a change; a success is counted. -/
def committed {α : Type} (s : Service) (action : String) (status : Nat) (encode : α → Json) :
    Governance.Outcome α → Handled
  | (.ok a, g) => (.ofDocument status (encode a), ⟨g, s.metrics.record action⟩)
  | (.error e, g) => (.ofFailure (.workflow e), { s with governance := g })

/-- The response to a question. -/
def told {α : Type} (s : Service) (respond : α → Response) : Governance.Outcome α → Handled
  | (.ok a, g) => (respond a, { s with governance := g })
  | (.error e, g) => (.ofFailure (.workflow e), { s with governance := g })

def healthResponse : Response :=
  .ofDocument 200 (.object [("status", .string "ok"), ("version", .string version)])

def validationResponse (doc : Json) : Response :=
  match validateDocument doc with
  | .ok config =>
    .ofDocument 200 (.object [("valid", .bool true), ("config", config.toDocument)])
  | .error e => .ofFailure (.workflow (.invalidConfig e))

def queryResponse (text : String) : Response :=
  match Query.parse text with
  | .ok e =>
    .ofDocument 200 (.object [("valid", .bool true),
      ("attributes", .array (e.attributes.map .string))])
  | .error e => .ofFailure (.workflow (.malformedQuery e))

/-- The status that a listing asks for; an empty one is none. -/
def statusFilter (word : Option String) : Except Failure (Option Status) :=
  match word with
  | none | some "" => .ok none
  | some word =>
    match Status.ofName? word with
    | some status => .ok (some status)
    | none => .error (.badRequest (Status.unknownText word))

def listingResponse (requests : List ChangeRequest) : Response :=
  .ofDocument 200 (.object [("changeRequests", .array (requests.map ChangeRequest.toJson)),
    ("total", .ofNat requests.length)])

def list (s : Service) (status search : Option String) : Handled :=
  match statusFilter status with
  | .ok status => s.told listingResponse (s.governance.list ⟨status, search⟩)
  | .error f => (.ofFailure f, s)

def review (s : Service) (id : Uuid) (actor : Actor) (word : String) (comment : Option String)
    (fresh : Fresh) : Handled :=
  match Decision.ofName? word with
  | some decision =>
    s.committed "reviewed" 200
      (fun o => .object [("request", o.request.toJson), ("review", o.review.toJson)])
      (s.governance.review id decision actor comment ⟨fresh.time, fresh.reviewId⟩ fresh.event)
  | none => (.ofFailure (.badRequest Decision.unknownText), s)

def appliedDocument (a : AppliedChange) : Json :=
  .object [("changeRequest", a.request.toJson),
    ("flag", Json.ofOption StoredFlag.toJson a.flag), ("projectCreated", .bool a.projectCreated)]

def flagResponse (project key : String) : Option StoredFlag → Response
  | some flag => .ofDocument 200 flag.toJson
  | none => .ofFailure (.notFound (Store.flagText project key))

def defaultAuditLimit : Nat := 100

/-- The newest events first, of one resource or of all. -/
def auditResponse (log : AuditLog) (limit : Option Nat) (resourceId : Option String) : Response :=
  let limit := limit.getD defaultAuditLimit
  let events :=
    match resourceId with
    | some id => (log.forResource id).reverse.take limit
    | none => log.recent limit
  .ofDocument 200 (.object [("events", .array (events.map AuditEvent.toJson)),
    ("stats", log.stats.toJson)])

/-- The response to a request of a route that takes its method. -/
def get (s : Service) (r : Request) : Route → Option (Except Refusal Handled)
  | .health => some (.ok (healthResponse, s))
  | .requests => some do
    return s.list (← r.parameter? "status") (← r.parameter? "search")
  | .pendingCount => some (.ok (s.told
      (fun count => .ofDocument 200 (.object [("count", .ofNat count)])) s.governance.countPending))
  | .request id => some do
    return s.told (fun detail => .ofDocument 200 detail.toJson) (s.governance.get (← pathId id))
  | .flag project key => some do
    let project ← pathText project
    let key ← pathText key
    return s.told (flagResponse project key) (s.governance.flag project key)
  | .audit => some do
    let limit ← r.wordParameter? "limit"
    return (auditResponse s.auditLog limit (← r.parameter? "resourceId"), s)
  | .metrics => some (.ok (⟨200, .plain s.metrics.text⟩, s))
  | _ => none

/-- The response to a request that may change something, of a route that takes
such requests. -/
def post (s : Service) (r : Request) (fresh : Fresh) : Route → Option (Except Refusal Handled)
  | .validateConfig => some do
    return (validationResponse (← r.jsonBody documentBody), s)
  | .validateQuery => some do
    return (queryResponse (← r.jsonBody queryBody), s)
  | .requests => some do
    let proposal ← r.jsonBody proposalBody
    return s.committed "created" 201 ChangeRequest.toJson
      (s.governance.create proposal r.actor ⟨fresh.time, fresh.requestId⟩ fresh.event)
  | .review id => some do
    let id ← pathId id
    let (word, comment) ← r.jsonBody reviewBody
    return s.review id r.actor word comment fresh
  | .apply id => some do
    return s.committed "applied" 200 appliedDocument
      (s.governance.apply (← pathId id) r.actor fresh.time fresh.event)
  | .cancel id => some do
    return s.committed "cancelled" 200 ChangeRequest.toJson
      (s.governance.cancel (← pathId id) r.actor fresh.time fresh.event)
  | _ => none

/-- What is answered when nothing is there, or nothing that takes the method. -/
def bare (status : Nat) : Response := ⟨status, .empty⟩

/-- The outcome of a route, if it takes the method. -/
def settled (s : Service) : Option (Except Refusal Handled) → Handled
  | some (.ok handled) => handled
  | some (.error refusal) => (refusal.response, s)
  | none => (bare 405, s)

/-- Answers one request. -/
def handle (s : Service) (r : Request) (fresh : Fresh) : Handled :=
  match r.method, Route.ofSegments? r.target.segments with
  | .options, _ => (bare 200, s)
  | _, none => (bare 404, s)
  | .get, some route => s.settled (s.get r route)
  | .head, some route =>
    let (response, s) := s.settled (s.get r route)
    (response.withoutPayload, s)
  | .post, some route => s.settled (s.post r fresh route)
  | .other, some _ => (bare 405, s)

end Service

end FlagGovernance.Api
