import FlagGovernance.Workflow.Governance
import FlagGovernance.Config.Lift
import FlagGovernance.Config.Name
import FlagGovernance.Diff
/-
The operations on change requests.

Each takes the governance, its arguments and the stamps it may use, and gives an
answer or a refusal with the governance afterwards. An operation that succeeds in
changing a request emits one audit event; applying a flag also sends a signal.
-/

namespace FlagGovernance

/-- The request after a review, and the review. -/
structure ReviewOutcome where
  request : ChangeRequest
  review : Review
deriving Repr

/-- A text, unless it is blank. -/
def unlessBlank : Option String → Option String
  | some text => if Text.allBlank text then none else some text
  | none => none

namespace Proposal

/-- What is wrong with a proposal before anything is looked up. -/
def check (p : Proposal) : Except WorkflowError Unit := do
  if Text.allBlank p.title then throw (.invalidRequest "title is required")
  (checkProjectName p.project).mapError (fun v => .invalidRequest v.message)
  if p.resourceType = .flag then
    (checkFlagKey p.flagKey).mapError (fun v => .invalidRequest v.message)

/-- The request that a proposal opens over the flag it finds. -/
def opened (p : Proposal) (author : Actor) (stamp : Stamp) (current : Option StoredFlag) :
    ChangeRequest where
  id := stamp.id
  title := Text.trim p.title
  description := unlessBlank p.description
  resourceType := p.resourceType
  project := p.project
  flagKey := p.flagKey
  currentConfig := current.map (fun f => f.config.toDocument)
  proposedConfig := p.proposedConfig
  status := .pending
  author := author
  createdAt := stamp.time
  updatedAt := stamp.time
  appliedAt := none
  appliedBy := none
  baseRevision := current.map StoredFlag.revision

end Proposal

namespace Governance

abbrev Outcome (α : Type) := Except WorkflowError α × Governance

/-- The flag that a proposal is about; only flags are looked up. -/
def currentFlag (g : Governance) (p : Proposal) : Outcome (Option StoredFlag) :=
  match p.resourceType with
  | .flag =>
    match g.read .getFlag (fun s => s.flag? p.project p.flagKey) with
    | (.ok current, g) => (.ok current, g)
    | (.error e, g) => (.error (.store "loading current flag" e), g)
  | _ => (.ok none, g)

def createdEvent (stamp : Stamp) (author : Actor) (request : ChangeRequest) : AuditEvent :=
  (AuditEvent.forRequest stamp .created author request).withMetadata
    (.object [("baseRevision", Json.ofOption Json.ofNat request.baseRevision)])

/-- Opens a request in `pending`, with the configuration in force now. -/
def create (g : Governance) (p : Proposal) (author : Actor) (stamp event : Stamp) :
    Outcome ChangeRequest :=
  match p.check with
  | .error e => (.error e, g)
  | .ok () =>
    match g.currentFlag p with
    | (.error e, g) => (.error e, g)
    | (.ok current, g) =>
      let request := p.opened author stamp current
      match g.call .insertRequest (fun s => s.insertRequest request) with
      | (.error e, g) => (.error (.store "saving change request" e), g)
      | (.ok (), g) => (.ok request, g.emit (createdEvent event author request))

/-- A request that must be there. -/
def load (g : Governance) (id : Uuid) : Outcome ChangeRequest :=
  match g.read .getRequest (fun s => s.request? id) with
  | (.ok (some request), g) => (.ok request, g)
  | (.ok none, g) => (.error (.notFound id), g)
  | (.error e, g) => (.error (.store "loading change request" e), g)

def reviewedEvent (stamp : Stamp) (request : ChangeRequest) (review : Review) : AuditEvent :=
  let event := (AuditEvent.forRequest stamp .reviewed review.reviewer request).withChanges
    (.object [("decision", review.decision.toJson)])
  match review.comment with
  | some comment => event.withMetadata (.object [("comment", .string comment)])
  | none => event

/-- Records a review of a pending request. -/
def review (g : Governance) (id : Uuid) (decision : Decision) (reviewer : Actor)
    (comment : Option String) (stamp event : Stamp) : Outcome ReviewOutcome :=
  match g.load id with
  | (.error e, g) => (.error e, g)
  | (.ok request, g) =>
    if !request.status.canReview then
      (.error (.invalidState request.status WorkflowError.notPending), g)
    else
      let review : Review :=
        { id := stamp.id, requestId := id, reviewer, decision,
          comment := unlessBlank comment, createdAt := stamp.time }
      match g.call .recordReview (fun s => s.recordReview review decision.resultingStatus) with
      | (.error e, g) =>
        (.error (.ofStore id "recording review" (fun _ => WorkflowError.notPending) e), g)
      | (.ok updated, g) => (.ok ⟨updated, review⟩, g.emit (reviewedEvent event updated review))

/-- The flag write that applying a request makes; only flags are written. -/
def flagWrite (policy : StalePolicy) (request : ChangeRequest) :
    Except WorkflowError (Option FlagWrite) :=
  match request.resourceType with
  | .flag =>
    match validateDocument request.proposedConfig with
    | .error v => .error (.invalidConfig v)
    | .ok config =>
      .ok (some ⟨request.project, request.flagKey, config, policy.check request.baseRevision⟩)
  | _ => .ok none

def appliedEvent (stamp : Stamp) (actor : Actor) (applied : AppliedChange) : AuditEvent :=
  let event := AuditEvent.forRequest stamp .applied actor applied.request
  match applied.flag with
  | none => event
  | some flag =>
    (event.withChanges (diffReport (applied.previous.map (fun f => f.config.toDocument))
      (some flag.config.toDocument))).withMetadata
        (.object [("flagKey", .string flag.key),
          ("previousRevision", Json.ofOption Json.ofNat (applied.previous.map StoredFlag.revision)),
          ("projectCreated", .bool applied.projectCreated),
          ("revision", .ofNat flag.revision)])

/-- Tells of an applied change: an event, and a signal if a flag was written. -/
def announce (g : Governance) (stamp : Stamp) (actor : Actor) (applied : AppliedChange) :
    Governance :=
  let g := g.emit (appliedEvent stamp actor applied)
  if applied.flag.isSome then g.signal ⟨applied.request.project, applied.request.flagKey⟩ else g

/-- Validates the proposal, then writes it and marks the request applied in one
step of the store. -/
def apply (g : Governance) (id : Uuid) (actor : Actor) (time : Instant) (event : Stamp) :
    Outcome AppliedChange :=
  match g.load id with
  | (.error e, g) => (.error e, g)
  | (.ok request, g) =>
    if !request.status.canApply then
      (.error (.invalidState request.status WorkflowError.notApplicable), g)
    else
      match flagWrite g.policy request with
      | .error e => (.error e, g)
      | .ok flag =>
        match g.call .commitApply (fun s => s.commitApply id ⟨[.approved, .pending], flag, actor, time⟩) with
        | (.error e, g) =>
          (.error (.ofStore id "applying change request" (fun _ => WorkflowError.notApplicable) e), g)
        | (.ok applied, g) => (.ok applied, g.announce event actor applied)

def cancelledEvent (stamp : Stamp) (actor : Actor) (before : Status) (request : ChangeRequest) :
    AuditEvent :=
  (AuditEvent.forRequest stamp .cancelled actor request).withChanges
    (.object [("status", .object [("after", request.status.toJson), ("before", before.toJson)])])

/-- Cancels a request that is neither applied nor cancelled. -/
def cancel (g : Governance) (id : Uuid) (actor : Actor) (time : Instant) (event : Stamp) :
    Outcome ChangeRequest :=
  match g.load id with
  | (.error e, g) => (.error e, g)
  | (.ok request, g) =>
    if !request.status.canCancel then
      (.error (.invalidState request.status (WorkflowError.cannotCancel request.status)), g)
    else
      match g.call .transition
          (fun s => s.transition id [.pending, .approved, .rejected] .cancelled time) with
      | (.error e, g) =>
        (.error (.ofStore id "cancelling change request" WorkflowError.cannotCancel e), g)
      | (.ok updated, g) => (.ok updated, g.emit (cancelledEvent event actor request.status updated))

/-- A refusal of the store in a context. -/
def inContext {α : Type} (context : String) : Except StoreError α × Governance → Outcome α
  | (.ok a, g) => (.ok a, g)
  | (.error e, g) => (.error (.store context e), g)

/-- A request with its reviews. -/
def get (g : Governance) (id : Uuid) : Outcome RequestDetail :=
  match g.load id with
  | (.error e, g) => (.error e, g)
  | (.ok request, g) =>
    match inContext "loading reviews" (g.read .listReviews (fun s => s.listReviews id)) with
    | (.error e, g) => (.error e, g)
    | (.ok reviews, g) => (.ok ⟨request, reviews⟩, g)

def list (g : Governance) (filter : RequestFilter) : Outcome (List ChangeRequest) :=
  inContext "listing change requests" (g.read .listRequests (fun s => s.listRequests filter))

def countPending (g : Governance) : Outcome Nat :=
  inContext "counting pending change requests" (g.read .countPending Store.countPending)

/-- The flag in force, if there is one. -/
def flag (g : Governance) (project key : String) : Outcome (Option StoredFlag) :=
  inContext "loading flag" (g.read .getFlag (fun s => s.flag? project key))

end Governance

end FlagGovernance
