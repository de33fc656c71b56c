import FlagGovernance.Proofs.Audit.Turns
/-
The trail of one request, and what it tells.

A trail is an event of the opening, then one for each review, then at most one that
closes the request.  Read from the front it gives the status of the request.
-/

namespace FlagGovernance

namespace AuditEvent

/-- The status that the decision of an event asks for. -/
def verdict? (event : AuditEvent) : Option Status :=
  (event.decision?.bind (fun v => (Decision.decode .direct v).toOption)).bind
    Decision.resultingStatus

/-- The status of a request after an event, by the status before it. -/
def follow (status : Option Status) (event : AuditEvent) : Option Status :=
  match event.action with
  | .created => some .pending
  | .reviewed => event.verdict?.or status
  | .applied => some .applied
  | .cancelled => some .cancelled

/-- The status that some events lead to. -/
def replay (events : List AuditEvent) : Option Status := events.foldl follow none

theorem replay_concat (events : List AuditEvent) (event : AuditEvent) :
    replay (events ++ [event]) = follow (replay events) event :=
  List.foldl_append

theorem verdict?_of_decision? {event : AuditEvent} {decision : Decision}
    (hdecision : event.decision? = some decision.toJson) :
    event.verdict? = decision.resultingStatus := by
  rw [verdict?, hdecision]
  cases decision <;> rfl

end AuditEvent

/-- A review leaves an open request open. -/
theorem ChangeRequest.open_reviewed {request : ChangeRequest}
    (hopen : request.status.isTerminal = false) (review : Review) :
    (request.reviewed review review.decision.resultingStatus).status.isTerminal = false := by
  rw [reviewed]
  cases review.decision with
  | approved | rejected => rfl
  | commented => exact hopen

/-- The events of one request in order. -/
structure Trail where
  created : AuditEvent
  reviewed : List AuditEvent
  closing : Option AuditEvent

namespace Trail

/-- The events before the request is closed. -/
def opening (trail : Trail) : List AuditEvent := trail.created :: trail.reviewed

def events (trail : Trail) : List AuditEvent := trail.opening ++ trail.closing.toList

/-- The trail tells how the request came to stand as it does. -/
structure Tells (trail : Trail) (request : ChangeRequest) (reviews : List Review) : Prop where
  created : trail.created.action = .created
  reviewed : ∀ event ∈ trail.reviewed, event.action = .reviewed
  /-- One event a review, in order, of its reviewer and its decision. -/
  reviews : trail.reviewed.map (fun event => (event.actor, event.decision?)) =
    reviews.map (fun review => (review.reviewer, some review.decision.toJson))
  open_of_none : trail.closing = none → request.status.isTerminal = false ∧
    AuditEvent.replay trail.opening = some request.status
  /-- A cancellation tells the status that it found. -/
  closed_of_some : ∀ event, trail.closing = some event →
    (event.action = .applied ∧ request.status = .applied) ∨
    (event.action = .cancelled ∧ request.status = .cancelled ∧
      event.statusBefore? = (AuditEvent.replay trail.opening).map Status.toJson)

namespace Tells

variable {trail : Trail} {request : ChangeRequest} {reviews : List Review}

/-- The trail leads to the status of the request. -/
theorem replay_eq (htells : trail.Tells request reviews) :
    AuditEvent.replay trail.events = some request.status := by
  cases hclosing : trail.closing with
  | none =>
      rw [events, hclosing, Option.toList_none, List.append_nil]
      exact (htells.open_of_none hclosing).2
  | some event =>
      rw [events, hclosing, Option.toList_some, AuditEvent.replay_concat, AuditEvent.follow]
      rcases htells.closed_of_some event hclosing with ⟨haction, hstatus⟩ | ⟨haction, hstatus, _⟩
      · rw [haction, hstatus]
      · rw [haction, hstatus]

/-- Nothing closes an open request. -/
theorem closing_eq_none (htells : trail.Tells request reviews)
    (hopen : request.status.isTerminal = false) : trail.closing = none := by
  cases hclosing : trail.closing with
  | none => rfl
  | some event =>
      rcases htells.closed_of_some event hclosing with ⟨_, hstatus⟩ | ⟨_, hstatus, _⟩
      · rw [hstatus] at hopen
        contradiction
      · rw [hstatus] at hopen
        contradiction

theorem opened {event : AuditEvent} (haction : event.action = .created)
    (hfresh : request.status = .pending) : Tells ⟨event, [], none⟩ request [] where
  created := haction
  reviewed := List.forall_mem_nil _
  reviews := rfl
  open_of_none _ := by
    rw [hfresh]
    refine ⟨rfl, ?_⟩
    simp [AuditEvent.replay, opening, AuditEvent.follow, haction]
  closed_of_some _ hclosing := nomatch hclosing

theorem review (htells : trail.Tells request reviews) (hopen : request.status.isTerminal = false)
    {review : Review} {event : AuditEvent} (haction : event.action = .reviewed)
    (hactor : event.actor = review.reviewer)
    (hdecision : event.decision? = some review.decision.toJson) :
    Tells { trail with reviewed := trail.reviewed ++ [event] }
      (request.reviewed review review.decision.resultingStatus) (reviews ++ [review]) := by
  have hnone := htells.closing_eq_none hopen
  have hbefore := (htells.open_of_none hnone).2
  refine ⟨htells.created, ?_, ?_, fun _ => ⟨?_, ?_⟩, fun e hclosing => ?_⟩
  · rw [List.forall_mem_append]
    exact ⟨htells.reviewed, List.forall_mem_singleton.2 haction⟩
  · rw [List.map_append, List.map_append, htells.reviews, List.map_singleton, List.map_singleton,
      hactor, hdecision]
  · exact ChangeRequest.open_reviewed hopen review
  · change AuditEvent.replay (trail.opening ++ [event]) = _
    rw [AuditEvent.replay_concat, hbefore, AuditEvent.follow, haction]
    dsimp only
    rw [AuditEvent.verdict?_of_decision? hdecision, ChangeRequest.reviewed]
    cases review.decision.resultingStatus <;> rfl
  · change trail.closing = some e at hclosing
    rw [hnone] at hclosing
    contradiction

theorem apply (htells : trail.Tells request reviews) {event : AuditEvent}
    (haction : event.action = .applied) (actor : Actor) (now : Instant) :
    Tells { trail with closing := some event } (request.applied actor now) reviews :=
  ⟨htells.created, htells.reviewed, htells.reviews, nofun,
    fun _ hclosing => .inl ⟨Option.some.inj hclosing ▸ haction, rfl⟩⟩

theorem cancel (htells : trail.Tells request reviews) (hopen : request.status.isTerminal = false)
    {event : AuditEvent} (haction : event.action = .cancelled)
    (hbefore : event.statusBefore? = some request.status.toJson) (now : Instant) :
    Tells { trail with closing := some event } (request.moved .cancelled now) reviews := by
  refine ⟨htells.created, htells.reviewed, htells.reviews, nofun, fun e hclosing => .inr ?_⟩
  obtain rfl : event = e := Option.some.inj hclosing
  refine ⟨haction, rfl, ?_⟩
  rw [hbefore]
  change _ = (AuditEvent.replay trail.opening).map Status.toJson
  rw [(htells.open_of_none (htells.closing_eq_none hopen)).2]
  rfl

end Tells

theorem events_review {trail : Trail} (hopen : trail.closing = none) (event : AuditEvent) :
    events { trail with reviewed := trail.reviewed ++ [event] } = trail.events ++ [event] := by
  simp only [events, opening, hopen, Option.toList_none, List.append_nil, List.cons_append]

theorem events_close {trail : Trail} (hopen : trail.closing = none) (event : AuditEvent) :
    events { trail with closing := some event } = trail.events ++ [event] := by
  simp only [events, opening, hopen, Option.toList_none, Option.toList_some, List.append_nil]

end Trail

namespace RequestRecord

/-- The events tell what the store holds of the request of the identifier. -/
def ToldBy (id : Uuid) : RequestRecord → List AuditEvent → Prop
  | ⟨none, reviews⟩, events => reviews = [] ∧ events = []
  | ⟨some request, reviews⟩, events =>
    request.id = id ∧ ∃ trail : Trail, events = trail.events ∧ trail.Tells request reviews

variable {id : Uuid} {record record' : RequestRecord} {events : List AuditEvent}
  {event : AuditEvent}

/-- An event that shows a change is about the request, and goes on with its
trail. -/
theorem ToldBy.shows (htold : record.ToldBy id events) (hshows : record.Shows id event record') :
    event.resourceId = id.text ∧ record'.ToldBy id (events ++ [event]) := by
  cases hshows with
  | opened reviews request hid hpending hresource haction =>
      obtain ⟨rfl, rfl⟩ := htold
      exact ⟨hid ▸ hresource, hid, ⟨event, [], none⟩, rfl, .opened haction hpending⟩
  | reviewed reviews request review hopen hresource haction hactor hdecision =>
      obtain ⟨hid, trail, rfl, htells⟩ := htold
      have hnone := htells.closing_eq_none hopen
      exact ⟨hid ▸ hresource, hid, _, (Trail.events_review hnone event).symm,
        htells.review hopen haction hactor hdecision⟩
  | applied reviews request actor now hopen hresource haction =>
      obtain ⟨hid, trail, rfl, htells⟩ := htold
      have hnone := htells.closing_eq_none hopen
      exact ⟨hid ▸ hresource, hid, _, (Trail.events_close hnone event).symm,
        htells.apply haction actor now⟩
  | cancelled reviews request now hopen hresource haction hbefore =>
      obtain ⟨hid, trail, rfl, htells⟩ := htold
      have hnone := htells.closing_eq_none hopen
      exact ⟨hid ▸ hresource, hid, _, (Trail.events_close hnone event).symm,
        htells.cancel hopen haction hbefore now⟩

end RequestRecord

end FlagGovernance
