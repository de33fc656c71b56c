import FlagGovernance.Proofs.Audit.Retention
import FlagGovernance.Proofs.Run
/-
The events that operations emit.

An operation that changes a request emits one event, any other none.  The sink is
handed the events of a run in order, and a log keeps the newest of them.
-/

namespace FlagGovernance

/-- The sink after some events. -/
def AuditSink.recordAll (sink : AuditSink) (events : List AuditEvent) : AuditSink :=
  events.foldl (fun sink event => sink.record event) sink

namespace AuditSink

theorem recordAll_append (sink : AuditSink) (events more : List AuditEvent) :
    sink.recordAll (events ++ more) = (sink.recordAll events).recordAll more :=
  List.foldl_append

/-- A log that takes some events more holds the newest of all. -/
theorem recordAll_log (limit : Nat) (before events : List AuditEvent) :
    recordAll (.log ⟨limit, AuditLog.newest limit before⟩) events =
      .log ⟨limit, AuditLog.newest limit (before ++ events)⟩ := by
  induction events generalizing before with
  | nil => rw [List.append_nil]; rfl
  | cons event rest ih =>
      rw [List.append_cons, ← ih, recordAll, List.foldl_cons, record, AuditLog.log_newest]
      rfl

theorem recordAll_empty (limit : Nat) (events : List AuditEvent) :
    recordAll (.log (.empty limit)) events = .log ⟨limit, AuditLog.newest limit events⟩ := by
  have hrecorded := recordAll_log limit [] events
  rwa [AuditLog.newest_nil, List.nil_append] at hrecorded

end AuditSink

namespace Governance

theorem reviewedEvent_eq (stamp : Stamp) (request : ChangeRequest) (review : Review) :
    ∃ metadata, reviewedEvent stamp request review =
      { (AuditEvent.forRequest stamp .reviewed review.reviewer request).withChanges
        (.object [("decision", review.decision.toJson)]) with metadata } := by
  rw [reviewedEvent]
  split
  · exact ⟨_, rfl⟩
  · exact ⟨_, rfl⟩

theorem appliedEvent_eq (stamp : Stamp) (actor : Actor) (change : AppliedChange) :
    ∃ changes metadata, appliedEvent stamp actor change =
      { AuditEvent.forRequest stamp .applied actor change.request with changes, metadata } := by
  rw [appliedEvent]
  split
  · exact ⟨_, _, rfl⟩
  · exact ⟨_, _, rfl⟩

/-- The event that an operation emits when it answers. -/
def eventOf (g : Governance) : Operation → Answer → Option AuditEvent
  | .create _ author _ event, .request request => some (createdEvent event author request)
  | .review _ _ _ _ _ event, .reviewed outcome =>
    some (reviewedEvent event outcome.request outcome.review)
  | .apply _ actor _ event, .applied change => some (appliedEvent event actor change)
  | .cancel id actor _ event, .request updated =>
    (g.store.request? id).map (fun request => cancelledEvent event actor request.status updated)
  | _, _ => none

/-- The events that an operation emits: one or none. -/
def eventsBy (g : Governance) (op : Operation) : List AuditEvent :=
  match (g.perform op).1 with
  | .ok answer => (g.eventOf op answer).toList
  | .error _ => []

/-- The events that a run emits, in order. -/
def eventsOf (g : Governance) : List Operation → List AuditEvent
  | [] => []
  | op :: rest => g.eventsBy op ++ eventsOf (g.after op) rest

theorem eventOf_of_kind (g : Governance) {op : Operation} (hkind : op.kind ≠ .workflow)
    (answer : Answer) : g.eventOf op answer = none := by
  cases op <;> first | rfl | contradiction

theorem eventsBy_of_error {g : Governance} {op : Operation} {e : OperationError}
    (hrefused : (g.perform op).1 = .error e) : g.eventsBy op = [] := by
  rw [eventsBy, hrefused]

theorem announce_sink (g : Governance) (stamp : Stamp) (actor : Actor) (change : AppliedChange) :
    (g.announce stamp actor change).sink = g.sink.record (appliedEvent stamp actor change) := by
  rw [announce]
  split
  · rw [signal]
    split <;> rfl
  · rfl

/-- The sink is handed what the operation emits. -/
theorem after_sink (g : Governance) (op : Operation) :
    (g.after op).sink = g.sink.recordAll (g.eventsBy op) := by
  have hperformed := g.performed op
  rw [eventsBy]
  generalize (g.perform op).1 = outcome, g.after op = g' at hperformed ⊢
  cases hperformed with
  | refused error hsame => exact hsame.sink_eq
  | answered answer hkind _ hsame =>
      dsimp only
      rw [g.eventOf_of_kind (by rw [hkind]; decide)]
      exact hsame.sink_eq
  | created | reviewed => rfl
  | applied id actor time event => exact announce_sink _ _ _ _
  | cancelled id actor time event request hrequest =>
      simp only [eventOf, hrequest]
      rfl
  | seeded | put | ensured | renamed => rfl
  | inserted | recorded | transitioned | committed | injected => rfl

theorem run_sink (g : Governance) (ops : List Operation) :
    (g.run ops).sink = g.sink.recordAll (g.eventsOf ops) := by
  induction ops generalizing g with
  | nil => rfl
  | cons op rest ih => rw [run_cons, ih, after_sink, eventsOf, AuditSink.recordAll_append]

/-- A log that was empty holds the newest events of the run. -/
theorem run_auditLog (limit : Nat) (relay : RelaySignal) (policy : StalePolicy)
    (ops : List Operation) :
    ((start (.log (.empty limit)) relay policy).run ops).auditLog =
      some ⟨limit, AuditLog.newest limit
        ((start (.log (.empty limit)) relay policy).eventsOf ops)⟩ := by
  have hempty : (start (.log (.empty limit)) relay policy).sink = .log (.empty limit) := rfl
  rw [auditLog, run_sink, hempty, AuditSink.recordAll_empty]

/-- A log with room for them holds all the events of the run. -/
theorem run_auditLog_of_length_le {limit : Nat} {relay : RelaySignal} {policy : StalePolicy}
    {ops : List Operation}
    (hkept : ((start (.log (.empty limit)) relay policy).eventsOf ops).length ≤ limit) :
    ((start (.log (.empty limit)) relay policy).run ops).auditLog =
      some ⟨limit, (start (.log (.empty limit)) relay policy).eventsOf ops⟩ := by
  rw [run_auditLog, AuditLog.newest_of_length_le hkept]

end Governance

end FlagGovernance
