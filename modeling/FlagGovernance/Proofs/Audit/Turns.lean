import FlagGovernance.Proofs.Audit.Emission
import FlagGovernance.Proofs.Workflow.Applied
/-
What an operation does to the requests, and the event that shows it.

By way of the workflow an operation leaves all requests and reviews and is silent,
or it changes the record of one request and emits one event, which shows the change.
-/

namespace FlagGovernance

namespace AuditEvent

/-- The decision that the changes of an event tell. -/
def decision? (event : AuditEvent) : Option Json :=
  event.changes.bind (Json.get? "decision")

/-- The earlier status that the changes of an event tell. -/
def statusBefore? (event : AuditEvent) : Option Json :=
  (event.changes.bind (Json.get? "status")).bind (Json.get? "before")

end AuditEvent

/-- The event shows the change from the one record of a request to the other. -/
inductive RequestRecord.Shows (id : Uuid) (event : AuditEvent) :
    RequestRecord → RequestRecord → Prop
  | opened (reviews : List Review) (request : ChangeRequest) (hid : request.id = id)
      (hpending : request.status = .pending) (hresource : event.resourceId = request.id.text)
      (haction : event.action = .created) : Shows id event ⟨none, reviews⟩ ⟨some request, reviews⟩
  | reviewed (reviews : List Review) (request : ChangeRequest) (review : Review)
      (hopen : request.status.isTerminal = false) (hresource : event.resourceId = request.id.text)
      (haction : event.action = .reviewed) (hactor : event.actor = review.reviewer)
      (hdecision : event.decision? = some review.decision.toJson) :
      Shows id event ⟨some request, reviews⟩
        ⟨some (request.reviewed review review.decision.resultingStatus), reviews ++ [review]⟩
  | applied (reviews : List Review) (request : ChangeRequest) (actor : Actor) (now : Instant)
      (hopen : request.status.isTerminal = false) (hresource : event.resourceId = request.id.text)
      (haction : event.action = .applied) :
      Shows id event ⟨some request, reviews⟩ ⟨some (request.applied actor now), reviews⟩
  | cancelled (reviews : List Review) (request : ChangeRequest) (now : Instant)
      (hopen : request.status.isTerminal = false) (hresource : event.resourceId = request.id.text)
      (haction : event.action = .cancelled)
      (hbefore : event.statusBefore? = some request.status.toJson) :
      Shows id event ⟨some request, reviews⟩ ⟨some (request.moved .cancelled now), reviews⟩

/-- The events show what has become of the requests and reviews. -/
inductive Store.Shows (s : Store) : List AuditEvent → Store → Prop
  | silent (s' : Store) (hrequests : s'.requests = s.requests) (hreviews : s'.reviews = s.reviews) :
      Shows s [] s'
  | event (event : AuditEvent) (s' : Store) (id : Uuid) (request : ChangeRequest)
      (hrequests : s'.requests = s.requests.insert id request)
      (hothers : ∀ other, other ≠ id → s'.record other = s.record other)
      (hshows : (s.record id).Shows id event (s'.record id)) : Shows s [event] s'

namespace Governance

/-- Every operation by way of the workflow shows what it does. -/
theorem after_shows (g : Governance) {op : Operation} (hgoverned : op.governed = true) :
    g.store.Shows (g.eventsBy op) (g.after op).store := by
  have hperformed := g.performed op
  rw [eventsBy]
  generalize (g.perform op).1 = outcome, g.after op = g' at hperformed ⊢
  cases hperformed with
  | refused error hsame => exact .silent _ (by rw [hsame.store_eq]) (by rw [hsame.store_eq])
  | answered answer hkind _ hsame =>
      dsimp only
      rw [g.eventOf_of_kind (by rw [hkind]; decide)]
      exact .silent _ (by rw [hsame.store_eq]) (by rw [hsame.store_eq])
  | injected => exact .silent _ rfl rfl
  | created p author stamp event hcheck hfree request hopened =>
      subst hopened
      refine .event _ _ stamp.id _ rfl (fun id hid => Store.record_withRequest_of_ne _ hid _) ?_
      rw [emit_store, withStore, Store.record_withRequest_self, Store.record, hfree]
      exact .opened _ _ rfl rfl rfl rfl
  | reviewed id decision reviewer comment stamp event request hrequest hpending review hreview
      updated hupdated =>
      subst hreview hupdated
      have hrecord := Store.record_withReview_self (g.store.withRequest id
        (request.reviewed (Review.given id decision reviewer comment stamp)
          decision.resultingStatus)) (Review.given id decision reviewer comment stamp)
      dsimp only [Review.given] at hrecord
      rw [Store.record_withRequest_self] at hrecord
      obtain ⟨metadata, hevent⟩ := reviewedEvent_eq event
        (request.reviewed (Review.given id decision reviewer comment stamp)
          decision.resultingStatus) (Review.given id decision reviewer comment stamp)
      refine .event _ _ id _ rfl (fun other hother => ?_) ?_
      · exact (Store.record_withReview_of_ne _ hother).trans
          (Store.record_withRequest_of_ne _ hother _)
      · rw [Store.record_eq_of_request? hrequest, hevent]
        refine hrecord ▸ .reviewed _ request _ (by rw [hpending]; rfl) rfl rfl rfl rfl
  | applied id actor time event request flag hrequest hstatus hwrite hverify change hchange =>
      subst hchange
      obtain ⟨changes, metadata, hevent⟩ := appliedEvent_eq event actor
        (g.store.appliedChange request (applyCommit flag actor time))
      rw [announce_store]
      refine .event _ _ id _ (by cases flag <;> rfl) (fun other hother => ?_) ?_
      · exact (Store.record_withRequest_of_ne _ hother _).trans (g.store.record_withFlagWrite _ _ _)
      · rw [withStore, Store.record_withRequest_self, Store.listReviews_withFlagWrite,
          Store.record_eq_of_request? hrequest, hevent]
        exact .applied _ request actor time (ChangeRequest.open_of_canApply hstatus) rfl rfl
  | cancelled id actor time event request hrequest hopen updated hupdated =>
      subst hupdated
      simp only [eventOf, hrequest]
      refine .event _ _ id _ rfl (fun other hother => Store.record_withRequest_of_ne _ hother _) ?_
      rw [emit_store, withStore, Store.record_withRequest_self,
        Store.record_eq_of_request? hrequest]
      exact .cancelled _ request time hopen rfl rfl rfl
  | seeded | put | ensured | renamed => contradiction
  | inserted | recorded | transitioned | committed => contradiction

/-- What each operation with its events keeps of store and events, a run keeps. -/
theorem run_told {P : Store → List AuditEvent → Prop}
    (hstep : ∀ {g : Governance} {op : Operation} {events : List AuditEvent},
      op.governed = true → P g.store events → P (g.after op).store (events ++ g.eventsBy op))
    {g : Governance} {events : List AuditEvent} (hbefore : P g.store events) {ops : List Operation}
    (hgoverned : ∀ op ∈ ops, op.governed = true) :
    P (g.run ops).store (events ++ g.eventsOf ops) := by
  induction ops generalizing g events with
  | nil =>
      rw [eventsOf, List.append_nil]
      exact hbefore
  | cons op rest ih =>
      rw [List.forall_mem_cons] at hgoverned
      rw [run_cons, eventsOf, ← List.append_assoc]
      exact ih (hstep hgoverned.1 hbefore) hgoverned.2

end Governance

end FlagGovernance
