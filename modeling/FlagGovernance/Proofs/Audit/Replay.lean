import FlagGovernance.Proofs.Audit.Trail
import FlagGovernance.Proofs.Identifier
/-
The audit trail against the store.

The events of a run about one request tell all that the store holds of it, and the
events of each kind are as many as the requests that went that way.  A log that has
let go of nothing holds these events.
-/

namespace FlagGovernance

def AuditEvent.isAbout (id : Uuid) (event : AuditEvent) : Bool := event.resourceId == id.text

/-- The events about a request. -/
def aboutRequest (id : Uuid) (events : List AuditEvent) : List AuditEvent :=
  events.filter (AuditEvent.isAbout id)

theorem aboutRequest_concat_self {id : Uuid} {event : AuditEvent}
    (hresource : event.resourceId = id.text) (events : List AuditEvent) :
    aboutRequest id (events ++ [event]) = aboutRequest id events ++ [event] := by
  have habout : event.isAbout id = true := beq_iff_eq.2 hresource
  rw [aboutRequest, List.filter_append, List.filter_cons_of_pos habout]
  rfl

theorem aboutRequest_concat_of_ne {id touched : Uuid} (hne : id ≠ touched) {event : AuditEvent}
    (hresource : event.resourceId = touched.text) (events : List AuditEvent) :
    aboutRequest id (events ++ [event]) = aboutRequest id events := by
  have hother : ¬ event.isAbout id = true := by
    rw [AuditEvent.isAbout, beq_iff_eq, hresource]
    exact fun htext => hne (Uuid.text_injective htext).symm
  rw [aboutRequest, List.filter_append, List.filter_cons_of_neg hother, List.filter_nil,
    List.append_nil]
  rfl

/-- The request has been through what the action names. -/
def ChangeRequest.underwent (action : AuditAction) (request : ChangeRequest) : Bool :=
  match action with
  | .created => true
  | .reviewed => false
  | .applied => request.status == .applied
  | .cancelled => request.status == .cancelled

def AuditEvent.tellsOf (action : AuditAction) (event : AuditEvent) : Bool := event.action == action

/-- An open request has been through its opening only. -/
theorem ChangeRequest.underwent_of_open {request : ChangeRequest}
    (hopen : request.status.isTerminal = false) (action : AuditAction) :
    request.underwent action = (action == .created) := by
  cases hstatus : request.status with
  | pending | approved | rejected => cases action <;> simp only [underwent, hstatus] <;> rfl
  | cancelled | applied =>
      rw [hstatus] at hopen
      contradiction

namespace RequestRecord

/-- The event of a change counts for the request just as much as the change. -/
theorem Shows.countP_eq {id : Uuid} {record record' : RequestRecord} {event : AuditEvent}
    (hshows : record.Shows id event record') {action : AuditAction} (haction : action ≠ .reviewed) :
    record'.request.toList.countP (ChangeRequest.underwent action) =
      record.request.toList.countP (ChangeRequest.underwent action) +
        [event].countP (AuditEvent.tellsOf action) := by
  cases hshows with
  | opened reviews request hid hpending hresource hcreated =>
      have hopen : request.status.isTerminal = false := by rw [hpending]; rfl
      simp only [Option.toList_none, Option.toList_some, List.countP_nil, List.countP_singleton,
        ChangeRequest.underwent_of_open hopen, AuditEvent.tellsOf, hcreated]
      cases action <;> rfl
  | reviewed reviews request review hopen hresource hreviewed =>
      have hlater := ChangeRequest.open_reviewed hopen review
      simp only [Option.toList_some, List.countP_singleton,
        ChangeRequest.underwent_of_open hopen, ChangeRequest.underwent_of_open hlater,
        AuditEvent.tellsOf, hreviewed]
      rw [beq_eq_false_iff_ne.2 haction.symm]
      rfl
  | applied reviews request actor now hopen hresource happlied =>
      simp only [Option.toList_some, List.countP_singleton,
        ChangeRequest.underwent_of_open hopen, AuditEvent.tellsOf, happlied]
      cases action <;> rfl
  | cancelled reviews request now hopen hresource hcancelled =>
      simp only [Option.toList_some, List.countP_singleton,
        ChangeRequest.underwent_of_open hopen, AuditEvent.tellsOf, hcancelled]
      cases action <;> rfl

end RequestRecord

/-- No request is both applied and cancelled. -/
theorem ChangeRequest.countP_closed_le (requests : List ChangeRequest) :
    requests.countP (underwent .applied) + requests.countP (underwent .cancelled) ≤
      requests.countP (underwent .created) := by
  have hapart : requests.countP (underwent .cancelled) ≤
      requests.countP (fun request => ¬ underwent .applied request) := by
    refine List.countP_mono_left fun request _ hcancelled => ?_
    rw [underwent, beq_iff_eq] at hcancelled
    rw [underwent, hcancelled]
    rfl
  have hall : requests.countP (underwent .created) = requests.length :=
    List.countP_eq_length.2 fun _ _ => rfl
  rw [hall, List.length_eq_countP_add_countP (underwent .applied)]
  exact Nat.add_le_add_left hapart _

theorem AuditLog.stats_total (log : AuditLog) : log.stats.total =
    log.stats.created + log.stats.reviewed + log.stats.applied + log.stats.cancelled := by
  have hparted := log.forAction_perm.length_eq
  rw [List.length_flatMap] at hparted
  simp only [AuditAction.all, List.map_cons, List.map_nil, List.sum_cons, List.sum_nil] at hparted
  simp only [stats_eq, length]
  omega

namespace Store

/-- Each request is told by the events about it. -/
def ToldBy (s : Store) (events : List AuditEvent) : Prop :=
  ∀ id, (s.record id).ToldBy id (aboutRequest id events)

/-- The events of each kind are as many as the requests that went that way. -/
def CountedBy (s : Store) (events : List AuditEvent) : Prop :=
  ∀ action, action ≠ .reviewed → events.countP (AuditEvent.tellsOf action) =
    s.requests.values.countP (ChangeRequest.underwent action)

theorem toldBy_empty : Store.empty.ToldBy [] := fun _ => ⟨rfl, rfl⟩

theorem countedBy_empty : Store.empty.CountedBy [] := fun _ _ => rfl

variable {s s' : Store} {events more : List AuditEvent}

theorem Shows.toldBy (hshows : s.Shows more s') (htold : s.ToldBy events) :
    s'.ToldBy (events ++ more) := by
  intro id
  cases hshows with
  | silent _ hrequests hreviews =>
      have hrecord : s'.record id = s.record id := by
        rw [record, record, request?, request?, listReviews, listReviews, hrequests, hreviews]
      rw [hrecord, List.append_nil]
      exact htold id
  | event event _ touched request hrequests hothers hshows =>
      obtain ⟨hresource, hself⟩ := (htold touched).shows hshows
      by_cases hid : id = touched
      · subst hid
        rw [aboutRequest_concat_self hresource]
        exact hself
      · rw [aboutRequest_concat_of_ne hid hresource, hothers id hid]
        exact htold id

theorem Shows.countedBy (hshows : s.Shows more s') (hcounted : s.CountedBy events) :
    s'.CountedBy (events ++ more) := by
  intro action haction
  rw [List.countP_append, hcounted action haction]
  cases hshows with
  | silent _ hrequests => rw [hrequests]; rfl
  | event event _ touched request hrequests hothers hshows =>
      have hcount := hshows.countP_eq haction
      have hfound : s'.request? touched = some request := by
        rw [request?, hrequests, OrderedMap.find?_insert_self]
      have hvalues := s.requests.countP_values_insert touched request
        (ChangeRequest.underwent action)
      simp only [record, hfound, Option.toList_some] at hcount
      rw [request?] at hcount
      rw [hrequests]
      omega

end Store

/- Logs that hold all the events. -/

namespace Store

variable {s : Store} {log : AuditLog}

theorem ToldBy.forResource_eq_nil (htold : s.ToldBy log.entries) {id : Uuid}
    (hnone : s.request? id = none) : log.forResource id.text = [] := by
  have hid := htold id
  rw [record, hnone] at hid
  exact hid.2

theorem ToldBy.exists_trail (htold : s.ToldBy log.entries) {id : Uuid} {request : ChangeRequest}
    (hrequest : s.request? id = some request) :
    ∃ trail : Trail, log.forResource id.text = trail.events ∧
      trail.Tells request (s.listReviews id) ∧
      AuditEvent.replay (log.forResource id.text) = some request.status := by
  have hid := htold id
  rw [record, hrequest] at hid
  obtain ⟨_, trail, hevents, htells⟩ := hid
  have hentries : log.forResource id.text = trail.events := hevents
  refine ⟨trail, hentries, htells, ?_⟩
  rw [hentries]
  exact htells.replay_eq

/-- The log has counted no more closings than openings. -/
theorem CountedBy.closed_le (hcounted : s.CountedBy log.entries) :
    log.stats.applied + log.stats.cancelled ≤ log.stats.created := by
  simp only [AuditLog.stats_eq, AuditLog.forAction, ← List.countP_eq_length_filter]
  have hcreated := hcounted .created (by decide)
  have happlied := hcounted .applied (by decide)
  have hcancelled := hcounted .cancelled (by decide)
  have hclosed := ChangeRequest.countP_closed_le s.requests.values
  rw [← hcreated, ← happlied, ← hcancelled] at hclosed
  exact hclosed

end Store

namespace Governance

/-- What each change with its event keeps of store and events, a run keeps. -/
theorem run_shown {P : Store → List AuditEvent → Prop}
    (hshown : ∀ {s s' events more}, s.Shows more s' → P s events → P s' (events ++ more))
    {g : Governance} {events : List AuditEvent} (hbefore : P g.store events) {ops : List Operation}
    (hgoverned : ∀ op ∈ ops, op.governed = true) :
    P (g.run ops).store (events ++ g.eventsOf ops) :=
  run_told (fun hop => hshown (after_shows _ hop)) hbefore hgoverned

/-- By way of the workflow only, and with a log that has let go of nothing, the
entries about a request are a trail that tells how it stands and which reviews it
has; about no request there are none.  In the counts of the log no more requests
are closed than opened. -/
theorem trail_replays_to_store (limit : Nat) (relay : RelaySignal) (policy : StalePolicy)
    {ops : List Operation} (hgoverned : ∀ op ∈ ops, op.governed = true)
    (hkept : ((start (.log (.empty limit)) relay policy).eventsOf ops).length ≤ limit) :
    let g := (start (.log (.empty limit)) relay policy).run ops
    ∃ log, g.auditLog = some log ∧
      (∀ id, g.store.request? id = none → log.forResource id.text = []) ∧
      (∀ id request, g.store.request? id = some request → ∃ trail : Trail,
        log.forResource id.text = trail.events ∧
        trail.Tells request (g.store.listReviews id) ∧
        AuditEvent.replay (log.forResource id.text) = some request.status) ∧
      log.stats.applied + log.stats.cancelled ≤ log.stats.created ∧
      log.stats.total = log.stats.created + log.stats.reviewed + log.stats.applied +
        log.stats.cancelled := by
  intro g
  let log : AuditLog := ⟨limit, (start (.log (.empty limit)) relay policy).eventsOf ops⟩
  have hlog : g.auditLog = some log := by
    have hlog := run_auditLog limit relay policy ops
    rw [AuditLog.newest_of_length_le hkept] at hlog
    exact hlog
  have htold : g.store.ToldBy ([] ++ log.entries) :=
    run_shown Store.Shows.toldBy Store.toldBy_empty hgoverned
  have hcounted : g.store.CountedBy ([] ++ log.entries) :=
    run_shown Store.Shows.countedBy Store.countedBy_empty hgoverned
  rw [List.nil_append] at htold hcounted
  exact ⟨log, hlog, fun _ hnone => htold.forResource_eq_nil hnone,
    fun _ _ hrequest => htold.exists_trail hrequest, hcounted.closed_le, log.stats_total⟩

/-- One request is applied after a refusal of the store and two reviews, one is
cancelled after its rejection, and one stays open. -/
theorem three_trails_replay :
    let ops : List Operation :=
      [.create Sample.proposal Sample.actor (Sample.stamp 1) (Sample.stamp 2),
       .injectFault .recordReview (.backend "down"),
       .review (.ofNat 1) .approved (.user "bob") none (Sample.stamp 3) (Sample.stamp 4),
       .review (.ofNat 1) .commented (.user "bob") (some "soon") (Sample.stamp 5) (Sample.stamp 6),
       .create Sample.proposal Sample.actor (Sample.stamp 7) (Sample.stamp 8),
       .review (.ofNat 1) .approved (.user "alice") none (Sample.stamp 9) (Sample.stamp 10),
       .review (.ofNat 7) .rejected (.user "alice") none (Sample.stamp 11) (Sample.stamp 12),
       .apply (.ofNat 1) Sample.actor Sample.moment (Sample.stamp 13),
       .cancel (.ofNat 1) Sample.actor Sample.moment (Sample.stamp 14),
       .cancel (.ofNat 7) Sample.actor Sample.moment (Sample.stamp 15),
       .create Sample.proposal Sample.actor (Sample.stamp 16) (Sample.stamp 17)]
    ∃ log, (Sample.governance.run ops).auditLog = some log ∧
      AuditEvent.replay (log.forResource (Uuid.ofNat 1).text) = some .applied ∧
      AuditEvent.replay (log.forResource (Uuid.ofNat 7).text) = some .cancelled ∧
      AuditEvent.replay (log.forResource (Uuid.ofNat 16).text) = some .pending ∧
      log.forResource (Uuid.ofNat 3).text = [] ∧
      log.stats.applied + log.stats.cancelled ≤ log.stats.created := by
  intro ops
  have hgoverned : ∀ op ∈ ops, op.governed = true := by decide
  obtain ⟨log, hlog, hnone, htrails, hclosed, _⟩ :=
    trail_replays_to_store 100 .answering .rejectStale hgoverned (by decide +kernel)
  have hreplay {n : Nat} {status : Status} (hstatus :
      ((Sample.governance.run ops).store.request? (.ofNat n)).map ChangeRequest.status =
        some status) :
      AuditEvent.replay (log.forResource (Uuid.ofNat n).text) = some status := by
    obtain ⟨request, hrequest, rfl⟩ := Option.map_eq_some_iff.1 hstatus
    obtain ⟨_, _, _, hreplay⟩ := htrails _ request hrequest
    exact hreplay
  exact ⟨log, hlog, hreplay (by decide +kernel), hreplay (by decide +kernel),
    hreplay (by decide +kernel), hnone _ (by decide +kernel), hclosed⟩

end Governance

end FlagGovernance
