import FlagGovernance.Proofs.Audit.Emission
import FlagGovernance.Proofs.Store.Representation
/-
Each change is told once.

An operation by way of the workflow that is answered emits one event, which names
its action, its actor and the request that it changed; any other emits none.  The
relay is signalled for each flag that was applied, and for nothing else.
-/

namespace FlagGovernance

/-- An action on a request, and who takes it. -/
structure Deed where
  action : AuditAction
  actor : Actor
  id : Uuid

/-- What an operation by way of the workflow sets out to do. -/
def Operation.deed? : Operation → Option Deed
  | .create _ author stamp _ => some ⟨.created, author, stamp.id⟩
  | .review id _ reviewer _ _ _ => some ⟨.reviewed, reviewer, id⟩
  | .apply id actor _ _ => some ⟨.applied, actor, id⟩
  | .cancel id actor _ _ => some ⟨.cancelled, actor, id⟩
  | _ => none

theorem Operation.deed?_of_kind {op : Operation} (hkind : op.kind ≠ .workflow) :
    op.deed? = none := by
  cases op <;> first | rfl | contradiction

/-- The event names the deed, and the request by its title and project. -/
structure AuditEvent.Reports (event : AuditEvent) (deed : Deed) (request : ChangeRequest) :
    Prop where
  action : event.action = deed.action
  actor : event.actor = deed.actor
  resourceId : event.resourceId = deed.id.text
  resourceName : event.resourceName = request.title
  project : event.project = request.project

/-- The flag that applying a request writes; only flags are written. -/
def ChangeRequest.target? (request : ChangeRequest) : Option RefreshTarget :=
  match request.resourceType with
  | .flag => some ⟨request.project, request.flagKey⟩
  | _ => none

/-- The signals that there is anyone to hear. -/
def RelaySignal.heard (targets : List RefreshTarget) : RelaySignal → List RefreshTarget
  | .absent => []
  | _ => targets

theorem RelaySignal.heard_append (relay : RelaySignal) (targets more : List RefreshTarget) :
    relay.heard (targets ++ more) = relay.heard targets ++ relay.heard more := by
  cases relay <;> rfl

theorem RelaySignal.heard_nil (relay : RelaySignal) : relay.heard [] = [] := by
  cases relay <;> rfl

/-- An operation of a run, with the governance that it meets. -/
structure Occurrence where
  meets : Governance
  op : Operation

namespace Occurrence

def leaves (o : Occurrence) : Governance := o.meets.after o.op

def answer (o : Occurrence) : Except OperationError Answer := (o.meets.perform o.op).1

/-- What was done, if anything was. -/
def deed? (o : Occurrence) : Option Deed :=
  match o.answer with
  | .ok _ => o.op.deed?
  | .error _ => none

def events (o : Occurrence) : List AuditEvent := o.meets.eventsBy o.op

/-- The flag that was applied, if one was. -/
def target? (o : Occurrence) : Option RefreshTarget :=
  match o.op, o.answer with
  | .apply id _ _ _, .ok _ => (o.meets.store.request? id).bind ChangeRequest.target?
  | _, _ => none

end Occurrence

namespace Governance

def occurrences (g : Governance) : List Operation → List Occurrence
  | [] => []
  | op :: rest => ⟨g, op⟩ :: (g.after op).occurrences rest

theorem eventsOf_eq_flatMap (g : Governance) (ops : List Operation) :
    g.eventsOf ops = (g.occurrences ops).flatMap Occurrence.events := by
  induction ops generalizing g with
  | nil => rfl
  | cons op rest ih =>
      rw [eventsOf, occurrences, List.flatMap_cons, ih]
      rfl

/-- What every operation keeps holds of the governance that each operation of a run
meets. -/
theorem occurrences_keep {P : Governance → Prop} (hstep : ∀ op g, P g → P (g.after op))
    {g : Governance} (hstart : P g) (ops : List Operation) :
    ∀ o ∈ g.occurrences ops, P o.meets := by
  induction ops generalizing g with
  | nil => exact List.forall_mem_nil _
  | cons op rest ih =>
      rw [occurrences, List.forall_mem_cons]
      exact ⟨hstart, ih (hstep op g hstart)⟩

/-- An operation that did something emits one event, which reports it of the request
as it then stands; any other emits none. -/
theorem eventsBy_reports {g : Governance} (hkeyed : g.store.RequestsKeyed) (op : Operation) :
    match Occurrence.deed? ⟨g, op⟩ with
    | some deed => ∃ event request, g.eventsBy op = [event] ∧
        (g.after op).store.request? deed.id = some request ∧ event.Reports deed request
    | none => g.eventsBy op = [] := by
  have hperformed := g.performed op
  rw [Occurrence.deed?, Occurrence.answer, eventsBy]
  dsimp only
  generalize (g.perform op).1 = outcome, g.after op = g' at hperformed ⊢
  cases hperformed with
  | refused => rfl
  | answered answer hkind =>
      have hquestion : op.kind ≠ .workflow := by rw [hkind]; decide
      dsimp only
      rw [Operation.deed?_of_kind hquestion, g.eventOf_of_kind hquestion]
      rfl
  | created p author stamp event hcheck hfree request hopened =>
      refine ⟨_, request, rfl, OrderedMap.find?_insert_self _ _ _, rfl, rfl, ?_, rfl, rfl⟩
      rw [hopened]
      rfl
  | reviewed id decision reviewer comment stamp event request hrequest hpending review hreview
      updated hupdated =>
      have hid : updated.id = id := by
        rw [hupdated]
        exact hkeyed id request hrequest
      obtain ⟨metadata, hevent⟩ := reviewedEvent_eq event updated review
      refine ⟨_, updated, rfl, OrderedMap.find?_insert_self _ _ _, ?_⟩
      rw [hevent]
      refine ⟨rfl, ?_, congrArg Uuid.text hid, rfl, rfl⟩
      rw [hreview]
      rfl
  | applied id actor time event request flag hrequest hstatus hwrite hverify change hchange =>
      have hid : change.request.id = id := by
        rw [hchange]
        exact hkeyed id request hrequest
      obtain ⟨changes, metadata, hevent⟩ := appliedEvent_eq event actor change
      refine ⟨_, change.request, rfl, ?_, ?_⟩
      · rw [announce_store, hchange]
        exact OrderedMap.find?_insert_self _ _ _
      · rw [hevent]
        exact ⟨rfl, rfl, congrArg Uuid.text hid, rfl, rfl⟩
  | cancelled id actor time event request hrequest hopen updated hupdated =>
      have hid : updated.id = id := by
        rw [hupdated]
        exact hkeyed id request hrequest
      simp only [eventOf, hrequest]
      refine ⟨_, updated, rfl, OrderedMap.find?_insert_self _ _ _, ?_⟩
      exact ⟨rfl, rfl, congrArg Uuid.text hid, rfl, rfl⟩
  | seeded | put | ensured | renamed | inserted | recorded | transitioned | committed
  | injected => rfl

theorem map_action_eventsBy {g : Governance} (hkeyed : g.store.RequestsKeyed) {op : Operation}
    {action : AuditAction} {answer : Answer} (hdeed : op.deed?.map Deed.action = some action)
    (hanswer : (g.perform op).1 = .ok answer) :
    (g.eventsBy op).map AuditEvent.action = [action] := by
  obtain ⟨deed, hop, rfl⟩ := Option.map_eq_some_iff.1 hdeed
  have hreports := eventsBy_reports hkeyed op
  rw [Occurrence.deed?, Occurrence.answer, hanswer, hop] at hreports
  obtain ⟨event, request, hevents, _, hreport⟩ := hreports
  rw [hevents, List.map_singleton, hreport.action]

theorem announce_signals (g : Governance) (stamp : Stamp) (actor : Actor)
    (change : AppliedChange) :
    (g.announce stamp actor change).signals = g.signals ++
      if change.flag.isSome then
        g.relay.heard [⟨change.request.project, change.request.flagKey⟩]
      else [] := by
  rw [announce]
  split
  · rw [signal]
    cases hrelay : g.relay with
    | absent => simp [RelaySignal.heard, emit, hrelay]
    | answering => simp [RelaySignal.heard, emit, hrelay]
    | failing => simp [RelaySignal.heard, emit, hrelay]
  · exact (List.append_nil _).symm

theorem announce_relay (g : Governance) (stamp : Stamp) (actor : Actor)
    (change : AppliedChange) : (g.announce stamp actor change).relay = g.relay := by
  obtain ⟨_, _, heq⟩ := g.announce_eq stamp actor change
  rw [heq]

theorem after_relay (g : Governance) (op : Operation) : (g.after op).relay = g.relay := by
  have hperformed := g.performed op
  generalize (g.perform op).1 = outcome, g.after op = g' at hperformed
  cases hperformed with
  | refused _ hsame => exact hsame.relay_eq
  | answered _ _ _ hsame => exact hsame.relay_eq
  | applied => exact announce_relay _ _ _ _
  | created | reviewed | cancelled | inserted | recorded | transitioned | committed | seeded
  | put | ensured | renamed | injected => rfl

/-- The relay hears of the flag that an operation applied, if there is one. -/
theorem after_signals (g : Governance) (op : Operation) :
    (g.after op).signals =
      g.signals ++ g.relay.heard (Occurrence.target? ⟨g, op⟩).toList := by
  have hperformed := g.performed op
  have hsilent : g.signals = g.signals ++ g.relay.heard [] := by
    rw [RelaySignal.heard_nil, List.append_nil]
  rw [Occurrence.target?, Occurrence.answer]
  dsimp only
  generalize (g.perform op).1 = outcome, g.after op = g' at hperformed ⊢
  cases hperformed with
  | refused error hsame =>
      rw [hsame.signals_eq]
      cases op <;> exact hsilent
  | answered answer hkind _ hsame =>
      rw [hsame.signals_eq]
      cases op <;> first | exact hsilent | contradiction
  | applied id actor time event request flag hrequest hstatus hwrite hverify change hchange =>
      rw [announce_signals]
      dsimp only
      rw [hrequest, Option.bind_some, ChangeRequest.target?, hchange]
      rcases flagWrite_cases hwrite with ⟨hother, rfl⟩ | ⟨hflag, config, _, rfl⟩
      · cases htype : request.resourceType with
        | flag => contradiction
        | segment | flagset => exact congrArg (g.signals ++ ·) (RelaySignal.heard_nil g.relay).symm
      · rw [hflag]
        rfl
  | created | reviewed | cancelled | inserted | recorded | transitioned | committed | seeded
  | put | ensured | renamed | injected => exact hsilent

theorem run_signals (g : Governance) (ops : List Operation) :
    (g.run ops).signals =
      g.signals ++ g.relay.heard ((g.occurrences ops).filterMap Occurrence.target?) := by
  induction ops generalizing g with
  | nil => rw [run_nil, occurrences, List.filterMap_nil, RelaySignal.heard_nil, List.append_nil]
  | cons op rest ih =>
      have hsplit : (g.occurrences (op :: rest)).filterMap Occurrence.target? =
          (Occurrence.target? ⟨g, op⟩).toList ++
            ((g.after op).occurrences rest).filterMap Occurrence.target? := by
        rw [occurrences, List.filterMap_cons]
        cases Occurrence.target? ⟨g, op⟩ <;> rfl
      rw [run_cons, ih, after_signals, after_relay, hsplit, RelaySignal.heard_append,
        List.append_assoc]

/-- In every run, whatever faults are met, however many events the log holds and
whoever listens: an operation by way of the workflow that is answered hands the sink
one event, of its action, its actor and the request it changed, and no other operation
hands it any; the log holds the last of these events, in order and as many as its limit
allows; and the relay is signalled once for each flag that an apply wrote, and never
else. -/
theorem effects_happen_once (limit : Nat) (relay : RelaySignal) (policy : StalePolicy)
    (ops : List Operation) :
    let start := Governance.start (.log (.empty limit)) relay policy
    let events := (start.occurrences ops).flatMap Occurrence.events
    (∀ o ∈ start.occurrences ops,
      o.leaves.sink = o.meets.sink.recordAll o.events ∧
      match o.deed? with
      | some deed => ∃ event request, o.events = [event] ∧
          o.leaves.store.request? deed.id = some request ∧ event.Reports deed request
      | none => o.events = []) ∧
    (∃ log, (start.run ops).auditLog = some log ∧ log.limit = limit ∧
      log.entries <:+ events ∧ log.entries.length = min limit events.length) ∧
    (start.run ops).signals =
      relay.heard ((start.occurrences ops).filterMap Occurrence.target?) := by
  intro start events
  have hkeyed : start.store.RequestsKeyed := Store.requestsKeyed_empty
  have hevents : start.eventsOf ops = events := start.eventsOf_eq_flatMap ops
  refine ⟨fun o hmem => ⟨?_, ?_⟩, ⟨_, run_auditLog limit relay policy ops, rfl, ?_, ?_⟩, ?_⟩
  · exact o.meets.after_sink o.op
  · exact eventsBy_reports (occurrences_keep after_requestsKeyed hkeyed ops o hmem) o.op
  · rw [← hevents]
    exact AuditLog.newest_suffix limit _
  · rw [← hevents]
    exact AuditLog.length_newest limit _
  · exact start.run_signals ops

/-- A flag and a segment are proposed; the flag is applied at the second attempt, after
the segment.  A log of two events keeps what was applied, and the relay hears of the
flag alone. -/
theorem small_log_keeps_last_effects :
    let start := Governance.start (.log (.empty 2)) .answering .lastWriteWins
    let ops : List Operation :=
      [.create Sample.proposal Sample.actor (Sample.stamp 1) (Sample.stamp 2),
       .create { Sample.proposal with resourceType := .segment } Sample.actor (Sample.stamp 3)
         (Sample.stamp 4),
       .injectFault .commitApply (.backend "disk full"),
       .apply (.ofNat 1) Sample.actor Sample.moment (Sample.stamp 5),
       .apply (.ofNat 3) Sample.actor Sample.moment (Sample.stamp 6),
       .apply (.ofNat 1) Sample.actor Sample.moment (Sample.stamp 7)]
    let events := (start.occurrences ops).flatMap Occurrence.events
    events.map AuditEvent.action = [.created, .created, .applied, .applied] ∧
    (∃ log, (start.run ops).auditLog = some log ∧ log.entries = events.drop 2 ∧
      log.entries.map AuditEvent.resourceId = [(Uuid.ofNat 3).text, (Uuid.ofNat 1).text]) ∧
    (start.run ops).signals = [⟨"web", "checkout"⟩] := by
  intro start ops events
  have hactions : events.map AuditEvent.action = [.created, .created, .applied, .applied] := by
    decide +kernel
  have hcount : events.length = 4 := by
    rw [← List.length_map AuditEvent.action, hactions]
    rfl
  obtain ⟨_, ⟨log, hlog, _, hsuffix, hlength⟩, hsignals⟩ :=
    effects_happen_once 2 .answering .lastWriteWins ops
  have hentries : log.entries = events.drop 2 := by
    rw [List.suffix_iff_eq_drop.mp hsuffix, hlength, hcount]
    rfl
  refine ⟨hactions, ⟨log, hlog, hentries, ?_⟩, ?_⟩
  · rw [hentries]
    decide +kernel
  · rw [hsignals]
    decide +kernel

end Governance

end FlagGovernance
