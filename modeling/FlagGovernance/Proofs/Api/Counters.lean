import FlagGovernance.Proofs.Api.Handling
import Mathlib.Data.List.Basic
/-
The answers, the counters and the trail agree.

A step of a run commits an action exactly when a POST to the route of the action is
answered with success.  Then its counter goes up by one and one event of the action
is emitted; every other request leaves the service as it is.
-/

namespace FlagGovernance

theorem AuditAction.counter_injective : Function.Injective counter := by
  intro a b heq
  revert heq
  cases a <;> cases b <;> decide

namespace Api

namespace Metrics

theorem count_record (m : Metrics) (action counted : AuditAction) :
    (m.record counted.counter).count action.counter =
      m.count action.counter + if counted = action then 1 else 0 := by
  rw [count, record]
  by_cases hsame : counted = action
  · rw [hsame, OrderedMap.find?_insert_self, if_pos rfl]
    rfl
  · have hlabel : action.counter ≠ counted.counter :=
      fun heq => hsame (AuditAction.counter_injective heq).symm
    rw [OrderedMap.find?_insert_of_ne _ hlabel, if_neg hsame]
    rfl

/-- The counters after some actions. -/
def recordAll (m : Metrics) (actions : List AuditAction) : Metrics :=
  actions.foldl (fun m action => m.record action.counter) m

theorem recordAll_append (m : Metrics) (actions more : List AuditAction) :
    m.recordAll (actions ++ more) = (m.recordAll actions).recordAll more :=
  List.foldl_append

theorem count_recordAll (m : Metrics) (actions : List AuditAction) (action : AuditAction) :
    (m.recordAll actions).count action.counter = m.count action.counter + actions.count action := by
  induction actions generalizing m with
  | nil => rfl
  | cons counted rest ih =>
      rw [recordAll, List.foldl_cons, ← recordAll, ih, count_record, List.count_cons]
      simp only [beq_iff_eq]
      omega

end Metrics

namespace Service

/-- What happens to a service: a request comes in, or a flag is put into its store. -/
inductive Step
  | request (r : Request) (fresh : Fresh)
  | seed (project key : String) (config : FlagConfig) (now : Instant)

def after (s : Service) : Step → Service
  | .request r fresh => (s.handle r fresh).2
  | .seed project key config now =>
    { s with governance := s.governance.after (.seedFlag project key config now) }

def run (s : Service) (steps : List Step) : Service := steps.foldl after s

/-- No faults are queued and every request is stored under its id. -/
structure Sound (s : Service) : Prop where
  faults : s.governance.faults = []
  keyed : s.governance.store.RequestsKeyed

theorem sound_start (settings : Settings) : (start settings).Sound :=
  ⟨rfl, Store.requestsKeyed_empty⟩

end Service

/-- A step of a run, with the service that it meets. -/
structure Exchange where
  meets : Service
  step : Service.Step

namespace Exchange

def leaves (e : Exchange) : Service := e.meets.after e.step

/-- The action that is told to have been done: a POST to its route is answered with
success. -/
def commit? (e : Exchange) : Option AuditAction :=
  match e.step with
  | .request r fresh => if (e.meets.handle r fresh).1.isSuccess then r.action? else none
  | .seed .. => none

/-- The events that the governance emits for what the request asks of it. -/
def events (e : Exchange) : List AuditEvent :=
  match e.step with
  | .request r fresh => ((r.change? fresh).map e.meets.governance.eventsBy).getD []
  | .seed .. => []

/-- What a step does to the records that are kept beside the store. -/
structure Agrees (e : Exchange) : Prop where
  sink : e.leaves.governance.sink = e.meets.governance.sink.recordAll e.events
  metrics : e.leaves.metrics = e.meets.metrics.recordAll e.commit?.toList
  actions : e.events.map AuditEvent.action = e.commit?.toList

theorem Agrees.of_kept {e : Exchange} (hkept : e.leaves = e.meets) (hcommit : e.commit? = none)
    (hevents : e.events = []) : e.Agrees := by
  refine ⟨?_, ?_, ?_⟩
  · rw [hkept, hevents]
    rfl
  · rw [hkept, hcommit]
    rfl
  · rw [hevents, hcommit]
    rfl

theorem events_request (s : Service) (r : Request) (fresh : Fresh) :
    events ⟨s, .request r fresh⟩ =
      ((r.change? fresh).map s.governance.eventsBy).getD [] :=
  rfl

theorem events_of_refused {s : Service} {r : Request} {fresh : Fresh}
    (hrefused : ∀ op, r.change? fresh = some op → ∃ e, (s.governance.perform op).1 = .error e) :
    events ⟨s, .request r fresh⟩ = [] := by
  rw [events_request]
  cases hchange : r.change? fresh with
  | none => rfl
  | some op =>
      obtain ⟨e, herror⟩ := hrefused op hchange
      exact Governance.eventsBy_of_error herror

end Exchange

namespace Service

def exchanges (s : Service) : List Step → List Exchange
  | [] => []
  | step :: rest => ⟨s, step⟩ :: (s.after step).exchanges rest

variable {s : Service} {r : Request} {fresh : Fresh}

/-- A request that is refused, or that is no POST to the route of an action, leaves the
service as it is. -/
theorem handle_eq_self (hfaults : s.governance.faults = [])
    (hidle : (s.handle r fresh).1.isSuccess = false ∨ r.action? = none) :
    (s.handle r fresh).2 = s := by
  have hhandles := handles hfaults r fresh
  generalize (s.handle r fresh).1 = response, (s.handle r fresh).2 = s' at hhandles hidle ⊢
  cases hhandles with
  | kept => rfl
  | committed op action answer hsuccess haction =>
      rcases hidle with hfailed | hnone
      · rw [hsuccess] at hfailed
        contradiction
      · rw [haction] at hnone
        contradiction

theorem after_sound (step : Step) (hsound : s.Sound) : (s.after step).Sound := by
  cases step with
  | seed project key config now =>
      exact ⟨Governance.after_no_faults nofun hsound.faults,
        Governance.after_requestsKeyed _ _ hsound.keyed⟩
  | request r fresh =>
      have hhandles := handles hsound.faults r fresh
      rw [after]
      generalize (s.handle r fresh).1 = response, (s.handle r fresh).2 = s' at hhandles ⊢
      cases hhandles with
      | kept => exact hsound
      | committed op action answer hsuccess haction hchange hdeed =>
          have hkind : op.kind ≠ .fault := by
            intro hfault
            rw [Operation.deed?_of_kind (by rw [hfault]; decide)] at hdeed
            contradiction
          exact ⟨Governance.after_no_faults hkind hsound.faults,
            Governance.after_requestsKeyed _ _ hsound.keyed⟩

theorem exchange_agrees (hsound : s.Sound) (step : Step) : Exchange.Agrees ⟨s, step⟩ := by
  cases step with
  | seed project key config now => exact ⟨rfl, rfl, rfl⟩
  | request r fresh =>
      have hhandles := handles hsound.faults r fresh
      have hleaves : Exchange.leaves ⟨s, .request r fresh⟩ = (s.handle r fresh).2 := rfl
      have hcommit : Exchange.commit? ⟨s, .request r fresh⟩ =
          if (s.handle r fresh).1.isSuccess then r.action? else none := rfl
      have hevents := Exchange.events_request s r fresh
      generalize (s.handle r fresh).1 = response, (s.handle r fresh).2 = s'
        at hhandles hleaves hcommit
      cases hhandles with
      | kept hquiet hrefused =>
          refine .of_kept hleaves ?_ (Exchange.events_of_refused hrefused)
          rw [hcommit]
          split
          · next hsuccess => exact hquiet hsuccess
          · rfl
      | committed op action answer hsuccess haction hchange hdeed hanswer =>
          rw [if_pos hsuccess, haction] at hcommit
          rw [hchange, Option.map_some, Option.getD_some] at hevents
          refine ⟨?_, ?_, ?_⟩
          · rw [hleaves, hevents]
            exact s.governance.after_sink op
          · rw [hleaves, hcommit]
            rfl
          · rw [hevents, hcommit]
            exact Governance.map_action_eventsBy hsound.keyed hdeed hanswer

theorem run_sink (hsound : s.Sound) (steps : List Step) :
    (s.run steps).governance.sink =
      s.governance.sink.recordAll ((s.exchanges steps).flatMap Exchange.events) := by
  induction steps generalizing s with
  | nil => rfl
  | cons step rest ih =>
      rw [run, List.foldl_cons, ← run, ih (after_sound step hsound), exchanges,
        List.flatMap_cons, AuditSink.recordAll_append, ← (exchange_agrees hsound step).sink]
      rfl

theorem run_metrics (hsound : s.Sound) (steps : List Step) :
    (s.run steps).metrics =
      s.metrics.recordAll ((s.exchanges steps).filterMap Exchange.commit?) := by
  induction steps generalizing s with
  | nil => rfl
  | cons step rest ih =>
      rw [run, List.foldl_cons, ← run, ih (after_sound step hsound), exchanges,
        List.filterMap_eq_flatMap_toList, List.filterMap_eq_flatMap_toList, List.flatMap_cons,
        Metrics.recordAll_append, ← (exchange_agrees hsound step).metrics]
      rfl

theorem map_action_events (hsound : s.Sound) (steps : List Step) :
    ((s.exchanges steps).flatMap Exchange.events).map AuditEvent.action =
      (s.exchanges steps).filterMap Exchange.commit? := by
  rw [List.filterMap_eq_flatMap_toList]
  induction steps generalizing s with
  | nil => rfl
  | cons step rest ih =>
      rw [exchanges, List.flatMap_cons, List.flatMap_cons, List.map_append,
        (exchange_agrees hsound step).actions, ih (after_sound step hsound)]

/-- Every step of a run meets a sound service. -/
theorem sound_of_mem_exchanges (hsound : s.Sound) (steps : List Step) :
    ∀ e ∈ s.exchanges steps, e.meets.Sound := by
  induction steps generalizing s with
  | nil => exact List.forall_mem_nil _
  | cons step rest ih =>
      rw [exchanges, List.forall_mem_cons]
      exact ⟨hsound, ih (after_sound step hsound)⟩

/-- What was let go of and what is left are the events of the run. -/
theorem run_auditLog (settings : Settings) (steps : List Step) :
    ((start settings).run steps).auditLog = ⟨settings.auditLimit,
      AuditLog.newest settings.auditLimit
        (((start settings).exchanges steps).flatMap Exchange.events)⟩ := by
  have hempty : (start settings).governance.sink = .log (.empty settings.auditLimit) := rfl
  rw [auditLog, Governance.auditLog, run_sink (sound_start settings), hempty,
    AuditSink.recordAll_empty]
  rfl

theorem action?_eq_none_of_idle (hidle : r.method ≠ .post ∨ r.route? = some .validateConfig ∨
    r.route? = some .validateQuery) : r.action? = none := by
  rw [Request.action?]
  rcases hidle with hmethod | hroute | hroute
  · cases hmethod' : r.method with
    | post => contradiction
    | get | head | options | other => rfl
  · rw [hroute]
    cases r.method <;> rfl
  · rw [hroute]
    cases r.method <;> rfl

/-- In every run of requests on a service that starts with an empty store, flags being
put into the store at any point: a request that is not answered with success, that is
no POST, or that asks for a check, leaves the whole service as it is.  The counter of
each action is the number of POSTs to its route that were answered with success so far,
and that is the number of its events that the log was ever handed, of which it holds
the newest. -/
theorem counters_tell_commits (settings : Settings) (steps : List Step) :
    let exchanges := (start settings).exchanges steps
    let events := exchanges.flatMap Exchange.events
    (∀ e ∈ exchanges, ∀ r fresh, e.step = .request r fresh →
      ((e.meets.handle r fresh).1.isSuccess = false ∨ r.method ≠ .post ∨
        r.route? = some .validateConfig ∨ r.route? = some .validateQuery) →
      e.leaves = e.meets) ∧
    (∀ e ∈ exchanges, e.leaves.governance.sink = e.meets.governance.sink.recordAll e.events) ∧
    ((start settings).run steps).auditLog =
      ⟨settings.auditLimit, AuditLog.newest settings.auditLimit events⟩ ∧
    ∀ action : AuditAction,
      ((start settings).run steps).metrics.count action.counter =
        exchanges.countP (fun e => e.commit? == some action) ∧
      exchanges.countP (fun e => e.commit? == some action) =
        events.countP (fun event => event.action == action) := by
  intro exchanges events
  have hsound := sound_start settings
  have hmeets := sound_of_mem_exchanges hsound steps
  refine ⟨?_, ?_, run_auditLog settings steps, fun action => ⟨?_, ?_⟩⟩
  · rintro ⟨s, step⟩ hmem r fresh rfl hidle
    refine handle_eq_self (hmeets _ hmem).faults ?_
    rcases hidle with hfailed | hidle
    · exact .inl hfailed
    · exact .inr (action?_eq_none_of_idle hidle)
  · intro e hmem
    exact (exchange_agrees (hmeets e hmem) e.step).sink
  · rw [run_metrics hsound, Metrics.count_recordAll, List.count_filterMap]
    exact Nat.zero_add _
  · rw [← List.count_filterMap, ← map_action_events hsound, List.count_eq_countP, List.countP_map]
    rfl

end Service

end Api

namespace Sample

open Api

/-- The log holds one event. -/
def brief : Settings := { Settings.default with auditLimit := 1 }

/-- A POST whose body is said to be JSON. -/
def posts (segments : List String) (body : String) : Service.Step :=
  .request ⟨.post, ⟨segments, []⟩, [("content-type", "application/json")], body⟩
    ⟨moment, .ofNat 1, .ofNat 2, stamp 3⟩

/-- A change is asked for, and the request is cancelled twice. -/
def cancelledTwice : List Service.Step :=
  let cancel := posts ["v1", "change-requests", (Uuid.ofNat 1).text, "cancel"] ""
  [posts ["v1", "change-requests"] "[\"rename\", null, \"segment\", \"web\", \"beta\", null]",
    cancel, cancel]

end Sample

namespace Api

namespace Service

open Sample

/-- The second time nothing is counted, told or changed. -/
theorem cancel_counted_once :
    let s := (start brief).run cancelledTwice
    let events := ((start brief).exchanges cancelledTwice).flatMap Exchange.events
    events.map AuditEvent.action = [.created, .cancelled] ∧
    s.auditLog = ⟨1, events.drop 1⟩ ∧
    s.metrics.count "created" = 1 ∧ s.metrics.count "cancelled" = 1 ∧
    ∃ last, ((start brief).exchanges cancelledTwice)[2]? = some last ∧
      last.leaves = last.meets := by
  intro s events
  obtain ⟨hidle, _, hlog, hcounts⟩ := counters_tell_commits brief cancelledTwice
  have hactions : events.map AuditEvent.action = [.created, .cancelled] := by decide +kernel
  have hlength : events.length = 2 := by
    rw [← List.length_map AuditEvent.action, hactions]
    rfl
  have hcount : ∀ action : AuditAction,
      s.metrics.count action.counter = (events.map AuditEvent.action).count action := by
    intro action
    rw [(hcounts action).1, (hcounts action).2, List.count_eq_countP, List.countP_map]
    rfl
  rw [hactions] at hcount
  refine ⟨hactions, ?_, hcount .created, hcount .cancelled, ?_⟩
  · rw [hlog, AuditLog.newest, hlength]
    rfl
  · exact ⟨_, rfl, hidle _ (List.mem_of_getElem? (i := 2) rfl) _ _ rfl (.inl (by decide +kernel))⟩

end Service

end Api

end FlagGovernance
