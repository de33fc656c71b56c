import FlagGovernance.Proofs.RequestLife
import FlagGovernance.Proofs.Run
/-
Operations in flight.

An operation that changes requests makes two calls to the store: it looks, then
it changes something on the strength of what it saw.  Any number of others may
act in between.  A task is an operation on its way, and a system gives turns to
its tasks in any order.  A task that is let run to its end is the operation.
-/

namespace FlagGovernance

/-- An operation that is yet to look, has looked, or is over. -/
inductive Task
  | creating (p : Proposal) (author : Actor) (stamp event : Stamp)
  | inserting (p : Proposal) (author : Actor) (stamp event : Stamp) (current : Option StoredFlag)
  | reviewing (id : Uuid) (decision : Decision) (reviewer : Actor) (comment : Option String)
      (stamp event : Stamp)
  | recording (review : Review) (event : Stamp)
  | applying (id : Uuid) (actor : Actor) (time : Instant) (event : Stamp)
  | committing (id : Uuid) (flag : Option FlagWrite) (actor : Actor) (time : Instant)
      (event : Stamp)
  | cancelling (id : Uuid) (actor : Actor) (time : Instant) (event : Stamp)
  | moving (id : Uuid) (before : Status) (actor : Actor) (time : Instant) (event : Stamp)
  | finished (answer : Except OperationError Answer)

namespace Task

def refused (cause : WorkflowError) : Task := .finished (.error (.workflow cause))

def answered (answer : Answer) : Task := .finished (.ok answer)

/-- Loads a request and goes on with what is seen of it. -/
def afterLoad (g : Governance) (id : Uuid) (next : Governance → ChangeRequest → Task) :
    Task × Governance :=
  match g.load id with
  | (.error e, g) => (refused e, g)
  | (.ok request, g) => (next g request, g)

/-- Makes the call that changes the store and tells how it went. -/
def afterCall {α : Type} (g : Governance) (name : StoreCall) (step : Store → Store.Step α)
    (refusal : StoreError → WorkflowError) (done : α → Governance → Answer × Governance) :
    Task × Governance :=
  match g.call name step with
  | (.error e, g) => (refused (refusal e), g)
  | (.ok a, g) => (answered (done a g).1, (done a g).2)

/-- The task goes on up to its next call. -/
def step (g : Governance) : Task → Task × Governance
  | creating p author stamp event =>
    match p.check with
    | .error e => (refused e, g)
    | .ok () =>
      match g.currentFlag p with
      | (.error e, g) => (refused e, g)
      | (.ok current, g) => (inserting p author stamp event current, g)
  | inserting p author stamp event current =>
    let request := p.opened author stamp current
    afterCall g .insertRequest (fun s => s.insertRequest request)
      (.store "saving change request")
      (fun _ g => (.request request, g.emit (Governance.createdEvent event author request)))
  | reviewing id decision reviewer comment stamp event =>
    afterLoad g id (fun _ request =>
      if request.status.canReview then
        recording (.given id decision reviewer comment stamp) event
      else refused (.invalidState request.status WorkflowError.notPending))
  | recording review event =>
    afterCall g .recordReview (fun s => s.recordReview review review.decision.resultingStatus)
      (.ofStore review.requestId "recording review" (fun _ => WorkflowError.notPending))
      (fun updated g =>
        (.reviewed ⟨updated, review⟩, g.emit (Governance.reviewedEvent event updated review)))
  | applying id actor time event =>
    afterLoad g id (fun g request =>
      if request.status.canApply then
        match Governance.flagWrite g.policy request with
        | .error e => refused e
        | .ok flag => committing id flag actor time event
      else refused (.invalidState request.status WorkflowError.notApplicable))
  | committing id flag actor time event =>
    afterCall g .commitApply (fun s => s.commitApply id (applyCommit flag actor time))
      (.ofStore id "applying change request" (fun _ => WorkflowError.notApplicable))
      (fun applied g => (.applied applied, g.announce event actor applied))
  | cancelling id actor time event =>
    afterLoad g id (fun _ request =>
      if request.status.canCancel then moving id request.status actor time event
      else refused (.invalidState request.status (WorkflowError.cannotCancel request.status)))
  | moving id before actor time event =>
    afterCall g .transition
      (fun s => s.transition id [.pending, .approved, .rejected] .cancelled time)
      (.ofStore id "cancelling change request" WorkflowError.cannotCancel)
      (fun updated g =>
        (.request updated, g.emit (Governance.cancelledEvent event actor before updated)))
  | finished answer => (finished answer, g)

/-- Two steps, with nothing in between. -/
def finish (task : Task) (g : Governance) : Task × Governance :=
  (task.step g).1.step (task.step g).2

end Task

/-- The task that does an operation; there is one for those that change
requests. -/
def Operation.task? : Operation → Option Task
  | create p author stamp event => some (.creating p author stamp event)
  | review id decision reviewer comment stamp event =>
    some (.reviewing id decision reviewer comment stamp event)
  | apply id actor time event => some (.applying id actor time event)
  | cancel id actor time event => some (.cancelling id actor time event)
  | _ => none

namespace Task

/-- An operation is its task with nothing in between. -/
theorem finish_eq_perform (g : Governance) {op : Operation} {task : Task}
    (htask : op.task? = some task) : task.finish g = (.finished (g.perform op).1, g.after op) := by
  -- both sides make the same calls in the same order, so we follow the answers
  cases op with
  | create p author stamp event =>
      obtain rfl := Option.some.inj htask
      rw [Governance.after, Governance.perform, Governance.create, finish, step]
      cases hcheck : p.check with
      | error e => rfl
      | ok _ =>
          obtain ⟨found, g'⟩ := g.currentFlag p
          cases found with
          | error e => rfl
          | ok current =>
              simp only [step, afterCall]
              obtain ⟨inserted, g''⟩ := g'.call .insertRequest
                (fun s => s.insertRequest (p.opened author stamp current))
              cases inserted <;> rfl
  | review id decision reviewer comment stamp event =>
      obtain rfl := Option.some.inj htask
      rw [Governance.after, Governance.perform, Governance.review, finish, step, afterLoad]
      obtain ⟨loaded, g'⟩ := g.load id
      cases loaded with
      | error e => rfl
      | ok request =>
          cases hstatus : request.status.canReview with
          | false => simp [hstatus, refused, step, Governance.told]
          | true =>
              simp only [hstatus, Bool.not_true, Bool.false_eq_true, if_false, if_true, step,
                afterCall, Review.given]
              generalize g'.call .recordReview _ = called
              obtain ⟨recorded, g''⟩ := called
              cases recorded <;> rfl
  | apply id actor time event =>
      obtain rfl := Option.some.inj htask
      rw [Governance.after, Governance.perform, Governance.apply, finish, step, afterLoad]
      obtain ⟨loaded, g'⟩ := g.load id
      cases loaded with
      | error e => rfl
      | ok request =>
          cases hstatus : request.status.canApply with
          | false => simp [hstatus, refused, step, Governance.told]
          | true =>
              cases hflag : Governance.flagWrite g'.policy request with
              | error e => simp [hstatus, hflag, refused, step, Governance.told]
              | ok flag =>
                  simp only [hstatus, hflag, Bool.not_true, Bool.false_eq_true, if_false,
                    if_true, step, afterCall, applyCommit]
                  generalize g'.call .commitApply _ = called
                  obtain ⟨committed, g''⟩ := called
                  cases committed <;> rfl
  | cancel id actor time event =>
      obtain rfl := Option.some.inj htask
      rw [Governance.after, Governance.perform, Governance.cancel, finish, step, afterLoad]
      obtain ⟨loaded, g'⟩ := g.load id
      cases loaded with
      | error e => rfl
      | ok request =>
          cases hstatus : request.status.canCancel with
          | false => simp [hstatus, refused, step, Governance.told]
          | true =>
              simp only [hstatus, Bool.not_true, Bool.false_eq_true, if_false, if_true, step,
                afterCall]
              generalize g'.call .transition _ = called
              obtain ⟨moved, g''⟩ := called
              cases moved <;> rfl
  | get | list | countPending | flag | seedFlag | putFlag | ensureProject | renameFlag
  | insertRequest | recordReview | transition | commitApply | injectFault => contradiction

theorem afterLoad_store (g : Governance) (id : Uuid) (next : Governance → ChangeRequest → Task) :
    (afterLoad g id next).2.store = g.store := by
  rcases g.load_cases id with ⟨e, g', hload, hsame⟩ | ⟨request, _, hload⟩
  · rw [afterLoad, hload]
    exact hsame.store_eq
  · rw [afterLoad, hload]

/-- A call moves what its step moves, or nothing. -/
theorem afterCall_moves {α : Type} (g : Governance) (name : StoreCall)
    (step : Store → Store.Step α) (refusal : StoreError → WorkflowError)
    {done : α → Governance → Answer × Governance} (hdone : ∀ a g, (done a g).2.store = g.store)
    (hmoves : ∀ id, (g.store.record id).Moves ((step g.store).2.record id)) (id : Uuid) :
    (g.store.record id).Moves ((afterCall g name step refusal done).2.store.record id) := by
  have hstore : (afterCall g name step refusal done).2.store = (g.call name step).2.store := by
    rw [afterCall]
    obtain ⟨answer, g'⟩ := g.call name step
    cases answer with
    | error e => rfl
    | ok a => exact hdone a g'
  rw [hstore]
  rcases g.call_store name step with hcall | hcall
  · rw [hcall]
    exact .stays _
  · rw [hcall]
    exact hmoves id

/-- Each call of a task moves one record at most, whatever the store has become
since the task looked. -/
theorem step_moves (g : Governance) (task : Task) (id : Uuid) :
    (g.store.record id).Moves ((task.step g).2.store.record id) := by
  cases task with
  | creating p author stamp event =>
      rw [step]
      cases p.check with
      | error e => exact .stays _
      | ok _ =>
          rcases g.currentFlag_cases p with ⟨e, g', hflag, hsame⟩ | hflag
          · simp only [hflag]
            rw [hsame.store_eq]
            exact .stays _
          · simp only [hflag]
            exact .stays _
  | inserting p author stamp event current =>
      exact afterCall_moves g .insertRequest
        (fun s => s.insertRequest (p.opened author stamp current)) _ (fun _ _ => rfl)
        (g.store.insertRequest_moves (p.opened_fresh author stamp current)) id
  | recording review event =>
      exact afterCall_moves g .recordReview
        (fun s => s.recordReview review review.decision.resultingStatus) _ (fun _ _ => rfl)
        (g.store.recordReview_moves review) id
  | committing id' flag actor time event =>
      exact afterCall_moves g .commitApply
        (fun s => s.commitApply id' (applyCommit flag actor time)) _
        (fun _ _ => Governance.announce_store _ _ _ _)
        (g.store.commitApply_moves id' flag actor time) id
  | moving id' before actor time event =>
      exact afterCall_moves g .transition
        (fun s => s.transition id' [.pending, .approved, .rejected] .cancelled time) _
        (fun _ _ => rfl) (g.store.transition_moves id' time) id
  | reviewing | applying | cancelling =>
      rw [step, afterLoad_store]
      exact .stays _
  | finished answer => exact .stays _

end Task

/-- An operation that is done at once leaves every record, unless it goes past
the workflow. -/
theorem Governance.record_after (g : Governance) {op : Operation} (htask : op.task? = none)
    (hkind : op.kind ≠ .requestStore) (id : Uuid) :
    (g.after op).store.record id = g.store.record id := by
  have hperformed := g.performed op
  generalize (g.perform op).1 = outcome, g.after op = g' at hperformed
  cases hperformed with
  | refused _ hsame => rw [hsame.store_eq]
  | answered _ _ _ hsame => rw [hsame.store_eq]
  | seeded | put | ensured | renamed | injected => rfl
  | created | reviewed | applied | cancelled => contradiction
  | inserted | recorded | transitioned | committed => contradiction

/-- A governance and the operations on their way. -/
structure System where
  governance : Governance
  tasks : List Task

/-- What happens next. -/
inductive Turn
  /-- An operation is asked for; one that changes requests is put on its way. -/
  | ask (op : Operation)
  /-- The task in a place goes one call further. -/
  | proceed (place : Nat)

/-- Requests are changed by way of the workflow only. -/
def Turn.guarded : Turn → Bool
  | .ask op => op.kind != .requestStore
  | .proceed _ => true

namespace System

def start (sink : AuditSink) (relay : RelaySignal) (policy : StalePolicy) : System :=
  ⟨.start sink relay policy, []⟩

def turn (sys : System) : Turn → System
  | .ask op =>
    match op.task? with
    | some task => { sys with tasks := sys.tasks ++ [task] }
    | none => { sys with governance := sys.governance.after op }
  | .proceed place =>
    match sys.tasks[place]? with
    | some task =>
      ⟨(task.step sys.governance).2, sys.tasks.set place (task.step sys.governance).1⟩
    | none => sys

/-- The system after some turns. -/
def run (sys : System) (turns : List Turn) : System := turns.foldl turn sys

def store (sys : System) : Store := sys.governance.store

theorem run_append (sys : System) (turns later : List Turn) :
    sys.run (turns ++ later) = (sys.run turns).run later :=
  List.foldl_append

theorem turn_moves (sys : System) {turn : Turn} (hguarded : turn.guarded = true) (id : Uuid) :
    (sys.store.record id).Moves ((sys.turn turn).store.record id) := by
  cases turn with
  | ask op =>
      have hkind : op.kind ≠ .requestStore := by simpa [Turn.guarded] using hguarded
      rw [System.turn]
      cases htask : op.task? with
      | some task => exact .stays _
      | none =>
          simp only [store]
          rw [sys.governance.record_after htask hkind id]
          exact .stays _
  | proceed place =>
      rw [System.turn]
      cases sys.tasks[place]? with
      | some task => exact task.step_moves sys.governance id
      | none => exact .stays _

/-- What every move keeps holds of a record after any turns. -/
theorem run_keeps {P : RequestRecord → Prop} {turns : List Turn}
    (hguarded : ∀ turn ∈ turns, turn.guarded = true)
    (hmoves : ∀ record record' : RequestRecord, record.Moves record' → P record → P record')
    (sys : System) (id : Uuid) (hstart : P (sys.store.record id)) :
    P ((sys.run turns).store.record id) := by
  apply List.foldlRecOn turns turn (motive := fun sys => P (sys.store.record id)) hstart
  intro sys hkept turn hmem
  exact hmoves _ _ (sys.turn_moves (hguarded turn hmem) id) hkept

end System

end FlagGovernance
