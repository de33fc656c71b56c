import FlagGovernance.Proofs.Run
/-
Actions on a request that is there already.

A review, an apply and a cancel have one shape.  Each looks its request up, is refused in a
status that it does not admit, and then does what the request and, for an apply, the entry
of its flag make of it.  Where no fault is queued, the answer and the store afterwards are
a function of what is read so.
-/

namespace FlagGovernance

/-- What is asked of a request that is there already. -/
inductive RequestAction
  | review (decision : Decision) (reviewer : Actor) (comment : Option String)
      (stamp event : Stamp)
  | apply (actor : Actor) (time : Instant) (event : Stamp)
  | cancel (actor : Actor) (time : Instant) (event : Stamp)

/-- What an action does once nothing stands in its way: the request as it leaves it, and
the review that it records, or the entry that it writes and the one that it replaces. -/
inductive Effect
  | reviewed (request : ChangeRequest) (review : Review)
  | applied (request : ChangeRequest) (flag previous : Option StoredFlag)
  | cancelled (request : ChangeRequest)

namespace Effect

def request : Effect → ChangeRequest
  | reviewed request _ | applied request _ _ | cancelled request => request

def review? : Effect → Option Review
  | reviewed _ review => some review
  | _ => none

def flag? : Effect → Option StoredFlag
  | applied _ flag _ => flag
  | _ => none

/-- The entry that is written needs a project that is not there. -/
def creates (effect : Effect) (s : Store) : Bool :=
  effect.flag?.any (fun flag => !s.projects.contains flag.project)

def answer (created : Bool) : Effect → Answer
  | reviewed request review => .reviewed ⟨request, review⟩
  | applied request flag previous => .applied ⟨request, flag, previous, created⟩
  | cancelled request => .request request

/-- The store with the effect on the request of an id. -/
def onto (effect : Effect) (id : Uuid) (s : Store) : Store where
  projects :=
    match effect.flag? with
    | some flag => s.projects.insert flag.project ()
    | none => s.projects
  flags :=
    match effect.flag? with
    | some flag => s.flags.insert flag.id flag
    | none => s.flags
  requests := s.requests.insert id effect.request
  reviews :=
    match effect.review? with
    | some review => s.reviews.insert id (s.listReviews id ++ [review])
    | none => s.reviews

/-- The store after an action that comes to an effect or to nothing. -/
def settle (result : Except WorkflowError Effect) (id : Uuid) (s : Store) : Store :=
  match result with
  | .ok effect => effect.onto id s
  | .error _ => s

/-- What an action answers that comes to an effect or to nothing. -/
def tell (result : Except WorkflowError Effect) (s : Store) : Except OperationError Answer :=
  match result with
  | .ok effect => .ok (effect.answer (effect.creates s))
  | .error e => .error (.workflow e)

end Effect

namespace RequestAction

/-- The operation that does the action to the request of an id. -/
def on (id : Uuid) : RequestAction → Operation
  | review decision reviewer comment stamp event =>
    .review id decision reviewer comment stamp event
  | apply actor time event => .apply id actor time event
  | cancel actor time event => .cancel id actor time event

/-- The statuses in which a request takes the action. -/
def admits : RequestAction → List Status
  | review .. => [.pending]
  | apply .. => [.pending, .approved]
  | cancel .. => [.pending, .approved, .rejected]

theorem kind_on (id : Uuid) (action : RequestAction) : (action.on id).kind = .workflow := by
  cases action <;> rfl

/-- The refusal of a request in a status that the action does not admit. -/
def misplaced (status : Status) : RequestAction → WorkflowError
  | review .. => .invalidState status WorkflowError.notPending
  | apply .. => .invalidState status WorkflowError.notApplicable
  | cancel .. => .invalidState status (WorkflowError.cannotCancel status)

/-- The flag that the action writes, if it writes one. -/
def writes? (request : ChangeRequest) : RequestAction → Option FlagId
  | apply .. => if request.resourceType = .flag then some request.key else none
  | review .. | cancel .. => none

/-- What the action makes of a request in a status that it admits, over the entry of the
flag that it writes. -/
def effectOn (policy : StalePolicy) (id : Uuid) (request : ChangeRequest)
    (entry : Option StoredFlag) : RequestAction → Except WorkflowError Effect
  | review decision reviewer comment stamp _ =>
    let review := Review.given id decision reviewer comment stamp
    .ok (.reviewed (request.reviewed review decision.resultingStatus) review)
  | apply actor time _ =>
    match Governance.flagWrite policy request with
    | .error e => .error e
    | .ok none => .ok (.applied (request.applied actor time) none none)
    | .ok (some write) =>
      match write.check.verify entry with
      | .error e => .error (.ofStore id "applying change request"
          (fun _ => WorkflowError.notApplicable) e)
      | .ok () => .ok (.applied (request.applied actor time) (write.entry entry time) entry)
  | cancel _ time _ => .ok (.cancelled (request.moved .cancelled time))

/-- What the action does to the request of an id, or why it does nothing. -/
def effect (policy : StalePolicy) (s : Store) (id : Uuid) (action : RequestAction) :
    Except WorkflowError Effect :=
  match s.request? id with
  | none => .error (.notFound id)
  | some request =>
    if request.status ∈ action.admits then
      action.effectOn policy id request ((action.writes? request).bind s.flags.find?)
    else .error (action.misplaced request.status)

end RequestAction

namespace Governance

variable {α : Type} {g : Governance} {id : Uuid} {request : ChangeRequest}

/-- Where no fault is queued, a call is its step on the store. -/
theorem call_of_no_faults (hfaults : g.faults = []) (name : StoreCall)
    (step : Store → Store.Step α) : g.call name step = g.onStore step := by
  have hnone : takeFault name g.faults = none := by rw [hfaults]; rfl
  rw [call, hnone]
  rfl

theorem load_of_none (hfaults : g.faults = []) (hnone : g.store.request? id = none) :
    g.load id = (.error (.notFound id), g) := by
  rw [load, read, call_of_no_faults hfaults, onStore, hnone]
  rfl

theorem load_of_some (hfaults : g.faults = []) (hrequest : g.store.request? id = some request) :
    g.load id = (.ok request, g) := by
  rw [load, read, call_of_no_faults hfaults, onStore, hrequest]
  rfl

/-- The answer and the store are those of what an action comes to. -/
def Enacts (g : Governance) (id : Uuid) (outcome : Except OperationError Answer × Governance)
    (result : Except WorkflowError Effect) : Prop :=
  outcome.1 = Effect.tell result g.store ∧ outcome.2.store = Effect.settle result id g.store

theorem perform_on_misplaced (hload : g.load id = (.ok request, g)) {action : RequestAction}
    (hstatus : request.status ∉ action.admits) :
    g.perform (action.on id) = (.error (.workflow (action.misplaced request.status)), g) := by
  cases action with
  | review =>
      have hcannot : request.status.canReview = false :=
        Bool.eq_false_iff.2 (mt Status.canReview_iff.1 hstatus)
      simp only [RequestAction.on, perform, review, hload, hcannot]
      rfl
  | apply =>
      have hcannot : request.status.canApply = false :=
        Bool.eq_false_iff.2 (mt Status.canApply_iff.1 hstatus)
      simp only [RequestAction.on, perform, apply, hload, hcannot]
      rfl
  | cancel =>
      have hcannot : request.status.canCancel = false :=
        Bool.eq_false_iff.2 (mt Status.canCancel_iff.1 hstatus)
      simp only [RequestAction.on, perform, cancel, hload, hcannot]
      rfl

theorem review_enacts (hfaults : g.faults = []) (hrequest : g.store.request? id = some request)
    (hstatus : request.status = .pending) (decision : Decision) (reviewer : Actor)
    (comment : Option String) (stamp event : Stamp) :
    let review := Review.given id decision reviewer comment stamp
    g.Enacts id (g.perform (.review id decision reviewer comment stamp event))
      (.ok (.reviewed (request.reviewed review decision.resultingStatus) review)) := by
  intro given
  have hcan : request.status.canReview = true := by rw [hstatus]; rfl
  have hopen : request.status.isTerminal = false := by rw [hstatus]; rfl
  have hcall : g.onStore (fun s => s.recordReview given decision.resultingStatus) = _ :=
    onStore_of_done
      (g.store.recordReview_of_open given hrequest hopen decision.resultingStatus)
  simp only [given, Review.given] at hcall
  rw [perform, review, load_of_some hfaults hrequest]
  simp only [hcan, call_of_no_faults hfaults, hcall]
  exact ⟨rfl, rfl⟩

theorem cancel_enacts (hfaults : g.faults = []) (hrequest : g.store.request? id = some request)
    (hstatus : request.status ∈ [Status.pending, .approved, .rejected]) (actor : Actor)
    (time : Instant) (event : Stamp) :
    g.Enacts id (g.perform (.cancel id actor time event))
      (.ok (.cancelled (request.moved .cancelled time))) := by
  have hcan := Status.canCancel_iff.2 hstatus
  have hcall : g.onStore
      (fun s => s.transition id [.pending, .approved, .rejected] .cancelled time) = _ :=
    onStore_of_done (g.store.transition_of_allowed hrequest hstatus .cancelled time)
  rw [perform, cancel, load_of_some hfaults hrequest]
  simp only [hcan, call_of_no_faults hfaults, hcall]
  exact ⟨rfl, rfl⟩

/-- An apply comes to what its write makes of the entry that it finds. -/
theorem apply_enacts (hfaults : g.faults = []) (hrequest : g.store.request? id = some request)
    (hstatus : request.status.canApply = true) (actor : Actor) (time : Instant) (event : Stamp) :
    let action := RequestAction.apply actor time event
    g.Enacts id (g.perform (action.on id)) (action.effectOn g.policy id request
      ((action.writes? request).bind g.store.flags.find?)) := by
  intro action
  have hload := load_of_some hfaults hrequest
  have hreached : takeFault .commitApply g.faults = none := by rw [hfaults]; rfl
  have hallowed := mem_allowed_of_canApply hstatus
  simp only [action, RequestAction.effectOn, RequestAction.on, perform]
  cases hwrite : flagWrite g.policy request with
  | error e =>
      simp only [apply, hload, hstatus, hwrite]
      exact ⟨rfl, rfl⟩
  | ok flag =>
      rw [apply_of_ready hload hstatus hwrite hreached]
      rcases flagWrite_cases hwrite with ⟨_, rfl⟩ | ⟨hflag, config, _, hsome⟩
      · have hcommit : g.store.commitApply id (applyCommit none actor time) = _ :=
          Store.commitApply_of_verify hrequest hallowed
            (fun w hw => absurd hw (Option.not_mem_none w))
        rw [hcommit]
        exact ⟨rfl, announce_store _ _ _ _⟩
      · obtain ⟨write, hid, rfl⟩ :
            ∃ write : FlagWrite, write.id = request.key ∧ flag = some write := ⟨_, rfl, hsome⟩
        have hentry : ((RequestAction.apply actor time event).writes? request).bind
            g.store.flags.find? = g.store.flags.find? write.id := by
          simp [RequestAction.writes?, hflag, hid]
        simp only [hentry]
        cases hverify : write.check.verify (g.store.flags.find? write.id) with
        | error e =>
            have hcommit : g.store.commitApply id (applyCommit (some write) actor time) = _ :=
              Store.commitApply_of_fails hrequest hallowed rfl hverify
            rw [hcommit]
            exact ⟨rfl, rfl⟩
        | ok _ =>
            have hcommit : g.store.commitApply id (applyCommit (some write) actor time) = _ :=
              Store.commitApply_of_verify hrequest hallowed
                (fun w hw => Option.some.inj hw ▸ hverify)
            rw [hcommit]
            exact ⟨rfl, announce_store _ _ _ _⟩

/-- Where no fault is queued, an action answers and leaves what it comes to. -/
theorem enacts_effect (hfaults : g.faults = []) (action : RequestAction) (id : Uuid) :
    g.Enacts id (g.perform (action.on id)) (action.effect g.policy g.store id) := by
  rw [RequestAction.effect]
  cases hrequest : g.store.request? id with
  | none =>
      have hload := load_of_none hfaults hrequest
      cases action with
      | review => simp only [RequestAction.on, perform, review, hload]; exact ⟨rfl, rfl⟩
      | apply => simp only [RequestAction.on, perform, apply, hload]; exact ⟨rfl, rfl⟩
      | cancel => simp only [RequestAction.on, perform, cancel, hload]; exact ⟨rfl, rfl⟩
  | some request =>
      by_cases hstatus : request.status ∈ action.admits
      · simp only [if_pos hstatus]
        cases action with
        | review decision reviewer comment stamp event =>
            exact review_enacts hfaults hrequest (List.mem_singleton.1 hstatus) decision reviewer
              comment stamp event
        | apply actor time event =>
            exact apply_enacts hfaults hrequest (Status.canApply_iff.2 hstatus) actor time event
        | cancel actor time event => exact cancel_enacts hfaults hrequest hstatus actor time event
      · simp only [if_neg hstatus]
        rw [perform_on_misplaced (load_of_some hfaults hrequest) hstatus]
        exact ⟨rfl, rfl⟩

end Governance

end FlagGovernance
