import FlagGovernance.Proofs.Run
/-
Two governances in step.

Governances are in step if they have the same store and the same faults to meet.  Asked
the same they answer the same and are in step again, whoever listens to each.  Their
policies matter in one place: applying a request, the two must commit to the same effect.
-/

namespace FlagGovernance

/-- The write with another expectation of what it finds. -/
def FlagWrite.expecting (write : FlagWrite) (check : RevisionCheck) : FlagWrite :=
  { write with check }

namespace Governance

/-- The same store and the same faults; all else may differ. -/
structure InStep (g g' : Governance) : Prop where
  store : g'.store = g.store
  faults : g'.faults = g.faults

variable {α ε : Type} {g g' : Governance}

/-- The same answer, and governances that are in step. -/
def AnswersInStep (outcome outcome' : Except ε α × Governance) : Prop :=
  ∃ answer g g', outcome = (answer, g) ∧ outcome' = (answer, g') ∧ g.InStep g'

/-- If an apply comes to commit, then the writes that the two policies bring have the
same effect. -/
def CommitsInStep (g g' : Governance) (id : Uuid) (actor : Actor) (time : Instant) : Prop :=
  ∀ request flag flag', g.load id = (.ok request, g) → request.status.canApply = true →
    flagWrite g.policy request = .ok flag → flagWrite g'.policy request = .ok flag' →
    takeFault .commitApply g.faults = none →
    g.store.commitApply id (applyCommit flag' actor time) =
      g.store.commitApply id (applyCommit flag actor time)

/-- The policy decides what a write expects to find, and nothing else. -/
theorem flagWrite_expecting (policy policy' : StalePolicy) (request : ChangeRequest) :
    flagWrite policy' request = (flagWrite policy request).map
      (Option.map (fun write => write.expecting (policy'.check request.baseRevision))) := by
  rw [flagWrite, flagWrite]
  cases request.resourceType with
  | flag => cases validateDocument request.proposedConfig <;> rfl
  | segment | flagset => rfl

theorem InStep.answers (hstep : g.InStep g') (answer : Except ε α) :
    AnswersInStep (answer, g) (answer, g') :=
  ⟨answer, g, g', rfl, rfl, hstep⟩

theorem InStep.emit (hstep : g.InStep g') (event : AuditEvent) :
    (g.emit event).InStep (g'.emit event) :=
  ⟨hstep.store, hstep.faults⟩

theorem InStep.announce (hstep : g.InStep g') (stamp : Stamp) (actor : Actor)
    (change : AppliedChange) :
    (g.announce stamp actor change).InStep (g'.announce stamp actor change) := by
  constructor
  · rw [announce_store, announce_store]
    exact hstep.store
  · rw [announce_faults, announce_faults]
    exact hstep.faults

/-- Both calls meet the same fault, or take steps of the same store that come to the
same. -/
theorem call_inStep_of_eq (hstep : g.InStep g') (name : StoreCall)
    (step step' : Store → Store.Step α)
    (hsame : takeFault name g.faults = none → step' g.store = step g.store) :
    AnswersInStep (g.call name step) (g'.call name step') := by
  rw [call, call, hstep.faults, hstep.store]
  cases hfault : takeFault name g.faults with
  | some found => exact ⟨_, _, _, rfl, rfl, rfl, rfl⟩
  | none =>
      dsimp only
      rw [hsame hfault]
      exact ⟨_, _, _, rfl, rfl, rfl, rfl⟩

theorem call_inStep (hstep : g.InStep g') (name : StoreCall) (step : Store → Store.Step α) :
    AnswersInStep (g.call name step) (g'.call name step) :=
  call_inStep_of_eq hstep name step step (fun _ => rfl)

theorem read_inStep (hstep : g.InStep g') (name : StoreCall) (look : Store → α) :
    AnswersInStep (g.read name look) (g'.read name look) :=
  call_inStep hstep name _

theorem load_inStep (hstep : g.InStep g') (id : Uuid) :
    AnswersInStep (g.load id) (g'.load id) := by
  obtain ⟨found, g₁, g₁', hread, hread', hstep⟩ :=
    read_inStep hstep .getRequest (fun s => s.request? id)
  rw [load, load, hread, hread']
  cases found with
  | error e => exact hstep.answers _
  | ok found =>
      cases found with
      | none => exact hstep.answers _
      | some request => exact hstep.answers _

theorem currentFlag_inStep (hstep : g.InStep g') (p : Proposal) :
    AnswersInStep (g.currentFlag p) (g'.currentFlag p) := by
  obtain ⟨found, g₁, g₁', hread, hread', hstep₁⟩ :=
    read_inStep hstep .getFlag (fun s => s.flag? p.project p.flagKey)
  rw [currentFlag, currentFlag, hread, hread']
  cases p.resourceType with
  | flag =>
      cases found with
      | error e => exact hstep₁.answers _
      | ok current => exact hstep₁.answers _
  | segment | flagset => exact hstep.answers _

theorem create_inStep (hstep : g.InStep g') (p : Proposal) (author : Actor)
    (stamp event : Stamp) :
    AnswersInStep (g.create p author stamp event) (g'.create p author stamp event) := by
  obtain ⟨found, g₁, g₁', hflag, hflag', hstep₁⟩ := currentFlag_inStep hstep p
  rw [create, create, hflag, hflag']
  cases p.check with
  | error e => exact hstep.answers _
  | ok _ =>
      cases found with
      | error e => exact hstep₁.answers _
      | ok current =>
          obtain ⟨answer, g₂, g₂', hcall, hcall', hstep₂⟩ := call_inStep hstep₁ .insertRequest
            (fun s => s.insertRequest (p.opened author stamp current))
          dsimp only
          rw [hcall, hcall']
          cases answer with
          | error e => exact hstep₂.answers _
          | ok _ => exact (hstep₂.emit _).answers _

theorem review_inStep (hstep : g.InStep g') (id : Uuid) (decision : Decision)
    (reviewer : Actor) (comment : Option String) (stamp event : Stamp) :
    AnswersInStep (g.review id decision reviewer comment stamp event)
      (g'.review id decision reviewer comment stamp event) := by
  obtain ⟨found, g₁, g₁', hload, hload', hstep₁⟩ := load_inStep hstep id
  rw [Governance.review, Governance.review, hload, hload']
  cases found with
  | error e => exact hstep₁.answers _
  | ok request =>
      dsimp only
      split
      · exact hstep₁.answers _
      · obtain ⟨answer, g₂, g₂', hcall, hcall', hstep₂⟩ := call_inStep hstep₁ .recordReview
          (fun s => s.recordReview (Review.given id decision reviewer comment stamp)
            decision.resultingStatus)
        simp only [Review.given] at hcall hcall'
        rw [hcall, hcall']
        cases answer with
        | error e => exact hstep₂.answers _
        | ok updated => exact (hstep₂.emit _).answers _

/-- What a write expects to find is up to the policy. -/
theorem apply_inStep (hstep : g.InStep g') {id : Uuid} {actor : Actor} {time : Instant}
    (hcommits : g.CommitsInStep g' id actor time) (event : Stamp) :
    AnswersInStep (g.apply id actor time event) (g'.apply id actor time event) := by
  obtain ⟨found, g₁, g₁', hload, hload', hstep₁⟩ := load_inStep hstep id
  rw [apply, apply, hload, hload']
  cases found with
  | error e => exact hstep₁.answers _
  | ok request =>
      obtain ⟨_, rfl⟩ := load_eq_ok hload
      obtain ⟨_, rfl⟩ := load_eq_ok hload'
      dsimp only
      split
      · exact hstep.answers _
      · next hstatus =>
        have hwrites := flagWrite_expecting g₁.policy g₁'.policy request
        cases hflag : flagWrite g₁.policy request with
        | error e =>
            rw [hflag] at hwrites
            rw [hwrites]
            exact hstep.answers _
        | ok flag =>
            rw [hflag] at hwrites
            obtain ⟨flag', hflag'⟩ : ∃ flag', flagWrite g₁'.policy request = .ok flag' :=
              ⟨_, hwrites⟩
            have happlies : request.status.canApply = true := by simpa using hstatus
            obtain ⟨answer, g₂, g₂', hcall, hcall', hstep₂⟩ := call_inStep_of_eq hstep .commitApply
              (fun s => s.commitApply id ⟨[.approved, .pending], flag, actor, time⟩)
              (fun s => s.commitApply id ⟨[.approved, .pending], flag', actor, time⟩)
              (hcommits request flag flag' hload happlies hflag hflag')
            rw [hflag']
            dsimp only
            rw [hcall, hcall']
            cases answer with
            | error e => exact hstep₂.answers _
            | ok change => exact (hstep₂.announce event actor change).answers _

theorem cancel_inStep (hstep : g.InStep g') (id : Uuid) (actor : Actor) (time : Instant)
    (event : Stamp) :
    AnswersInStep (g.cancel id actor time event) (g'.cancel id actor time event) := by
  obtain ⟨found, g₁, g₁', hload, hload', hstep₁⟩ := load_inStep hstep id
  rw [cancel, cancel, hload, hload']
  cases found with
  | error e => exact hstep₁.answers _
  | ok request =>
      dsimp only
      split
      · exact hstep₁.answers _
      · obtain ⟨answer, g₂, g₂', hcall, hcall', hstep₂⟩ := call_inStep hstep₁ .transition
          (fun s => s.transition id [.pending, .approved, .rejected] .cancelled time)
        rw [hcall, hcall']
        cases answer with
        | error e => exact hstep₂.answers _
        | ok updated => exact (hstep₂.emit _).answers _

theorem inContext_inStep {outcome outcome' : Except StoreError α × Governance}
    (hstep : AnswersInStep outcome outcome') (context : String) :
    AnswersInStep (inContext context outcome) (inContext context outcome') := by
  obtain ⟨answer, g₁, g₁', rfl, rfl, hstep⟩ := hstep
  cases answer with
  | error e => exact hstep.answers _
  | ok a => exact hstep.answers _

theorem get_inStep (hstep : g.InStep g') (id : Uuid) : AnswersInStep (g.get id) (g'.get id) := by
  obtain ⟨found, g₁, g₁', hload, hload', hstep₁⟩ := load_inStep hstep id
  rw [get, get, hload, hload']
  cases found with
  | error e => exact hstep₁.answers _
  | ok request =>
      obtain ⟨answer, g₂, g₂', hread, hread', hstep₂⟩ :=
        inContext_inStep (read_inStep hstep₁ .listReviews (fun s => s.listReviews id))
          "loading reviews"
      dsimp only
      rw [hread, hread']
      cases answer with
      | error e => exact hstep₂.answers _
      | ok reviews => exact hstep₂.answers _

theorem onStore_inStep (hstep : g.InStep g') (step : Store → Store.Step α) :
    AnswersInStep (g.onStore step) (g'.onStore step) := by
  rw [onStore, onStore, hstep.store]
  exact ⟨_, _, _, rfl, rfl, rfl, hstep.faults⟩

theorem told_inStep {outcome outcome' : Except ε α × Governance}
    (hstep : AnswersInStep outcome outcome') (refusal : ε → OperationError)
    (answer : α → Answer) :
    AnswersInStep (told refusal answer outcome) (told refusal answer outcome') := by
  obtain ⟨result, g₁, g₁', rfl, rfl, hstep⟩ := hstep
  cases result with
  | error e => exact hstep.answers _
  | ok a => exact hstep.answers _

/-- Governances in step answer every operation the same and stay in step. -/
theorem perform_inStep (hstep : g.InStep g') (op : Operation)
    (hcommits : ∀ id actor time event, op = .apply id actor time event →
      g.CommitsInStep g' id actor time) :
    AnswersInStep (g.perform op) (g'.perform op) := by
  cases op with
  | create p author stamp event => exact told_inStep (create_inStep hstep p author stamp event) _ _
  | review id decision reviewer comment stamp event =>
      exact told_inStep (review_inStep hstep id decision reviewer comment stamp event) _ _
  | apply id actor time event =>
      exact told_inStep (apply_inStep hstep (hcommits id actor time event rfl) event) _ _
  | cancel id actor time event => exact told_inStep (cancel_inStep hstep id actor time event) _ _
  | get id => exact told_inStep (get_inStep hstep id) _ _
  | list filter => exact told_inStep (inContext_inStep (read_inStep hstep _ _) _) _ _
  | countPending => exact told_inStep (inContext_inStep (read_inStep hstep _ _) _) _ _
  | flag project key => exact told_inStep (inContext_inStep (read_inStep hstep _ _) _) _ _
  | seedFlag | putFlag | ensureProject | renameFlag | insertRequest | recordReview | transition
  | commitApply =>
      rw [perform, perform]
      exact told_inStep (onStore_inStep hstep _) _ _
  | injectFault call error =>
      rw [perform, perform, hstep.faults]
      exact ⟨_, _, _, rfl, rfl, hstep.store, rfl⟩

/-- Under one policy the two commit the same. -/
theorem commitsInStep_of_policy (hpolicy : g'.policy = g.policy) (id : Uuid) (actor : Actor)
    (time : Instant) : g.CommitsInStep g' id actor time := by
  intro request flag flag' _ _ hflag hflag' _
  rw [hpolicy, hflag] at hflag'
  rw [Except.ok.inj hflag']

end Governance

end FlagGovernance
