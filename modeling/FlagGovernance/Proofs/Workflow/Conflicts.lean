import FlagGovernance.Proofs.Audit.Effects
import FlagGovernance.Proofs.Refusal
import FlagGovernance.Proofs.Workflow.InStep
/-
Where conflicts come from.

A governance that lets the last write win has no conflicts of its own.  If an operation
on change requests tells of one, it met it as a queued fault, and that fault was there
from the start or was injected on the way; only an id that is used twice is refused by
the store itself.
-/

namespace FlagGovernance

/-- Something was already there, or was not as it was expected. -/
def StoreError.isConflict : StoreError → Bool
  | .conflict _ | .revisionMismatch _ _ => true
  | .notFound _ | .statusMismatch _ | .backend _ => false

/-- The refusal is a conflict, or tells of one in the store. -/
def WorkflowError.isConflict : WorkflowError → Bool
  | .conflict _ => true
  | .store _ cause => cause.isConflict
  | _ => false

theorem WorkflowError.isConflict_ofStore (id : Uuid) (context : String)
    (reason : Status → String) (cause : StoreError) :
    (ofStore id context reason cause).isConflict = cause.isConflict := by
  cases cause <;> rfl

theorem Proposal.check_isConflict {p : Proposal} {e : WorkflowError}
    (hcheck : p.check = .error e) : e.isConflict = false := by
  rw [check] at hcheck
  split at hcheck
  · exact Except.error.inj hcheck ▸ rfl
  · rcases bind_eq_error_iff.1 hcheck with hproject | ⟨_, _, hkey⟩
    · obtain ⟨v, _, rfl⟩ := mapError_eq_error_iff.1 hproject
      rfl
    · split at hkey
      · obtain ⟨v, _, rfl⟩ := mapError_eq_error_iff.1 hkey
        rfl
      · contradiction

theorem flagWrite_isConflict {policy : StalePolicy} {request : ChangeRequest} {e : WorkflowError}
    (hwrite : Governance.flagWrite policy request = .error e) : e.isConflict = false := by
  rw [Governance.flagWrite] at hwrite
  split at hwrite
  · split at hwrite
    · exact Except.error.inj hwrite ▸ rfl
    · contradiction
  · contradiction

namespace Store

variable {s : Store} {e : StoreError}

theorem recordReview_isConflict {review : Review} {status : Option Status}
    (hrefused : (s.recordReview review status).1 = .error e) : e.isConflict = false := by
  rw [recordReview] at hrefused
  split at hrefused
  · exact Except.error.inj hrefused ▸ rfl
  · split at hrefused
    · exact Except.error.inj hrefused ▸ rfl
    · contradiction

theorem transition_isConflict {id : Uuid} {allowed : List Status} {target : Status}
    {now : Instant} (hrefused : (s.transition id allowed target now).1 = .error e) :
    e.isConflict = false := by
  rw [transition] at hrefused
  split at hrefused
  · exact Except.error.inj hrefused ▸ rfl
  · split at hrefused
    · contradiction
    · exact Except.error.inj hrefused ▸ rfl

/-- A commit whose write finds what it expects is in conflict with nothing. -/
theorem commitApply_isConflict {id : Uuid} {commit : ApplyCommit}
    (hverify : ∀ w ∈ commit.flag, w.check.verify (s.flags.find? w.id) = .ok ())
    (hrefused : (s.commitApply id commit).1 = .error e) : e.isConflict = false := by
  cases hrequest : s.request? id with
  | none =>
      rw [commitApply, hrequest] at hrefused
      exact Except.error.inj hrefused ▸ rfl
  | some request =>
      by_cases hallowed : request.status ∈ commit.allowedFrom
      · rw [commitApply_of_verify hrequest hallowed hverify] at hrefused
        contradiction
      · simp only [commitApply, hrequest, hallowed, not_false_eq_true, if_true] at hrefused
        exact Except.error.inj hrefused ▸ rfl

theorem insertRequest_eq_error {request : ChangeRequest}
    (hrefused : (s.insertRequest request).1 = .error e) :
    s.request? request.id ≠ none ∧ e = .conflict (requestText request.id) := by
  rw [insertRequest] at hrefused
  split at hrefused
  · next hthere =>
    refine ⟨fun hnone => ?_, (Except.error.inj hrefused).symm⟩
    rw [(OrderedMap.contains_eq_false_iff _ _).2 hnone] at hthere
    contradiction
  · contradiction

end Store

namespace Governance

variable {α : Type} {g g' : Governance}

/-- A queued conflict was met, and is no longer queued. -/
def MeetsConflict (g g' : Governance) : Prop :=
  ∃ call cause, takeFault call g.faults = some (cause, g'.faults) ∧ cause.isConflict = true

theorem mem_of_takeFault {call : StoreCall} {cause : StoreError}
    {faults rest : List (StoreCall × StoreError)}
    (htake : takeFault call faults = some (cause, rest)) : (call, cause) ∈ faults := by
  induction faults generalizing rest with
  | nil => contradiction
  | cons fault later ih =>
      rw [takeFault] at htake
      split at htake
      · next hcall =>
        obtain ⟨rfl, -⟩ := Prod.mk.inj (Option.some.inj htake)
        exact hcall ▸ List.mem_cons_self
      · obtain ⟨found, hfound, hsame⟩ := Option.map_eq_some_iff.1 htake
        obtain ⟨rfl, -⟩ := Prod.mk.inj hsame
        exact List.mem_cons_of_mem _ (ih hfound)

/-- A call is refused for a fault that it met, or by the store. -/
theorem call_eq_error {name : StoreCall} {step : Store → Store.Step α} {e : StoreError}
    (hcall : g.call name step = (.error e, g')) :
    takeFault name g.faults = some (e, g'.faults) ∨ (step g.store).1 = .error e := by
  rw [call] at hcall
  cases hfault : takeFault name g.faults with
  | some found =>
      rw [hfault] at hcall
      obtain ⟨he, rfl⟩ := Prod.mk.inj hcall
      rw [← Except.error.inj he]
      exact .inl rfl
  | none =>
      rw [hfault] at hcall
      exact .inr (congrArg Prod.fst hcall)

/-- A call that only reads is refused for a fault that it met. -/
theorem read_eq_error {name : StoreCall} {look : Store → α} {e : StoreError}
    (hread : g.read name look = (.error e, g')) :
    takeFault name g.faults = some (e, g'.faults) := by
  rcases call_eq_error hread with hfault | hrefused
  · exact hfault
  · contradiction

theorem meetsConflict_of_call {name : StoreCall} {step : Store → Store.Step α} {e : StoreError}
    (hcall : g.call name step = (.error e, g'))
    (hstep : (step g.store).1 = .error e → e.isConflict = false)
    (he : e.isConflict = true) : g.MeetsConflict g' := by
  rcases call_eq_error hcall with hfault | hrefused
  · exact ⟨name, e, hfault, he⟩
  · rw [hstep hrefused] at he
    contradiction

theorem meetsConflict_of_read {context : String} {name : StoreCall} {look : Store → α}
    {e : WorkflowError} (hread : inContext context (g.read name look) = (.error e, g'))
    (he : e.isConflict = true) : g.MeetsConflict g' := by
  rcases hcall : g.read name look with ⟨_ | found, g₁⟩
  · rw [hcall] at hread
    obtain ⟨hcause, rfl⟩ := Prod.mk.inj hread
    rw [← Except.error.inj hcause] at he
    exact ⟨name, _, read_eq_error hcall, he⟩
  · rw [hcall] at hread
    exact absurd hread answered_ne_refused

theorem meetsConflict_of_load {id : Uuid} {e : WorkflowError}
    (hload : g.load id = (.error e, g')) (he : e.isConflict = true) : g.MeetsConflict g' := by
  rw [load] at hload
  rcases hread : g.read .getRequest (fun s => s.request? id) with ⟨cause | found, g₁⟩
  · rw [hread] at hload
    obtain ⟨hcause, rfl⟩ := Prod.mk.inj hload
    rw [← Except.error.inj hcause] at he
    exact ⟨.getRequest, _, read_eq_error hread, he⟩
  · rw [hread] at hload
    cases found with
    | none =>
        rw [← Except.error.inj (congrArg Prod.fst hload)] at he
        contradiction
    | some request => exact absurd hload answered_ne_refused

theorem meetsConflict_of_currentFlag {p : Proposal} {e : WorkflowError}
    (hflag : g.currentFlag p = (.error e, g')) (he : e.isConflict = true) :
    g.MeetsConflict g' := by
  cases htype : p.resourceType with
  | flag =>
      rcases hread : g.read .getFlag (fun s => s.flag? p.project p.flagKey) with ⟨cause | found, g₁⟩
      · simp only [currentFlag, htype, hread] at hflag
        obtain ⟨hcause, rfl⟩ := Prod.mk.inj hflag
        rw [← Except.error.inj hcause] at he
        exact ⟨.getFlag, _, read_eq_error hread, he⟩
      · simp only [currentFlag, htype, hread] at hflag
        exact absurd hflag answered_ne_refused
  | segment | flagset =>
      simp only [currentFlag, htype] at hflag
      exact absurd hflag answered_ne_refused

theorem currentFlag_eq_ok {p : Proposal} {current : Option StoredFlag}
    (hflag : g.currentFlag p = (.ok current, g')) : g' = g := by
  rcases g.currentFlag_cases p with ⟨e, g₁, herror, _⟩ | hok
  · rw [hflag] at herror
    exact absurd herror answered_ne_refused
  · rw [hflag] at hok
    exact congrArg Prod.snd hok

/-- A new request is in conflict with nothing but another of its id. -/
theorem meetsConflict_of_create {p : Proposal} {author : Actor} {stamp event : Stamp}
    {e : WorkflowError} (hcreate : g.create p author stamp event = (.error e, g'))
    (he : e.isConflict = true) :
    g.MeetsConflict g' ∨ (g.store.request? stamp.id ≠ none ∧
      e = .store "saving change request" (.conflict (Store.requestText stamp.id))) := by
  rw [create] at hcreate
  cases hcheck : p.check with
  | error cause =>
      rw [hcheck] at hcreate
      rw [← Except.error.inj (congrArg Prod.fst hcreate), Proposal.check_isConflict hcheck] at he
      contradiction
  | ok _ =>
      rw [hcheck] at hcreate
      rcases hflag : g.currentFlag p with ⟨cause | current, g₁⟩
      · simp only [hflag] at hcreate
        obtain ⟨hcause, rfl⟩ := Prod.mk.inj hcreate
        exact .inl (meetsConflict_of_currentFlag hflag (Except.error.inj hcause ▸ he))
      · obtain rfl := currentFlag_eq_ok hflag
        simp only [hflag] at hcreate
        rcases hcall : g₁.call .insertRequest
            (fun s => s.insertRequest (p.opened author stamp current)) with ⟨cause | _, g₂⟩
        · simp only [hcall] at hcreate
          obtain ⟨hcause, rfl⟩ := Prod.mk.inj hcreate
          obtain rfl := Except.error.inj hcause
          rcases call_eq_error hcall with hfault | hrefused
          · exact .inl ⟨_, _, hfault, he⟩
          · obtain ⟨hthere, rfl⟩ := Store.insertRequest_eq_error hrefused
            exact .inr ⟨hthere, rfl⟩
        · simp only [hcall] at hcreate
          exact absurd hcreate answered_ne_refused

theorem meetsConflict_of_review {id : Uuid} {decision : Decision} {reviewer : Actor}
    {comment : Option String} {stamp event : Stamp} {e : WorkflowError}
    (hreview : g.review id decision reviewer comment stamp event = (.error e, g'))
    (he : e.isConflict = true) : g.MeetsConflict g' := by
  rw [Governance.review] at hreview
  rcases hload : g.load id with ⟨cause | request, g₁⟩
  · rw [hload] at hreview
    obtain ⟨hcause, rfl⟩ := Prod.mk.inj hreview
    exact meetsConflict_of_load hload (Except.error.inj hcause ▸ he)
  · obtain ⟨_, rfl⟩ := load_eq_ok hload
    rw [hload] at hreview
    dsimp only at hreview
    split at hreview
    · rw [← Except.error.inj (congrArg Prod.fst hreview)] at he
      contradiction
    · split at hreview
      · next cause g₂ hcall =>
        obtain ⟨hcause, rfl⟩ := Prod.mk.inj hreview
        rw [← Except.error.inj hcause, WorkflowError.isConflict_ofStore] at he
        exact meetsConflict_of_call hcall Store.recordReview_isConflict he
      · exact absurd hreview answered_ne_refused

/-- A write that expects nothing is in conflict with nothing. -/
theorem meetsConflict_of_apply (hpolicy : g.policy = .lastWriteWins) {id : Uuid} {actor : Actor}
    {time : Instant} {event : Stamp} {e : WorkflowError}
    (happly : g.apply id actor time event = (.error e, g')) (he : e.isConflict = true) :
    g.MeetsConflict g' := by
  rw [apply] at happly
  rcases hload : g.load id with ⟨cause | request, g₁⟩
  · rw [hload] at happly
    obtain ⟨hcause, rfl⟩ := Prod.mk.inj happly
    exact meetsConflict_of_load hload (Except.error.inj hcause ▸ he)
  · obtain ⟨_, rfl⟩ := load_eq_ok hload
    rw [hload] at happly
    dsimp only at happly
    split at happly
    · rw [← Except.error.inj (congrArg Prod.fst happly)] at he
      contradiction
    · split at happly
      · next cause hwrite =>
        rw [← Except.error.inj (congrArg Prod.fst happly), flagWrite_isConflict hwrite] at he
        contradiction
      · next flag hwrite =>
        have hverify : ∀ w ∈ flag, w.check.verify (g₁.store.flags.find? w.id) = .ok () := by
          rcases flagWrite_cases hwrite with ⟨_, rfl⟩ | ⟨_, config, _, rfl⟩
          · intro w hw
            contradiction
          · rintro w ⟨⟩
            rw [hpolicy]
            exact RevisionCheck.verify_any _
        split at happly
        · next cause g₂ hcall =>
          obtain ⟨hcause, rfl⟩ := Prod.mk.inj happly
          rw [← Except.error.inj hcause, WorkflowError.isConflict_ofStore] at he
          exact meetsConflict_of_call hcall (Store.commitApply_isConflict hverify) he
        · exact absurd happly answered_ne_refused

theorem meetsConflict_of_cancel {id : Uuid} {actor : Actor} {time : Instant} {event : Stamp}
    {e : WorkflowError} (hcancel : g.cancel id actor time event = (.error e, g'))
    (he : e.isConflict = true) : g.MeetsConflict g' := by
  rw [cancel] at hcancel
  rcases hload : g.load id with ⟨cause | request, g₁⟩
  · rw [hload] at hcancel
    obtain ⟨hcause, rfl⟩ := Prod.mk.inj hcancel
    exact meetsConflict_of_load hload (Except.error.inj hcause ▸ he)
  · obtain ⟨_, rfl⟩ := load_eq_ok hload
    rw [hload] at hcancel
    dsimp only at hcancel
    split at hcancel
    · rw [← Except.error.inj (congrArg Prod.fst hcancel)] at he
      contradiction
    · split at hcancel
      · next cause g₂ hcall =>
        obtain ⟨hcause, rfl⟩ := Prod.mk.inj hcancel
        rw [← Except.error.inj hcause, WorkflowError.isConflict_ofStore] at he
        exact meetsConflict_of_call hcall Store.transition_isConflict he
      · exact absurd hcancel answered_ne_refused

theorem meetsConflict_of_get {id : Uuid} {e : WorkflowError}
    (hget : g.get id = (.error e, g')) (he : e.isConflict = true) : g.MeetsConflict g' := by
  rw [get] at hget
  rcases hload : g.load id with ⟨cause | request, g₁⟩
  · rw [hload] at hget
    obtain ⟨hcause, rfl⟩ := Prod.mk.inj hget
    exact meetsConflict_of_load hload (Except.error.inj hcause ▸ he)
  · obtain ⟨_, rfl⟩ := load_eq_ok hload
    rw [hload] at hget
    dsimp only at hget
    split at hget
    · next cause g₂ hread =>
      obtain ⟨hcause, rfl⟩ := Prod.mk.inj hget
      exact meetsConflict_of_read hread (Except.error.inj hcause ▸ he)
    · exact absurd hget answered_ne_refused

theorem told_eq_error {answer : α → Answer} {outcome : Outcome α} {e : WorkflowError}
    (htold : (told .workflow answer outcome).1 = .error (.workflow e)) :
    outcome = (.error e, (told .workflow answer outcome).2) := by
  rcases outcome with ⟨cause | a, g'⟩
  · rw [OperationError.workflow.inj (Except.error.inj htold)]
    rfl
  · contradiction

theorem told_store_ne {answer : α → Answer} {outcome : Except StoreError α × Governance}
    {e : WorkflowError} : (told .store answer outcome).1 ≠ .error (.workflow e) := by
  rcases outcome with ⟨cause | a, g'⟩ <;> exact nofun

/-- Where the last write wins, an operation on change requests that tells of a conflict
met it as a fault, or opens a request under an id that is taken. -/
theorem meetsConflict_of_perform (hpolicy : g.policy = .lastWriteWins) {op : Operation}
    {e : WorkflowError} (hanswer : (g.perform op).1 = .error (.workflow e))
    (he : e.isConflict = true) :
    g.MeetsConflict (g.after op) ∨
      ∃ p author stamp event, op = .create p author stamp event ∧
        g.store.request? stamp.id ≠ none ∧
        e = .store "saving change request" (.conflict (Store.requestText stamp.id)) := by
  cases op with
  | create p author stamp event =>
      exact (meetsConflict_of_create (told_eq_error hanswer) he).imp_right
        (fun hthere => ⟨p, author, stamp, event, rfl, hthere⟩)
  | review => exact .inl (meetsConflict_of_review (told_eq_error hanswer) he)
  | apply => exact .inl (meetsConflict_of_apply hpolicy (told_eq_error hanswer) he)
  | cancel => exact .inl (meetsConflict_of_cancel (told_eq_error hanswer) he)
  | get => exact .inl (meetsConflict_of_get (told_eq_error hanswer) he)
  | list | countPending | flag =>
      exact .inl (meetsConflict_of_read (told_eq_error hanswer) he)
  | seedFlag | putFlag | ensureProject | renameFlag | insertRequest | recordReview | transition
  | commitApply => exact absurd hanswer told_store_ne
  | injectFault => contradiction

/-- Faults are queued by being injected and in no other way. -/
theorem faults_of_after {op : Operation} {fault : StoreCall × StoreError}
    (hfault : fault ∈ (g.after op).faults) :
    fault ∈ g.faults ∨ op = .injectFault fault.1 fault.2 := by
  have hperformed := g.performed op
  generalize (g.perform op).1 = outcome, g.after op = g' at hperformed hfault
  cases hperformed with
  | refused _ hsame | answered _ _ _ hsame =>
      obtain ⟨faults, hgone, rfl⟩ := hsame
      exact .inl (hgone.subset hfault)
  | applied =>
      rw [announce_faults] at hfault
      exact .inl hfault
  | created | reviewed | cancelled | seeded | put | ensured | renamed | inserted | recorded
  | transitioned | committed => exact .inl hfault
  | injected call error =>
      rcases List.mem_append.1 hfault with hbefore | hnew
      · exact .inl hbefore
      · rw [List.mem_singleton.1 hnew]
        exact .inr rfl

/-- A fault that an operation of a run meets was queued before the run or injected in
it. -/
theorem faults_of_occurrence {ops : List Operation} {o : Occurrence}
    (hmem : o ∈ g.occurrences ops) {fault : StoreCall × StoreError}
    (hfault : fault ∈ o.meets.faults) :
    fault ∈ g.faults ∨ .injectFault fault.1 fault.2 ∈ ops := by
  induction ops generalizing g with
  | nil => contradiction
  | cons op rest ih =>
      rw [occurrences, List.mem_cons] at hmem
      rcases hmem with rfl | hlater
      · exact .inl hfault
      · rcases ih hlater with hbefore | hinjected
        · rcases faults_of_after hbefore with hfirst | rfl
          · exact .inl hfirst
          · exact .inr List.mem_cons_self
        · exact .inr (List.mem_cons_of_mem _ hinjected)

end Governance

end FlagGovernance
