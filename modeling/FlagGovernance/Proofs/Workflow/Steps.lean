import FlagGovernance.Proofs.Store.Steps
import FlagGovernance.Workflow.Operations
/-
What each operation on change requests answers and leaves.

An operation is refused and only a queued fault may be gone, or it makes the one
change to the store that is said here, emits its event and, if it wrote a flag,
signals.  Faults are met nowhere else: an operation that succeeds met none.
-/

namespace FlagGovernance

namespace Status

variable {s : Status}

theorem isTerminal_eq_false_iff : s.isTerminal = false ↔ s ∈ [pending, approved, rejected] := by
  cases s <;> decide

theorem canReview_iff : s.canReview = true ↔ s ∈ [pending] := by
  cases s <;> decide

theorem canApply_iff : s.canApply = true ↔ s ∈ [pending, approved] := by
  cases s <;> decide

theorem canCancel_iff : s.canCancel = true ↔ s ∈ [pending, approved, rejected] := by
  rw [canCancel, Bool.not_eq_true', isTerminal_eq_false_iff]

end Status

/-- The flag that a proposal is made over; only flags are looked up. -/
def Store.currentFlag (s : Store) (p : Proposal) : Option StoredFlag :=
  match p.resourceType with
  | .flag => s.flags.find? ⟨p.project, p.flagKey⟩
  | _ => none

/-- The review that an operation records. -/
def Review.given (id : Uuid) (decision : Decision) (reviewer : Actor) (comment : Option String)
    (stamp : Stamp) : Review where
  id := stamp.id
  requestId := id
  reviewer := reviewer
  decision := decision
  comment := unlessBlank comment
  createdAt := stamp.time

/-- What applying a request commits, with the flag part given. -/
def applyCommit (flag : Option FlagWrite) (actor : Actor) (time : Instant) : ApplyCommit :=
  ⟨[.approved, .pending], flag, actor, time⟩

namespace Governance

/-- Nothing differs but that queued faults may be gone. -/
def Unmoved (g g' : Governance) : Prop :=
  ∃ faults, faults.Sublist g.faults ∧ g' = { g with faults }

/-- The governance over another store. -/
def withStore (g : Governance) (store : Store) : Governance := { g with store }

theorem Unmoved.refl (g : Governance) : g.Unmoved g := ⟨g.faults, .refl _, rfl⟩

theorem Unmoved.store_eq {g g' : Governance} (h : g.Unmoved g') : g'.store = g.store := by
  obtain ⟨_, _, rfl⟩ := h
  rfl

theorem Unmoved.policy_eq {g g' : Governance} (h : g.Unmoved g') : g'.policy = g.policy := by
  obtain ⟨_, _, rfl⟩ := h
  rfl

theorem Unmoved.sink_eq {g g' : Governance} (h : g.Unmoved g') : g'.sink = g.sink := by
  obtain ⟨_, _, rfl⟩ := h
  rfl

theorem Unmoved.relay_eq {g g' : Governance} (h : g.Unmoved g') : g'.relay = g.relay := by
  obtain ⟨_, _, rfl⟩ := h
  rfl

theorem Unmoved.signals_eq {g g' : Governance} (h : g.Unmoved g') : g'.signals = g.signals := by
  obtain ⟨_, _, rfl⟩ := h
  rfl

/-- With no faults queued, nothing differs at all. -/
theorem Unmoved.eq_of_no_faults {g g' : Governance} (h : g.Unmoved g') (hfaults : g.faults = []) :
    g' = g := by
  obtain ⟨faults, hgone, rfl⟩ := h
  rw [hfaults] at hgone
  obtain rfl := List.sublist_nil.1 hgone
  rw [← hfaults]

theorem takeFault_sublist {call : StoreCall} {faults : List (StoreCall × StoreError)}
    {found : StoreError × List (StoreCall × StoreError)}
    (hfound : takeFault call faults = some found) : found.2.Sublist faults := by
  induction faults generalizing found with
  | nil => contradiction
  | cons fault rest ih =>
      rw [takeFault] at hfound
      split at hfound
      · obtain rfl := Option.some.inj hfound
        exact List.sublist_cons_self _ _
      · obtain ⟨later, hlater, rfl⟩ := Option.map_eq_some_iff.1 hfound
        exact (ih hlater).cons_cons _

theorem unmoved_of_takeFault {g : Governance} {call : StoreCall}
    {found : StoreError × List (StoreCall × StoreError)}
    (hfound : takeFault call g.faults = some found) :
    g.Unmoved { g with faults := found.2 } :=
  ⟨found.2, takeFault_sublist hfound, rfl⟩

@[simp] theorem emit_store (g : Governance) (event : AuditEvent) :
    (g.emit event).store = g.store := rfl

/-- Telling of a change keeps all but the log and the signals. -/
theorem announce_eq (g : Governance) (stamp : Stamp) (actor : Actor) (applied : AppliedChange) :
    ∃ sink signals, g.announce stamp actor applied = { g with sink, signals } := by
  rw [announce]
  split
  · rw [signal]
    split
    · exact ⟨_, g.signals, rfl⟩
    · exact ⟨_, _, rfl⟩
  · exact ⟨_, g.signals, rfl⟩

@[simp] theorem announce_store (g : Governance) (stamp : Stamp) (actor : Actor)
    (applied : AppliedChange) : (g.announce stamp actor applied).store = g.store := by
  obtain ⟨_, _, heq⟩ := g.announce_eq stamp actor applied
  rw [heq]

theorem announce_policy (g : Governance) (stamp : Stamp) (actor : Actor)
    (applied : AppliedChange) : (g.announce stamp actor applied).policy = g.policy := by
  obtain ⟨_, _, heq⟩ := g.announce_eq stamp actor applied
  rw [heq]

theorem announce_faults (g : Governance) (stamp : Stamp) (actor : Actor)
    (applied : AppliedChange) : (g.announce stamp actor applied).faults = g.faults := by
  obtain ⟨_, _, heq⟩ := g.announce_eq stamp actor applied
  rw [heq]

variable {α : Type}

theorem answered_ne_refused {ε : Type} {g g' : Governance} {a : α} {e : ε} :
    ((.ok a, g) : Except ε α × Governance) ≠ (.error e, g') := by
  intro hsame
  cases hsame

/-- A call leaves the store, or leaves it as its step does. -/
theorem call_store (g : Governance) (name : StoreCall) (step : Store → Store.Step α) :
    (g.call name step).2.store = g.store ∨ (g.call name step).2.store = (step g.store).2 := by
  rw [call]
  split
  · exact .inl rfl
  · exact .inr rfl

/-- A call that the store refuses, or that meets a fault. -/
theorem call_of_refused (g : Governance) (name : StoreCall) (step : Store → Store.Step α)
    {e : StoreError} (hstep : step g.store = (.error e, g.store)) :
    ∃ e g', g.call name step = (.error e, g') ∧ g.Unmoved g' := by
  cases hfault : takeFault name g.faults with
  | some found => exact ⟨found.1, _, by rw [call, hfault], unmoved_of_takeFault hfault⟩
  | none => exact ⟨e, g, by rw [call, hfault]; simp only [hstep], .refl g⟩

/-- A call that the store would do is done, unless it meets a fault. -/
theorem call_of_done (g : Governance) (name : StoreCall) (step : Store → Store.Step α)
    {a : α} {store : Store} (hstep : step g.store = (.ok a, store)) :
    (∃ e g', g.call name step = (.error e, g') ∧ g.Unmoved g') ∨
    g.call name step = (.ok a, g.withStore store) := by
  cases hfault : takeFault name g.faults with
  | some found =>
      exact .inl ⟨found.1, _, by rw [call, hfault], unmoved_of_takeFault hfault⟩
  | none => exact .inr (by rw [call, hfault]; simp only [hstep]; rfl)

theorem read_cases (g : Governance) (name : StoreCall) (look : Store → α) :
    (∃ e g', g.read name look = (.error e, g') ∧ g.Unmoved g') ∨
    g.read name look = (.ok (look g.store), g) :=
  g.call_of_done name (fun s => (.ok (look s), s)) rfl

theorem load_cases (g : Governance) (id : Uuid) :
    (∃ e g', g.load id = (.error e, g') ∧ g.Unmoved g') ∨
    (∃ request, g.store.request? id = some request ∧ g.load id = (.ok request, g)) := by
  rcases g.read_cases .getRequest (fun s => s.request? id) with ⟨e, g', hread, hsame⟩ | hread
  · exact .inl ⟨.store "loading change request" e, g', by rw [load, hread], hsame⟩
  · cases hrequest : g.store.request? id with
    | none => exact .inl ⟨.notFound id, g, by rw [load, hread, hrequest], .refl g⟩
    | some request => exact .inr ⟨request, rfl, by rw [load, hread, hrequest]⟩

/-- What is loaded is there, and loading it changed nothing. -/
theorem load_eq_ok {g g' : Governance} {id : Uuid} {request : ChangeRequest}
    (hload : g.load id = (.ok request, g')) :
    g.store.request? id = some request ∧ g' = g := by
  rcases g.load_cases id with ⟨e, g₁, herror, _⟩ | ⟨found, hfound, hok⟩
  · rw [hload] at herror
    exact absurd herror answered_ne_refused
  · rw [hload] at hok
    obtain ⟨hsame, rfl⟩ := Prod.mk.inj hok
    exact ⟨Except.ok.inj hsame ▸ hfound, rfl⟩

theorem currentFlag_cases (g : Governance) (p : Proposal) :
    (∃ e g', g.currentFlag p = (.error e, g') ∧ g.Unmoved g') ∨
    g.currentFlag p = (.ok (g.store.currentFlag p), g) := by
  cases htype : p.resourceType with
  | flag =>
      rcases g.read_cases .getFlag (fun s => s.flag? p.project p.flagKey) with
        ⟨e, g', hread, hsame⟩ | hread
      · refine .inl ⟨.store "loading current flag" e, g', ?_, hsame⟩
        simp only [currentFlag, htype, hread]
      · refine .inr ?_
        simp only [currentFlag, Store.currentFlag, htype, hread]
        rfl
  | segment => exact .inr (by simp only [currentFlag, Store.currentFlag, htype])
  | flagset => exact .inr (by simp only [currentFlag, Store.currentFlag, htype])

/-- The request is opened over the flag in force, under an id not used before. -/
theorem create_cases (g : Governance) (p : Proposal) (author : Actor) (stamp event : Stamp) :
    let request := p.opened author stamp (g.store.currentFlag p)
    (∃ e g', g.create p author stamp event = (.error e, g') ∧ g.Unmoved g') ∨
    (p.check = .ok () ∧ g.store.request? stamp.id = none ∧
      g.create p author stamp event = (.ok request,
        (g.withStore (g.store.withRequest stamp.id request)).emit
          (createdEvent event author request))) := by
  intro request
  have hcall : (∃ e g', g.call .insertRequest (fun s => s.insertRequest request) = (.error e, g') ∧
        g.Unmoved g') ∨
      (g.store.request? stamp.id = none ∧
        g.call .insertRequest (fun s => s.insertRequest request) =
          (.ok (), g.withStore (g.store.withRequest stamp.id request))) := by
    rcases g.store.insertRequest_cases request with ⟨e, hinsert⟩ | ⟨hfree, hinsert⟩
    · exact .inl (g.call_of_refused _ _ hinsert)
    · exact (g.call_of_done _ _ hinsert).imp_right (⟨hfree, ·⟩)
  cases hcheck : p.check with
  | error e => exact .inl ⟨e, g, by rw [create, hcheck], .refl g⟩
  | ok _ =>
      rcases g.currentFlag_cases p with ⟨e, g', hflag, hsame⟩ | hflag
      · exact .inl ⟨e, g', by rw [create, hcheck]; simp only [hflag], hsame⟩
      · rcases hcall with ⟨e, g', hcall, hsame⟩ | ⟨hfree, hcall⟩
        · refine .inl ⟨.store "saving change request" e, g', ?_, hsame⟩
          rw [create, hcheck]
          simp only [request] at hcall
          simp only [hflag, hcall]
        · refine .inr ⟨rfl, hfree, ?_⟩
          rw [create, hcheck]
          simp only [request] at hcall ⊢
          simp only [hflag, hcall]

/-- Only a pending request takes a review. -/
theorem review_cases (g : Governance) (id : Uuid) (decision : Decision) (reviewer : Actor)
    (comment : Option String) (stamp event : Stamp) :
    let review := Review.given id decision reviewer comment stamp
    (∃ e g', g.review id decision reviewer comment stamp event = (.error e, g') ∧ g.Unmoved g') ∨
    (∃ request, g.store.request? id = some request ∧ request.status = .pending ∧
      let updated := request.reviewed review decision.resultingStatus
      g.review id decision reviewer comment stamp event = (.ok ⟨updated, review⟩,
        (g.withStore ((g.store.withRequest id updated).withReview review)).emit
          (reviewedEvent event updated review))) := by
  intro review
  rcases g.load_cases id with ⟨e, g', hload, hsame⟩ | ⟨request, hrequest, hload⟩
  · exact .inl ⟨e, g', by rw [Governance.review, hload], hsame⟩
  cases hstatus : request.status.canReview with
  | false =>
      refine .inl ⟨.invalidState request.status WorkflowError.notPending, g, ?_, .refl g⟩
      rw [Governance.review, hload]
      simp [hstatus]
  | true =>
      have hpending : request.status = .pending :=
        List.mem_singleton.1 (Status.canReview_iff.1 hstatus)
      have hopen : request.status.isTerminal = false := by rw [hpending]; rfl
      have hrecord := g.store.recordReview_of_open review hrequest hopen
        decision.resultingStatus
      rcases g.call_of_done .recordReview
          (fun s => s.recordReview review decision.resultingStatus) hrecord with
        ⟨e, g', hcall, hsame⟩ | hcall
      · refine .inl ⟨.ofStore id "recording review" (fun _ => WorkflowError.notPending) e, g', ?_,
          hsame⟩
        rw [Governance.review, hload]
        simp only [hstatus, review, Review.given] at hcall ⊢
        simp [hcall]
      · refine .inr ⟨request, hrequest, hpending, ?_⟩
        rw [Governance.review, hload]
        simp only [hstatus, review, Review.given] at hcall ⊢
        simp [hcall]

/-- Only flags are written, and only with a configuration that the proposal
validates to. -/
theorem flagWrite_cases {policy : StalePolicy} {request : ChangeRequest}
    {flag : Option FlagWrite} (hwrite : flagWrite policy request = .ok flag) :
    (request.resourceType ≠ .flag ∧ flag = none) ∨
    (request.resourceType = .flag ∧ ∃ config,
      validateDocument request.proposedConfig = .ok config ∧
      flag = some ⟨request.project, request.flagKey, config,
        policy.check request.baseRevision⟩) := by
  cases htype : request.resourceType with
  | flag =>
      rw [flagWrite, htype] at hwrite
      dsimp only at hwrite
      cases hconfig : validateDocument request.proposedConfig with
      | error v =>
          rw [hconfig] at hwrite
          contradiction
      | ok config =>
          rw [hconfig] at hwrite
          injection hwrite with hwrite
          exact .inr ⟨rfl, config, rfl, hwrite.symm⟩
  | segment | flagset =>
      rw [flagWrite, htype] at hwrite
      injection hwrite with hwrite
      exact .inl ⟨nofun, hwrite.symm⟩

theorem mem_allowed_of_canApply {status : Status} (hstatus : status.canApply = true) :
    status ∈ [Status.approved, .pending] := by
  cases status with
  | pending | approved => decide
  | rejected | applied | cancelled => contradiction

/-- An apply that gets as far as its commit goes as the commit goes. -/
theorem apply_of_ready {g : Governance} {id : Uuid} {actor : Actor} {time : Instant}
    {request : ChangeRequest} {flag : Option FlagWrite} (hload : g.load id = (.ok request, g))
    (hstatus : request.status.canApply = true) (hwrite : flagWrite g.policy request = .ok flag)
    (hreached : takeFault .commitApply g.faults = none) (event : Stamp) :
    g.apply id actor time event =
      match g.store.commitApply id (applyCommit flag actor time) with
      | (.error e, store) => (.error (.ofStore id "applying change request"
          (fun _ => WorkflowError.notApplicable) e), g.withStore store)
      | (.ok change, store) => (.ok change, (g.withStore store).announce event actor change) := by
  rw [apply, hload]
  simp only [hstatus, hwrite, call, hreached, applyCommit]
  rcases g.store.commitApply id ⟨[.approved, .pending], flag, actor, time⟩ with ⟨_ | _, store⟩
  · rfl
  · rfl

/-- A pending or approved request is applied if its proposal is valid and the
flag is as the policy expects it. -/
theorem apply_cases (g : Governance) (id : Uuid) (actor : Actor) (time : Instant) (event : Stamp) :
    (∃ e g', g.apply id actor time event = (.error e, g') ∧ g.Unmoved g') ∨
    (∃ request flag, g.store.request? id = some request ∧ request.status.canApply = true ∧
      flagWrite g.policy request = .ok flag ∧
      (∀ w ∈ flag, w.check.verify (g.store.flags.find? w.id) = .ok ()) ∧
      let applied := g.store.appliedChange request (applyCommit flag actor time)
      g.apply id actor time event = (.ok applied,
        (g.withStore ((g.store.withFlagWrite flag time).withRequest id
          (request.applied actor time))).announce event actor applied)) := by
  rcases g.load_cases id with ⟨e, g', hload, hsame⟩ | ⟨request, hrequest, hload⟩
  · exact .inl ⟨e, g', by rw [apply, hload], hsame⟩
  cases hstatus : request.status.canApply with
  | false =>
      refine .inl ⟨.invalidState request.status WorkflowError.notApplicable, g, ?_, .refl g⟩
      rw [apply, hload]
      simp [hstatus]
  | true =>
      cases hflag : flagWrite g.policy request with
      | error e => exact .inl ⟨e, g, by rw [apply, hload]; simp [hstatus, hflag], .refl g⟩
      | ok flag =>
          let commit := applyCommit flag actor time
          have hcall :
              (∃ e g', g.call .commitApply (fun s => s.commitApply id commit) = (.error e, g') ∧
                g.Unmoved g') ∨
              ((∀ w ∈ flag, w.check.verify (g.store.flags.find? w.id) = .ok ()) ∧
                g.call .commitApply (fun s => s.commitApply id commit) =
                  (.ok (g.store.appliedChange request commit),
                    g.withStore ((g.store.withFlagWrite flag time).withRequest id
                      (request.applied actor time)))) := by
            rcases g.store.commitApply_cases id commit with ⟨e, hcommit⟩ |
              ⟨found, hfound, _, hverify, hcommit⟩
            · exact .inl (g.call_of_refused _ _ hcommit)
            · obtain rfl : request = found := Option.some.inj (hrequest.symm.trans hfound)
              exact (g.call_of_done _ _ hcommit).imp_right (⟨hverify, ·⟩)
          simp only [commit, applyCommit] at hcall
          rcases hcall with ⟨e, g', hcall, hsame⟩ | ⟨hverify, hcall⟩
          · refine .inl
              ⟨.ofStore id "applying change request" (fun _ => WorkflowError.notApplicable) e,
                g', ?_, hsame⟩
            rw [apply, hload]
            simp [hstatus, hflag, hcall]
          · refine .inr ⟨request, flag, hrequest, hstatus, hflag, hverify, ?_⟩
            rw [apply, hload]
            simp [hstatus, hflag, hcall, applyCommit]

/-- A request that is neither applied nor cancelled is cancelled. -/
theorem cancel_cases (g : Governance) (id : Uuid) (actor : Actor) (time : Instant)
    (event : Stamp) :
    (∃ e g', g.cancel id actor time event = (.error e, g') ∧ g.Unmoved g') ∨
    (∃ request, g.store.request? id = some request ∧ request.status.isTerminal = false ∧
      let updated := request.moved .cancelled time
      g.cancel id actor time event = (.ok updated,
        (g.withStore (g.store.withRequest id updated)).emit
          (cancelledEvent event actor request.status updated))) := by
  rcases g.load_cases id with ⟨e, g', hload, hsame⟩ | ⟨request, hrequest, hload⟩
  · exact .inl ⟨e, g', by rw [cancel, hload], hsame⟩
  cases hstatus : request.status.isTerminal with
  | true =>
      refine .inl ⟨.invalidState request.status (WorkflowError.cannotCancel request.status), g,
        ?_, .refl g⟩
      rw [cancel, hload]
      simp [Status.canCancel, hstatus]
  | false =>
      have hallowed := Status.isTerminal_eq_false_iff.1 hstatus
      have htransition := g.store.transition_of_allowed hrequest hallowed .cancelled time
      rcases g.call_of_done .transition
          (fun s => s.transition id [.pending, .approved, .rejected] .cancelled time)
          htransition with ⟨e, g', hcall, hsame⟩ | hcall
      · refine .inl ⟨.ofStore id "cancelling change request" WorkflowError.cannotCancel e, g', ?_,
          hsame⟩
        rw [cancel, hload]
        simp [Status.canCancel, hstatus, hcall]
      · refine .inr ⟨request, hrequest, hstatus, ?_⟩
        rw [cancel, hload]
        simp [Status.canCancel, hstatus, hcall]

/-- A question leaves everything but the faults. -/
theorem inContext_read_unmoved (g : Governance) (context : String) (name : StoreCall)
    (look : Store → α) : g.Unmoved (inContext context (g.read name look)).2 := by
  rcases g.read_cases name look with ⟨e, g', hread, hsame⟩ | hread
  · rw [hread]
    exact hsame
  · rw [hread]
    exact .refl g

theorem get_unmoved (g : Governance) (id : Uuid) : g.Unmoved (g.get id).2 := by
  rcases g.load_cases id with ⟨e, g', hload, hsame⟩ | ⟨request, _, hload⟩
  · rw [get, hload]
    exact hsame
  · rcases g.read_cases .listReviews (fun s => s.listReviews id) with ⟨e, g', hread, hsame⟩ | hread
    · rw [get, hload]
      simp only [hread, inContext]
      exact hsame
    · rw [get, hload]
      simp only [hread, inContext]
      exact .refl g

end Governance

end FlagGovernance
