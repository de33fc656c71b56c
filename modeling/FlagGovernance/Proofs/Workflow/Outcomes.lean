import FlagGovernance.Proofs.Interleaving
import FlagGovernance.Proofs.Openings
import FlagGovernance.Proofs.Refusal
import FlagGovernance.Proofs.Revision.Growth
import FlagGovernance.Proofs.Workflow.Actions
/-
When each operation on change requests is done, and why else it is refused.

What stands in the way of an action is listed in the order in which it is looked for, and
the first of it is the refusal.  The guards that the store repeats never refuse: what an
operation has seen of the status when it looks still holds at the call that follows.
-/

namespace FlagGovernance

namespace Text

theorem dropWhile_isBlank_eq_nil_iff (text : List Char) :
    text.dropWhile isBlank = [] ↔ text.all isBlank = true := by
  induction text with
  | nil => exact iff_of_true rfl rfl
  | cons c rest ih =>
      cases hblank : isBlank c with
      | true => rw [List.dropWhile_cons_of_pos hblank, ih, List.all_cons, hblank, Bool.true_and]
      | false => simp [hblank]

theorem trim_eq_empty_iff (text : String) : trim text = "" ↔ allBlank text = true := by
  have hall : text.toList.all isBlank = (text.toList.dropWhile isBlank).all isBlank := by
    have hsplit := List.takeWhile_append_dropWhile (p := isBlank) (l := text.toList)
    rw [← congrArg (List.all · isBlank) hsplit, List.all_append, List.all_takeWhile, Bool.true_and]
  rw [trim, trimChars, dropRightWhile, String.ofList_eq_empty_iff, List.reverse_eq_nil_iff,
    dropWhile_isBlank_eq_nil_iff, List.all_reverse, allBlank, hall]

end Text

/-- A proposal passes its check with a title that is not blank, a name for its project and,
if it is for a flag, a key for it. -/
theorem Proposal.check_eq_ok_iff (p : Proposal) : p.check = .ok () ↔
    Text.trim p.title ≠ "" ∧ checkProjectName p.project = .ok () ∧
      (p.resourceType = .flag → checkFlagKey p.flagKey = .ok ()) := by
  rw [check, ne_eq, Text.trim_eq_empty_iff, ite_throw_eq_ok_iff, bind_eq_ok_iff]
  have hkey : (if p.resourceType = .flag then
      (checkFlagKey p.flagKey).mapError (fun v => WorkflowError.invalidRequest v.message)
      else pure ()) = .ok () ↔ (p.resourceType = .flag → checkFlagKey p.flagKey = .ok ()) := by
    split
    · next hflag => rw [mapError_eq_ok_iff, forall_prop_of_true hflag]
    · next hother => exact iff_of_true rfl (fun hflag => absurd hflag hother)
  simp only [mapError_eq_ok_iff, hkey]
  exact and_congr_right fun _ => ⟨fun ⟨_, hrest⟩ => hrest, fun hrest => ⟨(), hrest⟩⟩

/-- Where neither revision is zero, the check of a policy fails just when the policy
rejects what is stale and the revisions differ. -/
theorem StalePolicy.verify_check (policy : StalePolicy) {base : Option Nat}
    {entry : Option StoredFlag} (hbase : base ≠ some 0)
    (hentry : revisionOf entry = 0 → entry = none) :
    (policy.check base).verify entry =
      if policy = .rejectStale ∧ entry.map StoredFlag.revision ≠ base then
        .error (.revisionMismatch (base.getD 0) (revisionOf entry))
      else .ok () := by
  cases policy with
  | lastWriteWins => rfl
  | rejectStale =>
      cases base with
      | none =>
          cases entry with
          | none => rfl
          | some flag =>
              have hne : flag.revision ≠ 0 := fun hzero =>
                absurd (hentry hzero) (Option.some_ne_none flag)
              simp [check, RevisionCheck.ofBase, RevisionCheck.verify, hne]
      | some revision =>
          have hne : revision ≠ 0 := fun hzero => hbase (congrArg some hzero)
          cases entry with
          | none => simp [check, RevisionCheck.ofBase, RevisionCheck.verify, hne]
          | some flag =>
              by_cases heq : flag.revision = revision
              · simp [check, RevisionCheck.ofBase, RevisionCheck.verify, heq]
              · have hother : revision ≠ flag.revision := Ne.symm heq
                simp [check, RevisionCheck.ofBase, RevisionCheck.verify, heq, hother]

namespace ChangeRequest

/-- The refusal of a request whose flag is no longer as it was when it was opened. -/
def staleAt (request : ChangeRequest) (entry : Option StoredFlag) : WorkflowError :=
  .conflict ("flag changed since the request was opened (expected revision " ++
    toString (request.baseRevision.getD 0) ++ ", found " ++ toString (revisionOf entry) ++ ")")

/-- What stands in the way of writing the flag of a request over an entry. -/
def obstacles (policy : StalePolicy) (request : ChangeRequest) (entry : Option StoredFlag) :
    List WorkflowError :=
  (match validateDocument request.proposedConfig with
    | .error v => [.invalidConfig v]
    | .ok _ => []) ++
  (if policy = .rejectStale ∧ entry.map StoredFlag.revision ≠ request.baseRevision then
    [request.staleAt entry] else [])

end ChangeRequest

namespace RequestAction

/-- What stands in the way of an action on the request of an id, in the order in which it
is looked for. -/
def obstacles (policy : StalePolicy) (s : Store) (id : Uuid) (action : RequestAction) :
    List WorkflowError :=
  match s.request? id with
  | none => [.notFound id]
  | some request =>
    (if request.status ∈ action.admits then [] else [action.misplaced request.status]) ++
    match action.writes? request with
    | some key => request.obstacles policy (s.flags.find? key)
    | none => []

end RequestAction

/-- No entry and no request names revision zero, which stands for no entry. -/
structure Store.Numbered (s : Store) : Prop where
  entries : ∀ key, revisionOf (s.flags.find? key) = 0 → s.flags.find? key = none
  bases : ∀ id request, s.request? id = some request → request.baseRevision ≠ some 0

theorem ChangeRequest.obstacles_eq_nil_iff (policy : StalePolicy) (request : ChangeRequest)
    (entry : Option StoredFlag) :
    request.obstacles policy entry = [] ↔
      (∃ config, validateDocument request.proposedConfig = .ok config) ∧
      (policy = .rejectStale → entry.map StoredFlag.revision = request.baseRevision) := by
  rw [obstacles, List.append_eq_nil_iff]
  refine and_congr ?_ ?_
  · cases validateDocument request.proposedConfig with
    | error v => exact iff_of_false (List.cons_ne_nil _ _) (fun ⟨_, hconfig⟩ => nomatch hconfig)
    | ok config => exact iff_of_true rfl ⟨config, rfl⟩
  · split
    · next hstale => exact iff_of_false (List.cons_ne_nil _ _) (fun h => hstale.2 (h hstale.1))
    · next hfresh =>
      exact iff_of_true rfl (fun hpolicy => Classical.not_not.1 (fun hne => hfresh ⟨hpolicy, hne⟩))

namespace RequestAction

variable {policy : StalePolicy} {s : Store} {id : Uuid} {request : ChangeRequest}
  {action : RequestAction}

theorem of_writes? {key : FlagId} (hwrites : action.writes? request = some key) :
    (∃ actor time event, action = .apply actor time event) ∧ request.resourceType = .flag ∧
      key = request.key := by
  cases action with
  | review | cancel => contradiction
  | apply actor time event =>
      rw [writes?] at hwrites
      split at hwrites
      · next hflag => exact ⟨⟨actor, time, event, rfl⟩, hflag, (Option.some.inj hwrites).symm⟩
      · contradiction

/-- The first obstacle to writing the flag of a request is the refusal. -/
theorem fault?_apply_effectOn (policy : StalePolicy) (id : Uuid)
    (hflag : request.resourceType = .flag) {entry : Option StoredFlag}
    (hbase : request.baseRevision ≠ some 0) (hentry : revisionOf entry = 0 → entry = none)
    (actor : Actor) (time : Instant) (event : Stamp) :
    fault? ((apply actor time event).effectOn policy id request entry) =
      (request.obstacles policy entry).head? := by
  rw [effectOn, Governance.flagWrite, hflag, ChangeRequest.obstacles]
  cases validateDocument request.proposedConfig with
  | error v => rfl
  | ok config =>
      simp only [policy.verify_check hbase hentry, List.nil_append]
      by_cases hstale :
          policy = .rejectStale ∧ entry.map StoredFlag.revision ≠ request.baseRevision
      · simp only [if_pos hstale]
        rfl
      · simp only [if_neg hstale]
        rfl

/-- An action that writes no flag does what it does to every request that it admits. -/
theorem fault?_effectOn_of_writes?_eq_none (hnone : action.writes? request = none)
    (policy : StalePolicy) (id : Uuid) (entry : Option StoredFlag) :
    fault? (action.effectOn policy id request entry) = none := by
  cases action with
  | review | cancel => rfl
  | apply actor time event =>
      have hwrite : Governance.flagWrite policy request = .ok none := by
        rw [Governance.flagWrite]
        cases htype : request.resourceType with
        | flag => simp [writes?, htype] at hnone
        | segment | flagset => rfl
      rw [effectOn, hwrite]
      rfl

/-- The first obstacle is the refusal. -/
theorem fault?_effect (hnumbered : s.Numbered) (policy : StalePolicy) (id : Uuid)
    (action : RequestAction) :
    fault? (action.effect policy s id) = (action.obstacles policy s id).head? := by
  rw [effect, obstacles]
  cases hrequest : s.request? id with
  | none => rfl
  | some request =>
      by_cases hstatus : request.status ∈ action.admits
      · simp only [if_pos hstatus, List.nil_append]
        cases hwrites : action.writes? request with
        | none => exact fault?_effectOn_of_writes?_eq_none hwrites policy id _
        | some key =>
            obtain ⟨⟨actor, time, event, rfl⟩, hflag, rfl⟩ := of_writes? hwrites
            exact fault?_apply_effectOn policy id hflag (hnumbered.bases id request hrequest)
              (hnumbered.entries request.key) actor time event
      · simp only [if_neg hstatus]
        rfl

theorem obstacles_eq_nil_iff : action.obstacles policy s id = [] ↔
    ∃ request, s.request? id = some request ∧ request.status ∈ action.admits ∧
      ∀ key, action.writes? request = some key →
        request.obstacles policy (s.flags.find? key) = [] := by
  rw [obstacles]
  cases hrequest : s.request? id with
  | none => exact iff_of_false (List.cons_ne_nil _ _) (fun ⟨_, hfound, _⟩ => nomatch hfound)
  | some request =>
      simp only [Option.some.injEq, List.append_eq_nil_iff, exists_eq_left']
      refine and_congr ?_ ?_
      · split
        · next hstatus => exact iff_of_true rfl hstatus
        · next hstatus => exact iff_of_false (List.cons_ne_nil _ _) hstatus
      · cases action.writes? request with
        | none => exact iff_of_true rfl (fun _ hkey => absurd hkey (Option.some_ne_none _).symm)
        | some key => exact ⟨fun h _ hkey => Option.some.inj hkey ▸ h, fun h => h key rfl⟩

end RequestAction

namespace Governance

variable {g : Governance}

/-- Where no fault is queued, an action is refused for the first thing that stands in its
way. -/
theorem refused_on_iff (hfaults : g.faults = []) (hnumbered : g.store.Numbered)
    (action : RequestAction) (id : Uuid) (e : OperationError) :
    (g.perform (action.on id)).1 = .error e ↔
      (action.obstacles g.policy g.store id).head?.map .workflow = some e := by
  rw [(enacts_effect hfaults action id).1, ← RequestAction.fault?_effect hnumbered]
  cases action.effect g.policy g.store id with
  | error cause => rw [Effect.tell, fault?, Option.map_some, Except.error.injEq, Option.some.injEq]
  | ok effect => exact iff_of_false (by simp [Effect.tell]) (by simp [fault?])

/-- Where no fault is queued, an action is done just when nothing stands in its way. -/
theorem answered_on_iff (hfaults : g.faults = []) (hnumbered : g.store.Numbered)
    (action : RequestAction) (id : Uuid) :
    g.Answers (action.on id) ↔ action.obstacles g.policy g.store id = [] := by
  have hrefused := refused_on_iff hfaults hnumbered action id
  cases hobstacles : action.obstacles g.policy g.store id with
  | nil =>
      refine iff_of_true ?_ rfl
      cases hanswer : (g.perform (action.on id)).1 with
      | ok answer => exact ⟨answer, hanswer⟩
      | error e =>
          have hhead := (hrefused e).1 hanswer
          rw [hobstacles] at hhead
          contradiction
  | cons cause rest =>
      refine iff_of_false ?_ (List.cons_ne_nil _ _)
      rintro ⟨answer, hanswer⟩
      have herror := (hrefused (.workflow cause)).2 (by rw [hobstacles]; rfl)
      rw [hanswer] at herror
      contradiction

theorem currentFlag_of_no_faults (hfaults : g.faults = []) (p : Proposal) :
    g.currentFlag p = (.ok (g.store.currentFlag p), g) := by
  cases htype : p.resourceType with
  | flag =>
      simp only [currentFlag, Store.currentFlag, htype, read, call_of_no_faults hfaults]
      rfl
  | segment | flagset => simp only [currentFlag, Store.currentFlag, htype]

theorem answered_create_iff (hfaults : g.faults = []) (p : Proposal) (author : Actor)
    (stamp event : Stamp) :
    g.Answers (.create p author stamp event) ↔
      p.check = .ok () ∧ g.store.request? stamp.id = none := by
  constructor
  · rintro ⟨answer, hanswer⟩
    have hperformed := performed_as hanswer
    generalize g.after (.create p author stamp event) = g' at hperformed
    cases hperformed with
    | answered _ hkind => contradiction
    | created _ _ _ _ hcheck hfree => exact ⟨hcheck, hfree⟩
  · rintro ⟨hcheck, hfree⟩
    have hcall : g.onStore
        (fun s => s.insertRequest (p.opened author stamp (g.store.currentFlag p))) = _ :=
      onStore_of_done (Store.insertRequest_of_free hfree)
    refine ⟨.request (p.opened author stamp (g.store.currentFlag p)), ?_⟩
    rw [perform, create, hcheck]
    simp only [currentFlag_of_no_faults hfaults, call_of_no_faults hfaults, hcall]
    rfl

/-- The flags and requests of a run name no revision zero. -/
theorem run_numbered (sink : AuditSink) (relay : RelaySignal) (policy : StalePolicy)
    {ops : List Operation} (hkind : ∀ op ∈ ops, op.kind ≠ .requestStore) :
    ((start sink relay policy).run ops).store.Numbered where
  entries key hzero := run_eq_none_of_zero sink relay policy ops key hzero
  bases id request hrequest hbase := by
    obtain ⟨opening⟩ := exists_opening hkind rfl hrequest
    obtain ⟨_, _, _, _, rfl⟩ := opening.advances hrequest
    have hfound : opening.found.map StoredFlag.revision = some 0 := by
      rw [← hbase, opening.request_eq.1]
      rfl
    obtain ⟨flag, hflag, hzero⟩ := Option.map_eq_some_iff.1 hfound
    rw [Opening.found, Store.currentFlag] at hflag
    split at hflag
    · have hnone := run_eq_none_of_zero sink relay policy opening.before
        ⟨opening.proposal.project, opening.proposal.flagKey⟩ (by rw [entryAt, hflag]; exact hzero)
      rw [entryAt, hflag] at hnone
      contradiction
    · contradiction

end Governance

namespace Task

/-- What the store says against the call that a task is about to make. -/
def refusal? (s : Store) : Task → Option StoreError
  | inserting p author stamp _ current =>
    fault? (s.insertRequest (p.opened author stamp current)).1
  | recording review _ => fault? (s.recordReview review review.decision.resultingStatus).1
  | committing id flag actor time _ => fault? (s.commitApply id (applyCommit flag actor time)).1
  | moving id _ _ time _ =>
    fault? (s.transition id [.pending, .approved, .rejected] .cancelled time).1
  | creating .. | reviewing .. | applying .. | cancelling .. | finished _ => none

/-- A task that has loaded its request, or was refused. -/
theorem refusal?_afterLoad {P : Option StoreError → Prop} (hnone : P none) (g : Governance)
    (id : Uuid) {next : Governance → ChangeRequest → Task}
    (hnext : ∀ request, g.store.request? id = some request →
      P ((next g request).refusal? g.store)) :
    P ((afterLoad g id next).1.refusal? (afterLoad g id next).2.store) := by
  rcases g.load_cases id with ⟨e, g', hload, _⟩ | ⟨request, hrequest, hload⟩
  · rw [afterLoad, hload]
    exact hnone
  · rw [afterLoad, hload]
    exact hnext request hrequest

/-- What an operation has seen of the status of a request still holds when it makes the
call that changes it: the store never has to refuse for the status. -/
theorem refusal?_ne_statusMismatch (g : Governance) {op : Operation} {task : Task}
    (htask : op.task? = some task) (actual : Status) :
    (task.step g).1.refusal? (task.step g).2.store ≠ some (.statusMismatch actual) := by
  have hnone : (none : Option StoreError) ≠ some (.statusMismatch actual) :=
    (Option.some_ne_none _).symm
  cases op with
  | create p author stamp event =>
      obtain rfl := Option.some.inj htask
      rw [step]
      cases p.check with
      | error e => exact hnone
      | ok _ =>
          obtain ⟨found, g'⟩ := g.currentFlag p
          cases found with
          | error e => exact hnone
          | ok current =>
              simp only [refusal?, Store.insertRequest]
              split <;> simp [fault?]
  | review id decision reviewer comment stamp event =>
      obtain rfl := Option.some.inj htask
      refine refusal?_afterLoad (P := (· ≠ some (.statusMismatch actual))) hnone g id ?_
      intro request hrequest
      split
      · next hcan =>
        have hpending : request.status = .pending :=
          List.mem_singleton.1 (Status.canReview_iff.1 hcan)
        have hopen : request.status.isTerminal = false := by rw [hpending]; rfl
        rw [refusal?, g.store.recordReview_of_open (.given id decision reviewer comment stamp)
          hrequest hopen]
        exact hnone
      · exact hnone
  | cancel id actor time event =>
      obtain rfl := Option.some.inj htask
      refine refusal?_afterLoad (P := (· ≠ some (.statusMismatch actual))) hnone g id ?_
      intro request hrequest
      split
      · next hcan =>
        rw [refusal?, g.store.transition_of_allowed hrequest (Status.canCancel_iff.1 hcan)]
        exact hnone
      · exact hnone
  | apply id actor time event =>
      obtain rfl := Option.some.inj htask
      refine refusal?_afterLoad (P := (· ≠ some (.statusMismatch actual))) hnone g id ?_
      intro request hrequest
      split
      · next hcan =>
        split
        · exact hnone
        · next flag hwrite =>
          rw [refusal?]
          intro hmismatch
          obtain ⟨_, _, herror⟩ := Store.commitApply_eq_error hrequest
            (Governance.mem_allowed_of_canApply hcan) (eq_error_of_fault? hmismatch)
          contradiction
      · exact hnone
  | get | list | countPending | flag | seedFlag | putFlag | ensureProject | renameFlag
  | insertRequest | recordReview | transition | commitApply | injectFault => contradiction

end Task

namespace Governance

theorem run_policy (g : Governance) (ops : List Operation) : (g.run ops).policy = g.policy :=
  run_keeps (P := fun g' => g'.policy = g.policy)
    (fun op _ g' hkept => (g'.after_policy op).trans hkept) rfl

/-- In every state that a run reaches without putting requests in past the workflow, and
with no fault queued, each operation on change requests is done just when the conditions
said here hold.  An action on a request that is there is refused for the first of what
stands in its way: that there is none, its status, its proposal, or that its flag moved.
The store's own guard of the status is never what refuses. -/
theorem outcomes_exact (sink : AuditSink) (relay : RelaySignal) (policy : StalePolicy)
    {ops : List Operation} (hkind : ∀ op ∈ ops, op.kind ≠ .requestStore)
    (hfaults : ((start sink relay policy).run ops).faults = []) :
    let g := (start sink relay policy).run ops
    (∀ p author stamp event, g.Answers (.create p author stamp event) ↔
      Text.trim p.title ≠ "" ∧ checkProjectName p.project = .ok () ∧
        (p.resourceType = .flag → checkFlagKey p.flagKey = .ok ()) ∧
        g.store.request? stamp.id = none) ∧
    (∀ id decision reviewer comment stamp event,
      g.Answers (.review id decision reviewer comment stamp event) ↔
        ∃ request, g.store.request? id = some request ∧ request.status = .pending) ∧
    (∀ id actor time event, g.Answers (.cancel id actor time event) ↔
      ∃ request, g.store.request? id = some request ∧
        request.status ∈ [Status.pending, .approved, .rejected]) ∧
    (∀ id actor time event, g.Answers (.apply id actor time event) ↔
      ∃ request, g.store.request? id = some request ∧
        request.status ∈ [Status.pending, .approved] ∧
        (request.resourceType = .flag →
          (∃ config, validateDocument request.proposedConfig = .ok config) ∧
          (policy = .rejectStale →
            (g.store.flag? request.project request.flagKey).map StoredFlag.revision =
              request.baseRevision))) ∧
    (∀ (action : RequestAction) (id : Uuid) (e : OperationError),
      (g.perform (action.on id)).1 = .error e ↔
        (action.obstacles policy g.store id).head?.map .workflow = some e) ∧
    ∀ (op : Operation) (task : Task), op.task? = some task → ∀ actual,
      (task.step g).1.refusal? (task.step g).2.store ≠ some (.statusMismatch actual) := by
  intro g
  have hnumbered : g.store.Numbered := run_numbered sink relay policy hkind
  have hpolicy : g.policy = policy := run_policy _ _
  have hactions (action : RequestAction) (id : Uuid) : g.Answers (action.on id) ↔
      ∃ request, g.store.request? id = some request ∧ request.status ∈ action.admits ∧
        ∀ key, action.writes? request = some key →
          request.obstacles policy (g.store.flags.find? key) = [] := by
    rw [answered_on_iff hfaults hnumbered, hpolicy, RequestAction.obstacles_eq_nil_iff]
  have hnone (P : FlagId → Prop) : ∀ key, none = some key → P key :=
    fun _ hkey => absurd hkey (Option.some_ne_none _).symm
  refine ⟨fun p author stamp event => ?_, fun id decision reviewer comment stamp event => ?_,
    fun id actor time event => ?_, fun id actor time event => ?_, fun action id e => ?_,
    fun _ _ htask => Task.refusal?_ne_statusMismatch g htask⟩
  · rw [answered_create_iff hfaults, Proposal.check_eq_ok_iff, and_assoc, and_assoc]
  · refine (hactions (.review decision reviewer comment stamp event) id).trans ?_
    simp only [RequestAction.admits, RequestAction.writes?, List.mem_singleton]
    exact exists_congr fun request => and_congr_right fun _ => and_iff_left (hnone _)
  · refine (hactions (.cancel actor time event) id).trans ?_
    simp only [RequestAction.admits, RequestAction.writes?]
    exact exists_congr fun request => and_congr_right fun _ => and_iff_left (hnone _)
  · refine (hactions (.apply actor time event) id).trans ?_
    refine exists_congr fun request => and_congr_right fun _ => and_congr_right fun _ => ?_
    have hflag : g.store.flag? request.project request.flagKey =
      g.store.flags.find? request.key := rfl
    rw [hflag, ← ChangeRequest.obstacles_eq_nil_iff, RequestAction.writes?]
    split
    · next htype =>
      simp only [Option.some.injEq, forall_eq']
      exact ⟨fun hnone _ => hnone, fun hnone => hnone htype⟩
    · next hother => exact iff_of_true (hnone _) (fun htype => absurd htype hother)
  · rw [refused_on_iff hfaults hnumbered, hpolicy]

/-- Of two requests opened over no flag, the one applied second is stale; the first can
no longer be cancelled, and the second still be reviewed. -/
theorem second_apply_is_stale :
    let ops : List Operation :=
      [.create Sample.proposal Sample.actor (Sample.stamp 1) (Sample.stamp 2),
       .create Sample.proposal Sample.actor (Sample.stamp 3) (Sample.stamp 4),
       .apply (.ofNat 1) Sample.actor Sample.moment (Sample.stamp 5)]
    let g := Sample.governance.run ops
    (∀ op ∈ ops, op.kind ≠ .requestStore) ∧ g.faults = [] ∧
      (g.perform (.apply (.ofNat 3) Sample.actor Sample.moment (Sample.stamp 6))).1 =
        .error (.workflow (.conflict
          "flag changed since the request was opened (expected revision 0, found 1)")) ∧
      (g.perform (.cancel (.ofNat 1) Sample.actor Sample.moment (Sample.stamp 6))).1 =
        .error (.workflow (.invalidState .applied
          "cannot cancel a change request that is already applied")) ∧
      g.Answers (.review (.ofNat 3) .approved Sample.actor none (Sample.stamp 6)
        (Sample.stamp 7)) := by
  intro ops g
  have hkind : ∀ op ∈ ops, op.kind ≠ .requestStore := by decide
  obtain ⟨_, hreview, _, _, hrefused, _⟩ :=
    outcomes_exact (.log (.empty 100)) .answering .rejectStale hkind rfl
  refine ⟨hkind, rfl, ?_, ?_, (hreview _ _ _ _ _ _).2 ⟨_, rfl, rfl⟩⟩
  · refine (hrefused (.apply Sample.actor Sample.moment (Sample.stamp 6)) (.ofNat 3) _).2 ?_
    decide +kernel
  · exact (hrefused (.cancel Sample.actor Sample.moment (Sample.stamp 6)) (.ofNat 1) _).2 rfl

end Governance

end FlagGovernance
