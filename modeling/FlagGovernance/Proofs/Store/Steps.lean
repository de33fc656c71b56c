import FlagGovernance.Proofs.Lookup
import FlagGovernance.Store.Basic
/-
What each step of the store answers and leaves.

A step refuses and leaves the store as it was, or its guard holds and it changes
what is said here and nothing else.  Later modules cite these cases and do not
open the steps.
-/

namespace FlagGovernance

def FlagWrite.id (write : FlagWrite) : FlagId := ⟨write.project, write.key⟩

/-- The entry that a write leaves in place of the one it finds. -/
def FlagWrite.entry (write : FlagWrite) (previous : Option StoredFlag) (now : Instant) :
    StoredFlag where
  project := write.project
  key := write.key
  config := write.config
  revision := (previous.map StoredFlag.revision).getD 0 + 1
  updatedAt := now

/-- The entry under its new key. -/
def StoredFlag.renamed (flag : StoredFlag) (target : String) (now : Instant) : StoredFlag :=
  { flag with key := target, revision := flag.revision + 1, updatedAt := now }

namespace ChangeRequest

/-- The key that a request is for. -/
def key (request : ChangeRequest) : FlagId := ⟨request.project, request.flagKey⟩

def reviewed (request : ChangeRequest) (review : Review) (status : Option Status) :
    ChangeRequest :=
  { request with status := status.getD request.status, updatedAt := review.createdAt }

def moved (request : ChangeRequest) (target : Status) (now : Instant) : ChangeRequest :=
  { request with status := target, updatedAt := now }

def applied (request : ChangeRequest) (actor : Actor) (now : Instant) : ChangeRequest :=
  { request with status := .applied, appliedAt := some now, appliedBy := some actor,
                 updatedAt := now }

end ChangeRequest

theorem RevisionCheck.verify_any (current : Option StoredFlag) :
    RevisionCheck.any.verify current = .ok () := rfl

theorem RevisionCheck.verify_eq_error {check : RevisionCheck} {current : Option StoredFlag}
    {e : StoreError} (hrefused : check.verify current = .error e) :
    ∃ expected actual, e = .revisionMismatch expected actual := by
  cases check with
  | any => contradiction
  | absent =>
      simp only [verify] at hrefused
      split at hrefused
      · contradiction
      · exact ⟨_, _, (Except.error.inj hrefused).symm⟩
  | «at» revision =>
      simp only [verify] at hrefused
      split at hrefused
      · contradiction
      · exact ⟨_, _, (Except.error.inj hrefused).symm⟩

namespace Store

theorem mem_listProjects_iff (s : Store) (project : String) :
    project ∈ s.listProjects ↔ s.projects.find? project ≠ none := by
  rw [listProjects, ← OrderedMap.contains_iff_mem_keys, ← Bool.not_eq_false, ne_eq,
    OrderedMap.contains_eq_false_iff]

/-- The store with a write done over the entry that is there. -/
def written (s : Store) (write : FlagWrite) (now : Instant) : Store :=
  { s with flags := s.flags.insert write.id (write.entry (s.flags.find? write.id) now) }

/-- The store with a project in it. -/
def withProject (s : Store) (project : String) : Store :=
  { s with projects := s.projects.insert project () }

def withRequest (s : Store) (id : Uuid) (request : ChangeRequest) : Store :=
  { s with requests := s.requests.insert id request }

/-- The store with a flag moved to a new key. -/
def withRenamed (s : Store) (source target : FlagId) (flag : StoredFlag) (now : Instant) : Store :=
  { s with flags := (s.flags.erase source).insert target (flag.renamed target.key now) }

def withReview (s : Store) (review : Review) : Store :=
  { s with
    reviews := s.reviews.insert review.requestId
      (s.listReviews review.requestId ++ [review]) }

/-- The store with the flag part of an apply done: the project, then the write. -/
def withFlagWrite (s : Store) (write : Option FlagWrite) (now : Instant) : Store :=
  match write with
  | some write => (s.withProject write.project).written write now
  | none => s

/-- What applying a request tells. -/
def appliedChange (s : Store) (request : ChangeRequest) (commit : ApplyCommit) : AppliedChange where
  request := request.applied commit.appliedBy commit.appliedAt
  flag := commit.flag.map (fun write =>
    write.entry (s.flags.find? write.id) commit.appliedAt)
  previous := commit.flag.bind (fun write => s.flags.find? write.id)
  projectCreated := commit.flag.any (fun write => !s.projects.contains write.project)

theorem writeFlag_cases (s : Store) (write : FlagWrite) (now : Instant) :
    (∃ e, write.check.verify (s.flags.find? write.id) = .error e ∧
      s.writeFlag write now = (.error e, s)) ∨
    (write.check.verify (s.flags.find? write.id) = .ok () ∧
      s.writeFlag write now =
        (.ok (s.flags.find? write.id, write.entry (s.flags.find? write.id) now),
          s.written write now)) := by
  change (∃ e, write.check.verify (s.flag? write.project write.key) = .error e ∧ _) ∨
    (write.check.verify (s.flag? write.project write.key) = .ok () ∧ _)
  cases hverify : write.check.verify (s.flag? write.project write.key) with
  | error e => exact .inl ⟨e, rfl, by rw [writeFlag, hverify]⟩
  | ok _ => exact .inr ⟨rfl, by rw [writeFlag, hverify]; rfl⟩

theorem writeFlag_of_verify (s : Store) (write : FlagWrite)
    (hverify : write.check.verify (s.flags.find? write.id) = .ok ()) (now : Instant) :
    s.writeFlag write now =
      (.ok (s.flags.find? write.id, write.entry (s.flags.find? write.id) now),
        s.written write now) := by
  rcases s.writeFlag_cases write now with ⟨e, herror, _⟩ | ⟨_, hwrite⟩
  · rw [hverify] at herror
    contradiction
  · exact hwrite

theorem ensureProject_eq (s : Store) (project : String) :
    s.ensureProject project = (.ok (!s.projects.contains project), s.withProject project) := rfl

/-- A seed is never refused. -/
theorem seedFlag_eq (s : Store) (project key : String) (config : FlagConfig) (now : Instant) :
    let write : FlagWrite := ⟨project, key, config, .any⟩
    s.seedFlag project key config now =
      (.ok (write.entry (s.flags.find? write.id) now),
        (s.withProject project).written write now) := by
  intro write
  have hwrite := (s.withProject project).writeFlag_of_verify write
    (RevisionCheck.verify_any _) now
  rw [seedFlag, ensureProject_eq]
  simp only [hwrite, write]
  rfl

theorem putFlag_cases (s : Store) (project key : String) (config : FlagConfig)
    (check : RevisionCheck) (now : Instant) :
    let write : FlagWrite := ⟨project, key, config, check⟩
    (∃ e, s.putFlag project key config check now = (.error e, s)) ∨
    (check.verify (s.flags.find? write.id) = .ok () ∧ s.projects.contains project = true ∧
      s.putFlag project key config check now =
        (.ok (write.entry (s.flags.find? write.id) now), s.written write now)) := by
  intro write
  by_cases hproject : s.projects.contains project = true
  · rcases s.writeFlag_cases write now with ⟨e, _, hwrite⟩ | ⟨hverify, hwrite⟩
    · exact .inl ⟨e, by rw [putFlag, if_pos hproject, hwrite]⟩
    · exact .inr ⟨hverify, hproject, by rw [putFlag, if_pos hproject, hwrite]⟩
  · exact .inl ⟨_, by rw [putFlag, if_neg hproject]⟩

theorem renameFlag_of_bound {s : Store} {project source target : String} {flag : StoredFlag}
    (htarget : s.flags.find? ⟨project, target⟩ = none)
    (hsource : s.flags.find? ⟨project, source⟩ = some flag) (now : Instant) :
    s.renameFlag project source target now = (.ok (flag.renamed target now),
      s.withRenamed ⟨project, source⟩ ⟨project, target⟩ flag now) := by
  simp [renameFlag, flag?, OrderedMap.contains, htarget, hsource, withRenamed, StoredFlag.renamed]

theorem renameFlag_cases (s : Store) (project source target : String) (now : Instant) :
    (∃ e, s.renameFlag project source target now = (.error e, s)) ∨
    (∃ flag, s.flags.find? ⟨project, target⟩ = none ∧
      s.flags.find? ⟨project, source⟩ = some flag ∧
      s.renameFlag project source target now =
        (.ok (flag.renamed target now),
          s.withRenamed ⟨project, source⟩ ⟨project, target⟩ flag now)) := by
  by_cases htarget : s.flags.contains ⟨project, target⟩ = true
  · exact .inl ⟨_, by rw [renameFlag, if_pos htarget]⟩
  · rw [Bool.not_eq_true, OrderedMap.contains_eq_false_iff] at htarget
    cases hsource : s.flag? project source with
    | none =>
        refine .inl ⟨.notFound (flagText project source), ?_⟩
        simp [renameFlag, OrderedMap.contains, htarget, hsource]
    | some flag => exact .inr ⟨flag, htarget, hsource, renameFlag_of_bound htarget hsource now⟩

theorem insertRequest_of_free {s : Store} {request : ChangeRequest}
    (hfree : s.request? request.id = none) :
    s.insertRequest request = (.ok (), s.withRequest request.id request) := by
  have hfree : s.requests.contains request.id = false :=
    (OrderedMap.contains_eq_false_iff _ _).2 hfree
  simp only [insertRequest, hfree]
  rfl

theorem insertRequest_cases (s : Store) (request : ChangeRequest) :
    (∃ e, s.insertRequest request = (.error e, s)) ∨
    (s.request? request.id = none ∧
      s.insertRequest request = (.ok (), s.withRequest request.id request)) := by
  by_cases hthere : s.requests.contains request.id = true
  · exact .inl ⟨_, by rw [insertRequest, if_pos hthere]⟩
  · have hfree := (OrderedMap.contains_eq_false_iff _ _).1 (Bool.not_eq_true _ ▸ hthere)
    exact .inr ⟨hfree, insertRequest_of_free hfree⟩

theorem recordReview_of_open (s : Store) (review : Review) {request : ChangeRequest}
    (hrequest : s.request? review.requestId = some request)
    (hopen : request.status.isTerminal = false) (status : Option Status) :
    s.recordReview review status = (.ok (request.reviewed review status),
      (s.withRequest review.requestId (request.reviewed review status)).withReview review) := by
  simp only [recordReview, hrequest, hopen]
  rfl

theorem recordReview_cases (s : Store) (review : Review) (status : Option Status) :
    (∃ e, s.recordReview review status = (.error e, s)) ∨
    (∃ request, s.request? review.requestId = some request ∧ request.status.isTerminal = false ∧
      s.recordReview review status = (.ok (request.reviewed review status),
        (s.withRequest review.requestId (request.reviewed review status)).withReview review)) := by
  cases hrequest : s.request? review.requestId with
  | none => exact .inl ⟨_, by rw [recordReview, hrequest]⟩
  | some request =>
      cases hstatus : request.status.isTerminal with
      | true => exact .inl ⟨_, by simp only [recordReview, hrequest, hstatus, if_true]; rfl⟩
      | false =>
          exact .inr ⟨request, rfl, hstatus,
            s.recordReview_of_open review hrequest hstatus status⟩

theorem transition_of_allowed (s : Store) {id : Uuid} {request : ChangeRequest}
    {allowed : List Status} (hrequest : s.request? id = some request)
    (hallowed : request.status ∈ allowed) (target : Status) (now : Instant) :
    s.transition id allowed target now =
      (.ok (request.moved target now), s.withRequest id (request.moved target now)) := by
  simp only [transition, hrequest, if_pos hallowed]
  rfl

theorem transition_cases (s : Store) (id : Uuid) (allowed : List Status) (target : Status)
    (now : Instant) :
    (∃ e, s.transition id allowed target now = (.error e, s)) ∨
    (∃ request, s.request? id = some request ∧ request.status ∈ allowed ∧
      s.transition id allowed target now =
        (.ok (request.moved target now), s.withRequest id (request.moved target now))) := by
  cases hrequest : s.request? id with
  | none => exact .inl ⟨_, by rw [transition, hrequest]⟩
  | some request =>
      by_cases hallowed : request.status ∈ allowed
      · exact .inr ⟨request, rfl, hallowed, s.transition_of_allowed hrequest hallowed target now⟩
      · exact .inl ⟨_, by simp only [transition, hrequest, if_neg hallowed]; rfl⟩

/-- Once the check of the write has passed, the flag part cannot be refused:
creating the project moves no flag. -/
theorem commitFlag_eq {s : Store} {write : Option FlagWrite}
    (hverify : ∀ w ∈ write, w.check.verify (s.flags.find? w.id) = .ok ()) (now : Instant) :
    s.commitFlag write now =
      (.ok (write.bind (fun w => s.flags.find? w.id),
          write.map (fun w => w.entry (s.flags.find? w.id) now),
          write.any (fun w => !s.projects.contains w.project)),
        s.withFlagWrite write now) := by
  cases write with
  | none => rfl
  | some w =>
      have hwrite := (s.withProject w.project).writeFlag_of_verify w (hverify w rfl) now
      rw [commitFlag, ensureProject_eq]
      simp only [hwrite]
      rfl

@[simp] theorem request?_withFlagWrite (s : Store) (write : Option FlagWrite) (now : Instant)
    (id : Uuid) : (s.withFlagWrite write now).request? id = s.request? id := by
  cases write <;> rfl

theorem commitApply_of_verify {s : Store} {id : Uuid} {commit : ApplyCommit}
    {request : ChangeRequest} (hrequest : s.request? id = some request)
    (hallowed : request.status ∈ commit.allowedFrom)
    (hverify : ∀ w ∈ commit.flag, w.check.verify (s.flags.find? w.id) = .ok ()) :
    s.commitApply id commit = (.ok (s.appliedChange request commit),
      (s.withFlagWrite commit.flag commit.appliedAt).withRequest id
        (request.applied commit.appliedBy commit.appliedAt)) := by
  obtain ⟨allowed, flag, actor, now⟩ := commit
  have hcommit := commitFlag_eq hverify now
  have hthere : (s.withFlagWrite flag now).request? id = some request := by
    rw [request?_withFlagWrite, hrequest]
  cases flag with
  | none =>
      simp only [commitApply, hrequest, hallowed, not_true_eq_false, if_false, hcommit, hthere]
      rfl
  | some write =>
      have hcheck : write.check.verify (s.flag? write.project write.key) = .ok () :=
        hverify write rfl
      simp only [commitApply, hrequest, hallowed, not_true_eq_false, if_false, hcheck, hcommit,
        hthere]
      rfl

theorem commitApply_of_fails {s : Store} {id : Uuid} {commit : ApplyCommit}
    {request : ChangeRequest} {write : FlagWrite} {e : StoreError}
    (hrequest : s.request? id = some request) (hallowed : request.status ∈ commit.allowedFrom)
    (hflag : commit.flag = some write)
    (hfails : write.check.verify (s.flags.find? write.id) = .error e) :
    s.commitApply id commit = (.error e, s) := by
  have hcheck : write.check.verify (s.flag? write.project write.key) = .error e := hfails
  simp only [commitApply, hrequest, hallowed, hflag, hcheck, not_true_eq_false, if_false]

/-- A request in a status that is allowed is refused for the revision of its flag only. -/
theorem commitApply_eq_error {s : Store} {id : Uuid} {commit : ApplyCommit}
    {request : ChangeRequest} {e : StoreError} (hrequest : s.request? id = some request)
    (hallowed : request.status ∈ commit.allowedFrom)
    (hrefused : (s.commitApply id commit).1 = .error e) :
    ∃ expected actual, e = .revisionMismatch expected actual := by
  by_cases hverify : ∀ w ∈ commit.flag, w.check.verify (s.flags.find? w.id) = .ok ()
  · rw [commitApply_of_verify hrequest hallowed hverify] at hrefused
    contradiction
  · obtain ⟨write, hfails⟩ := Classical.not_forall.1 hverify
    obtain ⟨hflag, hfails⟩ := Classical.not_imp.1 hfails
    cases hcause : write.check.verify (s.flags.find? write.id) with
    | ok _ => exact absurd hcause hfails
    | error cause =>
        rw [commitApply_of_fails hrequest hallowed hflag hcause] at hrefused
        exact RevisionCheck.verify_eq_error (Except.error.inj hrefused ▸ hcause)

theorem commitApply_cases (s : Store) (id : Uuid) (commit : ApplyCommit) :
    (∃ e, s.commitApply id commit = (.error e, s)) ∨
    (∃ request, s.request? id = some request ∧ request.status ∈ commit.allowedFrom ∧
      (∀ w ∈ commit.flag, w.check.verify (s.flags.find? w.id) = .ok ()) ∧
      s.commitApply id commit = (.ok (s.appliedChange request commit),
        (s.withFlagWrite commit.flag commit.appliedAt).withRequest id
          (request.applied commit.appliedBy commit.appliedAt))) := by
  cases hrequest : s.request? id with
  | none => exact .inl ⟨.notFound (requestText id), by rw [commitApply, hrequest]⟩
  | some request =>
      by_cases hallowed : request.status ∈ commit.allowedFrom
      · cases hflag : commit.flag with
        | none =>
            have hverify : ∀ w ∈ commit.flag, w.check.verify (s.flags.find? w.id) = .ok () := by
              simp [hflag]
            exact .inr ⟨request, rfl, hallowed, by simp,
              hflag ▸ commitApply_of_verify hrequest hallowed hverify⟩
        | some write =>
            cases hcheck : write.check.verify (s.flag? write.project write.key) with
            | error e =>
                refine .inl ⟨e, ?_⟩
                simp only [commitApply, hrequest, hallowed, hflag, hcheck, not_true_eq_false,
                  if_false]
            | ok _ =>
                have hverify : ∀ w ∈ commit.flag,
                    w.check.verify (s.flags.find? w.id) = .ok () := by
                  rintro w hw
                  obtain rfl : write = w := by simpa [hflag] using hw
                  exact hcheck
                exact .inr ⟨request, rfl, hallowed, hflag ▸ hverify,
                  hflag ▸ commitApply_of_verify hrequest hallowed hverify⟩
      · refine .inl ⟨.statusMismatch request.status, ?_⟩
        simp only [commitApply, hrequest, hallowed, not_false_eq_true, if_true]

end Store

end FlagGovernance
