import FlagGovernance.Proofs.Workflow.Steps
/-
The life of one change request in the store.

A request is seen as a record: its entry and its reviews.  Whatever call the
workflow makes, and however much the store has changed since the caller last
looked, the record makes one of five moves.  The laws of a request's life are
proved by cases on the move.
-/

namespace FlagGovernance

/-- A request as an operation opens it. -/
structure ChangeRequest.Fresh (request : ChangeRequest) : Prop where
  pending : request.status = .pending
  no_time : request.appliedAt = none
  no_actor : request.appliedBy = none

theorem Proposal.opened_fresh (p : Proposal) (author : Actor) (stamp : Stamp)
    (current : Option StoredFlag) : (p.opened author stamp current).Fresh :=
  ⟨rfl, rfl, rfl⟩

/-- The status that the last approving or rejecting review asks for. -/
def lastVerdict? (reviews : List Review) : Option Status :=
  (reviews.filterMap (fun review => review.decision.resultingStatus)).getLast?

theorem lastVerdict?_concat (reviews : List Review) (review : Review) :
    lastVerdict? (reviews ++ [review]) =
      review.decision.resultingStatus.or (lastVerdict? reviews) := by
  rw [lastVerdict?, List.filterMap_append, List.getLast?_append]
  cases hverdict : review.decision.resultingStatus with
  | none => simp [lastVerdict?, hverdict]
  | some status => simp [hverdict]

theorem Decision.eq_of_resultingStatus {decision : Decision} {status : Status}
    (hstatus : decision.resultingStatus = some status) :
    status = .approved ∨ status = .rejected := by
  cases decision with
  | approved => exact .inl (Option.some.inj hstatus).symm
  | rejected => exact .inr (Option.some.inj hstatus).symm
  | commented => contradiction

theorem lastVerdict?_eq {reviews : List Review} {status : Status}
    (hverdict : lastVerdict? reviews = some status) :
    status = .approved ∨ status = .rejected := by
  have hmem := List.mem_of_getLast? hverdict
  rw [List.mem_filterMap] at hmem
  obtain ⟨review, _, hstatus⟩ := hmem
  exact Decision.eq_of_resultingStatus hstatus

namespace ChangeRequest

variable {request : ChangeRequest} {reviews : List Review}

/-- A request and its reviews tell the same story. -/
structure Follows (request : ChangeRequest) (reviews : List Review) : Prop where
  /-- An open request stands as the last review that decides left it. -/
  status_of_open : request.status.isTerminal = false →
    request.status = (lastVerdict? reviews).getD .pending
  /-- Nothing is applied over a rejection. -/
  verdict_of_applied : request.status = .applied →
    ∀ verdict, lastVerdict? reviews = some verdict → verdict = .approved
  applied_at_iff : request.appliedAt.isSome = true ↔ request.status = .applied
  applied_by_iff : request.appliedBy.isSome = true ↔ request.status = .applied

theorem ne_applied_of_open (hopen : request.status.isTerminal = false) :
    request.status ≠ .applied := by
  intro happlied
  rw [happlied] at hopen
  contradiction

theorem open_of_canApply (hstatus : request.status.canApply = true) :
    request.status.isTerminal = false := by
  cases hcase : request.status <;> simp_all [Status.canApply, Status.isTerminal]

theorem status_reviewed_ne_applied (hopen : request.status.isTerminal = false)
    (review : Review) :
    (request.reviewed review review.decision.resultingStatus).status ≠ .applied := by
  cases hverdict : review.decision.resultingStatus with
  | none => exact ne_applied_of_open hopen
  | some status =>
      change status ≠ .applied
      rcases Decision.eq_of_resultingStatus hverdict with rfl | rfl <;> decide

theorem Fresh.follows (hfresh : request.Fresh) : request.Follows [] where
  status_of_open _ := hfresh.pending
  verdict_of_applied _ := nofun
  applied_at_iff := by simp [hfresh.pending, hfresh.no_time]
  applied_by_iff := by simp [hfresh.pending, hfresh.no_actor]

theorem Follows.reviewed (hfollows : request.Follows reviews)
    (hopen : request.status.isTerminal = false) (review : Review) :
    (request.reviewed review review.decision.resultingStatus).Follows (reviews ++ [review]) := by
  have hbefore := ne_applied_of_open hopen
  have hafter := status_reviewed_ne_applied hopen review
  constructor
  · intro _
    rw [lastVerdict?_concat, Option.getD_or, ← hfollows.status_of_open hopen]
    rfl
  · intro happlied
    contradiction
  · rw [iff_false_right hafter]
    exact fun htime => hbefore (hfollows.applied_at_iff.1 htime)
  · rw [iff_false_right hafter]
    exact fun hactor => hbefore (hfollows.applied_by_iff.1 hactor)

theorem Follows.cancelled (hfollows : request.Follows reviews)
    (hopen : request.status.isTerminal = false) (now : Instant) :
    (request.moved .cancelled now).Follows reviews := by
  have hbefore := ne_applied_of_open hopen
  constructor
  · nofun
  · nofun
  · refine iff_of_false (fun htime => hbefore (hfollows.applied_at_iff.1 htime)) nofun
  · refine iff_of_false (fun hactor => hbefore (hfollows.applied_by_iff.1 hactor)) nofun

theorem Follows.applied (hfollows : request.Follows reviews)
    (hstatus : request.status.canApply = true) (actor : Actor) (now : Instant) :
    (request.applied actor now).Follows reviews := by
  have hbefore := hfollows.status_of_open (open_of_canApply hstatus)
  constructor
  · nofun
  · intro _ verdict hverdict
    rw [hverdict, Option.getD_some] at hbefore
    rcases lastVerdict?_eq hverdict with rfl | rfl
    · rfl
    · rw [hbefore] at hstatus
      contradiction
  · exact iff_of_true rfl rfl
  · exact iff_of_true rfl rfl

end ChangeRequest

/-- What the store holds of one request. -/
structure RequestRecord where
  request : Option ChangeRequest
  reviews : List Review

namespace RequestRecord

/-- What one call can do to a record. -/
inductive Moves : RequestRecord → RequestRecord → Prop
  | stays (record : RequestRecord) : Moves record record
  | opens (reviews : List Review) {request : ChangeRequest} (hfresh : request.Fresh) :
      Moves ⟨none, reviews⟩ ⟨some request, reviews⟩
  | takes (reviews : List Review) {request : ChangeRequest}
      (hopen : request.status.isTerminal = false) (review : Review) :
      Moves ⟨some request, reviews⟩
        ⟨some (request.reviewed review review.decision.resultingStatus), reviews ++ [review]⟩
  | cancels (reviews : List Review) {request : ChangeRequest}
      (hopen : request.status.isTerminal = false) (now : Instant) :
      Moves ⟨some request, reviews⟩ ⟨some (request.moved .cancelled now), reviews⟩
  | applies (reviews : List Review) {request : ChangeRequest}
      (hstatus : request.status.canApply = true) (actor : Actor) (now : Instant) :
      Moves ⟨some request, reviews⟩ ⟨some (request.applied actor now), reviews⟩

variable {record record' : RequestRecord} {request : ChangeRequest}

/-- There are no reviews of what is not there, and what is there follows its
reviews. -/
def Sound : RequestRecord → Prop
  | ⟨none, reviews⟩ => reviews = []
  | ⟨some request, reviews⟩ => request.Follows reviews

theorem Moves.sound (hmoves : record.Moves record') (hsound : record.Sound) : record'.Sound := by
  cases hmoves with
  | stays => exact hsound
  | opens reviews hfresh =>
      obtain rfl : reviews = [] := hsound
      exact hfresh.follows
  | takes reviews hopen review => exact ChangeRequest.Follows.reviewed hsound hopen review
  | cancels reviews hopen now => exact ChangeRequest.Follows.cancelled hsound hopen now
  | applies reviews hstatus actor now =>
      exact ChangeRequest.Follows.applied hsound hstatus actor now

end RequestRecord

namespace Store

def record (s : Store) (id : Uuid) : RequestRecord := ⟨s.request? id, s.listReviews id⟩

@[simp] theorem record_withRequest_self (s : Store) (id : Uuid) (request : ChangeRequest) :
    (s.withRequest id request).record id = ⟨some request, s.listReviews id⟩ := by
  simp only [record, request?, withRequest, OrderedMap.find?_insert_self]
  rfl

theorem record_withRequest_of_ne (s : Store) {id id' : Uuid} (hne : id' ≠ id)
    (request : ChangeRequest) : (s.withRequest id request).record id' = s.record id' := by
  simp only [record, request?, withRequest, OrderedMap.find?_insert_of_ne _ hne]
  rfl

@[simp] theorem record_withReview_self (s : Store) (review : Review) :
    (s.withReview review).record review.requestId =
      ⟨(s.record review.requestId).request, (s.record review.requestId).reviews ++ [review]⟩ := by
  simp [record, listReviews, withReview, request?]

theorem record_withReview_of_ne (s : Store) {id : Uuid} {review : Review}
    (hne : id ≠ review.requestId) : (s.withReview review).record id = s.record id := by
  simp [record, listReviews, withReview, request?, OrderedMap.find?_insert_of_ne _ hne]

@[simp] theorem listReviews_withFlagWrite (s : Store) (write : Option FlagWrite) (now : Instant)
    (id : Uuid) : (s.withFlagWrite write now).listReviews id = s.listReviews id := by
  cases write <;> rfl

@[simp] theorem record_withFlagWrite (s : Store) (write : Option FlagWrite) (now : Instant)
    (id : Uuid) : (s.withFlagWrite write now).record id = s.record id := by
  simp [record]

theorem record_eq_of_request? {s : Store} {id : Uuid} {request : ChangeRequest}
    (hrequest : s.request? id = some request) :
    s.record id = ⟨some request, s.listReviews id⟩ := by
  rw [record, hrequest]

/-- Replacing one request moves its record and no other. -/
theorem withRequest_moves (s : Store) {id : Uuid} {request : ChangeRequest}
    (hmoves : (s.record id).Moves ⟨some request, s.listReviews id⟩) (id' : Uuid) :
    (s.record id').Moves ((s.withRequest id request).record id') := by
  by_cases hid : id' = id
  · subst hid
    rw [record_withRequest_self]
    exact hmoves
  · rw [s.record_withRequest_of_ne hid]
    exact .stays _

theorem insertRequest_moves (s : Store) {request : ChangeRequest} (hfresh : request.Fresh)
    (id : Uuid) : (s.record id).Moves ((s.insertRequest request).2.record id) := by
  rcases s.insertRequest_cases request with ⟨e, hinsert⟩ | ⟨hfree, hinsert⟩
  · rw [hinsert]
    exact .stays _
  · rw [hinsert]
    refine s.withRequest_moves ?_ id
    rw [record, hfree]
    exact .opens _ hfresh

theorem recordReview_moves (s : Store) (review : Review) (id : Uuid) :
    (s.record id).Moves
      ((s.recordReview review review.decision.resultingStatus).2.record id) := by
  rcases s.recordReview_cases review review.decision.resultingStatus with
    ⟨e, hrecord⟩ | ⟨request, hrequest, hopen, hrecord⟩
  · rw [hrecord]
    exact .stays _
  · rw [hrecord]
    by_cases hid : id = review.requestId
    · subst hid
      rw [record_withReview_self, record_withRequest_self, record_eq_of_request? hrequest]
      exact .takes _ hopen review
    · rw [record_withReview_of_ne _ hid, record_withRequest_of_ne _ hid]
      exact .stays _

/-- The guard is that of a cancellation. -/
theorem transition_moves (s : Store) (id : Uuid) (now : Instant) (id' : Uuid) :
    (s.record id').Moves
      ((s.transition id [.pending, .approved, .rejected] .cancelled now).2.record id') := by
  rcases s.transition_cases id [.pending, .approved, .rejected] .cancelled now with
    ⟨e, hmove⟩ | ⟨request, hrequest, hallowed, hmove⟩
  · rw [hmove]
    exact .stays _
  · rw [hmove]
    have hopen := Status.isTerminal_eq_false_iff.2 hallowed
    refine s.withRequest_moves ?_ id'
    rw [record_eq_of_request? hrequest]
    exact .cancels _ hopen now

theorem commitApply_moves (s : Store) (id : Uuid) (flag : Option FlagWrite) (actor : Actor)
    (now : Instant) (id' : Uuid) :
    (s.record id').Moves ((s.commitApply id (applyCommit flag actor now)).2.record id') := by
  rcases s.commitApply_cases id (applyCommit flag actor now) with
    ⟨e, hcommit⟩ | ⟨request, hrequest, hallowed, _, hcommit⟩
  · rw [hcommit]
    exact .stays _
  · have hstatus : request.status.canApply = true := by
      simp only [applyCommit, List.mem_cons, List.not_mem_nil, or_false] at hallowed
      rcases hallowed with hstatus | hstatus <;> rw [hstatus] <;> rfl
    rw [hcommit, ← s.record_withFlagWrite flag now id']
    refine withRequest_moves _ ?_ id'
    rw [record_withFlagWrite, listReviews_withFlagWrite, record_eq_of_request? hrequest]
    exact .applies _ hstatus actor now

end Store

end FlagGovernance
