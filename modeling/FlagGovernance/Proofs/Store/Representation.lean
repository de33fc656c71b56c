import FlagGovernance.Proofs.Persistence
import FlagGovernance.Proofs.Revision.Growth
/-
What every store that can be reached looks like.

A flag stands under the project and the key that its entry names, in a project that is
there, at revision one or later.  A request stands under its identifier, and a review
under that of a request that is there.  So revision zero tells that there is no entry,
a write passes just when it finds what it expects, and a listing shows the flags of its
project and no others.
-/

namespace FlagGovernance

/-- The entry is what a check expects to find. -/
def RevisionCheck.Meets : RevisionCheck → Option StoredFlag → Prop
  | .any, _ => True
  | .absent, entry => entry = none
  | .at revision, entry => ∃ flag, entry = some flag ∧ flag.revision = revision

/-- Where no entry has revision zero, a check passes just when it meets what it expects.
A check for revision zero would pass for want of an entry. -/
theorem RevisionCheck.verify_eq_ok_iff {check : RevisionCheck} {entry : Option StoredFlag}
    (hcheck : check ≠ .at 0) (hentry : ∀ flag, entry = some flag → 1 ≤ flag.revision) :
    check.verify entry = .ok () ↔ check.Meets entry := by
  cases check with
  | any => exact iff_of_true rfl trivial
  | absent =>
      cases entry with
      | none => exact iff_of_true rfl rfl
      | some flag =>
          have hpos := hentry flag rfl
          have hne : flag.revision ≠ 0 := by omega
          simp [verify, Meets, hne]
  | «at» revision =>
      have hne : revision ≠ 0 := fun hzero => hcheck (congrArg RevisionCheck.at hzero)
      cases entry with
      | none => simp [verify, Meets, hne]
      | some flag => simp [verify, Meets, eq_comm]

/-- The entry is that of its place: it names the project and the key, it was written, and
the project is there. -/
structure StoredFlag.StandsAt (flag : StoredFlag) (id : FlagId) (projects : OrderedSet String) :
    Prop where
  names : flag.id = id
  revision_pos : 1 ≤ flag.revision
  project_mem : id.project ∈ projects.keys

namespace Store

/-- The step is answered. -/
def Passes {α : Type} (step : Step α) : Prop := ∃ answer, step.1 = .ok answer

theorem not_passes_error {α : Type} {e : StoreError} {s : Store} :
    ¬ Passes ((.error e, s) : Step α) := by
  rintro ⟨answer, hanswer⟩
  contradiction

theorem writeFlag_passes_iff (s : Store) (write : FlagWrite) (now : Instant) :
    Passes (s.writeFlag write now) ↔ write.check.verify (s.flags.find? write.id) = .ok () := by
  rcases s.writeFlag_cases write now with ⟨e, hverify, hwrite⟩ | ⟨hverify, hwrite⟩
  · rw [hwrite, hverify]
    exact iff_of_false not_passes_error nofun
  · rw [hwrite]
    exact iff_of_true ⟨_, rfl⟩ hverify

theorem putFlag_passes_iff (s : Store) (project key : String) (config : FlagConfig)
    (check : RevisionCheck) (now : Instant) :
    Passes (s.putFlag project key config check now) ↔
      project ∈ s.listProjects ∧ check.verify (s.flags.find? ⟨project, key⟩) = .ok () := by
  rw [listProjects, ← OrderedMap.contains_iff_mem_keys, putFlag]
  by_cases hproject : s.projects.contains project = true
  · rw [if_pos hproject, and_iff_right hproject]
    refine Iff.trans ?_ (s.writeFlag_passes_iff ⟨project, key, config, check⟩ now)
    obtain ⟨outcome, s'⟩ := s.writeFlag ⟨project, key, config, check⟩ now
    cases outcome with
    | error e => exact iff_of_false not_passes_error not_passes_error
    | ok stored => exact iff_of_true ⟨_, rfl⟩ ⟨_, rfl⟩
  · rw [if_neg hproject]
    exact iff_of_false not_passes_error (fun h => hproject h.1)

theorem commitApply_passes_iff (s : Store) (id : Uuid) (commit : ApplyCommit) :
    Passes (s.commitApply id commit) ↔
      (∃ request, s.request? id = some request ∧ request.status ∈ commit.allowedFrom) ∧
        ∀ write ∈ commit.flag, write.check.verify (s.flags.find? write.id) = .ok () := by
  constructor
  · intro hpasses
    rcases s.commitApply_cases id commit with ⟨e, hrefused⟩ |
      ⟨request, hrequest, hallowed, hverify, _⟩
    · rw [hrefused] at hpasses
      exact absurd hpasses not_passes_error
    · exact ⟨⟨request, hrequest, hallowed⟩, hverify⟩
  · rintro ⟨⟨request, hrequest, hallowed⟩, hverify⟩
    rw [commitApply_of_verify hrequest hallowed hverify]
    exact ⟨_, rfl⟩

/-- Every flag is stored under its own project and key. -/
def FlagsKeyed (s : Store) : Prop :=
  ∀ id flag, s.flags.find? id = some flag → flag.StandsAt id s.projects

/-- Every request is stored under its own identifier. -/
def RequestsKeyed (s : Store) : Prop := ∀ id request, s.request? id = some request → request.id = id

/-- Every review is stored under the identifier of its request, which is there. -/
def ReviewsKeyed (s : Store) : Prop :=
  ∀ id, ∀ review ∈ s.listReviews id, review.requestId = id ∧ s.request? id ≠ none

/-- What is stored stands where it says that it stands. -/
structure Coherent (s : Store) : Prop where
  flags : s.FlagsKeyed
  requests : s.RequestsKeyed
  reviews : s.ReviewsKeyed

theorem requestsKeyed_empty : Store.empty.RequestsKeyed := by
  intro id request hfound
  contradiction

theorem coherent_empty : Store.empty.Coherent where
  flags _ _ hfound := by contradiction
  requests := requestsKeyed_empty
  reviews _ _ hmem := absurd hmem List.not_mem_nil

theorem mem_listProjects_withProject (s : Store) (project : String) :
    project ∈ (s.withProject project).listProjects := by
  rw [mem_listProjects_iff, withProject, OrderedMap.find?_insert_self]
  exact Option.some_ne_none ()

theorem FlagsKeyed.withProject {s : Store} (hkeyed : s.FlagsKeyed) (project : String) :
    (s.withProject project).FlagsKeyed := by
  intro id flag hfound
  obtain ⟨hnames, hrevision, hproject⟩ := hkeyed id flag hfound
  exact ⟨hnames, hrevision, (s.extends_withProject project).projects id.project hproject⟩

theorem FlagsKeyed.written {s : Store} (hkeyed : s.FlagsKeyed) {write : FlagWrite}
    (hproject : write.project ∈ s.listProjects) (now : Instant) :
    (s.written write now).FlagsKeyed := by
  intro id flag hfound
  rw [find?_written] at hfound
  split at hfound
  · next hid =>
    subst hid
    obtain rfl := Option.some.inj hfound
    exact ⟨rfl, Nat.succ_pos _, hproject⟩
  · exact hkeyed id flag hfound

theorem FlagsKeyed.withFlagWrite {s : Store} (hkeyed : s.FlagsKeyed) (write : Option FlagWrite)
    (now : Instant) : (s.withFlagWrite write now).FlagsKeyed := by
  cases write with
  | none => exact hkeyed
  | some write =>
      exact (hkeyed.withProject write.project).written (s.mem_listProjects_withProject _) now

/-- The entry that moves takes the new key, in the project that it was in. -/
theorem FlagsKeyed.withRenamed {s : Store} (hkeyed : s.FlagsKeyed) {project source : String}
    {flag : StoredFlag} (hsource : s.flags.find? ⟨project, source⟩ = some flag) (target : String)
    (now : Instant) :
    (s.withRenamed ⟨project, source⟩ ⟨project, target⟩ flag now).FlagsKeyed := by
  intro id found hfound
  rw [Store.withRenamed, OrderedMap.find?_insert] at hfound
  split at hfound
  · next hid =>
    subst hid
    obtain rfl := Option.some.inj hfound
    obtain ⟨hnames, _, hproject⟩ := hkeyed _ flag hsource
    have hsame : flag.project = project := congrArg FlagId.project hnames
    exact ⟨congrArg (FlagId.mk · target) hsame, Nat.succ_pos _, hproject⟩
  · by_cases hid : id = ⟨project, source⟩
    · subst hid
      rw [OrderedMap.find?_erase_self] at hfound
      contradiction
    · rw [OrderedMap.find?_erase_of_ne _ hid] at hfound
      exact hkeyed id found hfound

theorem RequestsKeyed.withRequest {s s' : Store} (hkeyed : s.RequestsKeyed)
    (hsame : s'.requests = s.requests) {id : Uuid} {request : ChangeRequest}
    (hid : request.id = id) : (s'.withRequest id request).RequestsKeyed := by
  intro other found hfound
  rw [request?_withRequest] at hfound
  split at hfound
  · next hother =>
    obtain rfl := Option.some.inj hfound
    exact hid.trans hother.symm
  · rw [request?, hsame] at hfound
    exact hkeyed other found hfound

theorem RequestsKeyed.replace {s s' : Store} (hkeyed : s.RequestsKeyed)
    (hsame : s'.requests = s.requests) {id : Uuid} {found request : ChangeRequest}
    (hfound : s.request? id = some found) (hid : request.id = found.id) :
    (s'.withRequest id request).RequestsKeyed :=
  hkeyed.withRequest hsame (hid.trans (hkeyed id found hfound))

/-- A request that is put takes no review's request away. -/
theorem ReviewsKeyed.withRequest {s s' : Store} (hkeyed : s.ReviewsKeyed)
    (hrequests : s'.requests = s.requests) (hreviews : s'.reviews = s.reviews) (id : Uuid)
    (request : ChangeRequest) : (s'.withRequest id request).ReviewsKeyed := by
  intro other review hmem
  have hbefore : review ∈ s.listReviews other := by
    rw [listReviews, ← hreviews]
    exact hmem
  obtain ⟨hid, hthere⟩ := hkeyed other review hbefore
  refine ⟨hid, ?_⟩
  rw [request?_withRequest]
  split
  · exact Option.some_ne_none request
  · rw [request?, hrequests]
    exact hthere

theorem ReviewsKeyed.withReview {s : Store} (hkeyed : s.ReviewsKeyed) {review : Review}
    (hthere : s.request? review.requestId ≠ none) : (s.withReview review).ReviewsKeyed := by
  intro id recorded hmem
  simp only [listReviews, Store.withReview] at hmem
  rw [OrderedMap.find?_insert] at hmem
  split at hmem
  · next hid =>
    subst hid
    rcases List.mem_append.1 hmem with hbefore | hlast
    · exact hkeyed _ recorded hbefore
    · rw [List.mem_singleton.1 hlast]
      exact ⟨rfl, hthere⟩
  · exact hkeyed id recorded hmem

/-- A flag is listed with its project just when it is bound there. -/
theorem mem_listFlags_iff {s : Store} (hkeyed : s.FlagsKeyed) {project : String}
    {flag : StoredFlag} :
    flag ∈ s.listFlags project ↔ ∃ key, s.flag? project key = some flag := by
  rw [listFlags, List.mem_filter, OrderedMap.mem_values_iff]
  constructor
  · rintro ⟨⟨id, hfound⟩, hproject⟩
    have hid : id.project = project :=
      (congrArg FlagId.project (hkeyed id flag hfound).names).symm.trans (eq_of_beq hproject)
    exact ⟨id.key, hid ▸ hfound⟩
  · rintro ⟨key, hfound⟩
    have hnames := (hkeyed ⟨project, key⟩ flag hfound).names
    exact ⟨⟨⟨project, key⟩, hfound⟩, beq_of_eq (congrArg FlagId.project hnames)⟩

/-- The entries stand by project and key, so those of one project stand by key. -/
theorem listFlags_ascending {s : Store} (hkeyed : s.FlagsKeyed) (project : String) :
    (s.listFlags project).Pairwise (fun a b => a.key < b.key) := by
  have hplaces : ∀ entry ∈ s.flags.entries, entry.2.id = entry.1 := by
    intro entry hmem
    exact (hkeyed entry.1 entry.2 (OrderedMap.mem_entries_iff.1 hmem)).names
  have hids : s.flags.values.Pairwise (fun a b => compare a.id b.id = .lt) := by
    rw [OrderedMap.values, List.pairwise_map]
    refine s.flags.ordered.imp_of_mem ?_
    intro a b hleft hright hlt
    rw [hplaces a hleft, hplaces b hright]
    exact hlt
  refine (hids.filter _).imp_of_mem ?_
  intro a b hleft hright hlt
  have hsame : a.project = b.project :=
    (eq_of_beq (List.mem_filter.1 hleft).2).trans (eq_of_beq (List.mem_filter.1 hright).2).symm
  rw [FlagId.compare_def, StoredFlag.id, StoredFlag.id, hsame, Std.ReflOrd.compare_self] at hlt
  exact compareOfLessAndEq_eq_lt.1 hlt

end Store

namespace Governance

theorem after_requestsKeyed (op : Operation) (g : Governance) (hkeyed : g.store.RequestsKeyed) :
    (g.after op).store.RequestsKeyed := by
  have hperformed := g.performed op
  generalize (g.perform op).1 = outcome, g.after op = g' at hperformed
  cases hperformed with
  | refused _ hsame => rw [hsame.store_eq]; exact hkeyed
  | answered _ _ _ hsame => rw [hsame.store_eq]; exact hkeyed
  | created _ _ _ _ _ _ _ hopened => exact hkeyed.withRequest rfl (by rw [hopened]; rfl)
  | inserted => exact hkeyed.withRequest rfl rfl
  | reviewed _ _ _ _ _ _ _ hrequest _ _ _ _ hupdated =>
      exact hkeyed.replace rfl hrequest (by rw [hupdated]; rfl)
  | recorded _ _ _ hrequest => exact hkeyed.replace rfl hrequest rfl
  | cancelled _ _ _ _ _ hrequest _ _ hupdated =>
      exact hkeyed.replace rfl hrequest (by rw [hupdated]; rfl)
  | transitioned _ _ _ _ _ hrequest => exact hkeyed.replace rfl hrequest rfl
  | applied _ _ _ _ _ flag hrequest =>
      rw [announce_store]
      exact hkeyed.replace (by cases flag <;> rfl) hrequest rfl
  | committed _ commit _ hrequest =>
      exact hkeyed.replace (by cases commit.flag <;> rfl) hrequest rfl
  | seeded | put | ensured | renamed | injected => exact hkeyed

theorem after_flagsKeyed (op : Operation) (g : Governance) (hkeyed : g.store.FlagsKeyed) :
    (g.after op).store.FlagsKeyed := by
  have hperformed := g.performed op
  generalize (g.perform op).1 = outcome, g.after op = g' at hperformed
  cases hperformed with
  | refused _ hsame => rw [hsame.store_eq]; exact hkeyed
  | answered _ _ _ hsame => rw [hsame.store_eq]; exact hkeyed
  | applied _ _ time _ _ flag => rw [announce_store]; exact hkeyed.withFlagWrite flag time
  | committed _ commit => exact hkeyed.withFlagWrite commit.flag commit.appliedAt
  | seeded project key config now write hwrite =>
      refine (hkeyed.withProject project).written ?_ now
      rw [hwrite]
      exact g.store.mem_listProjects_withProject project
  | put project key config check now hproject write hwrite =>
      refine hkeyed.written ?_ now
      rw [hwrite]
      exact (OrderedMap.contains_iff_mem_keys _ _).1 hproject
  | ensured project => exact hkeyed.withProject project
  | renamed _ _ target now _ _ hsource => exact hkeyed.withRenamed hsource target now
  | created | reviewed | cancelled | inserted | recorded | transitioned | injected => exact hkeyed

theorem after_reviewsKeyed (op : Operation) (g : Governance) (hkeyed : g.store.ReviewsKeyed) :
    (g.after op).store.ReviewsKeyed := by
  have hperformed := g.performed op
  generalize (g.perform op).1 = outcome, g.after op = g' at hperformed
  have hput {id : Uuid} (request : ChangeRequest) : (g.store.withRequest id request).ReviewsKeyed :=
    hkeyed.withRequest rfl rfl id request
  have hrecorded {id : Uuid} {request : ChangeRequest} :
      (g.store.withRequest id request).request? id ≠ none := by
    rw [Store.request?_withRequest, if_pos rfl]
    exact Option.some_ne_none request
  cases hperformed with
  | refused _ hsame => rw [hsame.store_eq]; exact hkeyed
  | answered _ _ _ hsame => rw [hsame.store_eq]; exact hkeyed
  | reviewed id _ _ _ _ _ _ _ _ review hreview updated =>
      refine (hput updated).withReview ?_
      rw [hreview]
      exact hrecorded
  | recorded => exact (hput _).withReview hrecorded
  | created | inserted | cancelled | transitioned => exact hput _
  | applied _ _ _ _ _ flag =>
      rw [announce_store]
      exact hkeyed.withRequest (by cases flag <;> rfl) (by cases flag <;> rfl) _ _
  | committed _ commit =>
      exact hkeyed.withRequest (by cases commit.flag <;> rfl) (by cases commit.flag <;> rfl) _ _
  | seeded | put | ensured | renamed | injected => exact hkeyed

theorem after_coherent (op : Operation) (g : Governance) (hcoherent : g.store.Coherent) :
    (g.after op).store.Coherent where
  flags := after_flagsKeyed op g hcoherent.flags
  requests := after_requestsKeyed op g hcoherent.requests
  reviews := after_reviewsKeyed op g hcoherent.reviews

theorem run_coherent (sink : AuditSink) (relay : RelaySignal) (policy : StalePolicy)
    (ops : List Operation) : ((start sink relay policy).run ops).store.Coherent :=
  run_keeps (P := fun g => g.store.Coherent) (fun op _ g => after_coherent op g)
    Store.coherent_empty

/-- In every store that is reached from the empty one, by whatever is asked of the
workflow or straight of the store: what is stored stands where it says; a write that
expects no entry, or an entry at a revision from one on, passes just when it finds what
it expects; and the flags listed of a project are those bound there, each once, by key. -/
theorem reachable_store_coherent (sink : AuditSink) (relay : RelaySignal) (policy : StalePolicy)
    (ops : List Operation) :
    let s := ((start sink relay policy).run ops).store
    s.Coherent ∧
    (∀ project key config check now, check ≠ .at 0 →
      let write : FlagWrite := ⟨project, key, config, check⟩
      let finds := check.Meets (s.flag? project key)
      (Store.Passes (s.writeFlag write now) ↔ finds) ∧
      (Store.Passes (s.putFlag project key config check now) ↔
        project ∈ s.listProjects ∧ finds) ∧
      ∀ id allowed actor, Store.Passes (s.commitApply id ⟨allowed, some write, actor, now⟩) ↔
        (∃ request, s.request? id = some request ∧ request.status ∈ allowed) ∧ finds) ∧
    ∀ project, (s.listFlags project).Pairwise (fun a b => a.key < b.key) ∧
      ∀ flag, flag ∈ s.listFlags project ↔ ∃ key, s.flag? project key = some flag := by
  intro s
  have hcoherent : s.Coherent := run_coherent sink relay policy ops
  refine ⟨hcoherent, ?_, fun project => ⟨?_, fun flag => Store.mem_listFlags_iff hcoherent.flags⟩⟩
  · intro project key config check now hcheck write finds
    have hverify : check.verify (s.flags.find? write.id) = .ok () ↔ finds :=
      RevisionCheck.verify_eq_ok_iff hcheck
        (fun flag hfound => (hcoherent.flags write.id flag hfound).revision_pos)
    refine ⟨?_, ?_, fun id allowed actor => ?_⟩
    · rw [s.writeFlag_passes_iff]
      exact hverify
    · rw [s.putFlag_passes_iff]
      exact and_congr_right fun _ => hverify
    · rw [s.commitApply_passes_iff]
      refine and_congr_right fun _ => Iff.trans ?_ hverify
      exact ⟨fun hall => hall write rfl, fun hwrite w hw => Option.some.inj hw ▸ hwrite⟩
  · exact Store.listFlags_ascending hcoherent.flags project

/-- A flag that was seeded and renamed is at revision two under its new key. -/
theorem renamed_flag_coherent :
    let s := ((start .absent .absent .lastWriteWins).run
      [.seedFlag "web" "checkout" (.boolean true) Sample.moment,
       .renameFlag "web" "checkout" "pay" Sample.moment]).store
    s.Coherent ∧ RevisionCheck.at 2 ≠ .at 0 ∧
      Store.Passes (s.writeFlag ⟨"web", "pay", .boolean false, .at 2⟩ Sample.moment) ∧
      ¬ Store.Passes (s.putFlag "web" "pay" (.boolean false) .absent Sample.moment) ∧
      ∀ flag, flag ∈ s.listFlags "web" ↔ ∃ key, s.flag? "web" key = some flag := by
  intro s
  obtain ⟨hcoherent, hpasses, hlisted⟩ := reachable_store_coherent .absent .absent .lastWriteWins
    [.seedFlag "web" "checkout" (.boolean true) Sample.moment,
     .renameFlag "web" "checkout" "pay" Sample.moment]
  refine ⟨hcoherent, nofun, ?_, ?_, (hlisted "web").2⟩
  · exact (hpasses "web" "pay" (.boolean false) (.at 2) Sample.moment nofun).1.2 ⟨_, rfl, rfl⟩
  · intro hput
    have hfinds := (hpasses "web" "pay" (.boolean false) .absent Sample.moment nofun).2.1.1 hput
    exact absurd hfinds.2 nofun

end Governance

end FlagGovernance
