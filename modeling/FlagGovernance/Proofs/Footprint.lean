import FlagGovernance.Proofs.Refusal
import FlagGovernance.Proofs.Run
/-
What an operation touches.

The footprint of an operation is told before it is done: of an apply, from the request as
it stands.  Off the footprint every request, list of reviews, flag and project is found as
before, whatever faults are queued and whether the operation is done or refused.
-/

namespace FlagGovernance

/-- Requests, lists of reviews, flags and projects. -/
structure Footprint where
  requests : List Uuid
  reviews : List Uuid
  flags : List FlagId
  projects : List String

/-- What applying a request may touch; only flags are written, and only a flag needs its
project. -/
def ChangeRequest.footprint (id : Uuid) (request : ChangeRequest) : Footprint :=
  if request.resourceType = .flag then ⟨[id], [], [request.key], [request.project]⟩
  else ⟨[id], [], [], []⟩

def ApplyCommit.footprint (id : Uuid) (commit : ApplyCommit) : Footprint :=
  match commit.flag with
  | some write => ⟨[id], [], [write.id], [write.project]⟩
  | none => ⟨[id], [], [], []⟩

/-- What an operation may touch in a store. -/
def Operation.footprint (s : Store) : Operation → Footprint
  | create _ _ stamp _ => ⟨[stamp.id], [], [], []⟩
  | review id .. => ⟨[id], [id], [], []⟩
  | apply id .. =>
    match s.request? id with
    | some request => request.footprint id
    | none => ⟨[], [], [], []⟩
  | cancel id .. => ⟨[id], [], [], []⟩
  | seedFlag project key .. => ⟨[], [], [⟨project, key⟩], [project]⟩
  | putFlag project key .. => ⟨[], [], [⟨project, key⟩], []⟩
  | ensureProject project => ⟨[], [], [], [project]⟩
  | renameFlag project source target _ => ⟨[], [], [⟨project, source⟩, ⟨project, target⟩], []⟩
  | insertRequest request => ⟨[request.id], [], [], []⟩
  | recordReview given _ => ⟨[given.requestId], [given.requestId], [], []⟩
  | transition id .. => ⟨[id], [], [], []⟩
  | commitApply id commit => commit.footprint id
  | get _ | list _ | countPending | flag _ _ | injectFault _ _ => ⟨[], [], [], []⟩

namespace Store

/-- The stores agree on all that is not touched. -/
structure SameOff (touched : Footprint) (s s' : Store) : Prop where
  requests : ∀ id ∉ touched.requests, s'.request? id = s.request? id
  reviews : ∀ id ∉ touched.reviews, s'.reviews.find? id = s.reviews.find? id
  flags : ∀ key ∉ touched.flags, s'.flags.find? key = s.flags.find? key
  projects : ∀ project ∉ touched.projects, s'.projects.find? project = s.projects.find? project

namespace SameOff

variable {touched : Footprint} {s s' s'' : Store}

theorem refl (touched : Footprint) (s : Store) : SameOff touched s s :=
  ⟨fun _ _ => rfl, fun _ _ => rfl, fun _ _ => rfl, fun _ _ => rfl⟩

theorem trans (h₁ : SameOff touched s s') (h₂ : SameOff touched s' s'') :
    SameOff touched s s'' where
  requests id hid := (h₂.requests id hid).trans (h₁.requests id hid)
  reviews id hid := (h₂.reviews id hid).trans (h₁.reviews id hid)
  flags key hkey := (h₂.flags key hkey).trans (h₁.flags key hkey)
  projects project hproject :=
    (h₂.projects project hproject).trans (h₁.projects project hproject)

theorem withRequest (s : Store) {id : Uuid} (hid : id ∈ touched.requests)
    (request : ChangeRequest) : SameOff touched s (s.withRequest id request) :=
  { refl touched s with
    requests := fun _ hother =>
      s.requests.find?_insert_of_ne (ne_of_mem_of_not_mem hid hother).symm request }

theorem withReview (s : Store) {review : Review} (hid : review.requestId ∈ touched.reviews) :
    SameOff touched s (s.withReview review) :=
  { refl touched s with
    reviews := fun _ hother =>
      s.reviews.find?_insert_of_ne (ne_of_mem_of_not_mem hid hother).symm _ }

theorem withProject (s : Store) {project : String} (hproject : project ∈ touched.projects) :
    SameOff touched s (s.withProject project) :=
  { refl touched s with
    projects := fun _ hother =>
      s.projects.find?_insert_of_ne (ne_of_mem_of_not_mem hproject hother).symm () }

theorem written (s : Store) {write : FlagWrite} (hid : write.id ∈ touched.flags)
    (now : Instant) : SameOff touched s (s.written write now) :=
  { refl touched s with
    flags := fun _ hother =>
      s.flags.find?_insert_of_ne (ne_of_mem_of_not_mem hid hother).symm _ }

theorem withRenamed (s : Store) {source target : FlagId} (hsource : source ∈ touched.flags)
    (htarget : target ∈ touched.flags) (flag : StoredFlag) (now : Instant) :
    SameOff touched s (s.withRenamed source target flag now) :=
  { refl touched s with
    flags := fun key hother => by
      rw [Store.withRenamed,
        OrderedMap.find?_insert_of_ne _ (ne_of_mem_of_not_mem htarget hother).symm,
        OrderedMap.find?_erase_of_ne _ (ne_of_mem_of_not_mem hsource hother).symm] }

end SameOff

/-- Applying touches what the commit says. -/
theorem commit_sameOff (s : Store) (id : Uuid) (commit : ApplyCommit) (request : ChangeRequest) :
    s.SameOff (commit.footprint id)
      ((s.withFlagWrite commit.flag commit.appliedAt).withRequest id request) := by
  obtain ⟨allowed, flag, actor, now⟩ := commit
  cases flag with
  | none => exact .withRequest s List.mem_cons_self request
  | some write =>
      have hproject : s.SameOff ⟨[id], [], [write.id], [write.project]⟩
          (s.withProject write.project) := .withProject s List.mem_cons_self
      exact (hproject.trans (.written _ List.mem_cons_self now)).trans
        (.withRequest _ List.mem_cons_self request)

end Store

namespace Governance

/-- Every operation leaves all that is off its footprint. -/
theorem after_sameOff (g : Governance) (op : Operation) :
    g.store.SameOff (op.footprint g.store) (g.after op).store := by
  have hperformed := g.performed op
  generalize (g.perform op).1 = outcome, g.after op = g' at hperformed
  cases hperformed with
  | refused _ hsame =>
      rw [hsame.store_eq]
      exact .refl _ _
  | answered _ _ _ hsame =>
      rw [hsame.store_eq]
      exact .refl _ _
  | created | cancelled | inserted | transitioned => exact .withRequest _ List.mem_cons_self _
  | reviewed id _ _ _ _ _ _ _ _ review hreview =>
      subst hreview
      exact (Store.SameOff.withRequest _ List.mem_cons_self _).trans
        (.withReview _ List.mem_cons_self)
  | recorded =>
      exact (Store.SameOff.withRequest _ List.mem_cons_self _).trans
        (.withReview _ List.mem_cons_self)
  | applied id actor time event request flag hrequest hstatus hflag =>
      have htouched : (Operation.apply id actor time event).footprint g.store =
          (applyCommit flag actor time).footprint id := by
        simp only [Operation.footprint, hrequest, ChangeRequest.footprint]
        rcases flagWrite_cases hflag with ⟨hother, rfl⟩ | ⟨htype, config, _, rfl⟩
        · exact if_neg hother
        · exact if_pos htype
      rw [announce_store, htouched]
      exact g.store.commit_sameOff id (applyCommit flag actor time) _
  | committed id commit request => exact g.store.commit_sameOff id commit _
  | seeded _ _ _ now write hwrite =>
      subst hwrite
      exact (Store.SameOff.withProject _ List.mem_cons_self).trans
        (.written _ List.mem_cons_self now)
  | put _ _ _ _ now _ write hwrite =>
      subst hwrite
      exact .written _ List.mem_cons_self now
  | ensured => exact .withProject _ List.mem_cons_self
  | renamed _ _ _ now flag =>
      exact .withRenamed _ List.mem_cons_self (List.mem_cons_of_mem _ List.mem_cons_self) flag now
  | injected => exact .refl _ _

section Done

variable {g g' : Governance} {answer : Answer}

theorem create_adds {p : Proposal} {author : Actor} {stamp event : Stamp}
    (hperform : g.perform (.create p author stamp event) = (.ok answer, g')) :
    ∃ request, answer = .request request ∧ g.store.request? stamp.id = none ∧
      g'.store.request? stamp.id = some request ∧
      g'.store.requests.size = g.store.requests.size + 1 := by
  cases performed_of_eq hperform with
  | answered _ hkind => contradiction
  | created _ _ _ _ _ hfree request =>
      refine ⟨request, rfl, hfree, OrderedMap.find?_insert_self _ _ _, ?_⟩
      have hsize := g.store.requests.size_insert stamp.id request
      rw [OrderedMap.erase_of_find?_eq_none hfree] at hsize
      exact hsize

theorem review_appends {id : Uuid} {decision : Decision} {reviewer : Actor}
    {comment : Option String} {stamp event : Stamp}
    (hperform : g.perform (.review id decision reviewer comment stamp event) = (.ok answer, g')) :
    ∃ request outcome, answer = .reviewed outcome ∧ g.store.request? id = some request ∧
      g'.store.request? id = some outcome.request ∧
      g'.store.listReviews id = g.store.listReviews id ++ [outcome.review] := by
  cases performed_of_eq hperform with
  | answered _ hkind => contradiction
  | reviewed _ _ _ _ _ _ request hrequest _ review hreview updated =>
      subst hreview
      refine ⟨request, ⟨updated, _⟩, rfl, hrequest, OrderedMap.find?_insert_self _ _ _, ?_⟩
      exact congrArg (Option.getD · []) (OrderedMap.find?_insert_self _ _ _)

theorem cancel_replaces {id : Uuid} {actor : Actor} {time : Instant} {event : Stamp}
    (hperform : g.perform (.cancel id actor time event) = (.ok answer, g')) :
    ∃ request updated, answer = .request updated ∧ g.store.request? id = some request ∧
      g'.store.request? id = some updated := by
  cases performed_of_eq hperform with
  | answered _ hkind => contradiction
  | cancelled _ _ _ _ request hrequest _ updated =>
      exact ⟨request, updated, rfl, hrequest, OrderedMap.find?_insert_self _ _ _⟩

theorem apply_writes {id : Uuid} {actor : Actor} {time : Instant} {event : Stamp}
    (hperform : g.perform (.apply id actor time event) = (.ok answer, g')) :
    ∃ request change, answer = .applied change ∧ g.store.request? id = some request ∧
      g'.store.request? id = some change.request ∧
      (request.resourceType = .flag → ∃ flag, change.flag = some flag ∧
        g'.store.flags.find? request.key = some flag ∧
        g'.store.projects.contains request.project = true) := by
  cases performed_of_eq hperform with
  | answered _ hkind => contradiction
  | applied _ _ _ _ request flag hrequest _ hflag _ change hchange =>
      refine ⟨request, change, rfl, hrequest, ?_, fun htype => ?_⟩
      · rw [announce_store, hchange]
        exact OrderedMap.find?_insert_self _ _ _
      · rcases flagWrite_cases hflag with ⟨hother, _⟩ | ⟨_, config, _, rfl⟩
        · exact absurd htype hother
        · refine ⟨_, by rw [hchange]; rfl, ?_, ?_⟩
          · rw [announce_store]
            exact OrderedMap.find?_insert_self _ _ _
          · rw [announce_store]
            exact g.store.projects.contains_insert_self request.project ()

theorem seed_writes {project key : String} {config : FlagConfig} {now : Instant}
    (hperform : g.perform (.seedFlag project key config now) = (.ok answer, g')) :
    ∃ flag, answer = .stored flag ∧ g'.store.flag? project key = some flag ∧
      g'.store.projects.contains project = true := by
  cases performed_of_eq hperform with
  | answered _ hkind => contradiction
  | seeded _ _ _ _ write hwrite =>
      subst hwrite
      exact ⟨_, rfl, OrderedMap.find?_insert_self _ _ _,
        g.store.projects.contains_insert_self project ()⟩

theorem put_writes {project key : String} {config : FlagConfig} {check : RevisionCheck}
    {now : Instant} (hperform : g.perform (.putFlag project key config check now) =
      (.ok answer, g')) :
    ∃ flag, answer = .stored flag ∧ g'.store.flag? project key = some flag := by
  cases performed_of_eq hperform with
  | answered _ hkind => contradiction
  | put _ _ _ _ _ _ write hwrite =>
      subst hwrite
      exact ⟨_, rfl, OrderedMap.find?_insert_self _ _ _⟩

/-- A flag is renamed away from its key and to one where no flag is. -/
theorem rename_moves {project source target : String} {now : Instant}
    (hperform : g.perform (.renameFlag project source target now) = (.ok answer, g')) :
    ∃ flag, g.store.flag? project source = some flag ∧ g.store.flag? project target = none ∧
      g'.store.flag? project source = none ∧
      g'.store.flag? project target =
        some { flag with key := target, revision := flag.revision + 1, updatedAt := now } := by
  cases performed_of_eq hperform with
  | answered _ hkind => contradiction
  | renamed _ _ _ _ flag htarget hsource =>
      -- the keys differ, for one of them is bound
      have hne : (⟨project, source⟩ : FlagId) ≠ ⟨project, target⟩ := by
        intro heq
        rw [heq, htarget] at hsource
        contradiction
      refine ⟨flag, hsource, htarget, ?_, OrderedMap.find?_insert_self _ _ _⟩
      exact (OrderedMap.find?_insert_of_ne _ hne _).trans (OrderedMap.find?_erase_self _ _)

theorem answers_rename_iff (g : Governance) (project source target : String) (now : Instant) :
    g.Answers (.renameFlag project source target now) ↔
      g.store.flag? project source ≠ none ∧ g.store.flag? project target = none := by
  constructor
  · rintro ⟨answer, hanswer⟩
    obtain ⟨flag, hsource, htarget, _⟩ := rename_moves (Prod.ext hanswer rfl)
    exact ⟨hsource ▸ Option.some_ne_none flag, htarget⟩
  · rintro ⟨hsource, htarget⟩
    obtain ⟨flag, hsource⟩ := Option.ne_none_iff_exists'.1 hsource
    refine ⟨.stored (flag.renamed target now), ?_⟩
    rw [perform, onStore_of_done (Store.renameFlag_of_bound htarget hsource now)]
    rfl

end Done

/-- Whatever the state and the faults queued, an operation leaves what is off its footprint.
A request that is opened is new and one more; a review is put after those of its request; a
request that is reviewed, cancelled or applied is replaced; a flag that is applied, seeded or
put stands at its key; and a rename, done just when its source is bound and its target is
not, moves the flag and takes it one revision on. -/
theorem operations_touch_their_own (g : Governance) :
    (∀ op : Operation, g.store.SameOff (op.footprint g.store) (g.after op).store) ∧
    (∀ p author stamp event answer g',
      g.perform (.create p author stamp event) = (.ok answer, g') →
        ∃ request, answer = .request request ∧ g.store.request? stamp.id = none ∧
          g'.store.request? stamp.id = some request ∧
          g'.store.requests.size = g.store.requests.size + 1) ∧
    (∀ id decision reviewer comment stamp event answer g',
      g.perform (.review id decision reviewer comment stamp event) = (.ok answer, g') →
        ∃ request outcome, answer = .reviewed outcome ∧ g.store.request? id = some request ∧
          g'.store.request? id = some outcome.request ∧
          g'.store.listReviews id = g.store.listReviews id ++ [outcome.review]) ∧
    (∀ id actor time event answer g',
      g.perform (.cancel id actor time event) = (.ok answer, g') →
        ∃ request updated, answer = .request updated ∧ g.store.request? id = some request ∧
          g'.store.request? id = some updated) ∧
    (∀ id actor time event answer g',
      g.perform (.apply id actor time event) = (.ok answer, g') →
        ∃ request change, answer = .applied change ∧ g.store.request? id = some request ∧
          g'.store.request? id = some change.request ∧
          (request.resourceType = .flag → ∃ flag, change.flag = some flag ∧
            g'.store.flags.find? request.key = some flag ∧
            g'.store.projects.contains request.project = true)) ∧
    (∀ project key config now answer g',
      g.perform (.seedFlag project key config now) = (.ok answer, g') →
        ∃ flag, answer = .stored flag ∧ g'.store.flag? project key = some flag ∧
          g'.store.projects.contains project = true) ∧
    (∀ project key config check now answer g',
      g.perform (.putFlag project key config check now) = (.ok answer, g') →
        ∃ flag, answer = .stored flag ∧ g'.store.flag? project key = some flag) ∧
    ∀ project source target now,
      (g.Answers (.renameFlag project source target now) ↔
        g.store.flag? project source ≠ none ∧ g.store.flag? project target = none) ∧
      ∀ answer g', g.perform (.renameFlag project source target now) = (.ok answer, g') →
        ∃ flag, g.store.flag? project source = some flag ∧
          g.store.flag? project target = none ∧ g'.store.flag? project source = none ∧
          g'.store.flag? project target =
            some { flag with key := target, revision := flag.revision + 1, updatedAt := now } :=
  ⟨g.after_sameOff, fun _ _ _ _ _ _ => create_adds, fun _ _ _ _ _ _ _ _ => review_appends,
    fun _ _ _ _ _ _ => cancel_replaces, fun _ _ _ _ _ _ => apply_writes,
    fun _ _ _ _ _ _ => seed_writes, fun _ _ _ _ _ _ _ => put_writes,
    fun project source target now =>
      ⟨g.answers_rename_iff project source target now, fun _ _ => rename_moves⟩⟩

/-- A flag is applied beside another, which then cannot take its key. -/
theorem apply_leaves_other_flag :
    let g := Sample.governance.run
      [.seedFlag "web" "pay" (.boolean true) Sample.moment,
       .create Sample.proposal Sample.actor (Sample.stamp 1) (Sample.stamp 2)]
    let op := Operation.apply (.ofNat 1) Sample.actor Sample.moment (Sample.stamp 3)
    ∃ answer g', g.perform op = (.ok answer, g') ∧
      (∃ flag, g'.store.flag? "web" "checkout" = some flag) ∧
      g.store.flag? "web" "pay" ≠ none ∧
      g'.store.flag? "web" "pay" = g.store.flag? "web" "pay" ∧
      ¬ g'.Answers (.renameFlag "web" "pay" "checkout" Sample.moment) := by
  intro g op
  obtain ⟨hframe, _, _, _, happly, _⟩ := operations_touch_their_own g
  obtain ⟨answer, hanswer⟩ := exists_ok_of_fault? (x := (g.perform op).1) (by decide +kernel)
  obtain ⟨request, change, _, hrequest, _, hwrites⟩ := happly _ _ _ _ _ _ (Prod.ext hanswer rfl)
  obtain rfl : (Sample.proposal.opened Sample.actor (Sample.stamp 1) none) = request :=
    Option.some.inj hrequest
  obtain ⟨flag, _, hflag, _⟩ := hwrites rfl
  refine ⟨answer, g.after op, Prod.ext hanswer rfl, ⟨flag, hflag⟩, nofun, ?_, ?_⟩
  · have htouched : (op.footprint g.store).flags = [⟨"web", "checkout"⟩] := rfl
    exact (hframe op).flags ⟨"web", "pay"⟩ (by rw [htouched]; decide)
  · intro hrename
    obtain ⟨_, _, _, _, _, _, _, hrenames⟩ := operations_touch_their_own (g.after op)
    have hfree := ((hrenames "web" "pay" "checkout" Sample.moment).1.1 hrename).2
    exact absurd (hflag.symm.trans hfree) nofun

end Governance

end FlagGovernance
