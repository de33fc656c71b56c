import FlagGovernance.Proofs.Run
/-
What no operation takes away.

A request stays with all that it was opened with, its reviews are only added to, a
project stays, and renaming moves a flag without losing one.  Each change that the
store can make extends it in this sense, so every operation does, and every run.
-/

namespace FlagGovernance

/-- The later request may differ in its progress only. -/
def ChangeRequest.Advances (request request' : ChangeRequest) : Prop :=
  ∃ status updatedAt appliedAt appliedBy,
    request' = { request with status, updatedAt, appliedAt, appliedBy }

namespace ChangeRequest.Advances

theorem refl (request : ChangeRequest) : request.Advances request :=
  ⟨request.status, request.updatedAt, request.appliedAt, request.appliedBy, rfl⟩

theorem trans {first second third : ChangeRequest} (h₁ : first.Advances second)
    (h₂ : second.Advances third) : first.Advances third := by
  obtain ⟨_, _, _, _, rfl⟩ := h₁
  obtain ⟨status, updatedAt, appliedAt, appliedBy, rfl⟩ := h₂
  exact ⟨status, updatedAt, appliedAt, appliedBy, rfl⟩

theorem reviewed (request : ChangeRequest) (review : Review) (status : Option Status) :
    request.Advances (request.reviewed review status) :=
  ⟨_, _, _, _, rfl⟩

theorem moved (request : ChangeRequest) (target : Status) (now : Instant) :
    request.Advances (request.moved target now) :=
  ⟨_, _, _, _, rfl⟩

theorem applied (request : ChangeRequest) (actor : Actor) (now : Instant) :
    request.Advances (request.applied actor now) :=
  ⟨_, _, _, _, rfl⟩

end ChangeRequest.Advances

namespace Store

theorem request?_withRequest (s : Store) (id id' : Uuid) (request : ChangeRequest) :
    (s.withRequest id request).request? id' = if id' = id then some request else s.request? id' :=
  OrderedMap.find?_insert _ _ _ _

/-- Every request of the one store is in the other, perhaps further on. -/
def RequestsAdvance (s s' : Store) : Prop :=
  ∀ id request, s.request? id = some request →
    ∃ request', s'.request? id = some request' ∧ request.Advances request'

theorem RequestsAdvance.trans {first second third : Store} (h₁ : first.RequestsAdvance second)
    (h₂ : second.RequestsAdvance third) : first.RequestsAdvance third := by
  intro id request hrequest
  obtain ⟨request', hrequest', hadvance⟩ := h₁ id request hrequest
  obtain ⟨request'', hrequest'', hadvance'⟩ := h₂ id request' hrequest'
  exact ⟨request'', hrequest'', hadvance.trans hadvance'⟩

theorem RequestsAdvance.of_eq {s s' : Store} (hsame : s'.requests = s.requests) :
    s.RequestsAdvance s' := by
  intro id request hrequest
  refine ⟨request, ?_, .refl request⟩
  rw [request?, hsame]
  exact hrequest

/-- A request may be put where there is none, or over one that it goes on from. -/
theorem requestsAdvance_withRequest (s : Store) {id : Uuid} {request' : ChangeRequest}
    (hadvance : ∀ request, s.request? id = some request → request.Advances request') :
    s.RequestsAdvance (s.withRequest id request') := by
  intro other request hrequest
  rw [request?_withRequest]
  split
  · next hid =>
    subst hid
    exact ⟨request', rfl, hadvance request hrequest⟩
  · exact ⟨request, hrequest, .refl request⟩

/-- The later store holds the history of the earlier one, and perhaps more. -/
structure Extends (s s' : Store) : Prop where
  /-- No request is gone, and none differs in what it was opened with. -/
  requests : s.RequestsAdvance s'
  /-- Reviews are added at the end only. -/
  reviews : ∀ id, s.listReviews id <+: s'.listReviews id
  projects : ∀ project ∈ s.listProjects, project ∈ s'.listProjects
  flags : s.flags.size ≤ s'.flags.size

theorem Extends.refl (s : Store) : s.Extends s where
  requests := .of_eq rfl
  reviews id := List.prefix_refl (s.listReviews id)
  projects _ hproject := hproject
  flags := Nat.le_refl s.flags.size

theorem Extends.trans {first second third : Store} (h₁ : first.Extends second)
    (h₂ : second.Extends third) : first.Extends third where
  requests := h₁.requests.trans h₂.requests
  reviews id := (h₁.reviews id).trans (h₂.reviews id)
  projects project hproject := h₂.projects project (h₁.projects project hproject)
  flags := Nat.le_trans h₁.flags h₂.flags

theorem extends_withRequest (s : Store) {id : Uuid} {request : ChangeRequest}
    (hadvance : ∀ found, s.request? id = some found → found.Advances request) :
    s.Extends (s.withRequest id request) where
  requests := s.requestsAdvance_withRequest hadvance
  reviews other := List.prefix_refl (s.listReviews other)
  projects _ hproject := hproject
  flags := Nat.le_refl s.flags.size

theorem extends_withReview (s : Store) (review : Review) : s.Extends (s.withReview review) where
  requests := .of_eq rfl
  reviews id := by
    simp only [listReviews, withReview]
    rw [OrderedMap.find?_insert]
    split
    · next hid =>
      subst hid
      exact List.prefix_append _ _
    · exact List.prefix_refl _
  projects _ hproject := hproject
  flags := Nat.le_refl s.flags.size

theorem extends_withProject (s : Store) (project : String) :
    s.Extends (s.withProject project) where
  requests := .of_eq rfl
  reviews id := List.prefix_refl (s.listReviews id)
  projects other hother := by
    rw [mem_listProjects_iff] at hother ⊢
    simp only [withProject]
    rw [OrderedMap.find?_insert]
    split
    · exact Option.some_ne_none ()
    · exact hother
  flags := Nat.le_refl s.flags.size

theorem extends_written (s : Store) (write : FlagWrite) (now : Instant) :
    s.Extends (s.written write now) where
  requests := .of_eq rfl
  reviews id := List.prefix_refl (s.listReviews id)
  projects _ hproject := hproject
  flags := s.flags.size_le_insert write.id _

theorem extends_withFlagWrite (s : Store) (write : Option FlagWrite) (now : Instant) :
    s.Extends (s.withFlagWrite write now) := by
  cases write with
  | none => exact .refl s
  | some write =>
      exact (s.extends_withProject write.project).trans (extends_written _ write now)

/-- The flag that leaves the source is counted again at the target. -/
theorem extends_withRenamed (s : Store) {source : FlagId} {flag : StoredFlag}
    (hsource : s.flags.find? source = some flag) (target : FlagId) (now : Instant)
    (htarget : s.flags.find? target = none) :
    s.Extends (s.withRenamed source target flag now) where
  requests := .of_eq rfl
  reviews id := List.prefix_refl (s.listReviews id)
  projects _ hproject := hproject
  flags := by
    have hne : target ≠ source := by
      rintro rfl
      rw [hsource] at htarget
      contradiction
    have hfree : (s.flags.erase source).find? target = none := by
      rw [OrderedMap.find?_erase_of_ne _ hne]
      exact htarget
    simp only [withRenamed]
    rw [OrderedMap.size_insert, OrderedMap.erase_of_find?_eq_none hfree]
    exact Nat.le_of_eq (OrderedMap.size_eq_of_find? hsource)

end Store

namespace Governance

theorem after_extends (g : Governance) (op : Operation) : g.store.Extends (g.after op).store := by
  have hperformed := g.performed op
  generalize (g.perform op).1 = outcome, g.after op = g' at hperformed
  have hfree {id : Uuid} (hnone : g.store.request? id = none) (request : ChangeRequest) :
      g.store.Extends (g.store.withRequest id request) := by
    apply Store.extends_withRequest
    intro found hfound
    rw [hnone] at hfound
    contradiction
  have hthere {id : Uuid} {request request' : ChangeRequest} {s : Store}
      (hsame : s.request? id = some request) (hadvance : request.Advances request') :
      s.Extends (s.withRequest id request') := by
    apply Store.extends_withRequest
    intro found hfound
    obtain rfl := Option.some.inj (hsame.symm.trans hfound)
    exact hadvance
  cases hperformed with
  | refused _ hsame => rw [hsame.store_eq]; exact .refl _
  | answered _ _ _ hsame => rw [hsame.store_eq]; exact .refl _
  | created _ _ _ _ _ hnone => exact hfree hnone _
  | inserted _ hnone => exact hfree hnone _
  | reviewed _ _ _ _ _ _ request hrequest _ review _ updated hupdated =>
      have hadvance : request.Advances updated := hupdated ▸ .reviewed request review _
      exact (hthere hrequest hadvance).trans (Store.extends_withReview _ review)
  | recorded review status request hrequest =>
      have hadvance : request.Advances (request.reviewed review status) := .reviewed _ _ _
      exact (hthere hrequest hadvance).trans (Store.extends_withReview _ review)
  | cancelled _ _ _ _ _ hrequest _ _ hupdated => exact hthere hrequest (hupdated ▸ .moved _ _ _)
  | transitioned _ _ _ _ _ hrequest => exact hthere hrequest (.moved _ _ _)
  | applied _ _ time _ _ flag hrequest =>
      rw [announce_store]
      have hrequest' := (g.store.request?_withFlagWrite flag time _).trans hrequest
      exact (g.store.extends_withFlagWrite flag time).trans (hthere hrequest' (.applied _ _ _))
  | committed _ commit _ hrequest =>
      have hrequest' :=
        (g.store.request?_withFlagWrite commit.flag commit.appliedAt _).trans hrequest
      exact (g.store.extends_withFlagWrite commit.flag commit.appliedAt).trans
        (hthere hrequest' (.applied _ _ _))
  | seeded project _ _ now write =>
      exact (g.store.extends_withProject project).trans (Store.extends_written _ write now)
  | put _ _ _ _ now _ write => exact g.store.extends_written write now
  | ensured project => exact g.store.extends_withProject project
  | renamed _ _ _ now _ htarget hsource =>
      exact g.store.extends_withRenamed hsource _ now htarget
  | injected => exact .refl _

/-- From any state, whatever is asked of the workflow or straight of the store and
however it is answered: every request is still there with all that it was opened
with, its reviews begin with those it had, every project is still there, and there
are as many flags or more. -/
theorem history_only_grows (g : Governance) (ops : List Operation) :
    g.store.Extends (g.run ops).store := by
  refine run_keeps (P := fun g' => g.store.Extends g'.store) ?_ (.refl g.store)
  intro op _ g' hextends
  exact hextends.trans (g'.after_extends op)

end Governance

end FlagGovernance
