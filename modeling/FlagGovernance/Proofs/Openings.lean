import FlagGovernance.Proofs.Persistence
/-
Where the requests of a run come from.

Every request goes back to the operation that opened it, and what it was opened
with never changes: only its status, the time of its last change, and when and by
whom it was applied.
-/

namespace FlagGovernance

namespace Store

/-- Replacing a request that is there brings no other. -/
theorem request?_withRequest_eq_none {s s' : Store} (hsame : s'.requests = s.requests)
    {id id' : Uuid} {found : ChangeRequest} (hfound : s.request? id' = some found)
    (hnone : s.request? id = none) (request : ChangeRequest) :
    (s'.withRequest id' request).request? id = none := by
  rw [request?_withRequest]
  split
  · next hid =>
    rw [hid, hfound] at hnone
    contradiction
  · rw [request?, hsame]
    exact hnone

end Store

namespace Governance

theorem run_requestsAdvance (g : Governance) (ops : List Operation) :
    g.store.RequestsAdvance (g.run ops).store := by
  refine run_keeps (P := fun g' => g.store.RequestsAdvance g'.store) ?_ (.of_eq rfl)
  intro op _ g' hadvance
  exact hadvance.trans (g'.after_extends op).requests

/-- How a request of a run came to be: the operation that opened it, with what
went before and what came later. -/
structure Opening (start : Governance) (ops : List Operation) (id : Uuid) where
  before : List Operation
  proposal : Proposal
  author : Actor
  stamp : Stamp
  event : Stamp
  later : List Operation
  split : ops = before ++ .create proposal author stamp event :: later
  opens : stamp.id = id
  request : ChangeRequest
  answer : ((start.run before).perform (.create proposal author stamp event)).1 =
    .ok (.request request)

namespace Opening

variable {start : Governance} {ops : List Operation} {id : Uuid}

/-- The entry that the proposal was made over. -/
def found (opening : start.Opening ops id) : Option StoredFlag :=
  (start.run opening.before).store.currentFlag opening.proposal

/-- The key that the proposal is for. -/
def key (opening : start.Opening ops id) : FlagId :=
  ⟨opening.proposal.project, opening.proposal.flagKey⟩

/-- The governance some operations after the opening. -/
def since (opening : start.Opening ops id) (during : List Operation) : Governance :=
  (start.run opening.before).run
    (.create opening.proposal opening.author opening.stamp opening.event :: during)

theorem since_later (opening : start.Opening ops id) :
    opening.since opening.later = start.run ops := by
  rw [since, ← run_append, ← opening.split]

theorem request_eq (opening : start.Opening ops id) :
    opening.request = opening.proposal.opened opening.author opening.stamp opening.found ∧
      (opening.since []).store.request? id = some opening.request := by
  obtain ⟨before, proposal, author, stamp, event, later, split, rfl, request, answer⟩ := opening
  have hperformed := performed_as answer
  simp only [since, run_cons, run_nil, found]
  generalize (start.run before).after (.create proposal author stamp event) = g' at hperformed ⊢
  cases hperformed with
  | answered _ hkind => contradiction
  | created _ _ _ _ _ _ _ hopened => exact ⟨hopened, OrderedMap.find?_insert_self _ _ _⟩

/-- The request in the end is the one that was opened, further on. -/
theorem advances (opening : start.Opening ops id) {request : ChangeRequest}
    (hrequest : (start.run ops).store.request? id = some request) :
    opening.request.Advances request := by
  obtain ⟨request', hrequest', hadvance⟩ :=
    (opening.since []).run_requestsAdvance opening.later id opening.request opening.request_eq.2
  have hrun : (opening.since []).run opening.later = start.run ops := opening.since_later
  rw [hrun, hrequest] at hrequest'
  obtain rfl := Option.some.inj hrequest'
  exact hadvance

end Opening

/-- Unless it is put in past the workflow, a request is new just after the
operation that opens it. -/
theorem created_of_new {g : Governance} {op : Operation} {id : Uuid}
    (hkind : op.kind ≠ .requestStore) (hnone : g.store.request? id = none)
    {request : ChangeRequest} (hnew : (g.after op).store.request? id = some request) :
    ∃ p author stamp event, op = .create p author stamp event ∧ stamp.id = id ∧
      (g.perform op).1 = .ok (.request request) := by
  have hperformed := g.performed op
  generalize (g.perform op).1 = outcome, g.after op = g' at hperformed hnew ⊢
  have hnever : g'.store.request? id ≠ none := by simp [hnew]
  cases hperformed with
  | refused _ hsame => exact absurd (hsame.store_eq ▸ hnone) hnever
  | answered _ _ _ hsame => exact absurd (hsame.store_eq ▸ hnone) hnever
  | created p author stamp event _ _ opened =>
      have hfind : (if id = stamp.id then some opened else g.store.request? id) = some request := by
        rw [← Store.request?_withRequest]
        exact hnew
      split at hfind
      · next hid => exact ⟨p, author, stamp, event, rfl, hid.symm, by rw [Option.some.inj hfind]⟩
      · exact absurd hnone (by simp [hfind])
  | reviewed _ _ _ _ _ _ _ hrequest =>
      exact absurd (Store.request?_withRequest_eq_none rfl hrequest hnone _) hnever
  | cancelled _ _ _ _ _ hrequest =>
      exact absurd (Store.request?_withRequest_eq_none rfl hrequest hnone _) hnever
  | applied _ _ _ _ _ flag hrequest =>
      rw [announce_store] at hnever
      exact absurd (Store.request?_withRequest_eq_none (by cases flag <;> rfl) hrequest hnone _)
        hnever
  | seeded | put | ensured | renamed | injected => exact absurd hnone hnever
  | inserted | recorded | transitioned | committed => contradiction

/-- Unless requests are put in past the workflow, each one was opened in the
run. -/
theorem exists_opening {start : Governance} {ops : List Operation} {id : Uuid}
    (hkind : ∀ op ∈ ops, op.kind ≠ .requestStore) (hnone : start.store.request? id = none)
    {request : ChangeRequest} (hrequest : (start.run ops).store.request? id = some request) :
    Nonempty (start.Opening ops id) := by
  induction ops generalizing start with
  | nil =>
      rw [run_nil, hnone] at hrequest
      contradiction
  | cons op rest ih =>
      rw [List.forall_mem_cons] at hkind
      cases hnext : (start.after op).store.request? id with
      | none =>
          obtain ⟨before, proposal, author, stamp, event, later, split, opens, opened, answer⟩ :=
            ih hkind.2 hnext hrequest
          exact ⟨op :: before, proposal, author, stamp, event, later, by rw [split]; rfl, opens,
            opened, answer⟩
      | some opened =>
          obtain ⟨p, author, stamp, event, rfl, hid, hanswer⟩ :=
            created_of_new hkind.1 hnone hnext
          exact ⟨[], p, author, stamp, event, rest, rfl, hid, opened, hanswer⟩

end Governance

end FlagGovernance
