import FlagGovernance.Proofs.Openings
import FlagGovernance.Proofs.RequestLife
import FlagGovernance.Proofs.Revision.Growth
/-
The changes that a run applies, and the entries that they leave.

Where flags change by way of the workflow only, the changes applied to a key and
its entry keep the same books: as many changes as the revision says, one for each
request that stands applied, and the last of them wrote the entry.
-/

namespace FlagGovernance

/-- Requests and flags are changed by way of the workflow only. -/
def Operation.governed (op : Operation) : Bool :=
  match op.kind with
  | .workflow | .question | .fault => true
  | .flagStore | .rename | .requestStore => false

namespace ChangeRequest

/-- The request is for the flag of the key, and is applied. -/
def appliedTo (key : FlagId) (request : ChangeRequest) : Bool :=
  request.resourceType = .flag ∧ request.status = .applied ∧ request.key = key

theorem appliedTo_of_ne_applied {request : ChangeRequest} (hstatus : request.status ≠ .applied)
    (key : FlagId) : request.appliedTo key = false := by
  simp [appliedTo, hstatus]

end ChangeRequest

namespace Store

/-- The requests that stand applied to the flag of a key. -/
def appliedTo (s : Store) (key : FlagId) : List ChangeRequest :=
  s.requests.values.filter (ChangeRequest.appliedTo key)

theorem ne_applied_of_open {s : Store} {id : Uuid} {request : ChangeRequest}
    (hrequest : s.request? id = some request) (hopen : request.status.isTerminal = false) :
    ∀ found, s.request? id = some found → found.status ≠ .applied := by
  intro found hfound
  obtain rfl := Option.some.inj (hrequest.symm.trans hfound)
  exact ChangeRequest.ne_applied_of_open hopen

/-- Over a request that is not applied, or over none, a request is put among the
applied ones just if it is one. -/
theorem appliedTo_withRequest_perm {s s' : Store} (hsame : s'.requests = s.requests) {id : Uuid}
    (hopen : ∀ found, s.request? id = some found → found.status ≠ .applied)
    (request : ChangeRequest) (key : FlagId) :
    ((s'.withRequest id request).appliedTo key).Perm
      ([request].filter (ChangeRequest.appliedTo key) ++ s.appliedTo key) := by
  have hothers : ((s.requests.erase id).values.filter (ChangeRequest.appliedTo key)).Perm
      (s.appliedTo key) := by
    cases hfound : s.requests.find? id with
    | none => rw [OrderedMap.erase_of_find?_eq_none hfound, appliedTo]
    | some found =>
        have hstatus := ChangeRequest.appliedTo_of_ne_applied (hopen found hfound) key
        have hperm := (OrderedMap.values_perm_of_find? hfound).filter (ChangeRequest.appliedTo key)
        rw [List.filter_cons_of_neg (by rw [hstatus]; exact Bool.false_ne_true)] at hperm
        exact hperm.symm
  have hput : ((s'.withRequest id request).appliedTo key).Perm
      ((request :: (s.requests.erase id).values).filter (ChangeRequest.appliedTo key)) := by
    rw [← hsame]
    exact (s'.requests.values_insert_perm id request).filter _
  refine hput.trans ?_
  rw [← List.singleton_append, List.filter_append]
  exact hothers.append_left _

/-- A request that does not stand applied to the key leaves those that do. -/
theorem appliedTo_withRequest_perm_of_apart {s s' : Store} (hsame : s'.requests = s.requests)
    {id : Uuid} (hopen : ∀ found, s.request? id = some found → found.status ≠ .applied)
    {request : ChangeRequest} {key : FlagId} (hapart : request.appliedTo key = false) :
    ((s'.withRequest id request).appliedTo key).Perm (s.appliedTo key) := by
  have hperm := appliedTo_withRequest_perm hsame hopen request key
  rw [List.filter_cons_of_neg (by rw [hapart]; exact Bool.false_ne_true)] at hperm
  exact hperm

theorem find?_withFlagWrite_of_ne (s : Store) {write : Option FlagWrite} {key : FlagId}
    (hne : ∀ w ∈ write, w.id ≠ key) (now : Instant) :
    (s.withFlagWrite write now).flags.find? key = s.flags.find? key := by
  cases write with
  | none => rfl
  | some w => exact OrderedMap.find?_insert_of_ne _ (hne w rfl).symm _

theorem find?_withFlagWrite_self (s : Store) (write : FlagWrite) (now : Instant) :
    (s.withFlagWrite (some write) now).flags.find? write.id =
      some (write.entry (s.flags.find? write.id) now) :=
  OrderedMap.find?_insert_self _ _ _

end Store

/-- What an operation applies, by its answer. -/
def Operation.applied? : Operation → Except OperationError Answer → Option AppliedChange
  | .apply .., .ok (.applied change) => some change
  | _, _ => none

theorem Operation.applied?_of_kind {op : Operation} (hkind : op.kind ≠ .workflow)
    (answer : Except OperationError Answer) : op.applied? answer = none := by
  cases op <;> first | rfl | contradiction

def AppliedChange.isTo (key : FlagId) (change : AppliedChange) : Bool :=
  change.request.appliedTo key

namespace Governance

/-- The changes that an operation applies to a key: one or none. -/
def changesBy (g : Governance) (key : FlagId) (op : Operation) : List AppliedChange :=
  (op.applied? (g.perform op).1).toList.filter (AppliedChange.isTo key)

/-- The changes that a run applies to a key, in order. -/
def changesTo (g : Governance) (key : FlagId) : List Operation → List AppliedChange
  | [] => []
  | op :: rest => g.changesBy key op ++ changesTo (g.after op) key rest

/-- The changes applied to a key so far account for its entry and its requests. -/
structure Accounts (g : Governance) (key : FlagId) (changes : List AppliedChange) : Prop where
  /-- Each request that stands applied to the key was applied once. -/
  requests : (changes.map AppliedChange.request).Perm (g.store.appliedTo key)
  /-- Each change took the key one revision on. -/
  revision : revisionOf (g.entryAt key) = changes.length
  /-- The entry is what the last change wrote. -/
  entry : g.entryAt key = changes.getLast?.bind AppliedChange.flag
  /-- Each change wrote what its request proposed. -/
  content : ∀ change ∈ changes, ∃ flag, change.flag = some flag ∧ flag.id = key ∧
    validateDocument change.request.proposedConfig = .ok flag.config

namespace Accounts

variable {g g' : Governance} {key : FlagId} {changes : List AppliedChange}

/-- What leaves the entry and the applied requests of a key leaves the books. -/
theorem of_same (haccounts : g.Accounts key changes) (hentry : g'.entryAt key = g.entryAt key)
    (hrequests : (g'.store.appliedTo key).Perm (g.store.appliedTo key)) :
    g'.Accounts key (changes ++ []) := by
  rw [List.append_nil]
  obtain ⟨requests, revision, entry, content⟩ := haccounts
  exact ⟨requests.trans hrequests.symm, hentry ▸ revision, hentry ▸ entry, content⟩

/-- A request put over one that is not applied leaves the books of every key to
which it does not stand applied itself. -/
theorem of_request_put (haccounts : g.Accounts key changes) {id : Uuid} {request : ChangeRequest}
    {s : Store} (hsame : s.requests = g.store.requests)
    (hopen : ∀ found, g.store.request? id = some found → found.status ≠ .applied)
    (hapart : request.appliedTo key = false) (hentry : g'.entryAt key = g.entryAt key)
    (hstore : g'.store.requests = (s.withRequest id request).requests) :
    g'.Accounts key (changes ++ []) := by
  refine haccounts.of_same hentry ?_
  rw [Store.appliedTo, hstore]
  exact Store.appliedTo_withRequest_perm_of_apart hsame hopen hapart

/-- Applying a request for the flag of the key. -/
theorem of_applied_to (haccounts : g.Accounts key changes) {id : Uuid} {request : ChangeRequest}
    (hrequest : g.store.request? id = some request) (hstatus : request.status.canApply = true)
    {write : FlagWrite} (hid : write.id = key)
    (hconfig : validateDocument request.proposedConfig = .ok write.config) {actor : Actor}
    {time : Instant} (hstore : g'.store =
      (g.store.withFlagWrite (some write) time).withRequest id (request.applied actor time))
    (hcounts : (request.applied actor time).appliedTo key = true) :
    g'.Accounts key (changes ++
      [g.store.appliedChange request (applyCommit (some write) actor time)]) := by
  have hentry : g'.entryAt key = some (write.entry (g.entryAt key) time) := by
    subst hid
    rw [entryAt, hstore]
    exact g.store.find?_withFlagWrite_self write time
  have hopen := Store.ne_applied_of_open hrequest (ChangeRequest.open_of_canApply hstatus)
  obtain ⟨hrequests, hrevision, _, hcontent⟩ := haccounts
  refine ⟨?_, ?_, ?_, ?_⟩
  · have hsame : (g.store.withFlagWrite (some write) time).requests = g.store.requests := rfl
    have hperm := Store.appliedTo_withRequest_perm hsame hopen (request.applied actor time) key
    rw [List.filter_cons_of_pos hcounts, List.filter_nil] at hperm
    rw [hstore, List.map_append]
    exact (List.perm_append_comm.trans (hrequests.append_left _)).trans hperm.symm
  · rw [hentry, List.length_append, ← hrevision]
    rfl
  · rw [hentry, List.getLast?_concat, entryAt, ← hid]
    rfl
  · intro change hmem
    rcases List.mem_append.1 hmem with hmem | hmem
    · exact hcontent change hmem
    · obtain rfl := List.mem_singleton.1 hmem
      exact ⟨_, rfl, hid, hconfig⟩

/-- Every operation by way of the workflow keeps the books. -/
theorem after (haccounts : g.Accounts key changes) {op : Operation}
    (hgoverned : op.governed = true) :
    (g.after op).Accounts key (changes ++ g.changesBy key op) := by
  have hperformed := g.performed op
  rw [changesBy]
  generalize (g.perform op).1 = outcome, g.after op = g' at hperformed ⊢
  cases hperformed with
  | refused error hsame =>
      have hnone : op.applied? (.error error) = none := by cases op <;> rfl
      rw [hnone]
      exact haccounts.of_same (by rw [entryAt, hsame.store_eq]; rfl) (by rw [hsame.store_eq])
  | answered answer hkind _ hsame =>
      rw [op.applied?_of_kind (by rw [hkind]; decide)]
      exact haccounts.of_same (by rw [entryAt, hsame.store_eq]; rfl) (by rw [hsame.store_eq])
  | created p author stamp event _ hfree request hopened =>
      subst hopened
      refine haccounts.of_request_put rfl (fun found hfound => ?_)
        (ChangeRequest.appliedTo_of_ne_applied (by simp [Proposal.opened]) key) rfl rfl
      rw [hfree] at hfound
      contradiction
  | reviewed id decision reviewer comment stamp event request hrequest hpending review hreview
      updated hupdated =>
      have hopen : request.status.isTerminal = false := by rw [hpending]; rfl
      subst hreview hupdated
      exact haccounts.of_request_put rfl (Store.ne_applied_of_open hrequest hopen)
        (ChangeRequest.appliedTo_of_ne_applied
          (ChangeRequest.status_reviewed_ne_applied hopen _) key) rfl rfl
  | cancelled id actor time event request hrequest hopen updated hupdated =>
      subst hupdated
      exact haccounts.of_request_put rfl (Store.ne_applied_of_open hrequest hopen)
        (ChangeRequest.appliedTo_of_ne_applied (by simp [ChangeRequest.moved]) key) rfl rfl
  | injected => exact haccounts.of_same rfl (.refl _)
  | applied id actor time event request flag hrequest hstatus hwrite hverify change hchange =>
      have hafter : change.request = request.applied actor time := by rw [hchange]; rfl
      rw [Operation.applied?, Option.toList_some]
      by_cases hto : change.isTo key = true
      · have hkey : request.resourceType = .flag ∧ request.key = key := by
          simpa [AppliedChange.isTo, hafter, ChangeRequest.applied, ChangeRequest.appliedTo,
            ChangeRequest.key] using hto
        rcases flagWrite_cases hwrite with ⟨hother, _⟩ | ⟨_, config, hconfig, rfl⟩
        · exact absurd hkey.1 hother
        · have hid : FlagWrite.id ⟨request.project, request.flagKey, config,
              g.policy.check request.baseRevision⟩ = key := hkey.2
          rw [List.filter_cons_of_pos hto, List.filter_nil, hchange]
          rw [AppliedChange.isTo, hafter] at hto
          exact haccounts.of_applied_to hrequest hstatus hid hconfig (announce_store _ _ _ _) hto
      · have helsewhere : ∀ w ∈ flag, w.id ≠ key := by
          rcases flagWrite_cases hwrite with ⟨_, rfl⟩ | ⟨hflag, config, _, rfl⟩
          · simp
          · rintro w hw hid
            obtain rfl := Option.mem_some.1 hw
            apply hto
            have hkey : request.key = key := hid
            simpa [AppliedChange.isTo, hafter, ChangeRequest.applied, ChangeRequest.appliedTo,
              ChangeRequest.key, hflag] using hkey
        have hapart : (request.applied actor time).appliedTo key = false := by
          rw [← hafter]
          exact Bool.eq_false_iff.2 hto
        rw [List.filter_cons_of_neg hto, List.filter_nil]
        refine haccounts.of_request_put (s := g.store.withFlagWrite flag time)
          (by cases flag <;> rfl)
          (Store.ne_applied_of_open hrequest (ChangeRequest.open_of_canApply hstatus)) hapart ?_
          (by rw [announce_store]; rfl)
        rw [entryAt, announce_store]
        exact g.store.find?_withFlagWrite_of_ne helsewhere time
  | seeded | put | ensured | renamed => contradiction
  | inserted | recorded | transitioned | committed => contradiction

theorem run (haccounts : g.Accounts key changes) {ops : List Operation}
    (hgoverned : ∀ op ∈ ops, op.governed = true) :
    (g.run ops).Accounts key (changes ++ g.changesTo key ops) := by
  induction ops generalizing g changes with
  | nil =>
      rw [changesTo, List.append_nil]
      exact haccounts
  | cons op rest ih =>
      rw [List.forall_mem_cons] at hgoverned
      rw [changesTo, ← List.append_assoc]
      exact ih (haccounts.after hgoverned.1) hgoverned.2

/-- A live entry is what the last change wrote, at the proposal of a request that
stands applied. -/
theorem exists_last (haccounts : g.Accounts key changes) {flag : StoredFlag}
    (hflag : g.entryAt key = some flag) :
    ∃ last, changes.getLast? = some last ∧ last.request ∈ g.store.appliedTo key ∧
      flag.id = key ∧ validateDocument last.request.proposedConfig = .ok flag.config := by
  obtain ⟨hrequests, _, hentry, hcontent⟩ := haccounts
  rw [hflag] at hentry
  obtain ⟨last, hlast, hwrote⟩ := Option.bind_eq_some_iff.1 hentry.symm
  have hmem := List.mem_of_getLast? hlast
  obtain ⟨wrote, heq, hid, hconfig⟩ := hcontent last hmem
  obtain rfl := Option.some.inj (heq.symm.trans hwrote)
  exact ⟨last, hlast, hrequests.subset (List.mem_map_of_mem hmem), hid, hconfig⟩

end Accounts

theorem start_accounts (sink : AuditSink) (relay : RelaySignal) (policy : StalePolicy)
    (key : FlagId) : (start sink relay policy).Accounts key [] where
  requests := List.Perm.refl []
  revision := rfl
  entry := rfl
  content _ hmem := absurd hmem List.not_mem_nil

theorem run_accounts (sink : AuditSink) (relay : RelaySignal) (policy : StalePolicy)
    {ops : List Operation} (hgoverned : ∀ op ∈ ops, op.governed = true) (key : FlagId) :
    ((start sink relay policy).run ops).Accounts key
      ((start sink relay policy).changesTo key ops) :=
  (start_accounts sink relay policy key).run hgoverned

/-- By way of the workflow only, no applied change is lost and none is written
twice: a key is bound if some request stands applied to its flag, its revision is
the number of those requests, each of them was applied once in the run, and its
configuration is what the one applied last proposes. -/
theorem entry_tells_applied_requests (sink : AuditSink) (relay : RelaySignal)
    (policy : StalePolicy) {ops : List Operation} (hgoverned : ∀ op ∈ ops, op.governed = true)
    (key : FlagId) :
    let start := Governance.start sink relay policy
    let g := start.run ops
    ((start.changesTo key ops).map AppliedChange.request).Perm (g.store.appliedTo key) ∧
    (g.entryAt key = none ↔ g.store.appliedTo key = []) ∧
    ∀ flag, g.entryAt key = some flag →
      flag.revision = (g.store.appliedTo key).length ∧
      ∃ last, (start.changesTo key ops).getLast? = some last ∧
        last.request ∈ g.store.appliedTo key ∧
        validateDocument last.request.proposedConfig = .ok flag.config := by
  intro start g
  have haccounts : g.Accounts key (start.changesTo key ops) :=
    run_accounts sink relay policy hgoverned key
  have hcount := haccounts.requests.length_eq
  rw [List.length_map, ← haccounts.revision] at hcount
  refine ⟨haccounts.requests, ?_, ?_⟩
  · rw [← List.length_eq_zero_iff, ← hcount]
    constructor
    · intro hnone
      rw [hnone, revisionOf_none]
    · intro hzero
      exact run_eq_none_of_zero sink relay policy ops key hzero
  · intro flag hflag
    obtain ⟨last, hlast, hrequest, _, hconfig⟩ := haccounts.exists_last hflag
    rw [hflag] at hcount
    exact ⟨hcount, last, hlast, hrequest, hconfig⟩

/-- Two requests are applied to a flag, the second at the second attempt, and one
to a segment of the same name. -/
theorem entry_tells_two_requests :
    let ops : List Operation :=
      [.create Sample.proposal Sample.actor (Sample.stamp 1) (Sample.stamp 2),
       .apply (.ofNat 1) Sample.actor Sample.moment (Sample.stamp 3),
       .create Sample.proposal Sample.actor (Sample.stamp 4) (Sample.stamp 5),
       .create { Sample.proposal with resourceType := .segment } Sample.actor (Sample.stamp 6)
         (Sample.stamp 7),
       .injectFault .commitApply (.backend "down"),
       .apply (.ofNat 4) Sample.actor Sample.moment (Sample.stamp 8),
       .apply (.ofNat 4) Sample.actor Sample.moment (Sample.stamp 9),
       .apply (.ofNat 6) Sample.actor Sample.moment (Sample.stamp 10)]
    let g := Sample.governance.run ops
    ∃ flag, g.entryAt ⟨"web", "checkout"⟩ = some flag ∧ flag.revision = 2 ∧
      flag.revision = (g.store.appliedTo ⟨"web", "checkout"⟩).length := by
  intro ops g
  have hgoverned : ∀ op ∈ ops, op.governed = true := by decide
  obtain ⟨_, _, hbound⟩ := entry_tells_applied_requests (.log (.empty 100)) .answering
    .rejectStale hgoverned ⟨"web", "checkout"⟩
  exact ⟨_, rfl, rfl, (hbound _ rfl).1⟩

end Governance

end FlagGovernance
