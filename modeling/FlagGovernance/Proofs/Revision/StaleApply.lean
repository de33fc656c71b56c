import FlagGovernance.Proofs.Openings
import FlagGovernance.Proofs.RequestLife
import FlagGovernance.Proofs.Revision.Growth
/-
Rejecting stale proposals loses no update.

A request carries the revision that it was opened over.  While no flag is
renamed, the revision of a key grows with every write, and zero stands for no
entry at all; so the one number says that nothing was written in between.
-/

namespace FlagGovernance

theorem RevisionCheck.revisionOf_of_verify_ofBase {base : Option Nat}
    {current : Option StoredFlag} (hverify : (ofBase base).verify current = .ok ()) :
    revisionOf current = base.getD 0 := by
  cases base with
  | none =>
      change (if revisionOf current = 0 then _ else _) = _ at hverify
      split at hverify
      · next hzero => exact hzero
      · contradiction
  | some revision =>
      change (if revision = revisionOf current then _ else _) = _ at hverify
      split at hverify
      · next hsame => exact hsame.symm
      · contradiction

namespace ChangeRequest

/-- The revision that a request was opened over; zero stands for none. -/
def base (request : ChangeRequest) : Nat := request.baseRevision.getD 0

end ChangeRequest

namespace Governance

/-- The write that applying a flag request makes when stale proposals are
rejected. -/
theorem flagWrite_rejectStale {request : ChangeRequest} (hflag : request.resourceType = .flag)
    {write : Option FlagWrite} (hwrite : flagWrite .rejectStale request = .ok write) :
    ∃ config, write = some ⟨request.project, request.flagKey, config,
      .ofBase request.baseRevision⟩ := by
  rcases flagWrite_cases hwrite with ⟨hother, _⟩ | ⟨_, config, _, hwrite⟩
  · contradiction
  · exact ⟨config, hwrite⟩

/-- When stale proposals are rejected, what is applied was opened over the
revision that the key has now. -/
theorem revision_eq_base {g : Governance} (hpolicy : g.policy = .rejectStale)
    {request : ChangeRequest} (hflag : request.resourceType = .flag) {flag : Option FlagWrite}
    (hwrite : flagWrite g.policy request = .ok flag)
    (hverify : ∀ w ∈ flag, w.check.verify (g.store.flags.find? w.id) = .ok ()) :
    ∃ write, flag = some write ∧ write.id = request.key ∧
      revisionOf (g.entryAt request.key) = request.base := by
  rw [hpolicy] at hwrite
  obtain ⟨config, rfl⟩ := flagWrite_rejectStale hflag hwrite
  exact ⟨_, rfl, rfl, RevisionCheck.revisionOf_of_verify_ofBase (hverify _ rfl)⟩

theorem flagWrite_of_ne_flag {policy : StalePolicy} {request : ChangeRequest}
    (hflag : request.resourceType ≠ .flag) {write : Option FlagWrite}
    (hwrite : flagWrite policy request = .ok write) : write = none := by
  rcases flagWrite_cases hwrite with ⟨_, hnone⟩ | ⟨htype, _⟩
  · exact hnone
  · contradiction

theorem after_revision_le (g : Governance) {op : Operation} (hrename : op.kind ≠ .rename)
    (key : FlagId) : revisionOf (g.entryAt key) ≤ revisionOf ((g.after op).entryAt key) := by
  have hkeeps : KeepsBound key g [op] := by
    apply keepsBound_of_no_rename
    rintro _ hmem
    rwa [List.mem_singleton.1 hmem]
  exact (run_grown hkeeps).revision_le

/-- The operation writes an entry at the key. -/
def Writes (g : Governance) (op : Operation) (key : FlagId) : Prop :=
  ∃ answer entry, (g.perform op).1 = .ok answer ∧ answer.written? = some entry ∧ entry.id = key

/-- A write takes the key to a greater revision. -/
theorem Writes.revision_lt {g : Governance} {op : Operation} {key : FlagId}
    (hkind : op.kind ≠ .rename) (hwrites : g.Writes op key) :
    revisionOf (g.entryAt key) < revisionOf ((g.after op).entryAt key) := by
  obtain ⟨answer, entry, hanswer, hentry, rfl⟩ := hwrites
  have hperformed := performed_as hanswer
  generalize g.after op = g' at hperformed ⊢
  cases hperformed with
  | answered _ _ hsilent =>
      rw [hsilent] at hentry
      contradiction
  | applied _ _ time _ _ flag _ _ _ _ _ hchange =>
      subst hchange
      cases flag with
      | none => contradiction
      | some write =>
          obtain rfl := Option.some.inj hentry
          rw [entryAt, entryAt, announce_store]
          exact (g.store.withProject write.project).revision_lt_written write time
  | committed _ commit =>
      obtain ⟨allowed, flag, actor, time⟩ := commit
      cases flag with
      | none => contradiction
      | some write =>
          obtain rfl := Option.some.inj hentry
          exact (g.store.withProject write.project).revision_lt_written write time
  | seeded project _ _ now write =>
      obtain rfl := Option.some.inj hentry
      exact (g.store.withProject project).revision_lt_written write now
  | put _ _ _ _ now _ write =>
      obtain rfl := Option.some.inj hentry
      exact g.store.revision_lt_written write now
  | renamed => contradiction
  | created | reviewed | cancelled | ensured | inserted | recorded | transitioned | injected =>
      contradiction

/-- A flag request was opened over a revision that the key has had, and left it
behind when it was applied. -/
def Settled (g : Governance) (request : ChangeRequest) : Prop :=
  request.resourceType = .flag →
    request.base ≤ revisionOf (g.entryAt request.key) ∧
    (request.status = .applied → request.base < revisionOf (g.entryAt request.key))

/-- The two requests are not both applied over one revision of one key. -/
def Apart (request request' : ChangeRequest) : Prop :=
  request.resourceType = .flag → request'.resourceType = .flag →
    request.status = .applied → request'.status = .applied →
    request.key = request'.key → request.base ≠ request'.base

/-- What rejecting stale proposals keeps up. -/
structure RejectsStale (g : Governance) : Prop where
  policy : g.policy = .rejectStale
  settled : ∀ id request, g.store.request? id = some request → g.Settled request
  apart : ∀ id id' request request', id ≠ id' → g.store.request? id = some request →
    g.store.request? id' = some request' → Apart request request'

theorem Apart.symm {request request' : ChangeRequest} (h : Apart request request') :
    Apart request' request :=
  fun hflag' hflag happlied' happlied hkey hbase =>
    h hflag hflag' happlied happlied' hkey.symm hbase.symm

theorem Apart.of_ne_applied {request request' : ChangeRequest}
    (hstatus : request'.status ≠ .applied) : Apart request request' :=
  fun _ _ _ happlied => absurd happlied hstatus

/-- A request that goes on and is not applied stays settled. -/
theorem Settled.advance {g : Governance} {request request' : ChangeRequest}
    (hsettled : g.Settled request) (hadvance : request.Advances request')
    (hstatus : request'.status ≠ .applied) : g.Settled request' := by
  obtain ⟨_, _, _, _, rfl⟩ := hadvance
  exact fun hflag => ⟨(hsettled hflag).1, fun happlied => absurd happlied hstatus⟩

theorem Settled.mono {g g' : Governance} {request : ChangeRequest} (hsettled : g.Settled request)
    (hgrown : ∀ key, revisionOf (g.entryAt key) ≤ revisionOf (g'.entryAt key)) :
    g'.Settled request := by
  intro hflag
  obtain ⟨hle, hlt⟩ := hsettled hflag
  exact ⟨Nat.le_trans hle (hgrown _), fun happlied => Nat.lt_of_lt_of_le (hlt happlied) (hgrown _)⟩

namespace RejectsStale

variable {g g' : Governance}

theorem of_requests_eq (hrejects : g.RejectsStale) (hpolicy : g'.policy = g.policy)
    (hgrown : ∀ key, revisionOf (g.entryAt key) ≤ revisionOf (g'.entryAt key))
    (hrequests : g'.store.requests = g.store.requests) : g'.RejectsStale := by
  have hsame : ∀ id, g'.store.request? id = g.store.request? id := by
    intro id
    rw [Store.request?, hrequests]
    rfl
  constructor
  · rw [hpolicy]
    exact hrejects.policy
  · intro id request hrequest
    rw [hsame] at hrequest
    exact (hrejects.settled id request hrequest).mono hgrown
  · intro id id' request request' hne hrequest hrequest'
    rw [hsame] at hrequest hrequest'
    exact hrejects.apart id id' request request' hne hrequest hrequest'

/-- Putting a request in place keeps everything up if the request itself does. -/
theorem of_request_put (hrejects : g.RejectsStale) (hpolicy : g'.policy = g.policy)
    (hgrown : ∀ key, revisionOf (g.entryAt key) ≤ revisionOf (g'.entryAt key))
    {id : Uuid} {request : ChangeRequest} {s : Store} (hrequests : s.requests = g.store.requests)
    (hstore : g'.store.requests = (s.withRequest id request).requests)
    (hsettled : g'.Settled request)
    (hapart : ∀ id' request', id' ≠ id → g.store.request? id' = some request' →
      Apart request' request) : g'.RejectsStale := by
  have hput : ∀ id', g'.store.request? id' =
      if id' = id then some request else g.store.request? id' := by
    intro id'
    have hthere := s.request?_withRequest id id' request
    rw [Store.request?, ← hstore] at hthere
    rw [Store.request?, hthere, Store.request?, hrequests]
    rfl
  constructor
  · rw [hpolicy]
    exact hrejects.policy
  · intro id' request' hrequest'
    rw [hput] at hrequest'
    split at hrequest'
    · obtain rfl := Option.some.inj hrequest'
      exact hsettled
    · exact (hrejects.settled id' request' hrequest').mono hgrown
  · intro id₁ id₂ request₁ request₂ hne hrequest₁ hrequest₂
    rw [hput] at hrequest₁ hrequest₂
    split at hrequest₁
    · next hid₁ =>
      obtain rfl := Option.some.inj hrequest₁
      rw [if_neg (fun hid₂ => hne (hid₁.trans hid₂.symm))] at hrequest₂
      exact (hapart id₂ request₂ (fun hid₂ => hne (hid₁.trans hid₂.symm)) hrequest₂).symm
    · next hid₁ =>
      split at hrequest₂
      · obtain rfl := Option.some.inj hrequest₂
        exact hapart id₁ request₁ hid₁ hrequest₁
      · exact hrejects.apart id₁ id₂ request₁ request₂ hne hrequest₁ hrequest₂

/-- Every operation that neither renames nor goes past the workflow keeps this
up. -/
theorem after (hrejects : g.RejectsStale) {op : Operation} (hrename : op.kind ≠ .rename)
    (hkind : op.kind ≠ .requestStore) : (g.after op).RejectsStale := by
  have hpolicy := g.after_policy op
  have hgrown := fun key => g.after_revision_le hrename key
  have hperformed := g.performed op
  generalize (g.perform op).1 = outcome, g.after op = g' at hpolicy hgrown hperformed ⊢
  cases hperformed with
  | refused _ hsame => exact hrejects.of_requests_eq hpolicy hgrown (by rw [hsame.store_eq])
  | answered _ _ _ hsame => exact hrejects.of_requests_eq hpolicy hgrown (by rw [hsame.store_eq])
  | seeded | put | ensured | injected => exact hrejects.of_requests_eq hpolicy hgrown rfl
  | created p author stamp event hcheck hfree request hopened =>
      subst hopened
      have hstatus : (p.opened author stamp (g.store.currentFlag p)).status ≠ .applied := by
        intro happlied
        contradiction
      refine hrejects.of_request_put hpolicy hgrown rfl rfl
        (fun hflag => ⟨?_, fun happlied => absurd happlied hstatus⟩)
        (fun _ _ _ _ => .of_ne_applied hstatus)
      have hfound : g.store.currentFlag p = g.entryAt ⟨p.project, p.flagKey⟩ := by
        rw [Store.currentFlag, show p.resourceType = .flag from hflag]
        rfl
      exact Nat.le_of_eq (congrArg revisionOf hfound)
  | reviewed _ decision _ _ _ _ request hrequest hpending review hreview updated hupdated =>
      have hdecision : decision = review.decision := by rw [hreview]; rfl
      have hopen : request.status.isTerminal = false := by rw [hpending]; rfl
      have hstatus := ChangeRequest.status_reviewed_ne_applied hopen review
      rw [← hdecision, ← hupdated] at hstatus
      have hadvance : request.Advances updated := hupdated ▸ .reviewed _ _ _
      exact hrejects.of_request_put hpolicy hgrown rfl rfl
        (((hrejects.settled _ _ hrequest).advance hadvance hstatus).mono hgrown)
        (fun _ _ _ _ => .of_ne_applied hstatus)
  | cancelled _ _ time _ request hrequest _ updated hupdated =>
      subst hupdated
      have hstatus : (request.moved .cancelled time).status ≠ .applied := by
        intro happlied
        contradiction
      exact hrejects.of_request_put hpolicy hgrown rfl rfl
        (((hrejects.settled _ _ hrequest).advance (.moved _ _ _) hstatus).mono hgrown)
        (fun _ _ _ _ => .of_ne_applied hstatus)
  | applied id actor time event request flag hrequest hstatus hwrite hverify =>
      by_cases hflag : request.resourceType = .flag
      · obtain ⟨write, rfl, hid, hbase⟩ := revision_eq_base hrejects.policy hflag hwrite hverify
        refine hrejects.of_request_put hpolicy hgrown (by rfl) (by rw [announce_store]; rfl)
          (fun _ => ?_) (fun id' request' _ hrequest' hflag' _ happlied' _ hkey hsame => ?_)
        · have hlt := (g.store.withProject write.project).revision_lt_written write time
          rw [hid] at hlt
          have hbehind := Nat.lt_of_le_of_lt (Nat.le_of_eq hbase.symm) hlt
          rw [entryAt, announce_store]
          exact ⟨Nat.le_of_lt hbehind, fun _ => hbehind⟩
        · -- the base is the revision that the key has now, and `request'` is behind it
          have hlt := ((hrejects.settled id' request' hrequest') hflag').2 happlied'
          rw [show request'.key = request.key from hkey, hbase,
            show request'.base = request.base from hsame] at hlt
          exact Nat.lt_irrefl _ hlt
      · obtain rfl := flagWrite_of_ne_flag hflag hwrite
        refine hrejects.of_request_put hpolicy hgrown (by rfl) (by rw [announce_store]; rfl) ?_ ?_
        · exact fun hflag' => absurd hflag' hflag
        · exact fun _ _ _ _ _ hflag' => absurd hflag' hflag
  | renamed => contradiction
  | inserted | recorded | transitioned | committed => contradiction

end RejectsStale

theorem start_rejectsStale (sink : AuditSink) (relay : RelaySignal) :
    (start sink relay .rejectStale).RejectsStale := by
  constructor
  · rfl
  · intro id request hrequest
    cases (show none = some request from hrequest)
  · intro id _ request _ _ hrequest
    cases (show none = some request from hrequest)

theorem run_rejectsStale (sink : AuditSink) (relay : RelaySignal) {ops : List Operation}
    (hkinds : ∀ op ∈ ops, op.kind ≠ .rename ∧ op.kind ≠ .requestStore) :
    ((start sink relay .rejectStale).run ops).RejectsStale := by
  refine run_keeps (fun op hmem g hrejects => ?_) (start_rejectsStale sink relay)
  exact hrejects.after (hkinds op hmem).1 (hkinds op hmem).2

namespace Opening

variable {start : Governance} {ops : List Operation} {id : Uuid}

theorem found_eq (opening : start.Opening ops id)
    (hflag : opening.proposal.resourceType = .flag) :
    opening.found = (start.run opening.before).entryAt opening.key := by
  rw [found, Store.currentFlag, hflag]
  rfl

/-- From the opening to the end nothing is written at its key. -/
structure Untouched (opening : start.Opening ops id) : Prop where
  entry_eq : ∀ during, during <+: opening.later →
    (opening.since during).entryAt opening.key = opening.found
  no_write : ∀ during op rest, opening.later = during ++ op :: rest →
    ¬ (opening.since during).Writes op opening.key

/-- Without renames, the entry found at the opening only grows. -/
theorem found_grown (opening : start.Opening ops id)
    (hrename : ∀ op ∈ ops, op.kind ≠ .rename) (hflag : opening.proposal.resourceType = .flag)
    {during rest : List Operation} (hlater : opening.later = during ++ rest) :
    Grown opening.found ((opening.since during).entryAt opening.key) ∧
      Grown ((opening.since during).entryAt opening.key) ((start.run ops).entryAt opening.key) := by
  let create : Operation :=
    .create opening.proposal opening.author opening.stamp opening.event
  have hsplit : ops = opening.before ++ (create :: during) ++ rest := by
    rw [List.append_assoc, List.cons_append, ← hlater]
    exact opening.split
  have hkinds : (∀ op ∈ create :: during, op.kind ≠ .rename) ∧ ∀ op ∈ rest, op.kind ≠ .rename := by
    rw [hsplit, List.forall_mem_append, List.forall_mem_append] at hrename
    exact ⟨hrename.1.2, hrename.2⟩
  rw [opening.found_eq hflag]
  refine ⟨run_grown (keepsBound_of_no_rename hkinds.1), ?_⟩
  have hrun : start.run ops = (opening.since during).run rest := by
    refine (congrArg start.run hsplit).trans ?_
    rw [run_append, run_append]
    rfl
  rw [hrun]
  exact run_grown (keepsBound_of_no_rename hkinds.2)

/-- If the entry in the end is the one found at the opening, nothing was written
in between. -/
theorem untouched_of_entry_eq (opening : start.Opening ops id)
    (hrename : ∀ op ∈ ops, op.kind ≠ .rename) (hflag : opening.proposal.resourceType = .flag)
    (hsame : (start.run ops).entryAt opening.key = opening.found) : opening.Untouched := by
  have hentry : ∀ during, during <+: opening.later →
      (opening.since during).entryAt opening.key = opening.found := by
    rintro during ⟨rest, hlater⟩
    obtain ⟨hbefore, hafter⟩ := opening.found_grown hrename hflag hlater.symm
    exact hbefore.eq_between hafter hsame
  refine ⟨hentry, fun during op rest hlater hwrites => ?_⟩
  have hnext : opening.since (during ++ [op]) = (opening.since during).after op := by
    rw [since, ← List.cons_append, run_append]
    rfl
  have hmem : op ∈ ops := by
    rw [opening.split, hlater]
    simp
  have hlt := hwrites.revision_lt (hrename op hmem)
  rw [← hnext, hentry during ⟨op :: rest, hlater.symm⟩,
    hentry (during ++ [op]) ⟨rest, by rw [hlater, List.append_assoc]; rfl⟩] at hlt
  exact Nat.lt_irrefl _ hlt

/-- What is known of a request in the end from how it was opened. -/
theorem request_facts (opening : start.Opening ops id) {request : ChangeRequest}
    (hrequest : (start.run ops).store.request? id = some request) :
    request.resourceType = opening.proposal.resourceType ∧ request.key = opening.key ∧
      request.base = revisionOf opening.found ∧
      request.currentConfig = opening.found.map (fun flag => flag.config.toDocument) := by
  obtain ⟨_, _, _, _, rfl⟩ := opening.advances hrequest
  rw [opening.request_eq.1]
  exact ⟨rfl, rfl, rfl, rfl⟩

/-- What an apply finds at the key is what its request was opened over. -/
theorem entryAt_eq_found (opening : start.Opening ops id)
    (hrename : ∀ op ∈ ops, op.kind ≠ .rename) {request : ChangeRequest}
    (hrequest : (start.run ops).store.request? id = some request)
    (hflag : request.resourceType = .flag)
    (hrevision : revisionOf ((start.run ops).entryAt request.key) = request.base) :
    (start.run ops).entryAt opening.key = opening.found := by
  obtain ⟨htype, hkey, hbase, _⟩ := opening.request_facts hrequest
  rw [hbase, hkey] at hrevision
  obtain ⟨hbefore, hafter⟩ := opening.found_grown hrename (htype ▸ hflag) (List.nil_append _).symm
  exact (hbefore.trans hafter).eq_of_revision_eq hrevision

/-- Of two requests opened over one state of a key, one is not applied. -/
theorem not_both_applied {id' : Uuid} (hrejects : (start.run ops).RejectsStale)
    (opening : start.Opening ops id) (opening' : start.Opening ops id') (hne : id ≠ id')
    (hflag : opening.proposal.resourceType = .flag)
    (hflag' : opening'.proposal.resourceType = .flag) (hkeys : opening.key = opening'.key)
    (hfound : opening.found = opening'.found) {request request' : ChangeRequest}
    (hrequest : (start.run ops).store.request? id = some request)
    (hrequest' : (start.run ops).store.request? id' = some request') :
    ¬ (request.status = .applied ∧ request'.status = .applied) := by
  rintro ⟨happlied, happlied'⟩
  obtain ⟨htype, hkey, hbase, _⟩ := opening.request_facts hrequest
  obtain ⟨htype', hkey', hbase', _⟩ := opening'.request_facts hrequest'
  refine hrejects.apart id id' request request' hne hrequest hrequest' (htype.trans hflag)
    (htype'.trans hflag') happlied happlied' ?_ ?_
  · rw [hkey, hkey', hkeys]
  · rw [hbase, hbase', hfound]

end Opening

/-- When stale proposals are rejected and no flag is renamed, an apply replaces
just the entry that its request was opened over, and of the requests opened over
one state of a key at most one is ever applied. -/
theorem reject_stale_loses_no_update (sink : AuditSink) (relay : RelaySignal)
    {ops : List Operation} (hkinds : ∀ op ∈ ops, op.kind ≠ .rename ∧ op.kind ≠ .requestStore) :
    let start := Governance.start sink relay .rejectStale
    (∀ id actor time event change,
      ((start.run ops).perform (.apply id actor time event)).1 = .ok (.applied change) →
      change.request.resourceType = .flag →
      Nonempty (start.Opening ops id) ∧ ∀ opening : start.Opening ops id,
        opening.key = change.request.key ∧
        opening.found = (start.run opening.before).entryAt opening.key ∧
        change.previous = opening.found ∧
        change.request.currentConfig =
          change.previous.map (fun flag => flag.config.toDocument) ∧
        opening.Untouched) ∧
    (∀ id id' (opening : start.Opening ops id) (opening' : start.Opening ops id')
      request request', id ≠ id' → opening.proposal.resourceType = .flag →
      opening'.proposal.resourceType = .flag → opening.key = opening'.key →
      opening.found = opening'.found →
      (start.run ops).store.request? id = some request →
      (start.run ops).store.request? id' = some request' →
      ¬ (request.status = .applied ∧ request'.status = .applied)) := by
  intro start
  have hrejects := run_rejectsStale sink relay hkinds
  have hrename : ∀ op ∈ ops, op.kind ≠ .rename := fun op hmem => (hkinds op hmem).1
  constructor
  · intro id actor time event change hanswer hflag
    obtain ⟨request, flag, hrequest, _, hwrite, hverify, rfl⟩ := applied_of_ok hanswer
    refine ⟨exists_opening (fun op hmem => (hkinds op hmem).2) rfl hrequest, fun opening => ?_⟩
    obtain ⟨htype, hkey, _, hconfig⟩ := opening.request_facts hrequest
    have hproposal : opening.proposal.resourceType = .flag := htype.symm.trans hflag
    obtain ⟨write, rfl, hid, hrevision⟩ := revision_eq_base hrejects.policy hflag hwrite hverify
    have hentry := opening.entryAt_eq_found hrename hrequest hflag hrevision
    have hprevious : ((start.run ops).store.appliedChange request
        (applyCommit (some write) actor time)).previous = opening.found := by
      rw [← hentry, ← hkey]
      exact congrArg (start.run ops).entryAt hid
    refine ⟨hkey.symm, opening.found_eq hproposal, hprevious, ?_,
      opening.untouched_of_entry_eq hrename hproposal hentry⟩
    rw [hprevious]
    exact hconfig
  · intro id id' opening opening' request request' hne hflag hflag' hkeys hfound hrequest hrequest'
    exact opening.not_both_applied hrejects opening' hne hflag hflag' hkeys hfound hrequest
      hrequest'

/-- Two proposals opened over one seed, the first of which is then applied. -/
theorem apply_over_seed_loses_no_update :
    let ops : List Operation :=
      [.seedFlag "web" "checkout" (.boolean false) Sample.moment,
       .create Sample.proposal Sample.actor (Sample.stamp 1) (Sample.stamp 2),
       .create Sample.proposal Sample.actor (Sample.stamp 3) (Sample.stamp 4),
       .injectFault .listReviews (.backend "down")]
    ∃ change,
      ((Sample.governance.run ops).perform
        (.apply (.ofNat 1) Sample.actor Sample.moment (Sample.stamp 5))).1 =
          .ok (.applied change) ∧
      ∃ opening : Sample.governance.Opening ops (.ofNat 1),
        change.previous = opening.found ∧ opening.Untouched := by
  refine ⟨_, rfl, ?_⟩
  have hkinds : ∀ op ∈ [Operation.seedFlag "web" "checkout" (.boolean false) Sample.moment,
      .create Sample.proposal Sample.actor (Sample.stamp 1) (Sample.stamp 2),
      .create Sample.proposal Sample.actor (Sample.stamp 3) (Sample.stamp 4),
      .injectFault .listReviews (.backend "down")],
      op.kind ≠ .rename ∧ op.kind ≠ .requestStore := by decide
  obtain ⟨⟨opening⟩, hopenings⟩ :=
    (reject_stale_loses_no_update (.log (.empty 100)) .answering hkinds).1 (.ofNat 1) Sample.actor
      Sample.moment (Sample.stamp 5) _ rfl rfl
  obtain ⟨_, _, hprevious, _, huntouched⟩ := hopenings opening
  exact ⟨opening, hprevious, huntouched⟩

end Governance

end FlagGovernance
