import FlagGovernance.Proofs.Workflow.Conflicts
/-
What the policy for stale proposals changes.

Two governances that differ in nothing but the policy go in step until, under the one
that rejects what is stale, a commit fails its check of the revision.  There it refuses
what the other applies.
-/

namespace FlagGovernance

namespace Governance

/-- The governance with another policy. -/
def under (g : Governance) (policy : StalePolicy) : Governance := { g with policy }

/-- The operation is an apply that gets as far as its commit, and the commit fails its
check of the revision. -/
inductive FailsCheck (g : Governance) : Operation → Prop
  | apply (id : Uuid) (actor : Actor) (time : Instant) (event : Stamp) (request : ChangeRequest)
      (write : FlagWrite) (e : StoreError) (hload : g.load id = (.ok request, g))
      (hstatus : request.status.canApply = true)
      (hwrite : flagWrite g.policy request = .ok (some write))
      (hreached : takeFault .commitApply g.faults = none)
      (hfails : write.check.verify (g.store.flags.find? write.id) = .error e) :
      FailsCheck g (.apply id actor time event)

variable {g g' : Governance} {op : Operation}

theorem inStep_under (g : Governance) (policy : StalePolicy) : g.InStep (g.under policy) :=
  ⟨rfl, rfl⟩

theorem eq_under {policy : StalePolicy} (hstep : g.InStep g') (hsink : g'.sink = g.sink)
    (hrelay : g'.relay = g.relay) (hsignals : g'.signals = g.signals)
    (hpolicy : g'.policy = policy) : g' = g.under policy := by
  obtain ⟨store, faults, sink, relay, signals, policy'⟩ := g'
  obtain ⟨rfl, rfl⟩ := hstep
  obtain rfl : sink = g.sink := hsink
  obtain rfl : relay = g.relay := hrelay
  obtain rfl : signals = g.signals := hsignals
  obtain rfl : policy' = policy := hpolicy
  rfl

/-- What a commit does depends on what it expects only for whether it is done. -/
theorem commitApply_expecting {s : Store} {id : Uuid} {request : ChangeRequest}
    (hrequest : s.request? id = some request) (hstatus : request.status.canApply = true)
    {flag : Option FlagWrite} {check : RevisionCheck} {actor : Actor} {time : Instant}
    (hverify : ∀ w ∈ flag, w.check.verify (s.flags.find? w.id) = .ok ())
    (hverify' : ∀ w ∈ flag, check.verify (s.flags.find? w.id) = .ok ()) :
    s.commitApply id (applyCommit (flag.map (·.expecting check)) actor time) =
      s.commitApply id (applyCommit flag actor time) := by
  have hallowed := mem_allowed_of_canApply hstatus
  cases flag with
  | none => rfl
  | some w =>
      have hexpected : ∀ w' ∈ some (w.expecting check),
          w'.check.verify (s.flags.find? w'.id) = .ok () := by
        rintro w' ⟨⟩
        exact hverify' w rfl
      have hdone : s.commitApply id (applyCommit (some w) actor time) = _ :=
        Store.commitApply_of_verify hrequest hallowed hverify
      rw [hdone]
      exact Store.commitApply_of_verify hrequest hallowed hexpected

/-- Where no commit fails its check, dropping the check changes no commit. -/
theorem commitsInStep_of_passes {id : Uuid} {actor : Actor} {time : Instant} {event : Stamp}
    (hpasses : ¬ g.FailsCheck (.apply id actor time event)) :
    g.CommitsInStep (g.under .lastWriteWins) id actor time := by
  intro request flag flag' hload hstatus hflag hflag' hreached
  rw [flagWrite_expecting g.policy, hflag] at hflag'
  rw [← Except.ok.inj hflag']
  refine commitApply_expecting (load_eq_ok hload).1 hstatus (fun w hw => ?_)
    (fun w _ => RevisionCheck.verify_any _)
  obtain rfl : flag = some w := hw
  cases hverify : w.check.verify (g.store.flags.find? w.id) with
  | ok _ => rfl
  | error e =>
      exact absurd (.apply id actor time event request w e hload hstatus hflag hreached hverify)
        hpasses

theorem eventsBy_congr (hstore : g'.store = g.store)
    (hanswer : (g'.perform op).1 = (g.perform op).1) : g'.eventsBy op = g.eventsBy op := by
  have hevent : ∀ answer, g'.eventOf op answer = g.eventOf op answer := by
    intro answer
    cases op <;> simp only [eventOf, hstore]
  rw [eventsBy, eventsBy, hanswer]
  simp only [hevent]

theorem target?_congr (hstore : g'.store = g.store)
    (hanswer : (g'.perform op).1 = (g.perform op).1) :
    Occurrence.target? ⟨g', op⟩ = Occurrence.target? ⟨g, op⟩ := by
  simp only [Occurrence.target?, Occurrence.answer, hstore, hanswer]

/-- An operation that fails no check does the same without it, down to what the sink and
the relay are told. -/
theorem perform_under (hpasses : ¬ g.FailsCheck op) :
    (g.under .lastWriteWins).perform op =
      ((g.perform op).1, (g.after op).under .lastWriteWins) := by
  have hcommits : ∀ id actor time event, op = .apply id actor time event →
      g.CommitsInStep (g.under .lastWriteWins) id actor time := by
    rintro id actor time event rfl
    exact commitsInStep_of_passes hpasses
  obtain ⟨answer, g₁, g₁', hperform, hperform', hstep⟩ :=
    perform_inStep (g.inStep_under .lastWriteWins) op hcommits
  have hanswer : ((g.under .lastWriteWins).perform op).1 = (g.perform op).1 := by
    rw [hperform, hperform']
  obtain rfl : g.after op = g₁ := congrArg Prod.snd hperform
  obtain rfl : (g.under .lastWriteWins).after op = g₁' := congrArg Prod.snd hperform'
  have hstore : (g.under .lastWriteWins).store = g.store := rfl
  refine Prod.ext hanswer (show (g.under .lastWriteWins).after op = _ from
    eq_under hstep ?_ ?_ ?_ ?_)
  · rw [after_sink, after_sink, eventsBy_congr hstore hanswer]
    rfl
  · rw [after_relay, after_relay]
    rfl
  · rw [after_signals, after_signals, target?_congr hstore hanswer]
    rfl
  · rw [after_policy]
    rfl

theorem apply_of_verify {id : Uuid} {actor : Actor} {time : Instant} {request : ChangeRequest}
    {flag : Option FlagWrite} (hload : g.load id = (.ok request, g))
    (hstatus : request.status.canApply = true) (hwrite : flagWrite g.policy request = .ok flag)
    (hreached : takeFault .commitApply g.faults = none)
    (hverify : ∀ w ∈ flag, w.check.verify (g.store.flags.find? w.id) = .ok ()) (event : Stamp) :
    ∃ change, (g.perform (.apply id actor time event)).1 = .ok (.applied change) := by
  rw [perform, apply_of_ready hload hstatus hwrite hreached,
    Store.commitApply_of_verify (load_eq_ok hload).1 (mem_allowed_of_canApply hstatus) hverify]
  exact ⟨_, rfl⟩

/-- An operation that fails the check is refused for a conflict and leaves all as it
was; without the check it is applied. -/
theorem perform_of_failsCheck (hfails : g.FailsCheck op) :
    (∃ what, g.perform op = (.error (.workflow (.conflict what)), g)) ∧
      ∃ change, ((g.under .lastWriteWins).perform op).1 = .ok (.applied change) := by
  cases hfails with
  | apply id actor time event request write e hload hstatus hwrite hreached hfails =>
      constructor
      · obtain ⟨expected, actual, rfl⟩ := RevisionCheck.verify_eq_error hfails
        rw [perform, apply_of_ready hload hstatus hwrite hreached,
          Store.commitApply_of_fails (load_eq_ok hload).1 (mem_allowed_of_canApply hstatus) rfl
            hfails]
        exact ⟨_, rfl⟩
      · have hload' : (g.under .lastWriteWins).load id = (.ok request, g.under .lastWriteWins) := by
          obtain ⟨found, g₁, g₁', hfound, hfound', _⟩ :=
            load_inStep (g.inStep_under .lastWriteWins) id
          rw [hload] at hfound
          obtain ⟨rfl, -⟩ := Prod.mk.inj hfound
          rw [hfound', (load_eq_ok hfound').2]
        have hwrite' := flagWrite_expecting g.policy .lastWriteWins request
        rw [hwrite] at hwrite'
        refine apply_of_verify hload' hstatus hwrite' hreached (fun w hw => ?_) event
        obtain rfl := Option.some.inj hw
        exact RevisionCheck.verify_any _

/-- While no commit fails its check, every operation of a run answers the same without
it and leaves the same. -/
theorem occurrences_under {ops : List Operation}
    (hpasses : ∀ o ∈ g.occurrences ops, ¬ o.meets.FailsCheck o.op) :
    ((g.under .lastWriteWins).occurrences ops).map (fun o => (o.answer, o.leaves)) =
      (g.occurrences ops).map (fun o => (o.answer, o.leaves.under .lastWriteWins)) := by
  induction ops generalizing g with
  | nil => rfl
  | cons op rest ih =>
      rw [occurrences, List.forall_mem_cons] at hpasses
      have hperform := perform_under hpasses.1
      have hafter : (g.under .lastWriteWins).after op = (g.after op).under .lastWriteWins :=
        congrArg Prod.snd hperform
      rw [occurrences, occurrences, List.map_cons, List.map_cons, hafter, ih hpasses.2]
      exact congrArg (· :: _) hperform

/-- Any sequence of operations, faults and all, run from one state under the policy that
rejects what is stale and under the one that lets the last write win.  If no commit fails
its check of the revision in the first run, both give the same answers and leave the same
but for the policy, step by step.  A commit that does fail is refused for a conflict and
changes nothing, and the second policy would apply it there.  In the second run every
conflict that is told was queued as a fault before the run or injected in it, unless a
request is opened under an id that is taken. -/
theorem stale_policy_only_refuses (g : Governance) (ops : List Operation) :
    let strict := (g.under .rejectStale).occurrences ops
    let lax := (g.under .lastWriteWins).occurrences ops
    ((∀ o ∈ strict, ¬ o.meets.FailsCheck o.op) →
      lax.map (fun o => (o.answer, o.leaves)) =
        strict.map (fun o => (o.answer, o.leaves.under .lastWriteWins))) ∧
    (∀ o ∈ strict, o.meets.FailsCheck o.op →
      (∃ what, o.answer = .error (.workflow (.conflict what))) ∧ o.leaves = o.meets ∧
        ∃ change, ((o.meets.under .lastWriteWins).perform o.op).1 = .ok (.applied change)) ∧
    ∀ o ∈ lax, ∀ e, o.answer = .error (.workflow e) → e.isConflict = true →
      (∃ call cause, takeFault call o.meets.faults = some (cause, o.leaves.faults) ∧
        cause.isConflict = true ∧ ((call, cause) ∈ g.faults ∨ .injectFault call cause ∈ ops)) ∨
      ∃ p author stamp event, o.op = .create p author stamp event ∧
        o.meets.store.request? stamp.id ≠ none ∧
        e = .store "saving change request" (.conflict (Store.requestText stamp.id)) := by
  intro strict lax
  refine ⟨fun hpasses => ?_, fun o _ hfails => ?_, fun o hmem e hanswer he => ?_⟩
  · exact occurrences_under hpasses
  · obtain ⟨⟨what, hrefused⟩, happlied⟩ := perform_of_failsCheck hfails
    exact ⟨⟨what, congrArg Prod.fst hrefused⟩, congrArg Prod.snd hrefused, happlied⟩
  · have hpolicy : o.meets.policy = .lastWriteWins :=
      occurrences_keep (fun op g hg => (g.after_policy op).trans hg) rfl ops o hmem
    refine (meetsConflict_of_perform hpolicy hanswer he).imp_left ?_
    rintro ⟨call, cause, htake, hcause⟩
    exact ⟨call, cause, htake, hcause, faults_of_occurrence hmem (mem_of_takeFault htake)⟩

/-- Two requests are applied to a flag one after the other, the second at the second
attempt. -/
theorem fresh_applies_go_alike :
    let ops : List Operation :=
      [.create Sample.proposal Sample.actor (Sample.stamp 1) (Sample.stamp 2),
       .apply (.ofNat 1) Sample.actor Sample.moment (Sample.stamp 3),
       .create Sample.proposal Sample.actor (Sample.stamp 4) (Sample.stamp 5),
       .injectFault .commitApply (.backend "down"),
       .apply (.ofNat 4) Sample.actor Sample.moment (Sample.stamp 6),
       .apply (.ofNat 4) Sample.actor Sample.moment (Sample.stamp 7)]
    let strict := (Sample.governance.under .rejectStale).occurrences ops
    let lax := (Sample.governance.under .lastWriteWins).occurrences ops
    (∀ o ∈ strict, ¬ o.meets.FailsCheck o.op) ∧
      lax.map (fun o => (o.answer, o.leaves)) =
        strict.map (fun o => (o.answer, o.leaves.under .lastWriteWins)) := by
  intro ops strict lax
  have hquiet : strict.all (fun o => match o.answer with
      | .error (.workflow (.conflict _)) => false
      | _ => true) = true := by
    decide +kernel
  have hpasses : ∀ o ∈ strict, ¬ o.meets.FailsCheck o.op := by
    intro o hmem hfails
    obtain ⟨⟨what, hrefused⟩, _⟩ := perform_of_failsCheck hfails
    have hanswer : o.answer = .error (.workflow (.conflict what)) := congrArg Prod.fst hrefused
    have hnone := List.all_eq_true.1 hquiet o hmem
    rw [hanswer] at hnone
    contradiction
  exact ⟨hpasses, (stale_policy_only_refuses Sample.governance ops).1 hpasses⟩

end Governance

end FlagGovernance
