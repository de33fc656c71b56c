import FlagGovernance.Proofs.Run
/-
Refusals change nothing.

Whatever refuses an operation, be it a check of the workflow, a guard of the
store or a fault met on the way, the store, the log and the signals are as they
were.  Refused operations can be left out of a run.
-/

namespace FlagGovernance

namespace Governance

/-- A refused operation leaves projects, flags, requests and reviews, records no
event and sends no signal, whatever faults are queued. -/
theorem perform_error_changes_nothing {g g' : Governance} {op : Operation} {e : OperationError}
    (hrefused : g.perform op = (.error e, g')) :
    g'.store = g.store ∧ g'.sink = g.sink ∧ g'.signals = g.signals := by
  have hunmoved := after_unmoved_of_error (congrArg Prod.fst hrefused)
  rw [after, hrefused] at hunmoved
  obtain ⟨faults, _, rfl⟩ := hunmoved
  exact ⟨rfl, rfl, rfl⟩

/-- A valid proposal whose commit meets a fault. -/
theorem apply_commit_fault_changes_nothing :
    let g := Sample.governance.run
      [.create Sample.proposal Sample.actor (Sample.stamp 1) (Sample.stamp 2),
       .injectFault .commitApply (.backend "disk full")]
    let op := Operation.apply (.ofNat 1) Sample.actor Sample.moment (Sample.stamp 3)
    ∃ g', g.perform op =
        (.error (.workflow (.store "applying change request" (.backend "disk full"))), g') ∧
      g'.store = g.store ∧ g'.sink = g.sink ∧ g'.signals = g.signals := by
  intro g op
  have hrefused : g.perform op =
      (.error (.workflow (.store "applying change request" (.backend "disk full"))),
        { g with faults := [] }) := rfl
  exact ⟨_, hrefused, perform_error_changes_nothing hrefused⟩

/-- The operations of a run that are not refused. -/
def accepted (g : Governance) : List Operation → List Operation
  | [] => []
  | op :: rest =>
    match (g.perform op).1 with
    | .ok _ => op :: accepted (g.after op) rest
    | .error _ => accepted (g.after op) rest

theorem after_no_faults {g : Governance} {op : Operation} (hkind : op.kind ≠ .fault)
    (hfaults : g.faults = []) : (g.after op).faults = [] := by
  have hperformed := g.performed op
  generalize (g.perform op).1 = outcome, g.after op = g' at hperformed
  cases hperformed with
  | refused _ hsame => rw [hsame.eq_of_no_faults hfaults, hfaults]
  | answered _ _ _ hsame => rw [hsame.eq_of_no_faults hfaults, hfaults]
  | applied => rw [announce_faults]; exact hfaults
  | injected => contradiction
  | created | reviewed | cancelled | inserted | recorded | transitioned | committed | seeded
  | put | ensured | renamed => exact hfaults

/-- Where no faults are about, a run is the run of its accepted operations. -/
theorem run_accepted {g : Governance} {ops : List Operation}
    (hkind : ∀ op ∈ ops, op.kind ≠ .fault) (hfaults : g.faults = []) :
    g.run (g.accepted ops) = g.run ops := by
  induction ops generalizing g with
  | nil => rfl
  | cons op rest ih =>
      rw [List.forall_mem_cons] at hkind
      have hrest := ih hkind.2 (after_no_faults hkind.1 hfaults)
      rw [run_cons, ← hrest, accepted]
      cases hanswer : (g.perform op).1 with
      | ok answer => rfl
      | error e =>
          have hsame := (after_unmoved_of_error hanswer).eq_of_no_faults hfaults
          simp only [hsame]

end Governance

end FlagGovernance
