import FlagGovernance.Proofs.Workflow.InStep
/-
Who is told makes no difference.

Two governances are alike if they have the same store, the same faults to meet and the
same policy.  Asked the same they answer the same and are alike again: what is told
goes out to the sink and the relay, and nothing comes back from them.
-/

namespace FlagGovernance

namespace Governance

/-- The same store, the same faults and the same policy; who is told, and of what, may
differ. -/
structure Alike (g g' : Governance) : Prop where
  store : g'.store = g.store
  faults : g'.faults = g.faults
  policy : g'.policy = g.policy

variable {α ε : Type} {g g' : Governance}

/-- The same answer, and governances that are alike. -/
def AnswersAlike (outcome outcome' : Except ε α × Governance) : Prop :=
  ∃ answer g g', outcome = (answer, g) ∧ outcome' = (answer, g') ∧ g.Alike g'

/-- Governances that are alike are in step, whoever hears of it. -/
theorem Alike.inStep (halike : g.Alike g') : g.InStep g' :=
  ⟨halike.store, halike.faults⟩

/-- Alike governances answer every operation alike. -/
theorem perform_alike (halike : g.Alike g') (op : Operation) :
    AnswersAlike (g.perform op) (g'.perform op) := by
  obtain ⟨answer, g₁, g₁', hperform, hperform', hstep⟩ := perform_inStep halike.inStep op
    (fun id actor time _ _ => commitsInStep_of_policy halike.policy id actor time)
  obtain rfl : g.after op = g₁ := congrArg Prod.snd hperform
  obtain rfl : g'.after op = g₁' := congrArg Prod.snd hperform'
  refine ⟨answer, _, _, hperform, hperform', hstep.store, hstep.faults, ?_⟩
  rw [after_policy, after_policy, halike.policy]

/-- What a run shows of governance: each answer, with the store after it. -/
def trace (g : Governance) : List Operation → List (Except OperationError Answer × Store)
  | [] => []
  | op :: rest => ((g.perform op).1, (g.after op).store) :: trace (g.after op) rest

theorem trace_alike (halike : g.Alike g') (ops : List Operation) :
    g'.trace ops = g.trace ops := by
  induction ops generalizing g g' with
  | nil => rfl
  | cons op rest ih =>
      obtain ⟨answer, g₁, g₁', hperform, hperform', halike₁⟩ := perform_alike halike op
      have hafter : g.after op = g₁ := congrArg Prod.snd hperform
      have hafter' : g'.after op = g₁' := congrArg Prod.snd hperform'
      rw [trace, trace, hperform, hperform', hafter, hafter', ih halike₁, halike₁.store]

/-- Two runs of one sequence of operations from one state, with one sink and relay
and with any other, give the same answer to each operation and the same store after
it. -/
theorem listeners_never_govern (g : Governance) (sink sink' : AuditSink)
    (relay relay' : RelaySignal) (ops : List Operation) :
    ({ g with sink, relay } : Governance).trace ops =
      ({ g with sink := sink', relay := relay' } : Governance).trace ops := by
  have halike : Alike { g with sink := sink', relay := relay' } { g with sink, relay } :=
    ⟨rfl, rfl, rfl⟩
  exact trace_alike halike ops

end Governance

end FlagGovernance
