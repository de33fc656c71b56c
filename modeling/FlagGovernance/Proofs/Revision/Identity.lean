import FlagGovernance.Proofs.Revision.Growth
/-
What a revision tells of the content of a key.

While a key stays bound, a revision is one entry.  Renaming the flag away ends
this: the key counts from one again, and each revision that it had can come back
with any content.  A proposal opened before the rename is then taken for fresh.
-/

namespace FlagGovernance

namespace Governance

theorem entryAt_after_seed (g : Governance) (key : FlagId) (config : FlagConfig) (now : Instant) :
    (g.after (.seedFlag key.project key.key config now)).entryAt key =
      some (FlagWrite.entry ⟨key.project, key.key, config, .any⟩ (g.entryAt key) now) := by
  rw [after, perform, onStore_of_done (g.store.seedFlag_eq key.project key.key config now)]
  simp only [told, entryAt, withStore]
  rw [Store.find?_written]
  exact if_pos rfl

/-- Each seed takes a key one revision on. -/
theorem entryAt_run_seeds (g : Governance) (key : FlagId) (config : FlagConfig) (now : Instant)
    (n : Nat) :
    ∃ entry,
      (g.run (List.replicate (n + 1) (.seedFlag key.project key.key config now))).entryAt key =
        some entry ∧
      entry.revision = revisionOf (g.entryAt key) + (n + 1) ∧ entry.config = config := by
  induction n generalizing g with
  | zero => exact ⟨_, g.entryAt_after_seed key config now, rfl, rfl⟩
  | succ n ih =>
      obtain ⟨entry, hentry, hrevision, hconfig⟩ :=
        ih (g.after (.seedFlag key.project key.key config now))
      refine ⟨entry, hentry, ?_, hconfig⟩
      rw [hrevision, entryAt_after_seed, revisionOf_some]
      change revisionOf (g.entryAt key) + 1 + (n + 1) = revisionOf (g.entryAt key) + (n + 1 + 1)
      omega

/-- While a key stays bound, an entry of the revision that it had is the entry
that it had.  From when it is unbound, which a rename from it does and nothing
else, the revision can come back with any configuration. -/
theorem revision_identifies_while_bound (sink : AuditSink) (relay : RelaySignal)
    (policy : StalePolicy) (before : List Operation) {key : FlagId} {entry : StoredFlag}
    (hentry : ((start sink relay policy).run before).entryAt key = some entry) :
    let g := (start sink relay policy).run before
    (∀ ops, (∀ during, during <+: ops → (g.run during).entryAt key ≠ none) →
      ∀ entry', (g.run ops).entryAt key = some entry' →
        entry.revision ≤ entry'.revision ∧ (entry'.revision = entry.revision → entry' = entry)) ∧
    (∀ ops, (g.run ops).entryAt key = none → ∀ config,
      ∃ more entry', (g.run (ops ++ more)).entryAt key = some entry' ∧
        entry'.revision = entry.revision ∧ entry'.config = config) ∧
    (∀ op, (g.after op).entryAt key = none ↔
      ∃ target now answer, op = .renameFlag key.project key.key target now ∧
        (g.perform op).1 = .ok answer) := by
  intro g
  refine ⟨fun ops hbound entry' hentry' => ?_, fun ops hunbound config => ?_,
    fun op => after_unbound_iff hentry⟩
  · have hgrown := run_grown (keepsBound_of_bound hbound)
    rw [hentry, hentry'] at hgrown
    exact ⟨hgrown.revision_le, fun hsame => Option.some.inj (hgrown.eq_of_revision_eq hsame)⟩
  · have hpos : entry.revision ≠ 0 := by
      intro hzero
      have hnone := run_eq_none_of_zero sink relay policy before key
        (by rw [hentry, revisionOf_some, hzero])
      rw [hentry] at hnone
      contradiction
    obtain ⟨n, hn⟩ := Nat.exists_eq_succ_of_ne_zero hpos
    obtain ⟨entry', hentry', hrevision, hconfig⟩ :=
      (g.run ops).entryAt_run_seeds key config entry.updatedAt n
    refine ⟨_, entry', by rw [run_append]; exact hentry', ?_, hconfig⟩
    rw [hrevision, hunbound, revisionOf_none, hn]
    omega

/-- A flag renamed away, after which its old revision comes back. -/
theorem revision_comes_back :
    let g := Sample.governance.run [.seedFlag "web" "a" (.boolean true) Sample.moment]
    ∃ entry, g.entryAt ⟨"web", "a"⟩ = some entry ∧
      ∃ more entry', (g.run ([.renameFlag "web" "a" "b" Sample.moment] ++ more)).entryAt
          ⟨"web", "a"⟩ = some entry' ∧
        entry'.revision = entry.revision ∧ entry'.config = .boolean false := by
  intro g
  have hentry : g.entryAt ⟨"web", "a"⟩ = some ⟨"web", "a", .boolean true, 1, Sample.moment⟩ := rfl
  obtain ⟨_, hback, _⟩ := revision_identifies_while_bound (.log (.empty 100)) .answering
    .rejectStale [.seedFlag "web" "a" (.boolean true) Sample.moment] hentry
  exact ⟨_, hentry, hback [.renameFlag "web" "a" "b" Sample.moment] rfl (.boolean false)⟩

/-- A revision is used again at a key for another configuration, and a proposal
opened over the one is applied over the other, stale as it is. -/
theorem revision_reused_after_rename :
    let opened := Sample.governance.run
      [.seedFlag "web" "checkout" (.boolean true) Sample.moment,
       .create Sample.proposal Sample.actor (Sample.stamp 1) (Sample.stamp 2)]
    let moved := opened.run
      [.renameFlag "web" "checkout" "basket" Sample.moment,
       .seedFlag "web" "checkout" (.boolean false) Sample.moment]
    ∃ entry entry' change,
      opened.entryAt ⟨"web", "checkout"⟩ = some entry ∧
      moved.entryAt ⟨"web", "checkout"⟩ = some entry' ∧
      entry'.revision = entry.revision ∧ entry'.config ≠ entry.config ∧
      moved.policy = .rejectStale ∧
      (moved.perform (.apply (.ofNat 1) Sample.actor Sample.moment (Sample.stamp 3))).1 =
        .ok (.applied change) ∧
      change.previous = some entry' := by
  refine ⟨⟨"web", "checkout", .boolean true, 1, Sample.moment⟩,
    ⟨"web", "checkout", .boolean false, 1, Sample.moment⟩, _, rfl, rfl, rfl, ?_, rfl, rfl, rfl⟩
  intro hsame
  have hrule := congrArg FlagConfig.defaultRule hsame
  exact absurd hrule (by decide)

end Governance

end FlagGovernance
