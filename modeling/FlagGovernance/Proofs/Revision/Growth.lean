import FlagGovernance.Proofs.Run
/-
The entry of a key, and how its revision grows.

An operation leaves the entry of a key, or writes over it one revision on, or
renames a flag away from the key or to it.  As long as the key does not become
unbound, the entry stays as it is or its revision grows, so that a revision seen
twice is one entry seen twice.
-/

namespace FlagGovernance

/-- The revision of an entry; zero stands for none. -/
def revisionOf (entry : Option StoredFlag) : Nat :=
  (entry.map StoredFlag.revision).getD 0

@[simp] theorem revisionOf_none : revisionOf none = 0 := rfl

@[simp] theorem revisionOf_some (entry : StoredFlag) : revisionOf (some entry) = entry.revision :=
  rfl

/-- What an operation can do to the entry of a key. -/
inductive EntryMoves (op : Operation) (key : FlagId) :
    Option StoredFlag → Option StoredFlag → Prop
  | stays (entry : Option StoredFlag) : EntryMoves op key entry entry
  | written (before : Option StoredFlag) {write : FlagWrite} (hid : write.id = key)
      (now : Instant) : EntryMoves op key before (some (write.entry before now))
  | renamedAway (flag : StoredFlag) {target : String} {now : Instant}
      (hop : op = .renameFlag key.project key.key target now) :
      EntryMoves op key (some flag) none
  | renamedTo (flag : StoredFlag) {source : String} {now : Instant}
      (hop : op = .renameFlag key.project source key.key now) :
      EntryMoves op key none (some (flag.renamed key.key now))

/-- The entry stays, or its revision grows. -/
def Grown (before after : Option StoredFlag) : Prop :=
  after = before ∨ revisionOf before < revisionOf after

namespace Grown

variable {first second third : Option StoredFlag}

theorem refl (entry : Option StoredFlag) : Grown entry entry := .inl rfl

theorem revision_le (hgrown : Grown first second) : revisionOf first ≤ revisionOf second := by
  rcases hgrown with rfl | hlt
  · exact Nat.le_refl _
  · exact Nat.le_of_lt hlt

theorem trans (h₁ : Grown first second) (h₂ : Grown second third) : Grown first third := by
  rcases h₂ with rfl | hlt
  · exact h₁
  · exact .inr (Nat.lt_of_le_of_lt h₁.revision_le hlt)

/-- A revision seen again is the same entry seen again. -/
theorem eq_of_revision_eq (hgrown : Grown first second)
    (hrevision : revisionOf second = revisionOf first) : second = first := by
  rcases hgrown with heq | hlt
  · exact heq
  · omega

/-- What is the same at both ends was the same in between. -/
theorem eq_between (h₁ : Grown first second) (h₂ : Grown second third) (hends : third = first) :
    second = first := by
  apply h₁.eq_of_revision_eq
  have hle := h₂.revision_le
  rw [hends] at hle
  exact Nat.le_antisymm hle h₁.revision_le

end Grown

namespace EntryMoves

variable {op : Operation} {key : FlagId} {before after : Option StoredFlag}

/-- Unless the key becomes unbound, the entry stays or its revision grows. -/
theorem grown (hmoves : EntryMoves op key before after) (hbound : after = none → before = none) :
    Grown before after := by
  cases hmoves with
  | stays => exact .refl _
  | written => exact .inr (Nat.lt_succ_self _)
  | renamedAway => exact absurd (hbound rfl) nofun
  | renamedTo => exact .inr (Nat.succ_pos _)

/-- An operation takes a key one revision on at most, unless it renames. -/
theorem revision_le_succ (hmoves : EntryMoves op key before after) (hrename : op.kind ≠ .rename) :
    revisionOf after ≤ revisionOf before + 1 := by
  cases hmoves with
  | stays => exact Nat.le_succ _
  | written => exact Nat.le_refl _
  | renamedAway _ hop | renamedTo _ hop => exact absurd (hop ▸ rfl) hrename

/-- No entry has the revision that stands for none. -/
theorem eq_none_of_zero (hmoves : EntryMoves op key before after)
    (hbefore : revisionOf before = 0 → before = none) :
    revisionOf after = 0 → after = none := by
  cases hmoves with
  | stays => exact hbefore
  | written => exact fun hzero => absurd hzero (Nat.succ_ne_zero _)
  | renamedAway => exact fun _ => rfl
  | renamedTo => exact fun hzero => absurd hzero (Nat.succ_ne_zero _)

/-- Only renaming makes a key unbound. -/
theorem renamed_of_none (hmoves : EntryMoves op key before none) :
    before = none ∨ ∃ target now, op = .renameFlag key.project key.key target now := by
  cases hmoves with
  | stays => exact .inl rfl
  | renamedAway _ hop => exact .inr ⟨_, _, hop⟩

end EntryMoves

namespace Store

theorem find?_written (s : Store) (write : FlagWrite) (now : Instant) (key : FlagId) :
    (s.written write now).flags.find? key =
      if key = write.id then some (write.entry (s.flags.find? write.id) now)
      else s.flags.find? key :=
  OrderedMap.find?_insert _ _ _ _

theorem revision_lt_written (s : Store) (write : FlagWrite) (now : Instant) :
    revisionOf (s.flags.find? write.id) <
      revisionOf ((s.written write now).flags.find? write.id) := by
  rw [find?_written, if_pos rfl]
  exact Nat.lt_succ_self _

theorem written_moves (s : Store) (op : Operation) (write : FlagWrite) (now : Instant)
    (key : FlagId) :
    EntryMoves op key (s.flags.find? key) ((s.written write now).flags.find? key) := by
  rw [find?_written]
  split
  · next hkey =>
    subst hkey
    exact .written _ rfl now
  · exact .stays _

theorem withFlagWrite_moves (s : Store) (op : Operation) (write : Option FlagWrite)
    (now : Instant) (key : FlagId) :
    EntryMoves op key (s.flags.find? key) ((s.withFlagWrite write now).flags.find? key) := by
  cases write with
  | none => exact .stays _
  | some write => exact (s.withProject write.project).written_moves op write now key

theorem withRenamed_moves (s : Store) {project source target : String} {flag : StoredFlag}
    (htarget : s.flags.find? ⟨project, target⟩ = none)
    (hsource : s.flags.find? ⟨project, source⟩ = some flag) (now : Instant) (key : FlagId) :
    EntryMoves (.renameFlag project source target now) key (s.flags.find? key)
      ((s.withRenamed ⟨project, source⟩ ⟨project, target⟩ flag now).flags.find? key) := by
  rw [withRenamed, OrderedMap.find?_insert]
  split
  · next hkey =>
    subst hkey
    rw [htarget]
    exact .renamedTo flag rfl
  · by_cases hkey : key = ⟨project, source⟩
    · subst hkey
      rw [hsource, OrderedMap.find?_erase_self]
      exact .renamedAway flag rfl
    · rw [OrderedMap.find?_erase_of_ne _ hkey]
      exact .stays _

end Store

namespace Governance

/-- The entry of a key. -/
def entryAt (g : Governance) (key : FlagId) : Option StoredFlag := g.store.flags.find? key

theorem after_moves (g : Governance) (op : Operation) (key : FlagId) :
    EntryMoves op key (g.entryAt key) ((g.after op).entryAt key) := by
  have hperformed := g.performed op
  generalize (g.perform op).1 = outcome, g.after op = g' at hperformed
  simp only [entryAt]
  cases hperformed with
  | refused _ hsame =>
      rw [hsame.store_eq]
      exact .stays _
  | answered _ _ _ hsame =>
      rw [hsame.store_eq]
      exact .stays _
  | applied id actor time event request flag =>
      rw [announce_store]
      exact g.store.withFlagWrite_moves _ flag time key
  | committed id commit =>
      exact g.store.withFlagWrite_moves _ commit.flag commit.appliedAt key
  | seeded project _ _ now write =>
      exact (g.store.withProject project).written_moves _ write now key
  | put _ _ _ _ now _ write => exact g.store.written_moves _ write now key
  | renamed _ _ _ now _ htarget hsource => exact g.store.withRenamed_moves htarget hsource now key
  | created | reviewed | cancelled | ensured | inserted | recorded | transitioned | injected =>
      exact .stays _

/-- A bound key becomes unbound by a rename that succeeds and in no other way. -/
theorem after_unbound_iff {g : Governance} {op : Operation} {key : FlagId} {entry : StoredFlag}
    (hentry : g.entryAt key = some entry) :
    (g.after op).entryAt key = none ↔
      ∃ target now answer, op = .renameFlag key.project key.key target now ∧
        (g.perform op).1 = .ok answer := by
  constructor
  · intro hunbound
    have hmoves := g.after_moves op key
    rw [hunbound] at hmoves
    rcases hmoves.renamed_of_none with hnone | ⟨target, now, hop⟩
    · rw [hentry] at hnone
      contradiction
    · refine ⟨target, now, ?_⟩
      cases hanswer : (g.perform op).1 with
      | ok answer => exact ⟨answer, hop, rfl⟩
      | error e =>
          have hsame := after_unmoved_of_error hanswer
          rw [entryAt, hsame.store_eq, ← entryAt, hentry] at hunbound
          contradiction
  · rintro ⟨target, now, answer, rfl, hanswer⟩
    have hperformed := performed_as hanswer
    generalize g.after (.renameFlag key.project key.key target now) = g' at hperformed ⊢
    cases hperformed with
    | answered _ hkind => contradiction
    | renamed _ _ _ _ flag htarget =>
        -- the key is bound and the target is not, so the erased key is not put back
        have hne : key ≠ ⟨key.project, target⟩ := by
          intro heq
          rw [entryAt, heq, htarget] at hentry
          contradiction
        simp only [entryAt, withStore, Store.withRenamed]
        rw [OrderedMap.find?_insert_of_ne _ hne]
        exact OrderedMap.find?_erase_self _ _

/-- Revision zero stands for none in every run. -/
theorem run_eq_none_of_zero (sink : AuditSink) (relay : RelaySignal) (policy : StalePolicy)
    (ops : List Operation) (key : FlagId)
    (hzero : revisionOf (((start sink relay policy).run ops).entryAt key) = 0) :
    ((start sink relay policy).run ops).entryAt key = none := by
  refine run_keeps (P := fun g => revisionOf (g.entryAt key) = 0 → g.entryAt key = none) ?_
    (fun _ => rfl) hzero
  intro op _ g hkept
  exact (g.after_moves op key).eq_none_of_zero hkept

/-- Without renames, revisions count no further than operations: a run of fewer
than `2 ^ 64` of them stays within sixty-four bits. -/
theorem run_revision_le {g : Governance} {ops : List Operation}
    (hrename : ∀ op ∈ ops, op.kind ≠ .rename) (key : FlagId) :
    revisionOf ((g.run ops).entryAt key) ≤ revisionOf (g.entryAt key) + ops.length := by
  induction ops generalizing g with
  | nil => exact Nat.le_refl _
  | cons op rest ih =>
      rw [List.forall_mem_cons] at hrename
      have hstep := (g.after_moves op key).revision_le_succ hrename.1
      have hrest := ih (g := g.after op) hrename.2
      rw [run_cons, List.length_cons]
      omega

/-- No operation of the run makes the key unbound. -/
def KeepsBound (key : FlagId) (g : Governance) : List Operation → Prop
  | [] => True
  | op :: rest =>
    ((g.after op).entryAt key = none → g.entryAt key = none) ∧ KeepsBound key (g.after op) rest

theorem keepsBound_of_no_rename {key : FlagId} {g : Governance} {ops : List Operation}
    (hkind : ∀ op ∈ ops, op.kind ≠ .rename) : KeepsBound key g ops := by
  induction ops generalizing g with
  | nil => trivial
  | cons op rest ih =>
      rw [List.forall_mem_cons] at hkind
      refine ⟨fun hunbound => ?_, ih hkind.2⟩
      have hmoves := g.after_moves op key
      rw [hunbound] at hmoves
      rcases hmoves.renamed_of_none with hnone | ⟨_, _, rfl⟩
      · exact hnone
      · exact absurd rfl hkind.1

/-- A key that is bound all the way does not become unbound. -/
theorem keepsBound_of_bound {key : FlagId} {g : Governance} {ops : List Operation}
    (hbound : ∀ before, before <+: ops → (g.run before).entryAt key ≠ none) :
    KeepsBound key g ops := by
  induction ops generalizing g with
  | nil => trivial
  | cons op rest ih =>
      refine ⟨fun hunbound => absurd hunbound (hbound [op] (by simp)), ih ?_⟩
      intro before hprefix
      exact hbound (op :: before) (List.prefix_cons_inj op |>.2 hprefix)

/-- While a key does not become unbound, its entry stays or its revision grows. -/
theorem run_grown {key : FlagId} {g : Governance} {ops : List Operation}
    (hkeeps : KeepsBound key g ops) : Grown (g.entryAt key) ((g.run ops).entryAt key) := by
  induction ops generalizing g with
  | nil => exact .refl _
  | cons op rest ih =>
      obtain ⟨hstep, hrest⟩ := hkeeps
      exact ((g.after_moves op key).grown hstep).trans (ih hrest)

end Governance

end FlagGovernance
