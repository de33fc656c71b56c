import FlagGovernance.Proofs.Branching
import FlagGovernance.Proofs.Diff.Walk
/-
Where two documents part.

Chains of keys lead to the places of a document.  Two documents part at a place if both
are objects all the way there, and there they differ and are not both objects.  The
differences are those places, each once and in order of the keys, with what stands there.
-/

namespace FlagGovernance

namespace Json

/-- What stands at the end of a chain of keys. -/
def at? : List String → Option Json → Option Json
  | [], v? => v?
  | key :: keys, v? => at? keys (v?.bind (get? key))

/-- The documents are objects on the way along the keys; at their end they differ and are
not both objects. -/
def PartAt : List String → Option Json → Option Json → Prop
  | [], before, after => alike before after = false ∧ ¬ BothObjects before after
  | key :: keys, some (.object as), some (.object bs) =>
    PartAt keys (member? key as) (member? key bs)
  | _ :: _, _, _ => False

theorem partAt_cons_iff {key : String} {keys : List String} {before after : Option Json} :
    PartAt (key :: keys) before after ↔
      ∃ as bs, before = some (.object as) ∧ after = some (.object bs) ∧
        PartAt keys (member? key as) (member? key bs) := by
  constructor
  · intro hpart
    by_cases hobjects : BothObjects before after
    · obtain ⟨as, bs, rfl, rfl⟩ := hobjects
      exact ⟨as, bs, rfl, rfl, hpart⟩
    · rw [PartAt] at hpart
      · exact hpart.elim
      · exact fun as bs has hbs => hobjects ⟨as, bs, has, hbs⟩
  · rintro ⟨as, bs, rfl, rfl, hpart⟩
    exact hpart

theorem partAt_nil_of_apart {before after : Option Json} (hapart : ¬ BothObjects before after) :
    PartAt [] before after ↔ alike before after = false :=
  and_iff_left hapart

theorem not_partAt_none (keys : List String) : ¬ PartAt keys none none := by
  cases keys with
  | nil => exact fun hpart => Bool.noConfusion hpart.1
  | cons key keys =>
      rw [partAt_cons_iff]
      rintro ⟨as, bs, hnone, _⟩
      contradiction

theorem PartAt.differ {keys : List String} {before after : Option Json}
    (hpart : PartAt keys before after) :
    alike (at? keys before) (at? keys after) = false ∧
      ¬ BothObjects (at? keys before) (at? keys after) := by
  induction keys generalizing before after with
  | nil => exact hpart
  | cons key keys ih =>
      obtain ⟨as, bs, rfl, rfl, hrest⟩ := partAt_cons_iff.mp hpart
      exact ih hrest

end Json

open Json

/-- Where either document is no object, the place is here or nowhere. -/
theorem mem_differences_of_apart {before after : Option Json}
    (hapart : ¬ BothObjects before after) {d : Difference} :
    d ∈ differences before after ↔
      PartAt d.keys before after ∧ d.before = at? d.keys before ∧ d.after = at? d.keys after := by
  obtain ⟨keys, old, new⟩ := d
  rw [differences_of_apart hapart]
  cases keys with
  | nil =>
      simp only [partAt_nil_of_apart hapart, at?]
      split_ifs with hsame <;> simp [hsame]
  | cons key keys =>
      have hnowhere : ¬ PartAt (key :: keys) before after := by
        rw [partAt_cons_iff]
        exact fun ⟨as, bs, has, hbs, _⟩ => hapart ⟨as, bs, has, hbs⟩
      split_ifs <;> simp [hnowhere]

/-- The differences are the places where the documents part, with what stands there. -/
theorem mem_differences_iff {before after : Option Json} (hafter : ∀ v ∈ after, v.WellFormed)
    {d : Difference} :
    d ∈ differences before after ↔
      PartAt d.keys before after ∧ d.before = at? d.keys before ∧ d.after = at? d.keys after := by
  induction before, after using walk_induct generalizing d with
  | objects as bs ih =>
      have hbs := pairwise_keys (ascending_of_wellFormed (hafter _ rfl))
      simp only [differences, List.mem_flatMap, List.mem_map,
        fun key => @ih key (wellFormed_of_member? (hafter _ rfl))]
      constructor
      · rintro ⟨key, _, e, he, rfl⟩
        exact he
      · rintro ⟨hpart, hold, hnew⟩
        obtain ⟨keys, old, new⟩ := d
        cases keys with
        | nil => exact absurd ⟨as, bs, rfl, rfl⟩ hpart.2
        | cons key keys =>
            refine ⟨key, ?_, ⟨keys, old, new⟩, ⟨hpart, hold, hnew⟩, rfl⟩
            by_contra hkey
            rw [mem_mergedKeys hbs, not_or] at hkey
            rw [PartAt, member?_eq_none_iff.mpr hkey.1, member?_eq_none_iff.mpr hkey.2] at hpart
            exact not_partAt_none keys hpart
  | apart before after hapart => exact mem_differences_of_apart hapart

/-- The differences stand in order of their keys, and none is on the way to another. -/
theorem differences_precede {before after : Option Json} (hbefore : ∀ v ∈ before, v.WellFormed)
    (hafter : ∀ v ∈ after, v.WellFormed) :
    (differences before after).Pairwise (fun d e => Precedes d.keys e.keys) := by
  induction before, after using walk_induct with
  | objects as bs ih =>
      have has := pairwise_keys (ascending_of_wellFormed (hbefore _ rfl))
      have hbs := pairwise_keys (ascending_of_wellFormed (hafter _ rfl))
      rw [differences, List.pairwise_flatMap]
      constructor
      · intro key _
        rw [List.pairwise_map]
        exact (ih key (wellFormed_of_member? (hbefore _ rfl))
          (wellFormed_of_member? (hafter _ rfl))).imp fun hkeys => hkeys.cons key
      · refine (mergedKeys_ascending has hbs).imp fun {key later} hlt => ?_
        simp only [List.mem_map]
        rintro _ ⟨d, _, rfl⟩ _ ⟨e, _, rfl⟩
        exact precedes_cons hlt d.keys e.keys
  | apart before after hapart =>
      rw [differences_of_apart hapart]
      split_ifs
      · exact List.Pairwise.nil
      · exact List.pairwise_singleton _ _

end FlagGovernance
