import FlagGovernance.Proofs.Diff.Walk
/-
Differences are exact and seen alike from either side.

There are none just where the documents are equal.  Since the walk takes the keys of both
documents in one order, it goes the same way from either side.
-/

namespace FlagGovernance

/-- The walk goes the same way from either side. -/
theorem differences_swap {before after : Option Json} (hbefore : ∀ v ∈ before, v.WellFormed)
    (hafter : ∀ v ∈ after, v.WellFormed) :
    differences after before = (differences before after).map Difference.swap := by
  induction before, after using walk_induct with
  | objects as bs ih =>
      have has := Json.pairwise_keys (Json.ascending_of_wellFormed (hbefore _ rfl))
      have hbs := Json.pairwise_keys (Json.ascending_of_wellFormed (hafter _ rfl))
      rw [differences, differences, mergedKeys_comm hbs has, List.map_flatMap]
      refine List.flatMap_congr fun key _ => ?_
      rw [ih key (Json.wellFormed_of_member? (hbefore _ rfl))
        (Json.wellFormed_of_member? (hafter _ rfl)), List.map_map, List.map_map]
      rfl
  | apart before after hapart =>
      have hback : ¬ Json.BothObjects after before := fun hobjects => hapart hobjects.symm
      rw [differences_of_apart hback, differences_of_apart hapart, Json.alike_comm after before]
      split_ifs <;> rfl

/-- There is no difference just where the documents are equal. -/
theorem differences_eq_nil_iff {before after : Option Json}
    (hbefore : ∀ v ∈ before, v.WellFormed) (hafter : ∀ v ∈ after, v.WellFormed) :
    differences before after = [] ↔ Json.alike before after = true := by
  induction before, after using walk_induct with
  | objects as bs ih =>
      have has := Json.ascending_of_wellFormed (hbefore _ rfl)
      have hbs := Json.ascending_of_wellFormed (hafter _ rfl)
      have hunder : ∀ key, differences (Json.member? key as) (Json.member? key bs) = [] ↔
          Json.alike (Json.member? key as) (Json.member? key bs) = true :=
        fun key => ih key (Json.wellFormed_of_member? (hbefore _ rfl))
          (Json.wellFormed_of_member? (hafter _ rfl))
      rw [Json.alike, Json.equal_object_iff has hbs, differences, List.flatMap_eq_nil_iff]
      simp only [List.map_eq_nil_iff, hunder]
      constructor
      · intro hkeys key
        by_cases hkey : key ∈ mergedKeys (as.map Prod.fst) (bs.map Prod.fst)
        · exact hkeys key hkey
        · rw [mem_mergedKeys (Json.pairwise_keys hbs), not_or] at hkey
          rw [Json.member?_eq_none_iff.mpr hkey.1, Json.member?_eq_none_iff.mpr hkey.2]
          rfl
      · exact fun hkeys key _ => hkeys key
  | apart before after hapart => simp [differences_of_apart hapart]

/-- Documents, either of which may be absent, have no changes between them just where both
are absent or equal, and from the other side each change is told the other way round, in
the same order.  An integer is never equal to a real, the two zeros are equal, and objects
are not if one has `null` where the other has nothing. -/
theorem diff_exact_and_symmetric {before after : Option Json}
    (hbefore : ∀ v ∈ before, v.WellFormed) (hafter : ∀ v ∈ after, v.WellFormed) :
    (diff before after = [] ↔ (before = none ∧ after = none) ∨
      ∃ a b, before = some a ∧ after = some b ∧ a.equal b = true) ∧
    diff after before = (diff before after).map FieldChange.swap ∧
    (∀ i d, (Json.number (.integer i)).equal (.number (.real d)) = false) ∧
    (Json.number (.real .zero)).equal (.number (.real Double.zero.neg)) = true ∧
    ∀ key as bs, (Json.object as).WellFormed → (Json.object bs).WellFormed →
      Json.member? key as = some .null → Json.member? key bs = none →
        (Json.object as).equal (.object bs) = false := by
  rw [diff_eq_map hbefore hafter, diff_eq_map hafter hbefore]
  refine ⟨?_, ?_, fun i d => rfl, by decide, ?_⟩
  · rw [List.map_eq_nil_iff, differences_eq_nil_iff hbefore hafter, Json.alike_eq_true_iff]
  · rw [differences_swap hbefore hafter, List.map_map, List.map_map]
    rfl
  · intro key as bs has hbs hnull habsent
    rw [← Bool.not_eq_true, Json.equal_object_iff (Json.ascending_of_wellFormed has)
      (Json.ascending_of_wellFormed hbs)]
    intro hsame
    have hkey := hsame key
    rw [hnull, habsent] at hkey
    contradiction

/-- Seen from the other side, what was removed was added. -/
theorem nested_changes_swapped :
    (∀ v ∈ some Sample.earlier, v.WellFormed) ∧ (∀ v ∈ some Sample.later, v.WellFormed) ∧
    diff (some Sample.later) (some Sample.earlier) =
      [⟨"a.b", some (.ofNat 2), some (.ofNat 1)⟩, ⟨"a.c", none, some .null⟩,
        ⟨"a.x", some (.array [.null]), none⟩,
        ⟨"d", some (.ofDouble (.ofNat 5)), some (.ofNat 5)⟩] := by
  have hswap := (diff_exact_and_symmetric Sample.earlier_wellFormed Sample.later_wellFormed).2.1
  refine ⟨Sample.earlier_wellFormed, Sample.later_wellFormed, ?_⟩
  rw [hswap, Sample.diff_earlier_later]
  rfl

end FlagGovernance
