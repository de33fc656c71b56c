import FlagGovernance.Proofs.Diff.Paths
/-
Changes rebuild the later document.

A change is made to a document by putting its later side at its path.  The changes under
one key of an object touch nothing but the member of that key, so made one after the other
all changes of a difference lead from the earlier document to one equal to the later.
-/

namespace FlagGovernance

namespace Json

/-- Members with the value of a key set, or with none under it. -/
def withMember (members : List (String × Json)) (key : String) :
    Option Json → List (String × Json)
  | some v => setMember members key v
  | none => members.filter (fun m => m.1 ≠ key)

/-- Puts a value at the end of a chain of keys, or removes what stands there.  Only objects
have members, so all else stays as it is. -/
def putAt : List String → Option Json → Option Json → Option Json
  | [], new, _ => new
  | key :: keys, new, some (.object ms) =>
    some (.object (withMember ms key (putAt keys new (member? key ms))))
  | _ :: _, _, v? => v?

theorem member?_withMember (ms : List (String × Json)) (key other : String) (v? : Option Json) :
    member? other (withMember ms key v?) = if other = key then v? else member? other ms := by
  cases v? with
  | some v => exact member?_setMember ms key other v
  | none =>
      rw [withMember]
      split_ifs with hkey
      · apply member?_eq_none_of_ne
        intro m hmem
        have hother := (List.mem_filter.mp hmem).2
        simp only [decide_eq_true_eq] at hother
        exact hkey ▸ hother.symm
      · rw [member?_eq_findEntry, member?_eq_findEntry]
        exact OrderedMap.findEntry?_filter (fun _ => by simpa using hkey) ms

theorem ascending_withMember {ms : List (String × Json)} (hms : OrderedMap.Ascending ms)
    (key : String) (v? : Option Json) : OrderedMap.Ascending (withMember ms key v?) := by
  cases v? with
  | some v => exact OrderedMap.pairwise_insertEntry key v hms
  | none => exact hms.sublist List.filter_sublist

end Json

open Json

/-- The document after a change at the end of a chain of keys. -/
def Difference.onto (doc : Option Json) (d : Difference) : Option Json :=
  putAt d.keys d.after doc

/-- The document after a change at its path. -/
def FieldChange.onto (doc : Option Json) (c : FieldChange) : Option Json :=
  putAt (Diff.keysOf c.path) c.after doc

/-- What is changed under a key is changed in the member of that key alone. -/
theorem foldl_onto_under (key : String) (ds : List Difference) {ms : List (String × Json)}
    (hms : OrderedMap.Ascending ms) :
    ∃ ms', (ds.map (Difference.under key)).foldl Difference.onto (some (.object ms)) =
        some (.object ms') ∧ OrderedMap.Ascending ms' ∧
      ∀ other, member? other ms' =
        if other = key then ds.foldl Difference.onto (member? key ms) else member? other ms := by
  induction ds generalizing ms with
  | nil => exact ⟨ms, rfl, hms, fun other => by simp +contextual⟩
  | cons d ds ih =>
      obtain ⟨ms', hresult, hordered, hmembers⟩ :=
        ih (ascending_withMember hms key (d.onto (member? key ms)))
      refine ⟨ms', hresult, hordered, fun other => ?_⟩
      rw [hmembers, member?_withMember, member?_withMember, if_pos rfl]
      by_cases hkey : other = key
      · simp only [if_pos hkey, List.foldl_cons]
      · simp only [if_neg hkey]

/-- Changes under different keys do not meet. -/
theorem foldl_onto_flatMap (keys : List String) (hkeys : keys.Nodup)
    (under : String → List Difference) {ms : List (String × Json)}
    (hms : OrderedMap.Ascending ms) :
    ∃ ms', (keys.flatMap fun key => (under key).map (Difference.under key)).foldl Difference.onto
        (some (.object ms)) = some (.object ms') ∧ OrderedMap.Ascending ms' ∧
      ∀ key, member? key ms' =
        if key ∈ keys then (under key).foldl Difference.onto (member? key ms)
        else member? key ms := by
  induction keys generalizing ms with
  | nil => exact ⟨ms, rfl, hms, fun key => by simp⟩
  | cons first keys ih =>
      rw [List.nodup_cons] at hkeys
      obtain ⟨ms₁, hfirst, hordered₁, hmembers₁⟩ := foldl_onto_under first (under first) hms
      obtain ⟨ms₂, hrest, hordered₂, hmembers₂⟩ := ih hkeys.2 hordered₁
      refine ⟨ms₂, ?_, hordered₂, fun key => ?_⟩
      · rw [List.flatMap_cons, List.foldl_append, hfirst, hrest]
      · rw [hmembers₂, hmembers₁]
        by_cases hkey : key = first
        · subst hkey
          simp [hkeys.1]
        · simp [hkey]

/-- The differences lead from the earlier document to one equal to the later. -/
theorem alike_foldl_onto {before after : Option Json} (hbefore : ∀ v ∈ before, v.WellFormed)
    (hafter : ∀ v ∈ after, v.WellFormed) :
    alike ((differences before after).foldl Difference.onto before) after = true := by
  induction before, after using walk_induct with
  | objects as bs ih =>
      have has := ascending_of_wellFormed (hbefore _ rfl)
      have hbs := ascending_of_wellFormed (hafter _ rfl)
      have hkeys := mergedKeys_ascending (pairwise_keys has) (pairwise_keys hbs)
      obtain ⟨ms, hresult, hordered, hmembers⟩ := foldl_onto_flatMap _ (hkeys.imp ne_of_lt)
        (fun key => differences (member? key as) (member? key bs)) has
      rw [differences, hresult, alike, equal_object_iff hordered hbs]
      intro key
      rw [hmembers]
      split_ifs with hkey
      · exact ih key (wellFormed_of_member? (hbefore _ rfl)) (wellFormed_of_member? (hafter _ rfl))
      · rw [mem_mergedKeys (pairwise_keys hbs), not_or] at hkey
        rw [member?_eq_none_iff.mpr hkey.1, member?_eq_none_iff.mpr hkey.2]
        rfl
  | apart before after hapart =>
      rw [differences_of_apart hapart]
      split_ifs with hsame
      · exact hsame
      · exact alike_self hafter

/-- Each change is made where its difference is, as its path tells the keys. -/
theorem foldl_onto_changeAt {ds : List Difference} (doc : Option Json)
    (hkeys : ∀ d ∈ ds, Diff.keysOf (Diff.pathOf d.keys) = d.keys) :
    (ds.map (Difference.changeAt "")).foldl FieldChange.onto doc = ds.foldl Difference.onto doc := by
  rw [List.foldl_map]
  apply List.foldl_ext
  intro doc d hmem
  exact congrArg (fun keys => putAt keys d.after doc) (hkeys d hmem)

/-- If no key is empty, has a point in it or is `$`, the changes between two documents have
different paths; each tells what stands at its path on either side, which differs and is
not an object on both; and made one after the other to the earlier document they give one
that is equal to the later. -/
theorem diff_rebuilds {before after : Option Json} (hbefore : ∀ v ∈ before, v.WellFormed)
    (hafter : ∀ v ∈ after, v.WellFormed)
    (hbeforeKeys : ∀ v ∈ before, ∀ key ∈ v.allKeys, Diff.Plain key)
    (hafterKeys : ∀ v ∈ after, ∀ key ∈ v.allKeys, Diff.Plain key) :
    ((diff before after).map FieldChange.path).Nodup ∧
    (∀ c ∈ diff before after,
      c.before = at? (Diff.keysOf c.path) before ∧ c.after = at? (Diff.keysOf c.path) after ∧
      alike c.before c.after = false ∧ ¬ BothObjects c.before c.after) ∧
    alike ((diff before after).foldl FieldChange.onto before) after = true := by
  have hplain : ∀ d ∈ differences before after, Diff.keysOf (Diff.pathOf d.keys) = d.keys := by
    intro d hmem
    have hpart := ((mem_differences_iff hafter).mp hmem).1
    exact Diff.keysOf_pathOf (hpart.forall_keys hbeforeKeys hafterKeys)
  rw [diff_eq_map hbefore hafter]
  refine ⟨?_, ?_, ?_⟩
  · rw [List.Nodup, List.pairwise_map, List.pairwise_map]
    refine (differences_precede hbefore hafter).imp_of_mem fun {d e} hd he hprecedes hpath => ?_
    have hchains : d.keys = e.keys :=
      (hplain d hd).symm.trans ((congrArg Diff.keysOf hpath).trans (hplain e he))
    exact lt_irrefl _ (hchains ▸ hprecedes.lt)
  · rw [List.forall_mem_map]
    intro d hmem
    obtain ⟨hpart, hold, hnew⟩ := (mem_differences_iff hafter).mp hmem
    have hchain : Diff.keysOf (d.changeAt "").path = d.keys := hplain d hmem
    rw [hchain]
    refine ⟨hold, hnew, ?_⟩
    rw [Difference.changeAt, hold, hnew]
    exact hpart.differ
  · rw [foldl_onto_changeAt before hplain]
    exact alike_foldl_onto hbefore hafter

/-- A change within an object, a removal and an addition rebuild the later document. -/
theorem nested_changes_rebuild :
    (∀ v ∈ some Sample.earlier, ∀ key ∈ v.allKeys, Diff.Plain key) ∧
    (∀ v ∈ some Sample.later, ∀ key ∈ v.allKeys, Diff.Plain key) ∧
    at? (Diff.keysOf "a.c") (some Sample.earlier) = some .null ∧
    at? (Diff.keysOf "a.c") (some Sample.later) = none ∧
    alike ((diff (some Sample.earlier) (some Sample.later)).foldl FieldChange.onto
      (some Sample.earlier)) (some Sample.later) = true := by
  obtain ⟨_, hsides, hrebuilt⟩ := diff_rebuilds Sample.earlier_wellFormed Sample.later_wellFormed
    Sample.earlier_plain Sample.later_plain
  have hremoved : (⟨"a.c", some .null, none⟩ : FieldChange) ∈
      diff (some Sample.earlier) (some Sample.later) := by
    simp [Sample.diff_earlier_later]
  obtain ⟨hold, hnew, _⟩ := hsides _ hremoved
  exact ⟨Sample.earlier_plain, Sample.later_plain, hold.symm, hnew.symm, hrebuilt⟩

end FlagGovernance
