import FlagGovernance.Proofs.Diff.Paths
import FlagGovernance.Proofs.Text.ByteOrder
/-
The order of changes and the order of their paths.

Changes stand in order of their keys, level by level.  A path has a point after a key that
another key follows, so two paths are out of order just where one key goes on, with a
character before the point, after the place where a shorter key ends that has a change
below it.
-/

namespace FlagGovernance

open Json

namespace Diff

/-- The longer key goes on, where the shorter ends, with a character before the point. -/
def Undercuts (short long : String) : Prop :=
  ∃ c rest, long.toList = short.toList ++ c :: rest ∧ c < '.'

/-- Of two keys in order, the paths on from the second come before those on from the
first just if it undercuts the first and the first goes on. -/
theorem pathOf_cons_le_iff {k l : String} {r s : List String} (hk : Separable k)
    (hl : Separable l) (hlt : k < l) :
    pathOf (k :: r) ≤ pathOf (l :: s) ↔ (r ≠ [] → ¬ Undercuts k l) := by
  rw [String.le_iff_toList_le, toList_pathOf hk.1, toList_pathOf hl.1]
  rcases lt_iff_precedes_or_extends.mp (String.lt_iff.mp hlt) with hparts | ⟨c, rest, hlong⟩
  · refine iff_of_true (hparts.append _ _).lt.le fun _ ⟨c, rest, hlong, _⟩ => ?_
    rw [hlong] at hparts
    exact hparts.not_extends
  · have hpoint : c ≠ '.' := fun heq => hl.2 (by simp [hlong, heq])
    rw [hlong, List.append_assoc, append_le_append_iff]
    cases r with
    | nil => exact iff_of_true (List.nil_lt_cons c _).le fun hne => absurd rfl hne
    | cons next below =>
        rw [List.flatMap_cons, List.cons_append, List.cons_append]
        rcases lt_or_gt_of_ne hpoint with hbefore | hafter
        · refine iff_of_false (not_le.mpr (precedes_cons hbefore _ _).lt) fun hnot => ?_
          exact hnot (List.cons_ne_nil _ _) ⟨c, rest, hlong, hbefore⟩
        · refine iff_of_true (precedes_cons hafter _ _).lt.le fun _ ⟨d, other, hother, hd⟩ => ?_
          rw [hlong, List.append_cancel_left_eq] at hother
          exact lt_asymm hafter ((List.cons.inj hother).1 ▸ hd)

theorem toList_pathOf_cons {key : String} {keys : List String} (hkey : key ≠ "")
    (hkeys : ∀ next ∈ keys, next ≠ "") (hne : keys ≠ []) :
    (pathOf (key :: keys)).toList = key.toList ++ ['.'] ++ (pathOf keys).toList := by
  obtain ⟨next, below, rfl⟩ := List.exists_cons_of_ne_nil hne
  rw [toList_pathOf hkey, toList_pathOf (hkeys next List.mem_cons_self), List.flatMap_cons]
  simp

/-- The keys that paths have in common do not matter for their order. -/
theorem pathOf_append_le_iff {common x y : List String} (hx : x ≠ []) (hy : y ≠ [])
    (hxkeys : ∀ key ∈ common ++ x, key ≠ "") (hykeys : ∀ key ∈ common ++ y, key ≠ "") :
    pathOf (common ++ x) ≤ pathOf (common ++ y) ↔ pathOf x ≤ pathOf y := by
  induction common with
  | nil => rfl
  | cons key common ih =>
      rw [List.cons_append, List.forall_mem_cons] at hxkeys hykeys
      rw [← ih hxkeys.2 hykeys.2, String.le_iff_toList_le, List.cons_append, List.cons_append,
        toList_pathOf_cons hxkeys.1 hxkeys.2 (List.append_ne_nil_of_right_ne_nil _ hx),
        toList_pathOf_cons hykeys.1 hykeys.2 (List.append_ne_nil_of_right_ne_nil _ hy),
        append_le_append_iff, String.le_iff_toList_le]

/-- Two chains in order have their paths in order unless the second leaves the first at a
key that undercuts one on the way. -/
theorem pathOf_le_iff {common r s : List String} {k l : String} (hlt : k < l)
    (hfirst : ∀ key ∈ common ++ k :: r, Separable key)
    (hsecond : ∀ key ∈ common ++ l :: s, Separable key) :
    pathOf (common ++ k :: r) ≤ pathOf (common ++ l :: s) ↔ (r ≠ [] → ¬ Undercuts k l) := by
  rw [pathOf_append_le_iff (List.cons_ne_nil _ _) (List.cons_ne_nil _ _)
    (fun key hmem => (hfirst key hmem).1) (fun key hmem => (hsecond key hmem).1)]
  exact pathOf_cons_le_iff (hfirst k (by simp)) (hsecond l (by simp)) hlt

/-- A key comes before any that undercuts it. -/
theorem Undercuts.lt {short long : String} (hundercuts : Undercuts short long) :
    short < long := by
  obtain ⟨c, rest, hlong, _⟩ := hundercuts
  exact String.lt_iff.mpr (lt_iff_precedes_or_extends.mpr (Or.inr ⟨c, rest, hlong⟩))

end Diff

/-- The chains of keys to the places where the documents part, in order. -/
theorem exists_chains {before after : Option Json} (hbefore : ∀ v ∈ before, v.WellFormed)
    (hafter : ∀ v ∈ after, v.WellFormed) :
    ∃ chains : List (List String),
      (diff before after).map FieldChange.path = chains.map Diff.pathOf ∧
      chains.Pairwise Precedes ∧ ∀ keys, keys ∈ chains ↔ PartAt keys before after := by
  refine ⟨(differences before after).map Difference.keys, ?_, ?_, fun keys => ?_⟩
  · rw [diff_eq_map hbefore hafter, List.map_map, List.map_map]
    rfl
  · exact List.pairwise_map.mpr (differences_precede hbefore hafter)
  · rw [List.mem_map]
    constructor
    · rintro ⟨d, hmem, rfl⟩
      exact ((mem_differences_iff hafter).mp hmem).1
    · intro hpart
      exact ⟨⟨keys, at? keys before, at? keys after⟩,
        (mem_differences_iff hafter).mpr ⟨hpart, rfl, rfl⟩, rfl⟩

/-- Of two documents, either of which may be absent, the changes stand in order of the
chains of keys that lead to the places where the documents part, each place once.  If no
key is empty or has a point in it, the paths are in byte order just if nowhere one key
goes on, with a character before the point, where a shorter one ends that has a change
below it. -/
theorem diff_path_order {before after : Option Json} (hbefore : ∀ v ∈ before, v.WellFormed)
    (hafter : ∀ v ∈ after, v.WellFormed) :
    (∃ chains : List (List String),
      (diff before after).map FieldChange.path = chains.map Diff.pathOf ∧
      chains.Pairwise Precedes ∧ ∀ keys, keys ∈ chains ↔ PartAt keys before after) ∧
    ((∀ v ∈ before, ∀ key ∈ v.allKeys, Diff.Separable key) →
      (∀ v ∈ after, ∀ key ∈ v.allKeys, Diff.Separable key) →
      (((diff before after).map FieldChange.path).Pairwise
          (fun first second => Text.utf8Bytes first ≤ Text.utf8Bytes second) ↔
        ∀ common short below long rest, below ≠ [] →
          PartAt (common ++ short :: below) before after →
          PartAt (common ++ long :: rest) before after → ¬ Diff.Undercuts short long)) := by
  refine ⟨exists_chains hbefore hafter, fun hbeforeKeys hafterKeys => ?_⟩
  obtain ⟨chains, hpaths, hordered, hmem⟩ := exists_chains hbefore hafter
  have hseparable : ∀ keys, PartAt keys before after → ∀ key ∈ keys, Diff.Separable key :=
    fun keys hpart => hpart.forall_keys hbeforeKeys hafterKeys
  rw [hpaths, List.pairwise_map]
  simp only [Text.utf8Bytes_le_iff]
  constructor
  · intro hbytes common short below long rest hbelow hfirst hsecond hundercuts
    have hprecedes : Precedes (common ++ short :: below) (common ++ long :: rest) :=
      ⟨common, short, long, below, rest, rfl, rfl, hundercuts.lt⟩
    have hle := hprecedes.rel_of_pairwise hordered hbytes ((hmem _).mpr hfirst)
      ((hmem _).mpr hsecond)
    exact (Diff.pathOf_le_iff hundercuts.lt (hseparable _ hfirst) (hseparable _ hsecond)).mp hle
      hbelow hundercuts
  · intro hfree
    refine hordered.imp_of_mem ?_
    rintro _ _ hx hy ⟨common, short, long, below, rest, rfl, rfl, hlt⟩
    rw [hmem] at hx hy
    rw [Diff.pathOf_le_iff hlt (hseparable _ hx) (hseparable _ hy)]
    exact fun hbelow => hfree common short below long rest hbelow hx hy

/-- Where the paths are in byte order, no key undercuts one that has a change below it. -/
theorem nested_paths_in_order :
    (∀ v ∈ some Sample.earlier, ∀ key ∈ v.allKeys, Diff.Separable key) ∧
    (∀ v ∈ some Sample.later, ∀ key ∈ v.allKeys, Diff.Separable key) ∧
    ∀ common short below long rest, below ≠ [] →
      PartAt (common ++ short :: below) (some Sample.earlier) (some Sample.later) →
      PartAt (common ++ long :: rest) (some Sample.earlier) (some Sample.later) →
        ¬ Diff.Undercuts short long := by
  have hbefore : ∀ v ∈ some Sample.earlier, ∀ key ∈ v.allKeys, Diff.Separable key :=
    fun v hv key hmem => (Sample.earlier_plain v hv key hmem).1
  have hafter : ∀ v ∈ some Sample.later, ∀ key ∈ v.allKeys, Diff.Separable key :=
    fun v hv key hmem => (Sample.later_plain v hv key hmem).1
  have hordered : ["a.b", "a.c", "a.x", "d"].Pairwise
      (fun first second => Text.utf8Bytes first ≤ Text.utf8Bytes second) := by
    simp only [Text.utf8Bytes_le_iff]
    decide
  have hpaths :=
    (diff_path_order Sample.earlier_wellFormed Sample.later_wellFormed).2 hbefore hafter
  rw [Sample.diff_earlier_later] at hpaths
  exact ⟨hbefore, hafter, hpaths.mp hordered⟩

namespace Sample

/-- A key with a dash after another that has a member. -/
def dashed (n : Nat) : Json :=
  .object [("a", .object [("b", .ofNat n)]), ("a-b", .ofNat n)]

end Sample

/-- A dash comes before a point, so the paths of two changes can be out of order. -/
theorem dashed_paths_out_of_order :
    (Sample.dashed 1).WellFormed ∧ (Sample.dashed 2).WellFormed ∧
    (diff (some (Sample.dashed 1)) (some (Sample.dashed 2))).map FieldChange.path =
      ["a.b", "a-b"] ∧
    ¬ ["a.b", "a-b"].Pairwise
      (fun first second => Text.utf8Bytes first ≤ Text.utf8Bytes second) := by
  refine ⟨by decide +kernel, by decide +kernel, rfl, ?_⟩
  simp only [Text.utf8Bytes_le_iff]
  decide

end FlagGovernance
