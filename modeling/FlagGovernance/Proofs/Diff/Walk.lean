import FlagGovernance.Diff
import FlagGovernance.Proofs.Json.Equality
import Mathlib.Data.List.TakeWhile
/-
Differences by the keys that lead to them.

Two objects are walked key by key, in order of all the keys that either has.  What is
found on the way is a list of differences, each with the chain of keys that leads to it.
The changes that are told are these differences, with chains shown as paths.
-/

namespace FlagGovernance

open OrderedMap

section Ascending

variable {ks ls : List String} {k key : String}

theorem mem_takeWhile_lt (hls : ls.Pairwise (· < ·)) :
    key ∈ ls.takeWhile (· < k) ↔ key ∈ ls ∧ key < k := by
  induction ls with
  | nil => simp
  | cons l rest ih =>
      rw [List.pairwise_cons] at hls
      rw [List.takeWhile_cons]
      by_cases hl : l < k
      · rw [if_pos (decide_eq_true hl), List.mem_cons, ih hls.2, List.mem_cons, or_and_right]
        have hfirst : key = l ↔ key = l ∧ key < k := ⟨fun heq => ⟨heq, heq ▸ hl⟩, And.left⟩
        rw [← hfirst]
      · have hlater : ∀ later ∈ l :: rest, ¬ later < k := by
          rw [List.forall_mem_cons]
          exact ⟨hl, fun later hmem hlt => hl ((hls.1 later hmem).trans hlt)⟩
        rw [if_neg (by simpa using hl)]
        exact iff_of_false List.not_mem_nil fun hmem => hlater key hmem.1 hmem.2

theorem mem_dropWhile_le (hls : ls.Pairwise (· < ·)) :
    key ∈ ls.dropWhile (· ≤ k) ↔ key ∈ ls ∧ k < key := by
  induction ls with
  | nil => simp
  | cons l rest ih =>
      rw [List.pairwise_cons] at hls
      rw [List.dropWhile_cons]
      by_cases hl : l ≤ k
      · rw [if_pos (decide_eq_true hl), ih hls.2, List.mem_cons, or_and_right]
        have hfirst : ¬ (key = l ∧ k < key) := fun h => not_lt.mpr hl (h.1 ▸ h.2)
        exact (or_iff_right hfirst).symm
      · have hlater : ∀ later ∈ l :: rest, k < later := by
          rw [List.forall_mem_cons]
          exact ⟨not_le.mp hl, fun later hmem => (not_le.mp hl).trans (hls.1 later hmem)⟩
        rw [if_neg (by simpa using hl)]
        exact (and_iff_left_of_imp (hlater key)).symm

/-- Two lists in strict order with the same items are the same list. -/
theorem eq_of_ascending_of_mem_iff (hks : ks.Pairwise (· < ·)) (hls : ls.Pairwise (· < ·))
    (hmem : ∀ key, key ∈ ks ↔ key ∈ ls) : ks = ls := by
  have hperm : ks.Perm ls :=
    (List.perm_ext_iff_of_nodup (hks.imp ne_of_lt) (hls.imp ne_of_lt)).mpr hmem
  exact hperm.eq_of_pairwise (fun _ _ _ _ hlt hgt => absurd hgt (lt_asymm hlt)) hks hls

/-- All the keys in two ascending lists, in order and each once. -/
def mergedKeys : List String → List String → List String
  | [], ls => ls
  | k :: ks, ls => ls.takeWhile (· < k) ++ k :: mergedKeys ks (ls.dropWhile (· ≤ k))

theorem mem_mergedKeys (hls : ls.Pairwise (· < ·)) :
    key ∈ mergedKeys ks ls ↔ key ∈ ks ∨ key ∈ ls := by
  induction ks generalizing ls with
  | nil => simp [mergedKeys]
  | cons k ks ih =>
      have hrest := ih (hls.sublist (List.dropWhile_sublist (· ≤ k)))
      rw [mergedKeys, List.mem_append, List.mem_cons, hrest, mem_takeWhile_lt hls,
        mem_dropWhile_le hls, List.mem_cons]
      rcases lt_trichotomy key k with hlt | heq | hgt
      · simp [hlt, hlt.ne, hlt.not_gt, or_comm]
      · simp [heq]
      · simp [hgt, hgt.ne', hgt.not_gt]

/-- The keys merged past a key are past it. -/
theorem lt_of_mem_mergedKeys (hks : (k :: ks).Pairwise (· < ·)) (hls : ls.Pairwise (· < ·))
    (hmem : key ∈ mergedKeys ks (ls.dropWhile (· ≤ k))) : k < key := by
  rcases (mem_mergedKeys (hls.sublist (List.dropWhile_sublist _))).mp hmem with hkey | hkey
  · exact (List.pairwise_cons.mp hks).1 key hkey
  · exact ((mem_dropWhile_le hls).mp hkey).2

theorem mergedKeys_ascending (hks : ks.Pairwise (· < ·)) (hls : ls.Pairwise (· < ·)) :
    (mergedKeys ks ls).Pairwise (· < ·) := by
  induction ks generalizing ls with
  | nil => exact hls
  | cons k ks ih =>
      have hafter : ∀ key ∈ mergedKeys ks (ls.dropWhile (· ≤ k)), k < key :=
        fun _ hmem => lt_of_mem_mergedKeys hks hls hmem
      have hrest := ih (List.pairwise_cons.mp hks).2 (hls.sublist (List.dropWhile_sublist (· ≤ k)))
      rw [mergedKeys, List.pairwise_append, List.pairwise_cons]
      refine ⟨hls.sublist (List.takeWhile_sublist _), ⟨hafter, hrest⟩, ?_⟩
      intro key hkey later hlater
      have hbefore := ((mem_takeWhile_lt hls).mp hkey).2
      rcases List.mem_cons.mp hlater with rfl | hlater
      · exact hbefore
      · exact hbefore.trans (hafter later hlater)

theorem mergedKeys_comm (hks : ks.Pairwise (· < ·)) (hls : ls.Pairwise (· < ·)) :
    mergedKeys ks ls = mergedKeys ls ks := by
  apply eq_of_ascending_of_mem_iff (mergedKeys_ascending hks hls) (mergedKeys_ascending hls hks)
  intro key
  rw [mem_mergedKeys hls, mem_mergedKeys hks, or_comm]

end Ascending

/-- Differing values, and the keys that lead to them in either document. -/
structure Difference where
  keys : List String
  before : Option Json
  after : Option Json
deriving Repr

namespace Difference

/-- The same difference, seen from an object with the documents under a key. -/
def under (key : String) (d : Difference) : Difference := { d with keys := key :: d.keys }

/-- The same difference from the other side. -/
def swap (d : Difference) : Difference := ⟨d.keys, d.after, d.before⟩

/-- The difference as a change, told from a path. -/
def changeAt (path : String) (d : Difference) : FieldChange :=
  ⟨Diff.shownPath (d.keys.foldl Diff.childPath path), d.before, d.after⟩

end Difference

theorem sizeOf_member?_lt (key : String) (ms : List (String × Json)) :
    sizeOf (Json.member? key ms) < sizeOf (some (Json.object ms)) := by
  have hmembers : sizeOf (Json.member? key ms) ≤ 1 + sizeOf ms := by
    induction ms with
    | nil => simp
    | cons m rest ih =>
        obtain ⟨first, v⟩ := m
        rw [Json.member?_cons]
        split_ifs
        · simp only [Option.some.sizeOf_spec, List.cons.sizeOf_spec, Prod.mk.sizeOf_spec]
          omega
        · simp only [List.cons.sizeOf_spec]
          omega
  simp only [Option.some.sizeOf_spec, Json.object.sizeOf_spec]
  omega

/-- The places where two documents differ, in order of their keys. -/
def differences : Option Json → Option Json → List Difference
  | some (.object as), some (.object bs) =>
    (mergedKeys (as.map Prod.fst) (bs.map Prod.fst)).flatMap fun key =>
      (differences (Json.member? key as) (Json.member? key bs)).map (Difference.under key)
  | before, after => if Json.alike before after then [] else [⟨[], before, after⟩]
termination_by before => sizeOf before
decreasing_by exact sizeOf_member?_lt key as

/-- There is an object on either side. -/
def Json.BothObjects (before after : Option Json) : Prop :=
  ∃ as bs, before = some (.object as) ∧ after = some (.object bs)

theorem Json.BothObjects.symm {before after : Option Json}
    (hobjects : Json.BothObjects before after) : Json.BothObjects after before := by
  obtain ⟨as, bs, hbefore, hafter⟩ := hobjects
  exact ⟨bs, as, hafter, hbefore⟩

theorem differences_of_apart {before after : Option Json}
    (hapart : ¬ Json.BothObjects before after) :
    differences before after =
      if Json.alike before after then [] else [⟨[], before, after⟩] := by
  rw [differences]
  exact fun as bs has hbs => hapart ⟨as, bs, has, hbs⟩

/-- What holds of two objects if it holds of what they have under each key, and of any
other two documents, holds of all. -/
@[elab_as_elim]
theorem walk_induct {motive : Option Json → Option Json → Prop}
    (objects : ∀ as bs, (∀ key, motive (Json.member? key as) (Json.member? key bs)) →
      motive (some (.object as)) (some (.object bs)))
    (apart : ∀ before after, ¬ Json.BothObjects before after → motive before after)
    (before after : Option Json) : motive before after := by
  induction before, after using differences.induct with
  | case1 as bs ih => exact objects as bs ih
  | case2 before after hapart _ | case3 before after hapart _ =>
      exact apart before after fun ⟨as, bs, has, hbs⟩ => hapart as bs has hbs

namespace Diff

/-- The changes at and below a path where either document may have no value. -/
def between (path : String) : Option Json → Option Json → List FieldChange
  | none, none => []
  | some a, some b => changes path a b
  | before, after => [⟨shownPath path, before, after⟩]

theorem diff_eq_between (before after : Option Json) :
    diff before after = between "" before after := by
  cases before <;> cases after <;> rfl

variable {as bs : List (String × Json)} {k : String} {a : Json}

theorem member?_dropWhile_le {key : String} (hlt : k < key) (ms : List (String × Json)) :
    Json.member? key (ms.dropWhile (fun m => m.1 ≤ k)) = Json.member? key ms := by
  conv_rhs => rw [← List.takeWhile_append_dropWhile (p := fun m : String × Json => m.1 ≤ k)
    (l := ms)]
  have hfront : ∀ m ∈ ms.takeWhile (fun m => m.1 ≤ k), m.1 ≤ k :=
    fun m hmem => by simpa using List.mem_takeWhile_imp hmem
  have habsent := Json.member?_eq_none_of_ne fun m hmem => ((hfront m hmem).trans_lt hlt).ne'
  rw [Json.member?_append, habsent]
  rfl

/-- One step of the walk: what only the later object has before the first key, what
stands under the key on either side, and the members after it. -/
theorem memberChanges_cons (path : String) (hbs : Ascending bs) :
    memberChanges path ((k, a) :: as) bs =
      (bs.takeWhile (fun m => m.1 < k)).map (added path) ++
        (between (childPath path k) (some a) (Json.member? k bs) ++
          memberChanges path as (bs.dropWhile (fun m => m.1 ≤ k))) := by
  have hsplit := List.takeWhile_append_dropWhile (p := fun m : String × Json => m.1 < k) (l := bs)
  have hfront : ∀ m ∈ bs.takeWhile (fun m => m.1 < k), m.1 < k :=
    fun m hmem => by simpa using List.mem_takeWhile_imp hmem
  have hdrop : bs.dropWhile (fun m => m.1 ≤ k) =
      (bs.dropWhile (fun m => m.1 < k)).dropWhile (fun m => m.1 ≤ k) := by
    conv_lhs => rw [← hsplit]
    exact List.dropWhile_append_of_pos fun m hmem => decide_eq_true (hfront m hmem).le
  have hmember : Json.member? k bs = Json.member? k (bs.dropWhile (fun m => m.1 < k)) := by
    conv_lhs => rw [← hsplit]
    rw [Json.member?_append, Json.member?_eq_none_of_ne fun m hmem => (hfront m hmem).ne']
    rfl
  rw [memberChanges, hdrop, hmember]
  have hback := hbs.sublist (List.dropWhile_sublist (fun m => m.1 < k))
  cases hrest : bs.dropWhile (fun m => m.1 < k) with
  | nil => rfl
  | cons m rest =>
      obtain ⟨l, b⟩ := m
      rw [hrest] at hback
      have hge : k ≤ l := by
        have hhead := List.head_dropWhile_not (fun m : String × Json => decide (m.1 < k))
          (hrest ▸ List.cons_ne_nil (l, b) rest)
        simp only [hrest, List.head_cons, decide_eq_false_iff_not, not_lt] at hhead
        exact hhead
      have hkept : rest.dropWhile (fun m => m.1 ≤ k) = rest := by
        cases rest with
        | nil => rfl
        | cons m rest =>
            have hlater := Json.lt_of_ascending hback List.mem_cons_self
            exact List.dropWhile_cons_of_neg (by simpa using hge.trans_lt hlater)
      by_cases hkey : k = l
      · subst hkey
        rw [List.dropWhile_cons_of_pos (by simp), hkept]
        simp [between]
      · have hlt : k < l := lt_of_le_of_ne hge hkey
        rw [List.dropWhile_cons_of_neg (by simpa using hlt), Json.member?_before hback hlt]
        simp [hkey, between, removed]

/-- What only the later object has is told as added. -/
theorem map_added_eq_flatMap (path : String) (hbs : Ascending bs) {front : List (String × Json)}
    (hfront : ∀ m ∈ front, m ∈ bs ∧ Json.member? m.1 as = none) :
    front.map (added path) = (front.map Prod.fst).flatMap fun key =>
      between (childPath path key) (Json.member? key as) (Json.member? key bs) := by
  rw [List.flatMap_map, List.map_eq_flatMap]
  apply List.flatMap_congr
  intro m hmem
  rw [(hfront m hmem).2, Json.member?_of_mem hbs (hfront m hmem).1]
  rfl

/-- The changes among the members of two objects are those under each key that either
has. -/
theorem memberChanges_eq_flatMap (path : String) (has : Ascending as) (hbs : Ascending bs) :
    memberChanges path as bs =
      (mergedKeys (as.map Prod.fst) (bs.map Prod.fst)).flatMap fun key =>
        between (childPath path key) (Json.member? key as) (Json.member? key bs) := by
  induction as generalizing bs with
  | nil => exact map_added_eq_flatMap path hbs fun m hmem => ⟨hmem, rfl⟩
  | cons m as ih =>
      obtain ⟨k, a⟩ := m
      have hrest := hbs.sublist (List.dropWhile_sublist (fun m => m.1 ≤ k))
      have hdrop : (bs.map Prod.fst).dropWhile (· ≤ k) =
          (bs.dropWhile (fun m => m.1 ≤ k)).map Prod.fst := List.dropWhile_map
      have hfront : ∀ m ∈ bs.takeWhile (fun m => m.1 < k),
          m ∈ bs ∧ Json.member? m.1 ((k, a) :: as) = none := by
        intro m hmem
        have hlt : m.1 < k := by simpa using List.mem_takeWhile_imp hmem
        exact ⟨(List.takeWhile_sublist _).subset hmem, Json.member?_before has hlt⟩
      rw [memberChanges_cons path hbs, ih (List.pairwise_cons.mp has).2 hrest,
        map_added_eq_flatMap path hbs hfront, List.map_cons, mergedKeys, List.flatMap_append,
        List.flatMap_cons, List.takeWhile_map, hdrop]
      congr 2
      · simp
      · apply List.flatMap_congr
        intro key hmem
        rw [← hdrop] at hmem
        have hlt := lt_of_mem_mergedKeys (Json.pairwise_keys has) (Json.pairwise_keys hbs) hmem
        rw [Json.member?_cons, if_neg hlt.ne', member?_dropWhile_le hlt]

/-- Anything but two objects is told whole. -/
theorem between_of_apart (path : String) {before after : Option Json}
    (hapart : ¬ Json.BothObjects before after) :
    between path before after =
      if Json.alike before after then [] else [⟨shownPath path, before, after⟩] := by
  cases before with
  | none => cases after <;> rfl
  | some a =>
      cases after with
      | none => rfl
      | some b =>
          rw [between, changes]
          · rfl
          · rintro as bs rfl rfl
            exact hapart ⟨as, bs, rfl, rfl⟩

/-- The changes told from a path are the differences, told from it. -/
theorem between_eq_map (path : String) {before after : Option Json}
    (hbefore : ∀ v ∈ before, v.WellFormed) (hafter : ∀ v ∈ after, v.WellFormed) :
    between path before after = (differences before after).map (Difference.changeAt path) := by
  induction before, after using walk_induct generalizing path with
  | objects as bs ih =>
      have has := Json.ascending_of_wellFormed (hbefore _ rfl)
      have hbs := Json.ascending_of_wellFormed (hafter _ rfl)
      rw [differences, List.map_flatMap]
      refine (memberChanges_eq_flatMap path has hbs).trans (List.flatMap_congr fun key _ => ?_)
      rw [ih key (childPath path key) (Json.wellFormed_of_member? (hbefore _ rfl))
        (Json.wellFormed_of_member? (hafter _ rfl)), List.map_map]
      rfl
  | apart before after hapart =>
      rw [between_of_apart path hapart, differences_of_apart hapart]
      split_ifs <;> rfl

end Diff

/-- The changes between two documents are their differences, told as paths. -/
theorem diff_eq_map {before after : Option Json} (hbefore : ∀ v ∈ before, v.WellFormed)
    (hafter : ∀ v ∈ after, v.WellFormed) :
    diff before after = (differences before after).map (Difference.changeAt "") := by
  rw [Diff.diff_eq_between, Diff.between_eq_map "" hbefore hafter]

namespace Sample

/-- An object in an object, a member that is `null`, an integer and a zero. -/
def earlier : Json := .object
  [("a", .object [("b", .ofNat 1), ("c", .null)]), ("d", .ofNat 5), ("e", .ofDouble .zero)]

/-- One inner member changed, the one that is `null` gone and one added; the integer has
become a real, and the zero is the other zero. -/
def later : Json := .object
  [("a", .object [("b", .ofNat 2), ("x", .array [.null])]), ("d", .ofDouble (.ofNat 5)),
    ("e", .ofDouble Double.zero.neg)]

theorem earlier_wellFormed : ∀ v ∈ some earlier, v.WellFormed := by
  rintro v ⟨⟩
  decide +kernel

theorem later_wellFormed : ∀ v ∈ some later, v.WellFormed := by
  rintro v ⟨⟩
  decide +kernel

theorem diff_earlier_later : diff (some earlier) (some later) =
    [⟨"a.b", some (.ofNat 1), some (.ofNat 2)⟩, ⟨"a.c", some .null, none⟩,
      ⟨"a.x", none, some (.array [.null])⟩,
      ⟨"d", some (.ofNat 5), some (.ofDouble (.ofNat 5))⟩] := by
  rfl

end Sample

end FlagGovernance
