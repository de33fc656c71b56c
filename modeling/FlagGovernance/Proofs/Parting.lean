import Mathlib.Algebra.Ring.Nat
import Mathlib.Data.List.Basic
/-
What is picked from a list, and lists parted by kind.

A filter picks the elements of which something holds and keeps their order.  If every kind
is listed once, and every element is of a kind that is listed, then the elements of each
kind, one kind after the other, are all the elements.
-/

namespace FlagGovernance

variable {α κ : Type}

/-- The elements picked are those of which something holds, in their order: a sublist of
such elements, and one that has every other as a sublist. -/
structure Picks (P : α → Prop) (elements picked : List α) : Prop where
  sublist : picked.Sublist elements
  holds : ∀ a ∈ picked, P a
  greatest : ∀ other : List α, other.Sublist elements → (∀ a ∈ other, P a) → other.Sublist picked

theorem picks_filter {P : α → Prop} {p : α → Bool} (hp : ∀ a, p a = true ↔ P a)
    (elements : List α) : Picks P elements (elements.filter p) where
  sublist := List.filter_sublist
  holds a hmem := (hp a).mp (List.mem_filter.mp hmem).2
  greatest other hsublist hother := by
    have hall : other.filter p = other :=
      List.filter_eq_self.mpr fun a hmem => (hp a).mpr (hother a hmem)
    rw [← hall]
    exact hsublist.filter p

variable [DecidableEq κ]

/-- The elements of the kinds listed, kind by kind, are those whose kind is listed. -/
theorem flatMap_filter_perm_filter (kind : α → κ) {kinds : List κ} (hnodup : kinds.Nodup)
    (elements : List α) :
    (kinds.flatMap (fun k => elements.filter (fun a => kind a == k))).Perm
      (elements.filter (fun a => kind a ∈ kinds)) := by
  induction kinds with
  | nil => simp
  | cons k rest ih =>
      obtain ⟨hnew, hrest⟩ := List.nodup_cons.mp hnodup
      have hfirst : (elements.filter (fun a => kind a ∈ k :: rest)).filter (fun a => kind a == k) =
          elements.filter (fun a => kind a == k) := by
        rw [List.filter_filter]
        refine List.filter_congr fun a _ => ?_
        by_cases hkind : kind a = k
        · simp [hkind]
        · simp [hkind]
      have hothers :
          (elements.filter (fun a => kind a ∈ k :: rest)).filter (fun a => !(kind a == k)) =
            elements.filter (fun a => kind a ∈ rest) := by
        rw [List.filter_filter]
        refine List.filter_congr fun a _ => ?_
        by_cases hkind : kind a = k
        · simp [hkind, hnew]
        · simp [hkind]
      have hparted := List.filter_append_perm (fun a => kind a == k)
        (elements.filter (fun a => kind a ∈ k :: rest))
      rw [hfirst, hothers] at hparted
      rw [List.flatMap_cons]
      exact ((ih hrest).append_left _).trans hparted

/-- Where every kind is listed, all elements are among those of the kinds. -/
theorem flatMap_filter_perm (kind : α → κ) {kinds : List κ} (hnodup : kinds.Nodup)
    (hall : ∀ k, k ∈ kinds) (elements : List α) :
    (kinds.flatMap (fun k => elements.filter (fun a => kind a == k))).Perm elements := by
  have hkinds := flatMap_filter_perm_filter kind hnodup elements
  rwa [List.filter_eq_self.mpr fun a _ => decide_eq_true (hall (kind a))] at hkinds

/-- The elements of each kind, counted, come to all elements. -/
theorem sum_length_filter (kind : α → κ) {kinds : List κ} (hnodup : kinds.Nodup)
    (hall : ∀ k, k ∈ kinds) (elements : List α) :
    (kinds.map (fun k => (elements.filter (fun a => kind a == k)).length)).sum =
      elements.length := by
  rw [← List.length_flatMap]
  exact (flatMap_filter_perm kind hnodup hall elements).length_eq

end FlagGovernance
