import Mathlib.Data.List.Lex
/-
Lists that part.

One list precedes another if they agree up to some place and the first has the lesser
item there.  What follows the place does not matter, so neither is a prefix of the other.
The lexicographic order is made of this and of the order of proper prefixes.
-/

namespace FlagGovernance

section Order

variable {α : Type} [LT α]

/-- Up to some place the lists agree, and there the first has the lesser item. -/
def Precedes (x y : List α) : Prop :=
  ∃ common a b r s, x = common ++ a :: r ∧ y = common ++ b :: s ∧ a < b

theorem precedes_cons {a b : α} (hlt : a < b) (r s : List α) : Precedes (a :: r) (b :: s) :=
  ⟨[], a, b, r, s, rfl, rfl, hlt⟩

namespace Precedes

variable {x y : List α}

theorem lt (h : Precedes x y) : x < y := by
  obtain ⟨common, a, b, r, s, rfl, rfl, hlt⟩ := h
  exact List.append_left_lt (List.cons_lt_cons_iff.mpr (Or.inl hlt))

theorem append (h : Precedes x y) (r s : List α) : Precedes (x ++ r) (y ++ s) := by
  obtain ⟨common, a, b, r', s', rfl, rfl, hlt⟩ := h
  exact ⟨common, a, b, r' ++ r, s' ++ s, by simp, by simp, hlt⟩

theorem prepend (h : Precedes x y) (common : List α) :
    Precedes (common ++ x) (common ++ y) := by
  obtain ⟨rest, a, b, r, s, rfl, rfl, hlt⟩ := h
  exact ⟨common ++ rest, a, b, r, s, by simp, by simp, hlt⟩

theorem cons (h : Precedes x y) (a : α) : Precedes (a :: x) (a :: y) :=
  h.prepend [a]

/-- Writing out items keeps lists in order if it keeps any two items in order. -/
theorem flatMap {β : Type} [LT β] {write : α → List β}
    (hwrite : ∀ a b, a < b → Precedes (write a) (write b)) (h : Precedes x y) :
    Precedes (x.flatMap write) (y.flatMap write) := by
  obtain ⟨common, a, b, r, s, rfl, rfl, hlt⟩ := h
  simp only [List.flatMap_append, List.flatMap_cons]
  exact ((hwrite a b hlt).append _ _).prepend _

end Precedes

/-- What comes first either precedes or is a proper prefix. -/
theorem lt_iff_precedes_or_extends {x y : List α} :
    x < y ↔ Precedes x y ∨ ∃ a r, y = x ++ a :: r := by
  constructor
  · intro hlt
    induction x generalizing y with
    | nil =>
        cases y with
        | nil => exact absurd hlt (List.not_lt_nil _)
        | cons b s => exact Or.inr ⟨b, s, rfl⟩
    | cons a r ih =>
        cases y with
        | nil => exact absurd hlt (List.not_lt_nil _)
        | cons b s =>
            rcases List.cons_lt_cons_iff.mp hlt with hitem | ⟨rfl, hrest⟩
            · exact Or.inl (precedes_cons hitem r s)
            · rcases ih hrest with hparts | ⟨c, t, rfl⟩
              · exact Or.inl (hparts.cons a)
              · exact Or.inr ⟨c, t, rfl⟩
  · rintro (hparts | ⟨a, r, rfl⟩)
    · exact hparts.lt
    · have hlonger : x ++ [] < x ++ a :: r := List.append_left_lt (List.nil_lt_cons a r)
      rwa [List.append_nil] at hlonger

/-- Writing out items keeps the order of lists if it writes something for each and keeps
any two in order. -/
theorem flatMap_lt_flatMap {β : Type} [LT β] {write : α → List β}
    (hwrite : ∀ a b, a < b → Precedes (write a) (write b)) (hsome : ∀ a, write a ≠ [])
    {x y : List α} (hlt : x < y) : x.flatMap write < y.flatMap write := by
  rcases lt_iff_precedes_or_extends.mp hlt with hparts | ⟨a, r, rfl⟩
  · exact (hparts.flatMap hwrite).lt
  · obtain ⟨first, rest, hfirst⟩ := List.exists_cons_of_ne_nil (hsome a)
    refine lt_iff_precedes_or_extends.mpr (Or.inr ⟨first, rest ++ r.flatMap write, ?_⟩)
    simp [hfirst]

end Order

/-- Lists precede by their first items, or where these are equal by the rest. -/
theorem precedes_cons_of_le {α : Type} [PartialOrder α] {a b : α} {r s : List α} (hle : a ≤ b)
    (hrest : a = b → Precedes r s) : Precedes (a :: r) (b :: s) := by
  rcases hle.lt_or_eq with hlt | rfl
  · exact precedes_cons hlt r s
  · exact (hrest rfl).cons a

/-- Nothing precedes what it is a prefix of. -/
theorem Precedes.not_extends {α : Type} [Preorder α] {x r : List α} : ¬ Precedes x (x ++ r) := by
  rintro ⟨common, a, b, r', s, rfl, hlong, hlt⟩
  rw [List.append_assoc, List.append_cancel_left_eq] at hlong
  exact hlt.ne (List.cons.inj hlong).1

theorem append_le_append_iff {α : Type} [LinearOrder α] {common x y : List α} :
    common ++ x ≤ common ++ y ↔ x ≤ y := by
  constructor
  · intro hle
    by_contra hnot
    exact absurd (List.append_left_lt (not_le.mp hnot)) (not_lt.mpr hle)
  · intro hle
    rcases hle.lt_or_eq with hlt | rfl
    · exact (List.append_left_lt hlt).le
    · exact le_refl _

section Asymm

variable {α : Type} [LT α] [Std.Asymm fun a b : α => a < b] {x y : List α}

theorem Precedes.asymm (h : Precedes x y) : ¬ Precedes y x :=
  fun hback => List.lt_asymm h.lt hback.lt

/-- Where lists stand in order, one that precedes another stands before it. -/
theorem Precedes.rel_of_pairwise {R : List α → List α → Prop} {lists : List (List α)}
    (hordered : lists.Pairwise Precedes) (hrel : lists.Pairwise R) (hx : x ∈ lists)
    (hy : y ∈ lists) (h : Precedes x y) : R x y := by
  induction lists with
  | nil => exact absurd hx List.not_mem_nil
  | cons first rest ih =>
      rw [List.pairwise_cons] at hordered hrel
      rcases List.mem_cons.mp hx with rfl | hxrest
      · rcases List.mem_cons.mp hy with rfl | hyrest
        · exact absurd h h.asymm
        · exact hrel.1 y hyrest
      · rcases List.mem_cons.mp hy with rfl | hyrest
        · exact absurd h (hordered.1 x hxrest).asymm
        · exact ih hordered.2 hrel.2 hxrest hyrest

end Asymm

end FlagGovernance
