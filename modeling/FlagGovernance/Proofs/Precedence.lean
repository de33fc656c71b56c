import FlagGovernance.Proofs.Refusal
/-
The first of all that is wrong.

What can be wrong stands at ranks, and a check tells what stands at the least of them.
The laws go from the parts of a check to the whole of it: to one check after another, to
the items of a list in turn, and to the steps of a computation that stops at an error.
-/

namespace FlagGovernance

/-- A place in an order of checks: the number of the part, then the number within that
part, and so on.  Of two ranks the one is less that is at the first number that differs. -/
abbrev Rank := List Nat

variable {α β ε : Type} {told rest : Option α} {P Q : Rank → α → Prop}

/-- What is told is the first of all that is wrong, and nothing is told only if nothing is
wrong. -/
structure TellsFirst (told : Option α) (Wrong : Rank → α → Prop) : Prop where
  silent : told = none → ∀ rank a, ¬ Wrong rank a
  first : ∀ a, told = some a → ∃ rank, Wrong rank a ∧
    ∀ other b, Wrong other b → rank < other ∨ rank = other ∧ a = b

/-- What is wrong in the parts of a check, from the part of a number on. -/
def Numbered (start : Nat) (P : Nat → Rank → α → Prop) : Rank → α → Prop :=
  fun rank a => ∃ i within, start ≤ i ∧ rank = i :: within ∧ P i within a

namespace TellsFirst

theorem congr (htold : TellsFirst told P) (hsame : ∀ rank a, Q rank a ↔ P rank a) :
    TellsFirst told Q where
  silent hnone rank a hwrong := htold.silent hnone rank a ((hsame rank a).1 hwrong)
  first a hsome := by
    obtain ⟨rank, hwrong, hleast⟩ := htold.first a hsome
    exact ⟨rank, (hsame rank a).2 hwrong,
      fun other b hother => hleast other b ((hsame other b).1 hother)⟩

theorem none (hright : ∀ rank a, ¬ P rank a) : TellsFirst Option.none P where
  silent _ := hright
  first _ hsome := nomatch hsome

/-- A check of one place, which stands at no rank within itself. -/
theorem of_iff (hwrong : ∀ rank a, P rank a ↔ rank = [] ∧ told = some a) : TellsFirst told P where
  silent hnone rank a ha := by
    have hsome := ((hwrong rank a).1 ha).2
    rw [hnone] at hsome
    contradiction
  first a hsome := by
    refine ⟨[], (hwrong [] a).2 ⟨rfl, hsome⟩, fun other b hother => ?_⟩
    obtain ⟨rfl, hsome'⟩ := (hwrong other b).1 hother
    exact .inr ⟨rfl, Option.some.inj (hsome.symm.trans hsome')⟩

/-- A check that tells one thing under a condition. -/
theorem ite {p : Prop} [Decidable p] {a : α} (hwrong : ∀ rank b, P rank b ↔ rank = [] ∧ p ∧ a = b) :
    TellsFirst (if p then some a else Option.none) P := by
  refine of_iff (fun rank b => ?_)
  rw [hwrong, Option.ite_none_right_eq_some, Option.some.injEq]

/-- What is told is what is wrong where nothing is at a rank before. -/
theorem eq_some_iff (htold : TellsFirst told P) (a : α) :
    told = some a ↔ ∃ rank, P rank a ∧ ∀ earlier b, earlier < rank → ¬ P earlier b := by
  constructor
  · intro hsome
    obtain ⟨rank, hwrong, hleast⟩ := htold.first a hsome
    refine ⟨rank, hwrong, fun earlier b hearlier hb => ?_⟩
    rcases hleast earlier b hb with hlater | ⟨hsame, _⟩
    · exact List.lt_asymm hearlier hlater
    · exact List.lt_irrefl rank (hsame ▸ hearlier)
  · rintro ⟨rank, hwrong, hleast⟩
    cases hfound : told with
    | none => exact absurd hwrong (htold.silent hfound rank a)
    | some b =>
        obtain ⟨first, hfirst, hfirstLeast⟩ := htold.first b hfound
        rcases hfirstLeast rank a hwrong with hless | ⟨_, hsame⟩
        · exact absurd hfirst (hleast first b hless)
        · rw [hsame]

/-- All that is wrong stands in some part. -/
theorem parts {Wrong : Rank → α → Prop} (hparts : ∀ a, ¬ Wrong [] a)
    (htold : TellsFirst told (Numbered 0 (fun i within => Wrong (i :: within)))) :
    TellsFirst told Wrong := by
  refine htold.congr (fun rank a => ?_)
  constructor
  · intro hwrong
    cases rank with
    | nil => exact absurd hwrong (hparts a)
    | cons i within => exact ⟨i, within, Nat.zero_le i, rfl, hwrong⟩
  · rintro ⟨i, within, _, rfl, hwrong⟩
    exact hwrong

variable {start : Nat} {P : Nat → Rank → α → Prop}

theorem nil (hright : ∀ i rank a, start ≤ i → ¬ P i rank a) :
    TellsFirst Option.none (Numbered start P) :=
  .none (fun _ a ⟨i, within, hfrom, _, hwrong⟩ => hright i within a hfrom hwrong)

/-- A check and, if it finds nothing, the checks after it. -/
theorem cons (htold : TellsFirst told (P start))
    (hrest : told = Option.none → TellsFirst rest (Numbered (start + 1) P)) :
    TellsFirst (told.or rest) (Numbered start P) := by
  cases hfound : told with
  | none =>
      rw [Option.none_or]
      refine (hrest hfound).congr (fun rank a => ?_)
      constructor
      · rintro ⟨i, within, hfrom, rfl, hwrong⟩
        rcases Nat.eq_or_lt_of_le hfrom with rfl | hafter
        · exact absurd hwrong (htold.silent hfound within a)
        · exact ⟨i, within, hafter, rfl, hwrong⟩
      · rintro ⟨i, within, hafter, rfl, hwrong⟩
        exact ⟨i, within, Nat.le_of_succ_le hafter, rfl, hwrong⟩
  | some a =>
      rw [Option.some_or]
      obtain ⟨rank, hwrong, hleast⟩ := htold.first a hfound
      refine ⟨nofun, fun a' hsome => ?_⟩
      obtain rfl := Option.some.inj hsome
      -- what is wrong in a later part stands after, whatever its rank within that part
      refine ⟨start :: rank, ⟨start, rank, Nat.le_refl start, rfl, hwrong⟩, ?_⟩
      rintro _ b ⟨i, within, hfrom, rfl, hb⟩
      rw [List.cons_lt_cons_iff]
      rcases Nat.eq_or_lt_of_le hfrom with rfl | hafter
      · rcases hleast within b hb with hless | ⟨rfl, hsame⟩
        · exact .inl (.inr ⟨rfl, hless⟩)
        · exact .inr ⟨rfl, hsame⟩
      · exact .inl (.inl hafter)

/-- The items from a place of a longer list on: the induction is on them, so that the part of
the first is the number of its place. -/
theorem findSome?_from {items : List β} {check : β → Option α}
    (hitems : ∀ i b, items[i]? = some b → TellsFirst (check b) (P (start + i)))
    (honly : ∀ i within a, P i within a → i < start + items.length) :
    TellsFirst (items.findSome? check) (Numbered start P) := by
  induction items generalizing start with
  | nil =>
      refine nil (fun i within a hfrom hwrong => ?_)
      exact Nat.not_lt_of_le hfrom (honly i within a hwrong)
  | cons b items ih =>
      have hrest : TellsFirst (items.findSome? check) (Numbered (start + 1) P) := by
        refine ih (fun i b' hb => ?_) (fun i within a hwrong => ?_)
        · rw [Nat.add_right_comm]
          exact hitems (i + 1) b' hb
        · have hbound := honly i within a hwrong
          rw [List.length_cons] at hbound
          omega
      have hcons := cons (hitems 0 b rfl) (fun _ => hrest)
      rw [List.findSome?_cons]
      cases hfound : check b with
      | none => rwa [hfound, Option.none_or] at hcons
      | some a => rwa [hfound, Option.some_or] at hcons

/-- The items of a list, each checked in its turn. -/
theorem findSome? {items : List β} {check : β → Option α}
    (hitems : ∀ i b, items[i]? = some b → TellsFirst (check b) (P i))
    (honly : ∀ i within a, P i within a → i < items.length) :
    TellsFirst (items.findSome? check) (Numbered 0 P) := by
  refine findSome?_from (fun i b hb => ?_) (fun i within a hwrong => ?_)
  · rw [Nat.zero_add]
    exact hitems i b hb
  · rw [Nat.zero_add]
    exact honly i within a hwrong

variable {x : Except ε α}

theorem map {P : Rank → ε → Prop} (hx : TellsFirst (fault? x) P) (f : α → β) :
    TellsFirst (fault? (x.map f)) P := by
  rwa [fault?_map]

/-- A computation that stops at the first error. -/
theorem bind {P : Nat → Rank → ε → Prop} {f : α → Except ε β} (hx : TellsFirst (fault? x) (P start))
    (hf : ∀ a, x = .ok a → TellsFirst (fault? (f a)) (Numbered (start + 1) P)) :
    TellsFirst (fault? (x >>= f)) (Numbered start P) := by
  cases x with
  | error e =>
      have htold : TellsFirst ((fault? (.error e : Except ε α)).or Option.none)
          (Numbered start P) := cons hx nofun
      exact htold
  | ok a => exact cons hx (fun _ => hf a rfl)

end TellsFirst

end FlagGovernance
