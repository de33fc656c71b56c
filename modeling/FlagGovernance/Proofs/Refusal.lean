/-
Answers that come of several steps.

Each lemma says what a composed computation must have gone through to answer.
-/

namespace FlagGovernance

variable {α β ε ε' : Type}

theorem bind_eq_ok_iff {x : Except ε α} {f : α → Except ε β} {b : β} :
    x >>= f = .ok b ↔ ∃ a, x = .ok a ∧ f a = .ok b := by
  cases x with
  | error e => exact iff_of_false nofun (fun ⟨_, hx, _⟩ => nomatch hx)
  | ok a => exact ⟨fun h => ⟨a, rfl, h⟩, fun ⟨_, hx, h⟩ => Except.ok.inj hx ▸ h⟩

theorem bind_eq_error_iff {x : Except ε α} {f : α → Except ε β} {e : ε} :
    x >>= f = .error e ↔ x = .error e ∨ ∃ a, x = .ok a ∧ f a = .error e := by
  cases x with
  | error e' => exact ⟨fun h => .inl (congrArg Except.error (Except.error.inj h)),
      fun h => h.elim (fun h => congrArg Except.error (Except.error.inj h))
        (fun ⟨_, hx, _⟩ => nomatch hx)⟩
  | ok a => exact ⟨fun h => .inr ⟨a, rfl, h⟩,
      fun h => h.elim nofun (fun ⟨_, hx, h⟩ => Except.ok.inj hx ▸ h)⟩

theorem bind_of_ok {x : Except ε α} {a : α} (hx : x = .ok a) (f : α → Except ε β) :
    x >>= f = f a := by
  rw [hx]
  rfl

theorem map_eq_ok_iff {x : Except ε α} {f : α → β} {b : β} :
    x.map f = .ok b ↔ ∃ a, x = .ok a ∧ f a = b := by
  cases x with
  | error e => exact iff_of_false nofun (fun ⟨_, hx, _⟩ => nomatch hx)
  | ok a => exact ⟨fun h => ⟨a, rfl, Except.ok.inj h⟩,
      fun ⟨_, hx, h⟩ => h ▸ congrArg (Except.map f) hx⟩

theorem exists_map_ok_iff {x : Except ε α} {f : α → β} :
    (∃ b, x.map f = .ok b) ↔ ∃ a, x = .ok a := by
  cases x with
  | error => exact iff_of_false nofun nofun
  | ok a => exact iff_of_true ⟨f a, rfl⟩ ⟨a, rfl⟩

theorem mapError_eq_ok_iff {x : Except ε α} {f : ε → ε'} {a : α} :
    x.mapError f = .ok a ↔ x = .ok a := by
  cases x with
  | error e => exact iff_of_false nofun nofun
  | ok a' => exact ⟨fun h => congrArg Except.ok (Except.ok.inj h),
      fun h => congrArg Except.ok (Except.ok.inj h)⟩

theorem mapError_eq_error_iff {x : Except ε α} {f : ε → ε'} {e' : ε'} :
    x.mapError f = .error e' ↔ ∃ e, x = .error e ∧ f e = e' := by
  cases x with
  | error e => exact ⟨fun h => ⟨e, rfl, Except.error.inj h⟩,
      fun ⟨_, hx, h⟩ => h ▸ congrArg (Except.mapError f) hx⟩
  | ok a => exact iff_of_false nofun (fun ⟨_, hx, _⟩ => nomatch hx)

/-- A check in front of the rest of a computation. -/
theorem ite_throw_eq_ok_iff {p : Prop} [Decidable p] {e : ε} {rest : Unit → Except ε β} {b : β} :
    (if p then throw e >>= rest else rest ()) = .ok b ↔ ¬ p ∧ rest () = .ok b := by
  by_cases hp : p
  · rw [if_pos hp]
    exact iff_of_false nofun (fun h => h.1 hp)
  · rw [if_neg hp, and_iff_right hp]

/-- The error, if there is one. -/
def fault? : Except ε α → Option ε
  | .error e => some e
  | .ok _ => none

theorem eq_error_of_fault? {x : Except ε α} {e : ε} (hfault : fault? x = some e) :
    x = .error e := by
  cases x with
  | error => exact congrArg Except.error (Option.some.inj hfault)
  | ok => contradiction

theorem exists_ok_of_fault? {x : Except ε α} (hnone : fault? x = none) : ∃ a, x = .ok a := by
  cases x with
  | error => contradiction
  | ok a => exact ⟨a, rfl⟩

theorem fault?_eq_some_iff {x : Except ε α} {e : ε} : fault? x = some e ↔ x = .error e := by
  refine ⟨eq_error_of_fault?, ?_⟩
  rintro rfl
  rfl

theorem fault?_map (x : Except ε α) (f : α → β) : fault? (x.map f) = fault? x := by
  cases x with
  | error => rfl
  | ok => rfl

/-- The computation answers just when the condition holds, and then with the value. -/
def AnswersIf (x : Except ε α) (p : Prop) (a : α) : Prop :=
  ∀ a', x = .ok a' ↔ p ∧ a = a'

namespace AnswersIf

variable {x : Except ε α} {p q : Prop} {a : α}

theorem of_iff (h : AnswersIf x p a) (hpq : q ↔ p) : AnswersIf x q a := by
  intro a'
  rw [h a', hpq]

theorem ok : AnswersIf (.ok a : Except ε α) True a := by
  intro a'
  rw [true_and]
  exact Except.ok.injEq a a' ▸ Iff.rfl

theorem error {e : ε} : AnswersIf (.error e : Except ε α) False a := by
  intro a'
  rw [false_and]
  exact iff_of_false nofun id

theorem map {f : α → β} (h : AnswersIf x p a) : AnswersIf (x.map f) p (f a) := by
  intro b
  rw [map_eq_ok_iff]
  constructor
  · rintro ⟨_, hx, rfl⟩
    obtain ⟨hp, rfl⟩ := (h _).mp hx
    exact ⟨hp, rfl⟩
  · rintro ⟨hp, rfl⟩
    exact ⟨a, (h a).mpr ⟨hp, rfl⟩, rfl⟩

theorem bind {f : α → Except ε β} {b : β} (h : AnswersIf x p a) (hf : AnswersIf (f a) q b) :
    AnswersIf (x >>= f) (p ∧ q) b := by
  intro b'
  rw [bind_eq_ok_iff]
  constructor
  · rintro ⟨_, hx, hb⟩
    obtain ⟨hp, rfl⟩ := (h _).mp hx
    obtain ⟨hq, rfl⟩ := (hf b').mp hb
    exact ⟨⟨hp, hq⟩, rfl⟩
  · rintro ⟨⟨hp, hq⟩, rfl⟩
    exact ⟨a, (h a).mpr ⟨hp, rfl⟩, (hf b).mpr ⟨hq, rfl⟩⟩

end AnswersIf

end FlagGovernance
