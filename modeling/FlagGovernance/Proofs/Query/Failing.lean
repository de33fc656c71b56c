import FlagGovernance.Proofs.Query.Matching
/-
Where patterns fail.

The furthest failure moves only to a place at which a rule was tried.  So if every rule in
a pattern is tried at a good place, the furthest failure stays at a good place, whatever
matched and whatever was given up.  A pattern that matches has moved the cursor over the
text that it took.
-/

namespace FlagGovernance.Query

variable {α β : Type}

/-- The second cursor is the first one moved on over some text. -/
def Follows (c c' : Cursor) : Prop :=
  ∃ taken, c.rest = taken ++ c'.rest ∧ c'.offset = c.offset + taken.length

theorem Follows.refl (c : Cursor) : Follows c c := ⟨[], rfl, rfl⟩

theorem Follows.trans {c c₁ c' : Cursor} (h : Follows c c₁) (h' : Follows c₁ c') :
    Follows c c' := by
  obtain ⟨taken, hrest, hoffset⟩ := h
  obtain ⟨more, hrest', hoffset'⟩ := h'
  refine ⟨taken ++ more, by rw [hrest, hrest', List.append_assoc], ?_⟩
  rw [hoffset', hoffset, List.length_append, Nat.add_assoc]

theorem follows_advance {c : Cursor} {rest : List Char} (h : rest <:+ c.rest) :
    Follows c (c.advance rest) := by
  obtain ⟨taken, hrest⟩ := h
  refine ⟨taken, hrest.symm, ?_⟩
  simp only [Cursor.advance, ← hrest, List.length_append]
  omega

theorem follows_skip (c : Cursor) : Follows c (c.skip isSpace) :=
  follows_advance (List.dropWhile_suffix isSpace)

/-- Where the pattern matches, it moves the cursor on. -/
def Advances (p : Pattern α) : Prop := ∀ c a c', Matches p c a c' → Follows c c'

namespace Advances

variable {p : Pattern α} {q : Pattern β}

theorem cut {take : List Char → Option (α × List Char)}
    (h : ∀ text a rest, take text = some (a, rest) → rest <:+ text) :
    Advances (Pattern.cut take) := by
  rintro c a c' ⟨t, t', ht⟩
  simp only [Pattern.cut] at ht
  split at ht
  · next htake =>
    cases ht
    exact follows_advance (h _ _ _ htake)
  · cases ht

theorem named (hp : Advances p) (rule : Rule) : Advances (Pattern.named rule p) :=
  fun c a c' h => hp c a c' h.named

theorem map (hp : Advances p) (f : α → β) : Advances (Pattern.map f p) := by
  intro c b c' h
  obtain ⟨a, ha, -⟩ := h.map
  exact hp c a c' ha

theorem orElse {p' : Pattern α} (hp : Advances p) (hp' : Advances p') :
    Advances (Pattern.orElse p p') := by
  intro c a c' h
  rcases h.orElse with h | h
  · exact hp c a c' h
  · exact hp' c a c' h

theorem both (hp : Advances p) (hq : Advances q) : Advances (Pattern.both p q) := by
  intro c ab c' h
  obtain ⟨c₁, ha, hb⟩ := h.both
  exact (hp c ab.1 c₁ ha).trans (hq c₁ ab.2 c' hb)

theorem after (hp : Advances p) : Advances (Pattern.after isSpace p) :=
  fun c a c' h => (follows_skip c).trans (hp _ a c' h.after)

theorem spaced (hp : Advances p) (hq : Advances q) : Advances (Grammar.spaced p q) :=
  hp.both hq.after

theorem repeated (hp : Advances p) : Advances (Pattern.repeated p) := by
  intro c as c' h
  have hrow : Row p c as c' := Matches.many h
  clear h
  induction hrow with
  | none => exact Follows.refl _
  | more ha _ ih => exact (hp _ _ _ ha).trans ih

theorem separated (hp : Advances p) (hq : Advances q) : Advances (Grammar.separated q p) :=
  (hp.both ((hq.spaced hp).map Prod.snd).after.repeated).map _

end Advances

/-! The furthest failure. -/

theorem furthest_fail (t : Trace) (rule : Rule) (offset before : Nat) :
    (t.fail rule offset before).furthest = t.furthest ∨
      (t.fail rule offset before).furthest = offset := by
  simp only [Trace.fail]
  split
  · exact .inl rfl
  · split
    · exact .inr rfl
    · split
      · exact .inr rfl
      · exact .inl rfl

/-- If the furthest failure was at a good place before, it is at a good place after the
pattern was tried at the cursor. -/
def FailsIn (good : Nat → Prop) (p : Pattern α) (c : Cursor) : Prop :=
  ∀ t, good t.furthest → good (p c t).2.furthest

namespace FailsIn

variable {good : Nat → Prop} {p : Pattern α} {q : Pattern β} {c : Cursor}

theorem cut (take : List Char → Option (α × List Char)) : FailsIn good (Pattern.cut take) c := by
  intro t ht
  simp only [Pattern.cut]
  split <;> exact ht

theorem named {rule : Rule} (hp : FailsIn good p c) (hc : good c.offset) :
    FailsIn good (Pattern.named rule p) c := by
  intro t ht
  have hinner := hp t ht
  simp only [Pattern.named]
  split
  · next hmatch => simpa [hmatch] using hinner
  · next hmiss =>
    rw [hmiss] at hinner
    rcases furthest_fail _ rule c.offset (t.countAt c.offset) with hsame | hhere
    · rw [hsame]
      exact hinner
    · rw [hhere]
      exact hc

theorem word (rule : Rule) (lexeme : Lexeme α) (hc : good c.offset) :
    FailsIn good (Grammar.word rule lexeme) c :=
  (cut lexeme).named hc

theorem map {f : α → β} (hp : FailsIn good p c) : FailsIn good (Pattern.map f p) c := by
  intro t ht
  have hinner := hp t ht
  simp only [Pattern.map]
  split <;> next hmatch => simpa [hmatch] using hinner

theorem orElse {p' : Pattern α} (hp : FailsIn good p c) (hp' : FailsIn good p' c) :
    FailsIn good (Pattern.orElse p p') c := by
  intro t ht
  have hinner := hp t ht
  simp only [Pattern.orElse]
  split
  · next hmatch => simpa [hmatch] using hinner
  · next hmiss =>
    rw [hmiss] at hinner
    exact hp' _ hinner

theorem both (hp : FailsIn good p c) (hq : ∀ {a c'}, Matches p c a c' → FailsIn good q c') :
    FailsIn good (Pattern.both p q) c := by
  intro t ht
  have hinner := hp t ht
  simp only [Pattern.both]
  split
  · next hmiss => simpa [hmiss] using hinner
  · next a c' t' hmatch =>
    rw [hmatch] at hinner
    have hrest := hq ⟨t, t', hmatch⟩ t' hinner
    split <;> next hsecond => simpa [hsecond] using hrest

theorem after {blank : Char → Bool} (hp : FailsIn good p (c.skip blank)) :
    FailsIn good (Pattern.after blank p) c :=
  hp

theorem spaced (hp : FailsIn good p c)
    (hq : ∀ {a c'}, Matches p c a c' → FailsIn good q (c'.skip isSpace)) :
    FailsIn good (Grammar.spaced p q) c :=
  hp.both hq

section Repeated

variable (After : Cursor → Prop) (hp : ∀ {c}, After c → FailsIn good p c)
  (hafter : ∀ {c a c'}, After c → Matches p c a c' → After c')

include hp hafter

theorem many (bound : Nat) (hc : After c) : FailsIn good (Pattern.many p bound) c := by
  induction bound generalizing c with
  | zero => exact fun _ ht => ht
  | succ bound ih =>
      intro t ht
      have hinner := hp hc t ht
      simp only [Pattern.many]
      split
      · next hmiss => simpa [hmiss] using hinner
      · next a c' t' hmatch =>
        rw [hmatch] at hinner
        exact (ih (hafter hc ⟨t, t', hmatch⟩)).map t' hinner

end Repeated

/-- Items and separators in turn: one condition holds before each item and another after
it, and all is tried past spaces. -/
theorem separated {separator : Pattern β} {item : Pattern α} (Before After : Cursor → Prop)
    (hitem : ∀ {c}, Before c → FailsIn good item (c.skip isSpace))
    (hafter : ∀ {c a c'}, Before c → Matches item (c.skip isSpace) a c' → After c')
    (hseparator : ∀ {c}, After c → FailsIn good separator (c.skip isSpace))
    (hbefore : ∀ {c b c'}, After c → Matches separator (c.skip isSpace) b c' → Before c')
    (hc : Before c) : FailsIn good (Grammar.separated separator item) (c.skip isSpace) := by
  refine map (both (hitem hc) (fun h => many After ?_ ?_ _ (hafter hc h)))
  · intro c hc
    exact map ((hseparator hc).spaced (fun h => hitem (hbefore hc h)))
  · intro c a c' hc h
    obtain ⟨ba, hspaced, -⟩ := h.after.map
    obtain ⟨c₁, hb, ha⟩ := hspaced.spaced
    exact hafter (hbefore hc hb) ha

end FailsIn

end FlagGovernance.Query
