import FlagGovernance.Query.Grammar
import FlagGovernance.Proofs.Query.Splitting
/-
What patterns match.

A pattern is seen from two sides: what follows from a match, and where there is
sure to be one. Neither depends on what was attempted before.
-/

namespace FlagGovernance.Query

@[simp] theorem Cursor.skip_rest (c : Cursor) : (c.skip isSpace).rest = Query.skip c.rest :=
  rfl

variable {α β : Type}

/-- After some attempts the pattern matches. -/
def Matches (p : Pattern α) (c : Cursor) (a : α) (c' : Cursor) : Prop :=
  ∃ t t', p c t = (some (a, c'), t')

/-- After any attempts the pattern matches, and the rest falls into the terminals. -/
def Reaches (p : Pattern α) (c : Cursor) (us : List Terminal) : Prop :=
  ∃ a c', (∀ t, ∃ t', p c t = (some (a, c'), t')) ∧ Splits c'.rest us

namespace Matches

variable {p : Pattern α} {q : Pattern β} {c c' : Cursor}

theorem cut {take : List Char → Option (α × List Char)} {a : α}
    (h : Matches (Pattern.cut take) c a c') :
    take c.rest = some (a, c'.rest) := by
  obtain ⟨t, t', ht⟩ := h
  rw [Pattern.cut] at ht
  split at ht
  next htake =>
    cases ht
    exact htake
  next => cases ht

theorem named {rule : Rule} {a : α} (h : Matches (Pattern.named rule p) c a c') :
    Matches p c a c' := by
  obtain ⟨t, t', ht⟩ := h
  rw [Pattern.named] at ht
  split at ht
  next hp =>
    cases ht
    exact ⟨t, _, hp⟩
  next => cases ht

theorem map {f : α → β} {b : β} (h : Matches (Pattern.map f p) c b c') :
    ∃ a, Matches p c a c' ∧ f a = b := by
  obtain ⟨t, t', ht⟩ := h
  rw [Pattern.map] at ht
  split at ht
  next => cases ht
  next hp =>
    cases ht
    exact ⟨_, ⟨t, _, hp⟩, rfl⟩

theorem orElse {p' : Pattern α} {a : α} (h : Matches (Pattern.orElse p p') c a c') :
    Matches p c a c' ∨ Matches p' c a c' := by
  obtain ⟨t, t', ht⟩ := h
  rw [Pattern.orElse] at ht
  split at ht
  next hp =>
    cases ht
    exact .inl ⟨t, _, hp⟩
  next => exact .inr ⟨_, t', ht⟩

theorem both {ab : α × β} (h : Matches (Pattern.both p q) c ab c') :
    ∃ c₁, Matches p c ab.1 c₁ ∧ Matches q c₁ ab.2 c' := by
  obtain ⟨t, t', ht⟩ := h
  rw [Pattern.both] at ht
  split at ht
  next => cases ht
  next hp =>
    split at ht
    next => cases ht
    next hq =>
      cases ht
      exact ⟨_, ⟨t, _, hp⟩, ⟨_, _, hq⟩⟩

theorem after {blank : Char → Bool} {a : α} (h : Matches (Pattern.after blank p) c a c') :
    Matches p (c.skip blank) a c' :=
  h

theorem spaced {ab : α × β} (h : Matches (Grammar.spaced p q) c ab c') :
    ∃ c₁, Matches p c ab.1 c₁ ∧ Matches q (c₁.skip isSpace) ab.2 c' :=
  both h

theorem word {rule : Rule} {lexeme : Lexeme α} {a : α}
    (h : Matches (Grammar.word rule lexeme) c a c') :
    lexeme c.rest = some (a, c'.rest) :=
  h.named.cut

end Matches

/-- Matches of a pattern in a row. -/
inductive Row (p : Pattern α) : Cursor → List α → Cursor → Prop
  | none {c : Cursor} : Row p c [] c
  | more {c c₁ c' : Cursor} {a : α} {as : List α} (ha : Matches p c a c₁)
      (has : Row p c₁ as c') : Row p c (a :: as) c'

/-- Items with matches of a separator between them. -/
inductive Separated (separator : Pattern β) (item : Pattern α) : Cursor → List α → Cursor → Prop
  | last {c c' : Cursor} {a : α} (ha : Matches item c a c') : Separated separator item c [a] c'
  | more {c c₁ c₂ c' : Cursor} {a : α} {b : β} {as : List α} (ha : Matches item c a c₁)
      (hb : Matches separator (c₁.skip isSpace) b c₂)
      (has : Separated separator item (c₂.skip isSpace) as c') :
      Separated separator item c (a :: as) c'

namespace Matches

variable {p : Pattern α} {c c' : Cursor}

theorem many {bound : Nat} {as : List α} (h : Matches (Pattern.many p bound) c as c') :
    Row p c as c' := by
  induction bound generalizing c as with
  | zero =>
    obtain ⟨t, t', ht⟩ := h
    cases ht
    exact .none
  | succ bound ih =>
    obtain ⟨t, t', ht⟩ := h
    simp only [Pattern.many] at ht
    split at ht
    next =>
      cases ht
      exact .none
    next hp =>
      obtain ⟨as', has, rfl⟩ := map ⟨_, _, ht⟩
      exact .more ⟨t, _, hp⟩ (ih has)

theorem separated {separator : Pattern β} {item : Pattern α} {as : List α}
    (h : Matches (Grammar.separated separator item) c as c') :
    Separated separator item c as c' := by
  obtain ⟨⟨a, as⟩, hboth, rfl⟩ := map h
  obtain ⟨c₁, ha, has⟩ := both hboth
  have hrow : Row _ c₁ as c' := many has
  clear h hboth has
  induction hrow generalizing c a with
  | none => exact .last ha
  | @more c₁ c₃ c' a' as hnext _ ih =>
    obtain ⟨⟨b, a'⟩, hspaced, rfl⟩ := hnext.after.map
    obtain ⟨c₂, hb, ha'⟩ := spaced hspaced
    exact .more ha hb (ih _ ha')

end Matches

/-- Whatever was attempted, the pattern does not match. -/
def Misses (p : Pattern α) (c : Cursor) : Prop := ∀ a c', ¬ Matches p c a c'

theorem Misses.fails {p : Pattern α} {c : Cursor} (h : Misses p c) (t : Trace) :
    ∃ t', p c t = (none, t') := by
  cases ht : p c t with
  | mk found t' =>
    cases found with
    | none => exact ⟨t', rfl⟩
    | some found => exact absurd ⟨t, t', ht⟩ (h found.1 found.2)

namespace Reaches

variable {p : Pattern α} {q : Pattern β} {c : Cursor} {us vs : List Terminal}

theorem cut {take : List Char → Option (α × List Char)} {a : α} {rest : List Char}
    (h : take c.rest = some (a, rest)) (hrest : Splits rest us) : Reaches (Pattern.cut take) c us :=
  ⟨a, c.advance rest, fun t => ⟨t, by rw [Pattern.cut, h]⟩, hrest⟩

theorem named {rule : Rule} (h : Reaches p c us) : Reaches (Pattern.named rule p) c us := by
  obtain ⟨a, c', hp, hrest⟩ := h
  refine ⟨a, c', fun t => ?_, hrest⟩
  obtain ⟨t', ht⟩ := hp t
  exact ⟨t', by rw [Pattern.named, ht]⟩

theorem map {f : α → β} (h : Reaches p c us) : Reaches (Pattern.map f p) c us := by
  obtain ⟨a, c', hp, hrest⟩ := h
  refine ⟨f a, c', fun t => ?_, hrest⟩
  obtain ⟨t', ht⟩ := hp t
  exact ⟨t', by rw [Pattern.map, ht]⟩

theorem orElse_left {p' : Pattern α} (h : Reaches p c us) : Reaches (Pattern.orElse p p') c us := by
  obtain ⟨a, c', hp, hrest⟩ := h
  refine ⟨a, c', fun t => ?_, hrest⟩
  obtain ⟨t', ht⟩ := hp t
  exact ⟨t', by rw [Pattern.orElse, ht]⟩

theorem orElse_right {p' : Pattern α} (hmisses : Misses p c) (h : Reaches p' c us) :
    Reaches (Pattern.orElse p p') c us := by
  obtain ⟨a, c', hp', hrest⟩ := h
  refine ⟨a, c', fun t => ?_, hrest⟩
  obtain ⟨t₁, ht₁⟩ := hmisses.fails t
  obtain ⟨t', ht'⟩ := hp' t₁
  exact ⟨t', by rw [Pattern.orElse, ht₁]; exact ht'⟩

theorem both (hp : Reaches p c vs) (hq : ∀ {c₁ : Cursor}, Splits c₁.rest vs → Reaches q c₁ us) :
    Reaches (Pattern.both p q) c us := by
  obtain ⟨a, c₁, hp, hvs⟩ := hp
  obtain ⟨b, c', hq, hus⟩ := hq hvs
  refine ⟨(a, b), c', fun t => ?_, hus⟩
  obtain ⟨t₁, ht₁⟩ := hp t
  obtain ⟨t', ht'⟩ := hq t₁
  exact ⟨t', by simp only [Pattern.both, ht₁, ht']⟩

theorem after {blank : Char → Bool} (h : Reaches p (c.skip blank) us) :
    Reaches (Pattern.after blank p) c us :=
  h

theorem spaced (hp : Reaches p c vs)
    (hq : ∀ {c₁ : Cursor}, Splits c₁.rest vs → Reaches q (c₁.skip isSpace) us) :
    Reaches (Grammar.spaced p q) c us :=
  both hp hq

theorem word {rule : Rule} {lexeme : Lexeme α} {a : α} {rest : List Char}
    (h : lexeme c.rest = some (a, rest)) (hrest : Splits rest us) :
    Reaches (Grammar.word rule lexeme) c us :=
  named (cut h hrest)

theorem many_stop {bound : Nat} (hstop : Misses p c) (h : Splits c.rest us) :
    Reaches (Pattern.many p bound) c us := by
  refine ⟨[], c, fun t => ?_, h⟩
  cases bound with
  | zero => exact ⟨t, rfl⟩
  | succ bound =>
    obtain ⟨t', ht⟩ := hstop.fails t
    exact ⟨t', by simp only [Pattern.many, ht]⟩

theorem many_next {bound : Nat} (hp : Reaches p c vs)
    (hrest : ∀ {c₁ : Cursor}, Splits c₁.rest vs → Reaches (Pattern.many p bound) c₁ us) :
    Reaches (Pattern.many p (bound + 1)) c us := by
  obtain ⟨a, c₁, hp, hvs⟩ := hp
  obtain ⟨as, c', has, hus⟩ := map (f := (a :: ·)) (hrest hvs)
  refine ⟨as, c', fun t => ?_, hus⟩
  obtain ⟨t₁, ht₁⟩ := hp t
  obtain ⟨t', ht'⟩ := has t₁
  exact ⟨t', by simp only [Pattern.many, ht₁, ht']⟩

end Reaches

/-- Phrases with a terminal between any two. -/
inductive Chain (item : List Terminal → Prop) (separator : Terminal → Prop) : List Terminal → Prop
  | last {ts : List Terminal} (hts : item ts) : Chain item separator ts
  | more {ts us : List Terminal} {t : Terminal} (hts : item ts) (ht : separator t)
      (hus : Chain item separator us) : Chain item separator (ts ++ t :: us)

theorem Misses.map {p : Pattern α} {f : α → β} {c : Cursor} (h : Misses p c) :
    Misses (Pattern.map f p) c := by
  intro b c' hmatches
  obtain ⟨a, ha, -⟩ := hmatches.map
  exact h a c' ha

theorem Misses.further {separator : Pattern β} {item : Pattern α} {c : Cursor}
    (h : Misses separator (c.skip isSpace)) :
    Misses (Pattern.after isSpace (Pattern.map Prod.snd (Grammar.spaced separator item))) c := by
  intro a c' hmatches
  obtain ⟨_, hspaced, -⟩ := hmatches.after.map
  obtain ⟨_, hseparator, -⟩ := hspaced.spaced
  exact h _ _ hseparator

section Separated

variable {separator : Pattern β} {item : Pattern α} {Item : List Terminal → Prop}
  {Separator : Terminal → Prop} (Follow : List Terminal → Prop) {us : List Terminal}
  (hitem : ∀ {ts vs : List Terminal} {c : Cursor}, Item ts → Follow vs → Splits c.rest (ts ++ vs) →
    Reaches item (c.skip isSpace) vs)
  (hseparator : ∀ {t : Terminal} {vs : List Terminal} {c : Cursor}, Separator t →
    Splits c.rest (t :: vs) → Reaches separator (c.skip isSpace) vs)
  (hfollow : ∀ {t : Terminal} {vs : List Terminal}, Separator t → Follow (t :: vs)) (hus : Follow us)
  (hstop : ∀ {c : Cursor}, Splits c.rest us → Misses separator (c.skip isSpace))

include hitem hseparator hfollow hus hstop

theorem Reaches.further {ts : List Terminal} {t : Terminal} {bound : Nat} {c : Cursor}
    (hts : Chain Item Separator ts) (ht : Separator t) (hbound : ts.length < bound)
    (h : Splits c.rest (t :: (ts ++ us))) :
    Reaches (Pattern.many
      (Pattern.after isSpace (Pattern.map Prod.snd (Grammar.spaced separator item))) bound) c us := by
  have next {c : Cursor} {ts vs : List Terminal} {t : Terminal} (ht : Separator t) (hts : Item ts)
      (hvs : Follow vs) (h : Splits c.rest (t :: (ts ++ vs))) :
      Reaches (Pattern.map Prod.snd (Grammar.spaced separator item)) (c.skip isSpace) vs :=
    .map (.spaced (hseparator ht h) (hitem hts hvs))
  induction hts generalizing t bound c with
  | last hts =>
    cases bound with
    | zero => exact absurd hbound (Nat.not_lt_zero _)
    | succ bound =>
      exact .many_next (next ht hts hus h) (fun h => .many_stop (hstop h).further h)
  | @more ts us' t' hts ht' hus' ih =>
    cases bound with
    | zero => exact absurd hbound (Nat.not_lt_zero _)
    | succ bound =>
      rw [List.append_assoc, List.cons_append] at h
      refine .many_next (next ht hts (hfollow ht') h) (fun h => ih ht' ?_ h)
      rw [List.length_append, List.length_cons] at hbound
      omega

theorem Reaches.separated {ts : List Terminal} {c : Cursor} (hts : Chain Item Separator ts)
    (h : Splits c.rest (ts ++ us)) :
    Reaches (Grammar.separated separator item) (c.skip isSpace) us := by
  cases hts with
  | last hts =>
    exact .map (.both (hitem hts hus h) (fun h => .many_stop (hstop h).further h))
  | more hts ht hrest =>
    rw [List.append_assoc, List.cons_append] at h
    refine .map (.both (hitem hts (hfollow ht) h) (fun h => ?_))
    refine Reaches.further Follow hitem hseparator hfollow hus hstop hrest ht ?_ h
    have hlength := h.length_le
    rw [List.length_cons, List.length_append] at hlength
    omega

end Separated

end FlagGovernance.Query
