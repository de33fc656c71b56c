import FlagGovernance.Proofs.Query.Terminals
/-
How a text falls into terminals.

From the left, past spaces, and always by the longest terminal that stands there.
A text falls into terminals in one way at most.
-/

namespace FlagGovernance.Query

/-- A terminal stands at the front of a text, and no longer one does. -/
structure Leads (t : Terminal) (text rest : List Char) : Prop where
  split : text = t.text ++ rest
  longest : ∀ t' rest', text = Terminal.text t' ++ rest' → t'.text.length ≤ t.text.length

/-- A text without the spaces at its front. -/
def skip (text : List Char) : List Char := text.dropWhile isSpace

/-- Terminals are taken off a text from the left, each past spaces, and but for
spaces a rest is left. -/
def Cuts : List Char → List Terminal → List Char → Prop
  | text, [], rest => skip text = skip rest
  | text, t :: ts, rest => ∃ next, Leads t (skip text) next ∧ Cuts next ts rest

/-- The whole text falls into the terminals. -/
def Splits (text : List Char) (ts : List Terminal) : Prop := Cuts text ts []

theorem Leads.unique {t t' : Terminal} {text rest rest' : List Char} (h : Leads t text rest)
    (h' : Leads t' text rest') : t = t' ∧ rest = rest' := by
  have hlength : t.text.length = t'.text.length :=
    Nat.le_antisymm (h'.longest t rest h.split) (h.longest t' rest' h'.split)
  obtain ⟨htext, hrest⟩ := List.append_inj (h.split.symm.trans h'.split) hlength
  exact ⟨Terminal.eq_of_text_eq htext, hrest⟩

theorem dropWhile_of_head {p : Char → Bool} {text : List Char}
    (h : ∀ c ∈ text.head?, p c = false) : text.dropWhile p = text := by
  cases text with
  | nil => rfl
  | cons c rest => exact List.dropWhile_cons_of_neg (by simp [h c rfl])

@[simp] theorem skip_skip (text : List Char) : skip (skip text) = skip text := by
  apply dropWhile_of_head
  intro c hc
  have := List.head?_dropWhile_not isSpace text
  rw [← skip, hc] at this
  simpa using this

theorem Leads.skip_eq {t : Terminal} {text rest : List Char} (h : Leads t text rest) :
    skip text = text := by
  obtain ⟨c, more, htext, hc⟩ := t.exists_cons_not_space
  rw [h.split, htext]
  exact List.dropWhile_cons_of_neg (by simp [hc])

theorem Leads.length_lt {t : Terminal} {text rest : List Char} (h : Leads t text rest) :
    rest.length < text.length := by
  obtain ⟨c, more, htext, -⟩ := t.exists_cons_not_space
  rw [h.split, htext, List.cons_append, List.length_cons, List.length_append]
  omega

theorem length_skip_le (text : List Char) : (skip text).length ≤ text.length :=
  (List.dropWhile_sublist isSpace).length_le

theorem cuts_skip_iff {text rest : List Char} {ts : List Terminal} :
    Cuts (skip text) ts rest ↔ Cuts text ts rest := by
  cases ts <;> simp [Cuts]

theorem Leads.cuts {t : Terminal} {text next rest : List Char} {ts : List Terminal}
    (h : Leads t text next) (hts : Cuts next ts rest) : Cuts text (t :: ts) rest :=
  ⟨next, by rw [h.skip_eq]; exact h, hts⟩

theorem Leads.cuts_skip {t : Terminal} {text next rest : List Char} {ts : List Terminal}
    (h : Leads t (skip text) next) (hts : Cuts next ts rest) : Cuts text (t :: ts) rest :=
  ⟨next, h, hts⟩

theorem Cuts.append {text middle rest : List Char} {ts us : List Terminal} (h : Cuts text ts middle)
    (h' : Cuts middle us rest) : Cuts text (ts ++ us) rest := by
  induction ts generalizing text with
  | nil => exact cuts_skip_iff.mp (h ▸ cuts_skip_iff.mpr h')
  | cons t ts ih =>
    obtain ⟨next, ht, hts⟩ := h
    exact ⟨next, ht, ih hts⟩

theorem Cuts.length_le {text rest : List Char} {ts : List Terminal} (h : Cuts text ts rest) :
    ts.length + (skip rest).length ≤ (skip text).length := by
  induction ts generalizing text with
  | nil => simp [show skip text = skip rest from h]
  | cons t ts ih =>
    obtain ⟨next, ht, hts⟩ := h
    have hnext := ih hts
    have hlt := ht.length_lt
    have hle := length_skip_le next
    rw [List.length_cons]
    omega

theorem Splits.length_le {text : List Char} {ts : List Terminal} (h : Splits text ts) :
    ts.length ≤ text.length :=
  Nat.le_trans (Nat.le_of_add_right_le (Cuts.length_le h)) (length_skip_le text)

/-- Terminals taken off a text are the first of those it falls into. -/
theorem Splits.exists_append {text rest : List Char} {ts us : List Terminal} (h : Splits text ts)
    (hcuts : Cuts text us rest) : ∃ vs, ts = us ++ vs ∧ Splits rest vs := by
  induction us generalizing text ts with
  | nil => exact ⟨ts, rfl, cuts_skip_iff.mp ((show skip text = skip rest from hcuts) ▸
      cuts_skip_iff.mpr h)⟩
  | cons u us ih =>
    obtain ⟨next, hu, hus⟩ := hcuts
    cases ts with
    | nil =>
      have hlt := hu.length_lt
      rw [show skip text = [] from h] at hlt
      exact absurd hlt (Nat.not_lt_zero _)
    | cons t ts =>
      obtain ⟨next', ht, hts⟩ := h
      obtain ⟨rfl, rfl⟩ := ht.unique hu
      obtain ⟨vs, rfl, hvs⟩ := ih hts hus
      exact ⟨vs, rfl, hvs⟩

theorem Splits.exists_leads {text : List Char} {t : Terminal} {ts : List Terminal}
    (h : Splits text (t :: ts)) : ∃ next, Leads t (skip text) next ∧ Splits next ts :=
  h

theorem Splits.head_of_leads {text rest : List Char} {ts : List Terminal} {t : Terminal}
    (h : Splits text ts) (ht : Leads t (skip text) rest) : ∃ vs, ts = t :: vs := by
  have hcuts : Cuts text [t] rest := ht.cuts_skip rfl
  obtain ⟨vs, hvs, -⟩ := h.exists_append hcuts
  exact ⟨vs, hvs⟩

/-- A text falls into terminals in one way at most. -/
theorem Splits.unique {text : List Char} {ts us : List Terminal} (h : Splits text ts)
    (h' : Splits text us) : ts = us := by
  obtain ⟨vs, rfl, hvs⟩ := h.exists_append h'
  cases vs with
  | nil => rw [List.append_nil]
  | cons v vs =>
    obtain ⟨_, hv, _⟩ := hvs
    exact absurd hv.length_lt (Nat.not_lt_zero _)

theorem Splits.head_ne_point {text : List Char} {ts : List Terminal} (h : Splits text ts) :
    ∀ c ∈ text.head?, c ≠ '.' := by
  rintro c hc rfl
  obtain ⟨rest, rfl⟩ : ∃ rest, text = '.' :: rest := by
    cases text with
    | nil => cases hc
    | cons c rest => exact ⟨rest, by cases hc; rfl⟩
  have hskip : skip ('.' :: rest) = '.' :: rest := rfl
  cases ts with
  | nil =>
    rw [Splits, Cuts, hskip] at h
    cases h
  | cons t ts =>
    obtain ⟨next, ht, -⟩ := h
    obtain ⟨c, more, htext, -, hc⟩ := t.exists_cons_not_blank
    have hsplit := ht.split
    rw [hskip, htext] at hsplit
    exact hc (List.cons.inj hsplit).1.symm

end FlagGovernance.Query
