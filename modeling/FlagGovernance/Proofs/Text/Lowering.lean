import FlagGovernance.Text.Case
/-
Lowercasing the parts of a text.

Only the capital sigma looks at what stands around it.  So a part of a text is lowercased
in its place as it is on its own just when each capital sigma of the part ends a word there
if and only if it ends one in the part alone.
-/

namespace FlagGovernance.Text

/-- A capital sigma with these characters before it, nearest first, and these after it
ends a word. -/
def endsWord (before after : List Char) : Bool :=
  meetsCased before && !meetsCased after

/-- One character in lowercase, given the characters before it, nearest first, and those
after it. -/
def lowered (before : List Char) (c : Char) (after : List Char) : List Char :=
  if c = 'Σ' then [if endsWord before after then 'ς' else 'σ']
  else if c = 'İ' then ['i', '\u0307']
  else [lowerChar c]

/-- A part of a text in lowercase, given the characters before it, nearest first, and those
after it. -/
def lowerWithin (before : List Char) : List Char → List Char → List Char
  | [], _ => []
  | c :: rest, after => lowered before c (rest ++ after) ++ lowerWithin (c :: before) rest after

theorem lowerAfter_cons (before : List Char) (c : Char) (rest : List Char) :
    lowerAfter before (c :: rest) = lowered before c rest ++ lowerAfter (c :: before) rest := by
  by_cases hsigma : c = 'Σ'
  · subst hsigma
    rfl
  · by_cases hdotted : c = 'İ'
    · subst hdotted
      rfl
    · rw [lowerAfter, lowered, if_neg hsigma, if_neg hdotted]
      · rfl
      · exact hsigma
      · exact hdotted

theorem lowerAfter_append (before part rest : List Char) :
    lowerAfter before (part ++ rest) =
      lowerWithin before part rest ++ lowerAfter (part.reverse ++ before) rest := by
  induction part generalizing before with
  | nil => rfl
  | cons c part ih =>
      rw [List.cons_append, lowerAfter_cons, ih, lowerWithin, List.append_assoc,
        List.reverse_cons, List.append_assoc, List.singleton_append]

theorem lowerWithin_nil (before part : List Char) :
    lowerWithin before part [] = lowerAfter before part := by
  have happend := lowerAfter_append before part []
  simpa [lowerAfter] using happend.symm

theorem length_lowered (before after before' after' : List Char) (c : Char) :
    (lowered before c after).length = (lowered before' c after').length := by
  by_cases hsigma : c = 'Σ'
  · simp [lowered, hsigma]
  · simp [lowered, hsigma]

theorem lowered_eq_iff {before after before' after' : List Char} {c : Char} :
    lowered before c after = lowered before' c after' ↔
      (c = 'Σ' → endsWord before after = endsWord before' after') := by
  by_cases hsigma : c = 'Σ'
  · cases hleft : endsWord before after <;> cases hright : endsWord before' after' <;>
      simp [lowered, hsigma, hleft, hright]
  · simp [lowered, hsigma]

theorem length_lowerWithin (before after before' after' part : List Char) :
    (lowerWithin before part after).length = (lowerWithin before' part after').length := by
  induction part generalizing before before' with
  | nil => rfl
  | cons c part ih =>
      simp only [lowerWithin, List.length_append]
      rw [length_lowered before _ before' (part ++ after'), ih (c :: before) (c :: before')]

/-- In two surroundings each capital sigma of a part ends a word in both or in neither. -/
def SigmasAgree (part before after before' after' : List Char) : Prop :=
  ∀ front back, part = front ++ 'Σ' :: back →
    endsWord (front.reverse ++ before) (back ++ after) =
      endsWord (front.reverse ++ before') (back ++ after')

theorem sigmasAgree_cons_iff {c : Char} {part before after before' after' : List Char} :
    SigmasAgree (c :: part) before after before' after' ↔
      (c = 'Σ' → endsWord before (part ++ after) = endsWord before' (part ++ after')) ∧
        SigmasAgree part (c :: before) after (c :: before') after' := by
  constructor
  · intro hagree
    refine ⟨fun hsigma => hagree [] part (congrArg (· :: part) hsigma), ?_⟩
    intro front back hpart
    simpa using hagree (c :: front) back (congrArg (c :: ·) hpart)
  · rintro ⟨hfirst, hrest⟩ front back hpart
    cases front with
    | nil =>
        obtain ⟨hsigma, rfl⟩ := List.cons.inj hpart
        exact hfirst hsigma
    | cons d front =>
        obtain ⟨rfl, hback⟩ := List.cons.inj hpart
        simpa using hrest front back hback

/-- A part is lowercased alike in two surroundings just when its capital sigmas agree. -/
theorem lowerWithin_eq_iff {part before after before' after' : List Char} :
    lowerWithin before part after = lowerWithin before' part after' ↔
      SigmasAgree part before after before' after' := by
  induction part generalizing before before' with
  | nil => simp [lowerWithin, SigmasAgree]
  | cons c part ih =>
      rw [sigmasAgree_cons_iff, ← lowered_eq_iff, ← ih, lowerWithin, lowerWithin]
      constructor
      · exact fun heq => List.append_inj heq (length_lowered _ _ _ _ c)
      · rintro ⟨hfirst, hrest⟩
        rw [hfirst, hrest]

instance (part before after before' after' : List Char) :
    Decidable (SigmasAgree part before after before' after') :=
  decidable_of_iff _ lowerWithin_eq_iff

/-- Between two texts each capital sigma of a part ends a word just when it ends a word in
the part alone. -/
def KeepsSigmas (before part after : List Char) : Prop :=
  SigmasAgree part before.reverse after [] []

instance (before part after : List Char) : Decidable (KeepsSigmas before part after) :=
  inferInstanceAs (Decidable (SigmasAgree part before.reverse after [] []))

theorem keepsSigmas_of_not_mem {part : List Char} (hsigma : 'Σ' ∉ part) (before after : List Char) :
    KeepsSigmas before part after := by
  intro front back hpart
  exact absurd (hpart ▸ List.mem_append_right front List.mem_cons_self) hsigma

theorem toList_lower (text : String) : (lower text).toList = lowerAfter [] text.toList :=
  String.toList_ofList

/-- Where a text stands in another, its lowercase form stands in that of the other, just
when its capital sigmas are kept. -/
theorem lower_stands_iff {text part : String} {before after : List Char}
    (hstands : text.toList = before ++ part.toList ++ after) :
    (lower part).toList <+:
        (lower text).toList.drop (lower (String.ofList before)).toList.length ↔
      KeepsSigmas before part.toList after := by
  have hbefore : (lower (String.ofList before)).toList.length =
      (lowerWithin [] before (part.toList ++ after)).length := by
    rw [toList_lower, String.toList_ofList, ← lowerWithin_nil]
    exact length_lowerWithin [] [] [] (part.toList ++ after) before
  have htext : (lower text).toList.drop (lower (String.ofList before)).toList.length =
      lowerWithin before.reverse part.toList after ++
        lowerAfter (part.toList.reverse ++ before.reverse) after := by
    rw [hbefore, toList_lower, hstands, List.append_assoc, lowerAfter_append, List.drop_left,
      lowerAfter_append, List.append_nil]
  rw [htext, toList_lower, ← lowerWithin_nil, KeepsSigmas, ← lowerWithin_eq_iff]
  constructor
  · rintro ⟨rest, hrest⟩
    exact (List.append_inj hrest (length_lowerWithin _ _ _ _ _)).1.symm
  · intro heq
    rw [heq]
    exact List.prefix_append _ _

theorem occursIn_iff_infix (needle text : List Char) :
    occursIn needle text = true ↔ needle <:+: text := by
  induction text with
  | nil => simp [occursIn]
  | cons c text ih =>
      rw [occursIn, Bool.or_eq_true, ih, List.isPrefixOf_iff_prefix, List.infix_cons_iff]

end FlagGovernance.Text
