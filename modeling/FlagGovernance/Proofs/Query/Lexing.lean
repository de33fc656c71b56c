import FlagGovernance.Proofs.Query.Splitting
/-
Lexemes take the longest terminal.

A lexeme for one kind of terminal answers where such a terminal stands, takes all
of it and answers with what it stands for.
-/

namespace FlagGovernance.Query

/-- The terminals of one kind, and what a lexeme answers for each: it takes only
such terminals, and where one stands it takes no less. -/
structure TakesLongest {α β : Type} (lexeme : Lexeme α) (make : β → Terminal) (value : β → α) :
    Prop where
  sound : ∀ {text a rest}, lexeme text = some (a, rest) →
    ∃ b, text = (make b).text ++ rest ∧ value b = a
  covers : ∀ b rest, ∃ a rest', lexeme ((make b).text ++ rest) = some (a, rest') ∧
    rest'.length ≤ rest.length
  kind : ∀ b t, t.kind = (make b).kind → ∃ b', make b' = t
  inj : ∀ b b', make b = make b' → b = b'

theorem TakesLongest.eq_some_iff {α β : Type} {lexeme : Lexeme α} {make : β → Terminal}
    {value : β → α} (h : TakesLongest lexeme make value) {text : List Char} {a : α} {rest : List Char} :
    lexeme text = some (a, rest) ↔ ∃ b, Leads (make b) text rest ∧ value b = a := by
  have leads {a : α} {rest : List Char} (hread : lexeme text = some (a, rest)) :
      ∃ b, Leads (make b) text rest ∧ value b = a := by
    obtain ⟨b, hsplit, hvalue⟩ := h.sound hread
    refine ⟨b, ⟨hsplit, fun t rest' ht => ?_⟩, hvalue⟩
    obtain ⟨b', rfl⟩ := h.kind b t (Terminal.kind_eq_of_append_eq (ht.symm.trans hsplit))
    obtain ⟨a', rest'', hread', hle⟩ := h.covers b' rest'
    rw [← ht, hread] at hread'
    cases hread'
    have hlength := congrArg List.length (ht.symm.trans hsplit)
    simp only [List.length_append] at hlength
    omega
  refine ⟨leads, ?_⟩
  rintro ⟨b, hb, rfl⟩
  obtain ⟨a', rest', hread, -⟩ := h.covers b rest
  rw [← hb.split] at hread
  obtain ⟨b', hb', rfl⟩ := leads hread
  obtain ⟨hmake, rfl⟩ := hb.unique hb'
  rw [h.inj b b' hmake, hread]

/-! Paths. -/

theorem ident_append {i r : List Char} (hi : IsIdent i) :
    ident (i ++ r) = some (i ++ r.takeWhile continuesIdent, r.dropWhile continuesIdent) := by
  cases i with
  | nil => exact hi.elim
  | cons c i =>
    rw [List.cons_append, ident, if_pos hi.1, List.takeWhile_append_of_pos hi.2,
      List.dropWhile_append_of_pos hi.2, List.cons_append]

theorem ident_append_point {i : List Char} (hi : IsIdent i) (r : List Char) :
    ident (i ++ '.' :: r) = some (i, '.' :: r) := by
  rw [ident_append hi, List.takeWhile_cons_of_neg (by decide),
    List.dropWhile_cons_of_neg (by decide), List.append_nil]

theorem ident_sound {text name rest : List Char} (h : ident text = some (name, rest)) :
    IsIdent name ∧ text = name ++ rest := by
  cases text with
  | nil => cases h
  | cons c text =>
    rw [ident] at h
    split at h
    next hc =>
      cases h
      refine ⟨⟨hc, fun d hd => ?_⟩, ?_⟩
      · exact List.all_eq_true.mp List.all_takeWhile d hd
      · rw [List.cons_append, List.takeWhile_append_dropWhile]
    next => cases h

theorem pathTail_sound {fuel : Nat} {text more left : List Char}
    (h : pathTail fuel text = (more, left)) :
    text = more ++ left ∧ ∀ {i}, IsIdent i → IsPath (i ++ more) := by
  have nothing {text more left : List Char} (h : ([], text) = (more, left)) :
      text = more ++ left ∧ ∀ {i}, IsIdent i → IsPath (i ++ more) := by
    cases h
    exact ⟨rfl, fun hi => by simpa using IsPath.one hi⟩
  induction fuel generalizing text more left with
  | zero => exact nothing h
  | succ fuel ih =>
    rw [pathTail.eq_def] at h
    split at h
    next rest hfuel =>
      cases hfuel
      split at h
      next name rest' hname =>
        cases h
        obtain ⟨hident, rfl⟩ := ident_sound hname
        obtain ⟨hrest, hpath⟩ := ih (Eq.refl (pathTail fuel rest'))
        refine ⟨by simp [← hrest], fun hi => ?_⟩
        exact .dot hi (hpath hident)
      next => exact nothing h
    next => exact nothing h

theorem length_pathTail_le (fuel : Nat) (text : List Char) :
    (pathTail fuel text).2.length ≤ text.length := by
  have hsplit : text = (pathTail fuel text).1 ++ (pathTail fuel text).2 := (pathTail_sound rfl).1
  exact List.IsSuffix.length_le ⟨_, hsplit.symm⟩

theorem pathTail_covers {p : List Char} (hp : IsPath p) {fuel : Nat} (hfuel : p.length ≤ fuel)
    (r : List Char) : (pathTail (fuel + 1) ('.' :: (p ++ r))).2.length ≤ r.length := by
  induction hp generalizing fuel with
  | one hi =>
    simp only [pathTail, ident_append hi]
    exact Nat.le_trans (length_pathTail_le _ _) (List.dropWhile_sublist _).length_le
  | @dot i p hi hp ih =>
    rw [List.append_assoc, List.cons_append]
    rw [List.length_append, List.length_cons] at hfuel
    cases fuel with
    | zero => omega
    | succ fuel =>
      rw [pathTail, ident_append_point hi]
      exact ih (by omega)

theorem path_covers {p : List Char} (hp : IsPath p) (r : List Char) :
    ∃ s rest, path (p ++ r) = some (s, rest) ∧ rest.length ≤ r.length := by
  cases hp with
  | one hi =>
    simp only [path, ident_append hi]
    exact ⟨_, _, rfl, Nat.le_trans (length_pathTail_le _ _) (List.dropWhile_sublist _).length_le⟩
  | @dot i p hi hp =>
    rw [List.append_assoc, List.cons_append]
    simp only [path, ident_append_point hi]
    exact ⟨_, _, rfl, pathTail_covers hp (by simp) r⟩

theorem path_takesLongest :
    TakesLongest path Terminal.word (fun w => String.ofList w.text) where
  sound := by
    intro text s rest h
    rw [path] at h
    split at h
    next name rest' hname =>
      obtain ⟨hident, rfl⟩ := ident_sound hname
      cases h
      obtain ⟨hrest, hpath⟩ := pathTail_sound (Eq.refl (pathTail rest'.length rest'))
      exact ⟨⟨_, hpath hident⟩, by rw [Terminal.text, List.append_assoc, ← hrest], rfl⟩
    next => cases h
  covers w r := path_covers w.isPath r
  kind w t ht := by
    cases t with
    | word w' => exact ⟨w', rfl⟩
    | _ => cases ht
  inj w w' h := by cases h; rfl

/-! Keywords. -/

/-- Keywords are written in small letters. -/
def SmallLetters (k : String) : Prop :=
  k.toList ≠ [] ∧ k.toList.all Char.isLower = true

instance (k : String) : Decidable (SmallLetters k) :=
  inferInstanceAs (Decidable (_ ∧ _))

theorem isAlpha_of_isLower_toLower {c : Char} (h : c.toLower.isLower = true) :
    c.isAlpha = true := by
  by_cases hupper : c.isUpper = true
  · exact isAlpha_iff.mpr (.inl hupper)
  · have hsame : c.toLower = c := dif_neg (fun hrange => hupper (decide_eq_true hrange))
    exact isAlpha_iff.mpr (.inr (hsame ▸ h))

theorem continuesWord_of_isPath {p : List Char} (h : IsPath p) :
    ∀ c ∈ p, continuesWord c = true := by
  have of_ident {i : List Char} (hi : IsIdent i) : ∀ c ∈ i, continuesWord c = true := by
    cases i with
    | nil => exact hi.elim
    | cons d i =>
      intro c hc
      rcases List.mem_cons.mp hc with rfl | hc
      · have := hi.1
        simp only [startsIdent, Bool.or_eq_true] at this
        rcases this with h | h <;> simp [continuesWord, Char.isAlphanum, h]
      · have := hi.2 c hc
        rw [continuesIdent] at this
        rw [continuesWord, this, Bool.true_or]
  induction h with
  | one hi => exact of_ident hi
  | dot hi _ ih =>
    simp only [List.mem_append, List.mem_cons]
    rintro c (hc | rfl | hc)
    · exact of_ident hi c hc
    · rfl
    · exact ih c hc

theorem IsIdent.snoc {i : List Char} {c : Char} (h : IsIdent i) (hc : continuesIdent c = true) :
    IsIdent (i ++ [c]) := by
  cases i with
  | nil => exact h.elim
  | cons d i =>
    refine ⟨h.1, fun e he => ?_⟩
    rcases List.mem_append.mp he with he | he
    · exact h.2 e he
    · cases List.mem_singleton.mp he
      exact hc

theorem IsPath.snoc {p : List Char} {c : Char} (h : IsPath p) (hc : continuesIdent c = true) :
    IsPath (p ++ [c]) := by
  induction h with
  | one hi => exact .one (hi.snoc hc)
  | dot hi _ ih =>
    rw [List.append_assoc, List.cons_append]
    exact .dot hi ih

theorem keyword_sound {k : String} (hk : SmallLetters k) {text rest : List Char} {u : Unit}
    (h : keyword k text = some (u, rest)) :
    ∃ w : Word, Text.lowerAscii w.text = k.toList ∧ Leads (.word w) text rest := by
  simp only [keyword] at h
  split at h
  next hfound =>
    obtain ⟨hlower, hboundary⟩ := hfound
    cases h
    have hident : IsIdent (text.take k.toList.length) := by
      have halpha : ∀ c ∈ text.take k.toList.length, c.isAlpha = true := fun c hc =>
        isAlpha_of_isLower_toLower (List.all_eq_true.mp hk.2 _ (hlower ▸ List.mem_map_of_mem hc))
      cases htake : text.take k.toList.length with
      | nil => exact absurd (htake ▸ hlower).symm hk.1
      | cons c more =>
        rw [htake] at halpha
        refine ⟨by simp [startsIdent, halpha c (.head more)], fun d hd => ?_⟩
        simp [continuesIdent, Char.isAlphanum, halpha d (.tail c hd)]
    have hsplit := (List.take_append_drop k.toList.length text).symm
    refine ⟨⟨_, .one hident⟩, hlower, hsplit, fun t rest' ht => ?_⟩
    -- A longer word would go on past the boundary.
    have happend := hsplit.symm.trans ht
    rcases List.append_eq_append_iff.mp happend with ⟨more, htext, hrest⟩ | ⟨_, htext, _⟩
    · have hkind := Terminal.kind_eq_of_append_eq (t := .word ⟨_, .one hident⟩) happend
      cases t with
      | word w' =>
        cases more with
        | nil => exact Nat.le_of_eq (by rw [htext, List.append_nil]; rfl)
        | cons c more =>
          have hc := continuesWord_of_isPath w'.isPath c (by simp [show w'.text = _ from htext])
          rw [hrest, List.cons_append, atBoundary, hc] at hboundary
          cases hboundary
      | _ => cases hkind
    · simp [htext, Terminal.text]
  next => cases h

theorem keyword_of_leads {k : String} {w : Word} (hw : Text.lowerAscii w.text = k.toList)
    {text rest : List Char} (h : Leads (.word w) text rest) (hpoint : ∀ c ∈ rest.head?, c ≠ '.') :
    keyword k text = some ((), rest) := by
  have hlength : k.toList.length = w.text.length := by
    rw [← hw, Text.lowerAscii, List.length_map]
  have hboundary : atBoundary rest = true := by
    cases rest with
    | nil => rfl
    | cons c rest =>
      cases hc : continuesWord c with
      | false => simp [atBoundary, hc]
      | true =>
        have hcontinues : continuesIdent c = true := by
          simpa [continuesWord, continuesIdent, hpoint c rfl] using hc
        have hle := h.longest (.word ⟨_, w.isPath.snoc hcontinues⟩) rest
          (by rw [h.split]; simp [Terminal.text])
        rw [Terminal.text, Terminal.text, List.length_append] at hle
        exact absurd hle (Nat.not_succ_le_self _)
  have htake : text.take k.toList.length = w.text := by
    rw [hlength, h.split]
    exact List.take_left
  have hdrop : text.drop k.toList.length = rest := by
    rw [hlength, h.split]
    exact List.drop_left
  simp only [keyword, htake, hdrop]
  rw [if_pos ⟨hw, hboundary⟩]

end FlagGovernance.Query
