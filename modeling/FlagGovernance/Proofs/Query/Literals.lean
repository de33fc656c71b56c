import FlagGovernance.Proofs.Query.Lexing
/-
Literals take the longest terminal.

A number takes its fraction and its exponent where they are there to be taken. A
string runs to the first quote that is not part of an escape, and stands for its
characters unless it holds half of a surrogate pair.
-/

namespace FlagGovernance.Query

/-- The digits at the front of a text. -/
def Digits.ofRun (text : List Char) (h : text.takeWhile Char.isDigit ≠ []) : Digits where
  text := text.takeWhile Char.isDigit
  nonempty := h
  allDigits c hc := List.all_eq_true.mp List.all_takeWhile c hc

theorem Digits.takeWhile_append (d : Digits) (r : List Char) :
    (d.text ++ r).takeWhile Char.isDigit = d.text ++ r.takeWhile Char.isDigit :=
  List.takeWhile_append_of_pos d.allDigits

theorem Digits.dropWhile_append (d : Digits) (r : List Char) :
    (d.text ++ r).dropWhile Char.isDigit = r.dropWhile Char.isDigit :=
  List.dropWhile_append_of_pos d.allDigits

theorem fractionPart_sound (text : List Char) :
    ∃ f : Option Digits, text = Numeral.fractionText f ++ (fractionPart text).2 ∧
      (f.map Digits.text).getD [] = (fractionPart text).1 := by
  rw [fractionPart.eq_def]
  split
  next rest =>
    split
    next => exact ⟨none, rfl, rfl⟩
    next hrun =>
      refine ⟨some (.ofRun rest hrun), ?_, rfl⟩
      simp [Numeral.fractionText, Digits.ofRun]
  next => exact ⟨none, rfl, rfl⟩

theorem exponentPart_sound (text : List Char) :
    ∃ e : Option Exponent, text = Numeral.exponentText e ++ (exponentPart text).2 ∧
      (e.map Exponent.value).getD 0 = (exponentPart text).1 := by
  have found {letter : Char} (hletter : letter = 'e' ∨ letter = 'E') (sign : Sign)
      {digits : List Char} (hrun : digits.takeWhile Char.isDigit ≠ []) :
      ∃ e : Option Exponent, letter :: (sign.text ++ digits) =
          Numeral.exponentText e ++ digits.dropWhile Char.isDigit ∧
        (e.map Exponent.value).getD 0 = sign.factor * digitsValue (digits.takeWhile Char.isDigit) :=
    ⟨some ⟨letter, hletter, sign, .ofRun digits hrun⟩,
      by simp [Numeral.exponentText, Exponent.text, Digits.ofRun], rfl⟩
  rw [exponentPart.eq_def]
  split
  next letter rest =>
    split
    next hletter =>
      split
      next sign digits hsign =>
        obtain ⟨s, rfl, rfl⟩ : ∃ s : Sign, rest = s.text ++ digits ∧ sign = s.factor := by
          split at hsign <;> cases hsign
          · exact ⟨.plus, rfl, rfl⟩
          · exact ⟨.minus, rfl, rfl⟩
          · exact ⟨.unwritten, rfl, rfl⟩
        split
        next => exact ⟨none, rfl, rfl⟩
        next hrun => exact found hletter s hrun
    next => exact ⟨none, rfl, rfl⟩
  next => exact ⟨none, rfl, rfl⟩

theorem length_exponentPart_le (text : List Char) :
    (exponentPart text).2.length ≤ text.length := by
  obtain ⟨e, hsplit, -⟩ := exponentPart_sound text
  exact List.IsSuffix.length_le ⟨_, hsplit.symm⟩

theorem length_fractionPart_le (text : List Char) :
    (fractionPart text).2.length ≤ text.length := by
  obtain ⟨f, hsplit, -⟩ := fractionPart_sound text
  exact List.IsSuffix.length_le ⟨_, hsplit.symm⟩

theorem exponentPart_append (e : Exponent) (r : List Char) :
    (exponentPart (e.text ++ r)).2 = r.dropWhile Char.isDigit := by
  obtain ⟨c, more, hdigits, hc⟩ := e.digits.exists_cons
  rw [exponentPart.eq_def]
  split
  next letter rest htext =>
    obtain ⟨rfl, hrest⟩ := List.cons.inj htext
    rw [if_pos e.isLetter]
    split
    next s ds hsign =>
      obtain rfl : e.digits.text ++ r = ds := by
        rw [List.append_eq, List.append_assoc, hdigits] at hrest
        rw [hdigits]
        cases hs : e.sign <;> rw [hs] at hrest <;> subst hrest
        · rw [Sign.text, List.nil_append] at hsign
          split at hsign
          next h => cases h; cases hc
          next h => cases h; cases hc
          next => exact congrArg Prod.snd hsign
        · exact congrArg Prod.snd hsign
        · exact congrArg Prod.snd hsign
      rw [e.digits.takeWhile_append, e.digits.dropWhile_append]
      split
      next h => exact absurd (List.append_eq_nil_iff.mp h).1 e.digits.nonempty
      next => rfl
  next h => cases h

theorem fractionPart_append (d : Digits) (r : List Char) :
    (fractionPart ('.' :: (d.text ++ r))).2 = r.dropWhile Char.isDigit := by
  simp only [fractionPart, d.takeWhile_append, d.dropWhile_append]
  split
  next h => exact absurd (List.append_eq_nil_iff.mp h).1 d.nonempty
  next => rfl

theorem fractionPart_of_head {text : List Char} (h : ∀ c ∈ text.head?, c ≠ '.') :
    fractionPart text = ([], text) := by
  rw [fractionPart.eq_def]
  split
  next => exact absurd rfl (h '.' rfl)
  next => rfl

theorem numberLiteral_sound {text rest : List Char} {v : Double}
    (h : numberLiteral text = some (v, rest)) :
    ∃ n : Numeral, text = n.text ++ rest ∧ n.value = v := by
  rw [numberLiteral.eq_def] at h
  split at h
  next negative unsigned hsign =>
    have htext : text = Numeral.signText negative ++ unsigned := by
      split at hsign <;> cases hsign <;> rfl
    split at h
    next => cases h
    next hrun =>
      split at h
      next fraction rest₁ hf =>
        split at h
        next exponent rest₂ he =>
          cases h
          obtain ⟨f, hfsplit, hfraction⟩ := fractionPart_sound (unsigned.dropWhile Char.isDigit)
          obtain ⟨e, hesplit, hexponent⟩ := exponentPart_sound rest₁
          rw [hf] at hfsplit hfraction
          rw [he] at hesplit hexponent
          refine ⟨⟨negative, .ofRun unsigned hrun, f, e⟩, ?_, ?_⟩
          · rw [Numeral.text, List.append_assoc, List.append_assoc, List.append_assoc, ← hesplit,
              ← hfsplit, htext, Digits.ofRun, List.takeWhile_append_dropWhile]
          · rw [Numeral.value, hfraction, hexponent]
            rfl

/-- What is left past all that can go on with a number after its first digits. -/
theorem numeralTail_covers (f : Option Digits) (e : Option Exponent) (r : List Char) :
    (exponentPart (fractionPart
      ((Numeral.fractionText f ++ (Numeral.exponentText e ++ r)).dropWhile Char.isDigit)).2).2.length ≤
      r.length := by
  have hexponent (e : Exponent) : (exponentPart (e.text ++ r)).2.length ≤ r.length := by
    rw [exponentPart_append]
    exact (List.dropWhile_sublist _).length_le
  have hhead (e : Exponent) : ∀ c ∈ (e.text ++ r).head?, c = 'e' ∨ c = 'E' := by
    simpa [Exponent.text] using e.isLetter
  cases f with
  | none =>
    cases e with
    | none =>
      exact Nat.le_trans (length_exponentPart_le _) (Nat.le_trans (length_fractionPart_le _)
        (List.dropWhile_sublist _).length_le)
    | some e =>
      rw [Numeral.fractionText, List.nil_append, Numeral.exponentText,
        dropWhile_of_head (fun c hc => Numeral.not_digit_of_exponent (hhead e c hc)),
        fractionPart_of_head]
      · exact hexponent e
      · rintro c hc rfl
        exact absurd (hhead e _ hc) (by decide)
  | some d =>
    rw [Numeral.fractionText, List.cons_append, List.dropWhile_cons_of_neg (by decide),
      fractionPart_append]
    cases e with
    | none =>
      exact Nat.le_trans (length_exponentPart_le _) (List.dropWhile_sublist _).length_le
    | some e =>
      rw [Numeral.exponentText,
        dropWhile_of_head (fun c hc => Numeral.not_digit_of_exponent (hhead e c hc))]
      exact hexponent e

theorem numberLiteral_covers (n : Numeral) (r : List Char) :
    ∃ v rest, numberLiteral (n.text ++ r) = some (v, rest) ∧ rest.length ≤ r.length := by
  rw [Numeral.text, List.append_assoc, List.append_assoc, List.append_assoc, numberLiteral.eq_def]
  split
  next negative unsigned hsign =>
    obtain rfl : n.whole.text ++ (Numeral.fractionText n.fraction ++
        (Numeral.exponentText n.exponent ++ r)) = unsigned := by
      cases hneg : n.negative <;> rw [hneg] at hsign
      · obtain ⟨c, more, hdigits, hc⟩ := n.whole.exists_cons
        rw [Numeral.signText, if_neg (by decide), List.nil_append, hdigits] at hsign
        rw [hdigits]
        split at hsign
        next h => cases h; cases hc
        next => exact congrArg Prod.snd hsign
      · exact congrArg Prod.snd hsign
    rw [n.whole.takeWhile_append, n.whole.dropWhile_append]
    split
    next h => exact absurd (List.append_eq_nil_iff.mp h).1 n.whole.nonempty
    next => exact ⟨_, _, rfl, numeralTail_covers n.fraction n.exponent r⟩

theorem numberLiteral_takesLongest : TakesLongest numberLiteral Terminal.number Numeral.value where
  sound := numberLiteral_sound
  covers := numberLiteral_covers
  kind n t ht := by
    cases t with
    | number n' => exact ⟨n', rfl⟩
    | _ => cases ht
  inj n n' h := by cases h; rfl

/-! Strings. -/

theorem exists_hexUnit? {a b c d : Char} (h : [a, b, c, d].all Text.isHexDigit = true) :
    ∃ code, Json.hexUnit? [a, b, c, d] = some (code, []) := by
  simp only [List.all_cons, List.all_nil, Bool.and_true, Bool.and_eq_true, Text.isHexDigit,
    Option.isSome_iff_exists] at h
  obtain ⟨⟨a', ha⟩, ⟨b', hb⟩, ⟨c', hc⟩, ⟨d', hd⟩⟩ := h
  simp [Json.hexUnit?, ha, hb, hc, hd]

theorem all_isHexDigit_of_hexUnit? {a b c d : Char} {code : Nat}
    (h : Json.hexUnit? [a, b, c, d] = some (code, [])) :
    [a, b, c, d].all Text.isHexDigit = true := by
  simp only [Json.hexUnit?, Option.bind_eq_bind, Option.bind_eq_some_iff] at h
  obtain ⟨a', ha, b', hb, c', hc, d', hd, -⟩ := h
  simp [Text.isHexDigit, ha, hb, hc, hd]

theorem stringBody_sound (text : List Char) :
    ∃ ps, (stringBody text).1 = bodyText ps ∧ text = bodyText ps ++ (stringBody text).2 := by
  have piece (p : Piece) {text left body : List Char}
      (h : ∃ ps, body = bodyText ps ∧ text = bodyText ps ++ left) :
      ∃ ps, p.text ++ body = bodyText ps ∧ p.text ++ text = bodyText ps ++ left := by
    obtain ⟨ps, rfl, rfl⟩ := h
    exact ⟨p :: ps, rfl, (bodyText_cons_append p ps left).symm⟩
  fun_induction stringBody text with
  | case1 a b c d rest hhex body left hrec ih =>
    obtain ⟨code, hcode⟩ := exists_hexUnit? hhex
    rw [hrec] at ih
    exact piece (.unit a b c d code hcode) ih
  | case2 a b c d rest hhex => exact ⟨[], rfl, rfl⟩
  | case3 e rest hnot he body left hrec ih =>
    obtain ⟨c, hc⟩ := Option.isSome_iff_exists.mp he
    rw [hrec] at ih
    exact piece (.escape e c hc) ih
  | case4 e rest hnot he => exact ⟨[], rfl, rfl⟩
  | case5 c rest => exact ⟨[], rfl, rfl⟩
  | case6 c rest _ _ hc body left hrec ih =>
    rw [hrec] at ih
    exact piece (.plain c (by simpa using hc)) ih
  | case7 => exact ⟨[], rfl, rfl⟩

theorem stringBody_append (ps : List Piece) (r : List Char) :
    stringBody (bodyText ps ++ '"' :: r) = (bodyText ps, '"' :: r) := by
  induction ps with
  | nil => simp [bodyText, stringBody]
  | cons p ps ih =>
    rw [bodyText_cons_append]
    cases p with
    | plain c hc =>
      rw [Piece.text, List.cons_append, List.nil_append, stringBody, if_neg (by simpa using hc), ih]
      · rfl
      · exact fun _ _ _ _ _ h => absurd h hc.2
      · exact fun _ _ h => absurd h hc.2
    | escape e c he =>
      rw [Piece.text, List.cons_append, List.cons_append, List.nil_append, stringBody,
        if_pos (by rw [he]; rfl), ih]
      · rfl
      · rintro _ _ _ _ _ rfl
        cases he
    | unit a b c d code hcode =>
      rw [Piece.text, List.cons_append, List.cons_append, List.cons_append, List.cons_append,
        List.cons_append, List.cons_append, List.nil_append, stringBody,
        if_pos (all_isHexDigit_of_hexUnit? hcode), ih]
      rfl

theorem stringLiteral_takesLongest : TakesLongest stringLiteral Terminal.quoted bodyText where
  sound := by
    intro text body rest h
    rw [stringLiteral.eq_def] at h
    split at h
    next text =>
      split at h
      next body' left hbody =>
        cases h
        obtain ⟨ps, hps, hsplit⟩ := stringBody_sound text
        rw [hbody] at hps hsplit
        exact ⟨ps, by rw [hsplit]; simp [Terminal.text], hps.symm⟩
      next => cases h
    next => cases h
  covers ps r := by
    simp only [Terminal.text, List.cons_append, List.append_assoc, List.nil_append, stringLiteral,
      stringBody_append]
    exact ⟨_, _, rfl, Nat.le_refl _⟩
  kind ps t ht := by
    cases t with
    | quoted ps' => exact ⟨ps', rfl⟩
    | _ => cases ht
  inj ps ps' h := by cases h; rfl

theorem unescape_piece (p : Piece) {r cs : List Char} :
    unescape (p.text ++ r) = some cs ↔
      ¬ p.surrogate ∧ ∃ rest, unescape r = some rest ∧ p.char :: rest = cs := by
  cases p with
  | plain c hc =>
    rw [Piece.text, List.cons_append, List.nil_append, unescape, if_neg hc.2, Option.map_eq_some_iff]
    · simp [Piece.surrogate, Piece.char]
    · exact fun _ _ _ _ _ h => absurd h hc.2
    · exact fun _ _ h => absurd h hc.2
  | escape e c he =>
    rw [Piece.text, List.cons_append, List.cons_append, List.nil_append, unescape, he,
      Option.bind_eq_bind, Option.bind_some, Option.map_eq_some_iff]
    · simp [Piece.surrogate, Piece.char]
    · rintro _ _ _ _ _ rfl
      cases he
  | unit a b c d code hcode =>
    simp only [Piece.text, List.cons_append, List.nil_append, unescape, hcode, Option.bind_eq_bind,
      Option.bind_some]
    split
    next h =>
      refine iff_of_false (fun hnone => ?_) (fun hp => hp.1 h)
      cases hnone
    next h => exact Option.map_eq_some_iff.trans (and_iff_right h).symm

theorem unescape_bodyText_eq_some_iff {ps : List Piece} {cs : List Char} :
    unescape (bodyText ps) = some cs ↔ (∀ p ∈ ps, ¬ p.surrogate) ∧ ps.map Piece.char = cs := by
  induction ps generalizing cs with
  | nil => simp [bodyText, unescape]
  | cons p ps ih =>
    rw [show bodyText (p :: ps) = p.text ++ bodyText ps from rfl, unescape_piece]
    simp only [ih, List.forall_mem_cons, List.map_cons]
    constructor
    · rintro ⟨hp, _, ⟨hps, rfl⟩, rfl⟩
      exact ⟨⟨hp, hps⟩, rfl⟩
    · rintro ⟨⟨hp, hps⟩, rfl⟩
      exact ⟨hp, _, ⟨hps, rfl⟩, rfl⟩

end FlagGovernance.Query
