import FlagGovernance.Query.Lexeme
import FlagGovernance.Text.Blank
/-
What a query is written in.

Words, numbers, strings and marks, each with its text and what it stands for. The
text determines the terminal, and its first character the kind of terminal.
-/

namespace FlagGovernance.Query

/-- A letter or underscore, then letters, digits, underscores and hyphens. -/
def IsIdent : List Char → Prop
  | [] => False
  | c :: rest => startsIdent c = true ∧ ∀ d ∈ rest, continuesIdent d = true

/-- Identifiers joined by points. -/
inductive IsPath : List Char → Prop
  | one {i : List Char} (hi : IsIdent i) : IsPath i
  | dot {i p : List Char} (hi : IsIdent i) (hp : IsPath p) : IsPath (i ++ '.' :: p)

/-- A word: a path of one identifier or more. -/
structure Word where
  text : List Char
  isPath : IsPath text

/-- One digit or more. -/
structure Digits where
  text : List Char
  nonempty : text ≠ []
  allDigits : ∀ c ∈ text, c.isDigit = true

inductive Sign
  | unwritten | plus | minus
deriving DecidableEq

namespace Sign

def text : Sign → List Char
  | unwritten => []
  | plus => ['+']
  | minus => ['-']

def factor : Sign → Int
  | minus => -1
  | _ => 1

end Sign

/-- The letter `e` of either case, perhaps a sign, and digits. -/
structure Exponent where
  letter : Char
  isLetter : letter = 'e' ∨ letter = 'E'
  sign : Sign
  digits : Digits

namespace Exponent

def text (e : Exponent) : List Char := e.letter :: (e.sign.text ++ e.digits.text)

def value (e : Exponent) : Int := e.sign.factor * digitsValue e.digits.text

end Exponent

/-- A number as written: a minus or none, digits, a fraction or none and an
exponent or none. -/
structure Numeral where
  negative : Bool
  whole : Digits
  fraction : Option Digits
  exponent : Option Exponent

namespace Numeral

def signText (negative : Bool) : List Char :=
  if negative then ['-'] else []

def fractionText : Option Digits → List Char
  | none => []
  | some d => '.' :: d.text

def exponentText : Option Exponent → List Char
  | none => []
  | some e => e.text

def text (n : Numeral) : List Char :=
  signText n.negative ++ (n.whole.text ++ (fractionText n.fraction ++ exponentText n.exponent))

def value (n : Numeral) : Double :=
  NumberParts.value {
    negative := n.negative
    whole := n.whole.text
    fraction := (n.fraction.map Digits.text).getD []
    exponent := (n.exponent.map Exponent.value).getD 0 }

end Numeral

/-- What stands for one character in a string: the character itself, an escape of
one letter, or an escape of the code point in four hexadecimal digits. -/
inductive Piece
  | plain (c : Char) (hplain : c ≠ '"' ∧ c ≠ '\\')
  | escape (e c : Char) (hescape : Json.simpleEscape? e = some c)
  | unit (a b c d : Char) (code : Nat) (hcode : Json.hexUnit? [a, b, c, d] = some (code, []))

namespace Piece

def text : Piece → List Char
  | plain c _ => [c]
  | escape e _ _ => ['\\', e]
  | unit a b c d _ _ => ['\\', 'u', a, b, c, d]

/-- The escape of half a surrogate pair. -/
def surrogate : Piece → Prop
  | unit _ _ _ _ code _ => 0xD800 ≤ code ∧ code < 0xE000
  | _ => False

def char : Piece → Char
  | plain c _ => c
  | escape _ c _ => c
  | unit _ _ _ _ code _ => Char.ofNat code

end Piece

/-- The text between the quotes of a string. -/
def bodyText (pieces : List Piece) : List Char := pieces.flatMap Piece.text

inductive Mark
  | openParen | closeParen | openBracket | closeBracket | comma
deriving DecidableEq

def Mark.char : Mark → Char
  | openParen => '('
  | closeParen => ')'
  | openBracket => '['
  | closeBracket => ']'
  | comma => ','

inductive Terminal
  | word (w : Word)
  | number (n : Numeral)
  | quoted (pieces : List Piece)
  | mark (m : Mark)

namespace Terminal

def text : Terminal → List Char
  | word w => w.text
  | number n => n.text
  | quoted pieces => '"' :: (bodyText pieces ++ ['"'])
  | mark m => [m.char]

/-- A word that is a keyword but for the case of its letters. -/
def Spells (keyword : String) : Terminal → Prop
  | word w => Text.lowerAscii w.text = keyword.toList
  | _ => False

/-- No part of it is an escape of half a surrogate pair. -/
def Clean : Terminal → Prop
  | quoted pieces => ∀ p ∈ pieces, ¬ p.surrogate
  | _ => True

end Terminal

/-! Text determines the terminal. -/

theorem eq_of_run_eq {p : Char → Bool} {a b r s : List Char} (ha : ∀ c ∈ a, p c = true)
    (hb : ∀ c ∈ b, p c = true) (hr : ∀ c ∈ r.head?, p c = false) (hs : ∀ c ∈ s.head?, p c = false)
    (h : a ++ r = b ++ s) : a = b ∧ r = s := by
  induction a generalizing b with
  | nil =>
    cases b with
    | nil => exact ⟨rfl, h⟩
    | cons d b =>
      subst h
      exact absurd (hb d (.head b)) (by simp [hr d rfl])
  | cons c a ih =>
    cases b with
    | nil =>
      subst h
      exact absurd (ha c (.head a)) (by simp [hs c rfl])
    | cons d b =>
      obtain ⟨rfl, htail⟩ := List.cons.inj h
      obtain ⟨rfl, hrest⟩ :=
        ih (fun c hc => ha c (.tail _ hc)) (fun c hc => hb c (.tail _ hc)) htail
      exact ⟨rfl, hrest⟩

theorem Digits.eq_of_text_eq {d d' : Digits} (h : d.text = d'.text) : d = d' := by
  cases d
  cases d'
  cases h
  rfl

theorem Digits.exists_cons (d : Digits) : ∃ c rest, d.text = c :: rest ∧ c.isDigit = true := by
  obtain ⟨text, nonempty, allDigits⟩ := d
  cases text with
  | nil => exact absurd rfl nonempty
  | cons c rest => exact ⟨c, rest, rfl, allDigits c (.head rest)⟩

theorem Digits.append_inj {d d' : Digits} {r s : List Char}
    (hr : ∀ c ∈ r.head?, c.isDigit = false) (hs : ∀ c ∈ s.head?, c.isDigit = false)
    (h : d.text ++ r = d'.text ++ s) : d = d' ∧ r = s := by
  obtain ⟨htext, hrest⟩ := eq_of_run_eq d.allDigits d'.allDigits hr hs h
  exact ⟨eq_of_text_eq htext, hrest⟩

theorem Sign.text_not_digit (s : Sign) : ∀ c ∈ s.text, (!c.isDigit) = true :=
  List.all_eq_true.mp (by cases s <;> rfl)

theorem Sign.eq_of_text_eq {s s' : Sign} (h : s.text = s'.text) : s = s' := by
  cases s <;> cases s' <;> first | rfl | exact absurd h (by decide)

theorem Digits.head_isDigit (d : Digits) (r : List Char) :
    ∀ c ∈ (d.text ++ r).head?, (!c.isDigit) = false := by
  obtain ⟨c, rest, hd, hc⟩ := d.exists_cons
  simp [hd, hc]

theorem Exponent.eq_of_text_eq {e e' : Exponent} (h : e.text = e'.text) : e = e' := by
  obtain ⟨letter, hletter, sign, digits⟩ := e
  obtain ⟨letter', hletter', sign', digits'⟩ := e'
  obtain ⟨rfl, htail⟩ := List.cons.inj h
  -- A sign is the part before the first digit.
  obtain ⟨hsign, hdigits⟩ := eq_of_run_eq sign.text_not_digit sign'.text_not_digit
    (by simpa using digits.head_isDigit []) (by simpa using digits'.head_isDigit []) htail
  cases Sign.eq_of_text_eq hsign
  cases Digits.eq_of_text_eq hdigits
  rfl

namespace Numeral

theorem exponentText_head (e : Option Exponent) :
    ∀ c ∈ (exponentText e).head?, c = 'e' ∨ c = 'E' := by
  cases e with
  | none => simp [exponentText]
  | some e => simpa [exponentText, Exponent.text] using e.isLetter

theorem exponentText_inj {e e' : Option Exponent} (h : exponentText e = exponentText e') :
    e = e' := by
  cases e with
  | none =>
    cases e' with
    | none => rfl
    | some e' => cases h
  | some e =>
    cases e' with
    | none => cases h
    | some e' => rw [Exponent.eq_of_text_eq h]

theorem not_digit_of_exponent {c : Char} (h : c = 'e' ∨ c = 'E') : c.isDigit = false := by
  rcases h with rfl | rfl <;> decide

theorem tail_inj {f f' : Option Digits} {e e' : Option Exponent}
    (h : fractionText f ++ exponentText e = fractionText f' ++ exponentText e') :
    f = f' ∧ e = e' := by
  have point_ne {e : Option Exponent} {d : Digits} {r : List Char} :
      exponentText e ≠ '.' :: d.text ++ r := fun h =>
    absurd (exponentText_head e '.' (by simp [h])) (by decide)
  cases f with
  | none =>
    cases f' with
    | none => exact ⟨rfl, exponentText_inj h⟩
    | some d' => exact absurd h point_ne
  | some d =>
    cases f' with
    | none => exact absurd h.symm point_ne
    | some d' =>
      obtain ⟨rfl, he⟩ := Digits.append_inj
        (fun c hc => not_digit_of_exponent (exponentText_head e c hc))
        (fun c hc => not_digit_of_exponent (exponentText_head e' c hc)) (List.cons.inj h).2
      exact ⟨rfl, exponentText_inj he⟩

theorem signText_not_digit (b : Bool) : ∀ c ∈ signText b, (!c.isDigit) = true :=
  List.all_eq_true.mp (by cases b <;> rfl)

theorem tail_head (f : Option Digits) (e : Option Exponent) :
    ∀ c ∈ (fractionText f ++ exponentText e).head?, c.isDigit = false := by
  cases f with
  | none => exact fun c hc => not_digit_of_exponent (exponentText_head e c hc)
  | some d => simp [fractionText]

theorem eq_of_text_eq {n n' : Numeral} (h : n.text = n'.text) : n = n' := by
  obtain ⟨negative, whole, fraction, exponent⟩ := n
  obtain ⟨negative', whole', fraction', exponent'⟩ := n'
  obtain ⟨hsign, hrest⟩ := eq_of_run_eq (signText_not_digit negative) (signText_not_digit negative')
    (whole.head_isDigit _) (whole'.head_isDigit _) h
  obtain ⟨rfl, htail⟩ := Digits.append_inj (tail_head _ _) (tail_head _ _) hrest
  obtain ⟨rfl, rfl⟩ := tail_inj htail
  have : negative = negative' := by
    cases negative <;> cases negative' <;> first | rfl | cases hsign
  rw [this]

end Numeral

theorem Piece.append_inj {p p' : Piece} {r r' : List Char} (h : p.text ++ r = p'.text ++ r') :
    p = p' ∧ r = r' := by
  cases p with
  | plain c hplain =>
    cases p' with
    | plain c' _ =>
      obtain ⟨rfl, rfl⟩ := List.cons.inj h
      exact ⟨rfl, rfl⟩
    | escape _ _ _ => exact absurd (List.cons.inj h).1 hplain.2
    | unit _ _ _ _ _ _ => exact absurd (List.cons.inj h).1 hplain.2
  | escape e c hescape =>
    cases p' with
    | plain c' hplain' => exact absurd (List.cons.inj h).1.symm hplain'.2
    | escape e' c' hescape' =>
      obtain ⟨rfl, rfl⟩ := List.cons.inj (List.cons.inj h).2
      cases hescape.symm.trans hescape'
      exact ⟨rfl, rfl⟩
    | unit _ _ _ _ _ _ =>
      obtain ⟨rfl, -⟩ := List.cons.inj (List.cons.inj h).2
      cases hescape
  | unit a b c d code hcode =>
    cases p' with
    | plain c' hplain' => exact absurd (List.cons.inj h).1.symm hplain'.2
    | escape e' c' hescape' =>
      obtain ⟨rfl, -⟩ := List.cons.inj (List.cons.inj h).2
      cases hescape'
    | unit a' b' c' d' code' hcode' =>
      simp only [Piece.text, List.cons_append, List.nil_append, List.cons.injEq, true_and] at h
      obtain ⟨rfl, rfl, rfl, rfl, rfl⟩ := h
      cases hcode.symm.trans hcode'
      exact ⟨rfl, rfl⟩

theorem Piece.text_ne_quote (p : Piece) (r s : List Char) : '"' :: r ≠ p.text ++ s := by
  intro h
  cases p with
  | plain c hplain => exact hplain.1 (List.cons.inj h).1.symm
  | escape _ _ _ => exact absurd (List.cons.inj h).1 (by decide)
  | unit _ _ _ _ _ _ => exact absurd (List.cons.inj h).1 (by decide)

theorem bodyText_cons_append (p : Piece) (ps : List Piece) (r : List Char) :
    bodyText (p :: ps) ++ r = p.text ++ (bodyText ps ++ r) := by
  rw [bodyText, List.flatMap_cons, List.append_assoc, ← bodyText]

theorem bodyText_append_inj {ps ps' : List Piece} {r r' : List Char}
    (h : bodyText ps ++ '"' :: r = bodyText ps' ++ '"' :: r') : ps = ps' ∧ r = r' := by
  induction ps generalizing ps' with
  | nil =>
    cases ps' with
    | nil => exact ⟨rfl, (List.cons.inj h).2⟩
    | cons p' ps' =>
      rw [bodyText_cons_append] at h
      exact absurd h (p'.text_ne_quote _ _)
  | cons p ps ih =>
    cases ps' with
    | nil =>
      rw [bodyText_cons_append] at h
      exact absurd h.symm (p.text_ne_quote _ _)
    | cons p' ps' =>
      rw [bodyText_cons_append, bodyText_cons_append] at h
      obtain ⟨rfl, htail⟩ := Piece.append_inj h
      obtain ⟨rfl, hrest⟩ := ih htail
      exact ⟨rfl, hrest⟩

/-! The first character tells what kind of terminal it is. -/

inductive Kind
  | word | number | quoted | mark
deriving DecidableEq

def Kind.ofChar (c : Char) : Kind :=
  if startsIdent c then .word
  else if c = '-' ∨ c.isDigit then .number
  else if c = '"' then .quoted
  else .mark

theorem isUpper_iff_toNat {c : Char} : c.isUpper = true ↔ 65 ≤ c.toNat ∧ c.toNat ≤ 90 :=
  decide_eq_true_iff.trans (and_congr UInt32.le_iff_toNat_le UInt32.le_iff_toNat_le)

theorem isLower_iff_toNat {c : Char} : c.isLower = true ↔ 97 ≤ c.toNat ∧ c.toNat ≤ 122 :=
  Bool.and_eq_true_iff.trans (and_congr (decide_eq_true_iff.trans UInt32.le_iff_toNat_le)
    (decide_eq_true_iff.trans UInt32.le_iff_toNat_le))

theorem isAlpha_iff {c : Char} : c.isAlpha = true ↔ c.isUpper = true ∨ c.isLower = true :=
  Bool.or_eq_true_iff

theorem startsIdent_iff_toNat {c : Char} : startsIdent c = true ↔
    (65 ≤ c.toNat ∧ c.toNat ≤ 90) ∨ (97 ≤ c.toNat ∧ c.toNat ≤ 122) ∨ c.toNat = 95 := by
  rw [startsIdent, Bool.or_eq_true, isAlpha_iff, isUpper_iff_toNat, isLower_iff_toNat, or_assoc,
    beq_iff_eq, ← Char.toNat_inj]
  rfl

theorem not_startsIdent_of_isDigit {c : Char} (h : c.isDigit = true) : startsIdent c = false := by
  have hle : c.toNat ≤ 57 := (Char.isDigit_iff_toNat.mp h).2
  refine Bool.eq_false_iff.mpr (fun hstarts => ?_)
  have hletter := startsIdent_iff_toNat.mp hstarts
  omega

theorem IsPath.exists_cons {p : List Char} (h : IsPath p) :
    ∃ c rest, p = c :: rest ∧ startsIdent c = true := by
  have of_ident {i : List Char} (hi : IsIdent i) :
      ∃ c rest, i = c :: rest ∧ startsIdent c = true := by
    cases i with
    | nil => exact hi.elim
    | cons c rest => exact ⟨c, rest, rfl, hi.1⟩
  cases h with
  | one hi => exact of_ident hi
  | dot hi _ =>
    obtain ⟨c, rest, rfl, hc⟩ := of_ident hi
    exact ⟨c, _, rfl, hc⟩

namespace Terminal

def kind : Terminal → Kind
  | word _ => .word
  | number _ => .number
  | quoted _ => .quoted
  | mark _ => .mark

theorem exists_cons (t : Terminal) : ∃ c rest, t.text = c :: rest ∧ Kind.ofChar c = t.kind := by
  cases t with
  | word w =>
    obtain ⟨c, rest, hw, hc⟩ := w.isPath.exists_cons
    exact ⟨c, rest, hw, by rw [Kind.ofChar, if_pos hc]; rfl⟩
  | number n =>
    obtain ⟨c, rest, hd, hc⟩ := n.whole.exists_cons
    cases hneg : n.negative with
    | false =>
      refine ⟨c, _, by simp [text, Numeral.text, Numeral.signText, hneg, hd]; rfl, ?_⟩
      simp [Kind.ofChar, not_startsIdent_of_isDigit hc, hc, kind]
    | true => exact ⟨'-', _, by simp [text, Numeral.text, Numeral.signText, hneg]; rfl, rfl⟩
  | quoted ps => exact ⟨'"', _, rfl, rfl⟩
  | mark m => exact ⟨m.char, [], rfl, by cases m <;> rfl⟩

theorem kind_eq_of_append_eq {t t' : Terminal} {r r' : List Char}
    (h : t.text ++ r = t'.text ++ r') : t.kind = t'.kind := by
  obtain ⟨c, rest, ht, hc⟩ := t.exists_cons
  obtain ⟨c', rest', ht', hc'⟩ := t'.exists_cons
  rw [ht, ht'] at h
  rw [← hc, ← hc', (List.cons.inj h).1]

theorem eq_of_text_eq {t t' : Terminal} (h : t.text = t'.text) : t = t' := by
  have hkind : t.kind = t'.kind :=
    kind_eq_of_append_eq (congrArg (· ++ []) h)
  cases t with
  | word w =>
    cases t' with
    | word w' =>
      cases w
      cases w'
      cases h
      rfl
    | _ => cases hkind
  | number n =>
    cases t' with
    | number n' => rw [Numeral.eq_of_text_eq h]
    | _ => cases hkind
  | quoted ps =>
    cases t' with
    | quoted ps' => rw [(bodyText_append_inj (List.cons.inj h).2).1]
    | _ => cases hkind
  | mark m =>
    cases t' with
    | mark m' => cases m <;> cases m' <;> first | rfl | cases h
    | _ => cases hkind

end Terminal

/-! No terminal starts with a blank or a point. -/

theorem isBlank_of_isSpace {c : Char} (h : isSpace c = true) : Text.isBlank c = true := by
  simp only [isSpace, Bool.or_eq_true, beq_iff_eq] at h
  rcases h with ((rfl | rfl) | rfl) | rfl <;> rfl

theorem Kind.ofChar_of_isBlank {c : Char} (h : Text.isBlank c = true) : Kind.ofChar c = .mark := by
  have hcode : c.toNat ≤ 32 ∨ 127 < c.toNat := by
    simp [Text.isBlank] at h
    omega
  have ne_of_code {d : Char} (hd : ¬ (d.toNat ≤ 32 ∨ 127 < d.toNat)) : c ≠ d :=
    fun hc => hd (hc ▸ hcode)
  rw [Kind.ofChar, if_neg, if_neg, if_neg]
  · exact ne_of_code (by decide)
  · rintro (hminus | hdigit)
    · exact ne_of_code (by decide) hminus
    · have hrange : 48 ≤ c.toNat ∧ c.toNat ≤ 57 := Char.isDigit_iff_toNat.mp hdigit
      omega
  · intro hstarts
    have hletter := startsIdent_iff_toNat.mp hstarts
    omega

theorem Terminal.exists_cons_not_blank (t : Terminal) :
    ∃ c rest, t.text = c :: rest ∧ Text.isBlank c = false ∧ c ≠ '.' := by
  obtain ⟨c, rest, htext, hkind⟩ := t.exists_cons
  refine ⟨c, rest, htext, ?_⟩
  cases t with
  | mark m =>
    cases htext
    cases m <;> decide
  | _ =>
    refine ⟨Bool.eq_false_iff.mpr (fun hc => ?_), fun hc => ?_⟩
    · rw [Kind.ofChar_of_isBlank hc] at hkind
      cases hkind
    · subst hc
      cases hkind

theorem Terminal.exists_cons_not_space (t : Terminal) :
    ∃ c rest, t.text = c :: rest ∧ isSpace c = false := by
  obtain ⟨c, rest, htext, hblank, -⟩ := t.exists_cons_not_blank
  refine ⟨c, rest, htext, Bool.eq_false_iff.mpr (fun hc => ?_)⟩
  rw [isBlank_of_isSpace hc] at hblank
  cases hblank

end FlagGovernance.Query
