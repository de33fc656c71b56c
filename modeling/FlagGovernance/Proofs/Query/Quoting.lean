import FlagGovernance.Proofs.Query.Parsing
/-
Strings as they are written between quotes.

A character can be written as itself, by an escape of one letter or by the escape of its
code point in four hexadecimal digits, unless a string cannot hold it so.  However its
characters are written, a string is read back; and the only escape that stands for no
character is that of half a surrogate pair.
-/

namespace FlagGovernance

namespace Text

theorem hexDigit_mod (n : Nat) : hexDigit (n % 16) = hexDigit n :=
  congrArg Nat.digitChar (Nat.mod_mod n 16)

theorem hexValue?_bounds {c : Char} {v : Nat} (h : hexValue? c = some v) :
    v < 16 ∧ c.toNat < 128 := by
  simp only [hexValue?] at h
  by_cases hdecimal : 48 ≤ c.toNat ∧ c.toNat ≤ 57
  · rw [if_pos hdecimal, Option.some.injEq] at h
    omega
  · by_cases hcapital : 65 ≤ c.toNat ∧ c.toNat ≤ 70
    · rw [if_neg hdecimal, if_pos hcapital, Option.some.injEq] at h
      omega
    · by_cases hsmall : 97 ≤ c.toNat ∧ c.toNat ≤ 102
      · rw [if_neg hdecimal, if_neg hcapital, if_pos hsmall, Option.some.injEq] at h
        omega
      · rw [if_neg hdecimal, if_neg hcapital, if_neg hsmall] at h
        cases h

/-- The digits of either case that have a value. -/
theorem hexValue?_eq_some_iff {c : Char} {v : Nat} :
    hexValue? c = some v ↔ v < 16 ∧ c.toLower = hexDigit v := by
  have hascii : ∀ code < 128, ∀ v < 16, hexValue? (Char.ofNat code) = some v ↔
      (Char.ofNat code).toLower = hexDigit v := by decide +kernel
  by_cases hc : c.toNat < 128
  · have hdigit := hascii c.toNat hc
    rw [Char.ofNat_toNat] at hdigit
    exact ⟨fun h => ⟨(hexValue?_bounds h).1, (hdigit v (hexValue?_bounds h).1).mp h⟩,
      fun h => (hdigit v h.1).mpr h.2⟩
  · refine ⟨fun h => absurd (hexValue?_bounds h).2 hc, fun ⟨_, hlower⟩ => ?_⟩
    have hsame : c.toLower = c := dif_neg fun hrange => hc (by
      have hupper := Query.isUpper_iff_toNat.mp (decide_eq_true hrange)
      omega)
    have hvalue := hexValue?_hexDigit v
    rw [← hlower, hsame] at hvalue
    exact absurd (hexValue?_bounds hvalue).2 hc

end Text

namespace Query

/-- A code point in four hexadecimal digits. -/
def fourDigits (code : Nat) : List Char :=
  [Text.hexDigit (code / 4096), Text.hexDigit (code / 256), Text.hexDigit (code / 16),
    Text.hexDigit code]

/-- The escape of a code point, in four digits of any case. -/
def IsCodeEscape (code : Nat) (written : List Char) : Prop :=
  code < 0x10000 ∧ ∃ digits, Text.lowerAscii digits = fourDigits code ∧
    written = '\\' :: 'u' :: digits

theorem hexUnit?_eq_some_iff {a b c d : Char} {code : Nat} :
    Json.hexUnit? [a, b, c, d] = some (code, []) ↔
      code < 0x10000 ∧ Text.lowerAscii [a, b, c, d] = fourDigits code := by
  simp only [Json.hexUnit?, Option.bind_eq_bind, Option.bind_eq_some_iff, Option.pure_def,
    Option.some.injEq, Prod.mk.injEq, and_true, Text.hexValue?_eq_some_iff, Text.lowerAscii,
    List.map_cons, List.map_nil, fourDigits, List.cons.injEq]
  constructor
  · rintro ⟨va, ⟨ha, hla⟩, vb, ⟨hb, hlb⟩, vc, ⟨hc, hlc⟩, vd, ⟨hd, hld⟩, rfl⟩
    rw [hla, hlb, hlc, hld]
    refine ⟨by omega, ?_, ?_, ?_, ?_⟩ <;> exact congrArg Nat.digitChar (by omega)
  · rintro ⟨hcode, hla, hlb, hlc, hld⟩
    have hlow (n : Nat) : n % 16 < 16 := Nat.mod_lt n (by decide)
    exact ⟨_, ⟨hlow _, by rw [hla, Text.hexDigit_mod]⟩, _, ⟨hlow _, by rw [hlb, Text.hexDigit_mod]⟩,
      _, ⟨hlow _, by rw [hlc, Text.hexDigit_mod]⟩, _, ⟨hlow _, by rw [hld, Text.hexDigit_mod]⟩,
      by omega⟩

theorem IsCodeEscape.exists_unit {code : Nat} {written : List Char}
    (h : IsCodeEscape code written) :
    ∃ a b c d, written = ['\\', 'u', a, b, c, d] ∧
      Json.hexUnit? [a, b, c, d] = some (code, []) := by
  obtain ⟨hcode, digits, hdigits, rfl⟩ := h
  obtain ⟨a, b, c, d, rfl⟩ : ∃ a b c d, digits = [a, b, c, d] := by
    have hmap := hdigits
    simp only [Text.lowerAscii, fourDigits, List.map_eq_cons_iff, List.map_eq_nil_iff] at hmap
    obtain ⟨a, _, rfl, -, b, _, rfl, -, c, _, rfl, -, d, _, rfl, -, rfl⟩ := hmap
    exact ⟨a, b, c, d, rfl⟩
  exact ⟨a, b, c, d, rfl, hexUnit?_eq_some_iff.mpr ⟨hcode, hdigits⟩⟩

/-- The characters that have an escape of one letter, each with the letter. -/
def letterEscapes : List (Char × Char) :=
  [('"', '"'), ('\\', '\\'), ('/', '/'), ('\x08', 'b'), ('\x0c', 'f'), ('\n', 'n'), ('\r', 'r'),
    ('\t', 't')]

/-- The ways to write a character between quotes. -/
inductive Writes (c : Char) : List Char → Prop
  | plain (hc : c ≠ '"' ∧ c ≠ '\\') : Writes c [c]
  | letter {e : Char} (he : (c, e) ∈ letterEscapes) : Writes c ['\\', e]
  | code {written : List Char} (hcode : IsCodeEscape c.toNat written) : Writes c written

/-- The ways to write a string between quotes: each character in one of its own. -/
inductive WritesAll : List Char → List Char → Prop
  | nil : WritesAll [] []
  | cons {c : Char} {cs written body : List Char} (hc : Writes c written)
      (hcs : WritesAll cs body) : WritesAll (c :: cs) (written ++ body)

theorem Writes.exists_piece {c : Char} {written : List Char} (h : Writes c written) :
    ∃ p : Piece, p.text = written ∧ p.char = c ∧ ¬ p.surrogate := by
  cases h with
  | plain hc => exact ⟨.plain c hc, rfl, rfl, id⟩
  | @letter e he =>
      have hmeant : ∀ pair ∈ letterEscapes, Json.simpleEscape? pair.2 = some pair.1 := by decide
      exact ⟨.escape e c (hmeant _ he), rfl, rfl, id⟩
  | code hcode =>
      obtain ⟨x, y, z, w, rfl, hunit⟩ := hcode.exists_unit
      refine ⟨.unit x y z w c.toNat hunit, rfl, Char.ofNat_toNat c, fun hhalf => ?_⟩
      -- A character is no half of a surrogate pair.
      have hvalid : c.toNat.isValidChar := c.valid
      rcases hvalid with hlow | ⟨hhigh, -⟩
      · exact absurd hhalf.1 (by omega)
      · exact absurd hhalf.2 (by omega)

theorem WritesAll.exists_pieces {cs body : List Char} (h : WritesAll cs body) :
    ∃ ps : List Piece, bodyText ps = body ∧ ps.map Piece.char = cs ∧ ∀ p ∈ ps, ¬ p.surrogate := by
  induction h with
  | nil => exact ⟨[], rfl, rfl, nofun⟩
  | cons hc hcs ih =>
      obtain ⟨p, rfl, rfl, hp⟩ := hc.exists_piece
      obtain ⟨ps, rfl, rfl, hps⟩ := ih
      exact ⟨p :: ps, rfl, rfl, List.forall_mem_cons.mpr ⟨hp, hps⟩⟩

/-- The text between quotes is the body of one string. -/
def IsBody (body : List Char) : Prop :=
  stringLiteral ('"' :: (body ++ ['"'])) = some (body, [])

instance (body : List Char) : Decidable (IsBody body) :=
  inferInstanceAs (Decidable (_ = _))

theorem isBody_iff {body : List Char} : IsBody body ↔ ∃ ps, bodyText ps = body := by
  constructor
  · intro h
    obtain ⟨ps, -, hbody⟩ := stringLiteral_takesLongest.eq_some_iff.mp h
    exact ⟨ps, hbody⟩
  · rintro ⟨ps, rfl⟩
    exact stringLiteral_takesLongest.eq_some_iff.mpr ⟨ps, leads_alone (.quoted ps), rfl⟩

/-- Somewhere an escape of half a surrogate pair begins. -/
def HoldsHalf (body : List Char) : Prop :=
  ∃ front written rest code, body = front ++ (written ++ rest) ∧ IsBody front ∧
    IsCodeEscape code written ∧ 0xD800 ≤ code ∧ code < 0xE000

theorem unescape_append_eq_none (ps : List Piece) {rest : List Char} (h : unescape rest = none) :
    unescape (bodyText ps ++ rest) = none := by
  induction ps with
  | nil => exact h
  | cons p ps ih =>
      rw [bodyText_cons_append, Option.eq_none_iff_forall_ne_some]
      intro cs hread
      obtain ⟨-, more, hmore, -⟩ := (unescape_piece p).mp hread
      rw [ih] at hmore
      cases hmore

theorem unescape_eq_none_iff {body : List Char} (hbody : IsBody body) :
    unescape body = none ↔ HoldsHalf body := by
  constructor
  · obtain ⟨ps, rfl⟩ := isBody_iff.mp hbody
    intro hnone
    obtain ⟨p, hmem, hp⟩ : ∃ p ∈ ps, p.surrogate := by
      refine Classical.byContradiction fun hnot => ?_
      have hclean : ∀ p ∈ ps, ¬ p.surrogate := fun p hmem hp => hnot ⟨p, hmem, hp⟩
      rw [unescape_bodyText_eq_some_iff.mpr ⟨hclean, rfl⟩] at hnone
      cases hnone
    obtain ⟨before, after, rfl⟩ := List.mem_iff_append.mp hmem
    cases p with
    | unit a b c d code hcode =>
        obtain ⟨hlimit, hdigits⟩ := hexUnit?_eq_some_iff.mp hcode
        refine ⟨bodyText before, _, bodyText after, code, ?_, isBody_iff.mpr ⟨before, rfl⟩,
          ⟨hlimit, _, hdigits, rfl⟩, hp⟩
        simp [bodyText, Piece.text]
    | _ => exact hp.elim
  · rintro ⟨front, written, rest, code, rfl, hfront, hcode, hhalf⟩
    obtain ⟨ps, rfl⟩ := isBody_iff.mp hfront
    obtain ⟨a, b, c, d, rfl, hunit⟩ := hcode.exists_unit
    refine unescape_append_eq_none ps (Option.eq_none_iff_forall_ne_some.mpr fun cs hread => ?_)
    exact ((unescape_piece (.unit a b c d code hunit)).mp hread).1 hhalf

/-- However a string is written between quotes, it is read back; and the body of a string
stands for no text just when it has an escape of half a surrogate pair. -/
theorem quoted_reads_back :
    (∀ s body : String, WritesAll s.toList body.toList →
      parse ("a eq \"" ++ body ++ "\"") = .ok (.compare "a" .eq (.string s))) ∧
    ∀ body, IsBody body → (unescape body = none ↔ HoldsHalf body) := by
  refine ⟨fun s body hwrites => ?_, fun body => unescape_eq_none_iff⟩
  obtain ⟨ps, hbody, hchars, hclean⟩ := hwrites.exists_pieces
  have htext : "a eq \"" ++ body ++ "\"" = "a eq " ++ String.ofList (Terminal.quoted ps).text := by
    apply String.toList_inj.mp
    simp [Terminal.text, hbody]
  have hvalue : (Scalar.string ps).literal = .string s := by
    rw [Scalar.literal, hchars, String.ofList_toList]
  rw [htext, ← hvalue]
  exact parse_equalsScalar (s := .string ps) hclean

namespace Sample

/-- A backslash, the letter `u`, a quote and an accented letter. -/
def mixedText : String := "\\u\"\u00e9"

def mixedBody : String := "\\\\u\\\"\\u00E9"

/-- The first `u` is behind an escaped backslash, the second begins an escape. -/
def halfBody : List Char := "\\\\uD800\\ud83D".toList

end Sample

theorem mixed_escapes_read_back :
    WritesAll Sample.mixedText.toList Sample.mixedBody.toList ∧
    parse ("a eq \"" ++ Sample.mixedBody ++ "\"") =
      .ok (.compare "a" .eq (.string Sample.mixedText)) ∧
    IsBody Sample.halfBody ∧ unescape Sample.halfBody = none ∧ HoldsHalf Sample.halfBody := by
  have hbackslash : Writes '\\' ['\\', '\\'] := .letter (by decide)
  have hletter : Writes 'u' ['u'] := .plain (by decide)
  have hquote : Writes '"' ['\\', '"'] := .letter (by decide)
  have haccent : Writes '\u00e9' ['\\', 'u', '0', '0', 'E', '9'] :=
    .code ⟨by decide, ['0', '0', 'E', '9'], by decide, rfl⟩
  have hwrites : WritesAll Sample.mixedText.toList Sample.mixedBody.toList :=
    .cons hbackslash (.cons hletter (.cons hquote (.cons haccent .nil)))
  have hbody : IsBody Sample.halfBody := by decide +kernel
  have hnone : unescape Sample.halfBody = none := by decide +kernel
  exact ⟨hwrites, quoted_reads_back.1 _ _ hwrites, hbody, hnone,
    (quoted_reads_back.2 _ hbody).mp hnone⟩

end Query

end FlagGovernance
