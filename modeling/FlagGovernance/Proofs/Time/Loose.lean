import FlagGovernance.Proofs.Time.Rfc3339
import FlagGovernance.Time.Lenient
/-
Written moments in the looser form.

A moment is written without blanks and with all its digits, so the looser form reads it
back.  Unlike RFC 3339 it takes a year with a sign, so no year stands in the way.
-/

namespace FlagGovernance

namespace DateReading

theorem isBlank_of_isDigit {c : Char} (hc : c.isDigit = true) : Text.isBlank c = false := by
  have hcode : 48 ≤ c.toNat ∧ c.toNat ≤ 57 := by
    rw [Char.isDigit, Bool.and_eq_true, decide_eq_true_eq, decide_eq_true_eq] at hc
    exact ⟨UInt32.le_iff_toNat_le.1 hc.1, UInt32.le_iff_toNat_le.1 hc.2⟩
  simp only [Text.isBlank, Bool.or_eq_false_iff, Bool.and_eq_false_iff, decide_eq_false_iff_not,
    beq_eq_false_iff_ne]
  omega

theorem skipBlank_cons {c : Char} (hc : Text.isBlank c = false) (rest : List Char) :
    skipBlank (c :: rest) = c :: rest :=
  List.dropWhile_cons_of_neg (by simp [hc])

theorem looseMark_cons {c : Char} (hc : Text.isBlank c = false) (rest : List Char) :
    looseMark c (c :: rest) = .ok ((), rest) := by
  rw [looseMark, skipBlank_cons hc, mark_cons]

end DateReading

namespace Instant

open DateReading

/-- A number that is written starts with a digit. -/
theorem exists_toList_padded (width n : Nat) :
    ∃ c digits, (padded width n).toList = c :: digits ∧ c.isDigit = true := by
  cases hdigits : (padded width n).toList with
  | nil =>
      rw [toList_padded, List.append_eq_nil_iff] at hdigits
      exact absurd hdigits.2 Nat.toDigits_ne_nil
  | cons c digits =>
      exact ⟨c, digits, rfl, isDigit_of_mem_padded (hdigits ▸ List.mem_cons_self)⟩

theorem skipBlank_padded (width n : Nat) (rest : List Char) :
    skipBlank ((padded width n).toList ++ rest) = (padded width n).toList ++ rest := by
  obtain ⟨c, digits, hdigits, hc⟩ := exists_toList_padded width n
  rw [hdigits, List.cons_append, skipBlank_cons (isBlank_of_isDigit hc)]

theorem shortNumber_padded {low high n : Nat} (hwide : high < 100) (hlow : low ≤ n)
    (hhigh : n ≤ high) (rest : List Char) :
    shortNumber low high ((padded 2 n).toList ++ rest) = .ok (n, rest) := by
  rw [shortNumber, skipBlank_padded]
  exact number_padded (by decide) hwide hlow hhigh rest

theorem looseYear_padded {n : Nat} (hn : n ≤ 9999) (rest : List Char) :
    looseYear ((padded 4 n).toList ++ rest) = .ok ((n : Int), rest) := by
  have hnumber : number 1 4 0 9999 ((padded 4 n).toList ++ rest) = .ok (n, rest) :=
    number_padded (by decide) (by decide) n.zero_le hn rest
  obtain ⟨c, digits, hdigits, hc⟩ := exists_toList_padded 4 n
  rw [hdigits, List.cons_append] at hnumber ⊢
  rw [looseYear, skipBlank_cons (isBlank_of_isDigit hc)]
  split
  · next heq =>
    obtain ⟨rfl, -⟩ := List.cons.inj heq
    contradiction
  · next heq =>
    obtain ⟨rfl, -⟩ := List.cons.inj heq
    contradiction
  · rw [hnumber]
    rfl

/-- After a sign all digits up to the next dash are the year's. -/
theorem digits_year (n : Nat) (rest : List Char) :
    digits 1 ((padded 4 n).toList ++ '-' :: rest).length ((padded 4 n).toList ++ '-' :: rest) =
      .ok ((padded 4 n).toList, '-' :: rest) := by
  obtain ⟨c, digits, hdigits, _⟩ := exists_toList_padded 4 n
  refine digits_append (fun _ => isDigit_of_mem_padded) ?_ ?_ (.inr ?_)
  · rw [hdigits, List.length_cons]
    omega
  · rw [List.length_append]
    omega
  · rintro c ⟨⟩
    rfl

theorem looseYear_yearText {year : Int} (hlow : firstYear ≤ year) (hhigh : year ≤ lastYear)
    (rest : List Char) : looseYear ((yearText year).toList ++ '-' :: rest) =
      .ok (year, '-' :: rest) := by
  rw [firstYear] at hlow
  rw [lastYear] at hhigh
  by_cases hplain : 0 ≤ year ∧ year ≤ 9999
  · rw [yearText_of_plain hplain, looseYear_padded (by omega), Int.toNat_of_nonneg hplain.1]
  · rw [yearText, if_neg hplain, String.toList_append, List.append_assoc]
    split
    · next hnegative =>
      have hyear : -1 * (year.natAbs : Int) = year := by omega
      rw [show "-".toList = ['-'] from rfl, List.singleton_append]
      simp only [looseYear, skipBlank_cons (c := '-') rfl, digits_year, valueOf_padded, bind,
        Except.bind, hyear]
      exact if_pos (by omega)
    · next hpositive =>
      have hyear : 1 * (year.natAbs : Int) = year := by omega
      rw [show "+".toList = ['+'] from rfl, List.singleton_append]
      simp only [looseYear, skipBlank_cons (c := '+') rfl, digits_year, valueOf_padded, bind,
        Except.bind, hyear]
      exact if_pos (by omega)

/-- The looser form reads what a moment is written as. -/
theorem ofLoose_text (i : Instant) : ofLoose i.text = .ok i := by
  have hmonth := i.date.month_le
  have hmonth₀ := i.date.month_pos
  obtain ⟨hlow, hhigh, hday₀, hday⟩ := i.date.exists_in_calendar
  have hdays := daysInMonth_le i.date.year i.date.month
  have hsecond := i.on_clock.1
  have hparts := i.secondOfMinute_eq
  rw [ofLoose, toList_text]
  refine (bind_of_ok (looseYear_yearText hlow hhigh _) _).trans ?_
  refine (bind_of_ok (looseMark_cons (by decide) _) _).trans ?_
  refine (bind_of_ok (shortNumber_padded (by decide) (by omega) (by omega) _) _).trans ?_
  refine (bind_of_ok (looseMark_cons (by decide) _) _).trans ?_
  refine (bind_of_ok (shortNumber_padded (by decide) (by omega) (by omega) _) _).trans ?_
  refine (bind_of_ok (a := ((), _)) rfl _).trans ?_
  refine (bind_of_ok (shortNumber_padded (by decide) (by omega) (by omega) _) _).trans ?_
  refine (bind_of_ok (looseMark_cons (by decide) _) _).trans ?_
  refine (bind_of_ok (shortNumber_padded (by decide) (by omega) (by omega) _) _).trans ?_
  refine (bind_of_ok (looseMark_cons (by decide) _) _).trans ?_
  refine (bind_of_ok (shortNumber_padded (by decide) (by omega) (by omega) _) _).trans ?_
  refine (bind_of_ok (fraction_fractionText (by omega)) _).trans ?_
  rw [← i.instant_parts, parts]
  rfl

end Instant

end FlagGovernance
