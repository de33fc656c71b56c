import FlagGovernance.Proofs.Refusal
import FlagGovernance.Time.Strict
/-
Written moments, read again.

A moment is written with all its digits, so the RFC 3339 form gives it back, leap
seconds and fractions included.  The one thing that form cannot tell is a year that
does not have four digits.
-/

namespace FlagGovernance

theorem daysInMonth_le (year : Int) (month : Nat) : daysInMonth year month ≤ 31 := by
  unfold daysInMonth
  repeat' split
  all_goals decide

theorem Date.month_le (d : Date) : d.month ≤ 12 := by
  obtain ⟨_, _, hfirst, hlast⟩ := d.exists_in_calendar
  rcases Nat.lt_or_ge 12 d.month with hpast | hmonth
  · have hnone : daysInMonth d.year d.month = 0 := by
      unfold daysInMonth
      split <;> omega
    omega
  · exact hmonth

namespace DateReading

theorem mark_cons (c : Char) (rest : List Char) : mark c (c :: rest) = .ok ((), rest) :=
  if_pos rfl

theorem valueOf_eq_ofDigitChars (digits : List Char) :
    valueOf digits = Nat.ofDigitChars 10 digits 0 := by
  rw [valueOf, Nat.ofDigitChars_eq_foldl]
  congr 1
  funext n c
  rw [Nat.mul_comm]
  rfl

/-- A run of digits is taken whole where nothing more can be taken. -/
theorem digits_append {least most : Nat} {found rest : List Char}
    (hdigits : ∀ c ∈ found, c.isDigit = true) (hleast : least ≤ found.length)
    (hmost : found.length ≤ most)
    (hend : found.length = most ∨ ∀ c ∈ rest.head?, c.isDigit = false) :
    digits least most (found ++ rest) = .ok (found, rest) := by
  have htake : ((found ++ rest).takeWhile Char.isDigit).take most = found := by
    rw [List.takeWhile_append_of_pos hdigits]
    rcases hend with hfull | hstop
    · rw [← hfull]
      exact List.take_left
    · have hnone : rest.takeWhile Char.isDigit = [] := by
        cases rest with
        | nil => rfl
        | cons c rest => exact List.takeWhile_cons_of_neg (by simp [hstop c rfl])
      rw [hnone, List.append_nil]
      exact List.take_of_length_le hmost
  simp only [digits, htake, if_pos hleast, List.drop_left]

end DateReading

namespace Instant

open DateReading

theorem toList_padded (width n : Nat) :
    (padded width n).toList =
      List.replicate (width - (Nat.toDigits 10 n).length) '0' ++ Nat.toDigits 10 n := by
  simp only [padded, String.toList_append, String.toList_ofList, ← String.length_toList,
    Nat.toString_eq_repr, Nat.toList_repr]

theorem length_padded {width n : Nat} (hwidth : 0 < width) (hn : n < Nat.pow 10 width) :
    (padded width n).toList.length = width := by
  have hle : (Nat.toDigits 10 n).length ≤ width :=
    (Nat.length_toDigits_le_iff (by decide) hwidth).2 hn
  rw [toList_padded, List.length_append, List.length_replicate]
  omega

theorem isDigit_of_mem_padded {width n : Nat} {c : Char} (hc : c ∈ (padded width n).toList) :
    c.isDigit = true := by
  rw [toList_padded, List.mem_append] at hc
  rcases hc with hzero | hdigit
  · rw [List.eq_of_mem_replicate hzero]
    rfl
  · exact Nat.isDigit_of_mem_toDigits (by decide) (by decide) hdigit

theorem valueOf_padded (width n : Nat) : valueOf (padded width n).toList = n := by
  rw [valueOf_eq_ofDigitChars, toList_padded, Nat.ofDigitChars_append,
    Nat.ofDigitChars_replicate_zero, Nat.mul_zero, Nat.ofDigitChars_ten_toDigits]

theorem number_padded {least width low high n : Nat} (hwidth : 0 < least ∧ least ≤ width)
    (hwide : high < Nat.pow 10 width) (hlow : low ≤ n) (hhigh : n ≤ high) (rest : List Char) :
    number least width low high ((padded width n).toList ++ rest) = .ok (n, rest) := by
  obtain ⟨hleast, hmost⟩ := hwidth
  have hlength := length_padded (Nat.lt_of_lt_of_le hleast hmost) (Nat.lt_of_le_of_lt hhigh hwide)
  have hdigits : digits least width ((padded width n).toList ++ rest) =
      .ok ((padded width n).toList, rest) :=
    digits_append (fun _ => isDigit_of_mem_padded) (Nat.le_trans hmost (Nat.le_of_eq hlength.symm))
      (Nat.le_of_eq hlength) (.inl hlength)
  rw [number, hdigits]
  simp only [bind, Except.bind, valueOf_padded, hlow, hhigh, and_self, if_true]
  rfl

/-- A fraction written to some place is read in nanoseconds. -/
theorem fraction_padded {width n : Nat} (hwidth : 0 < width) (hle : width ≤ 9)
    (hn : n < Nat.pow 10 width) :
    fraction ('.' :: ((padded width n).toList ++ ['Z'])) =
      .ok (n * Nat.pow 10 (9 - width), ['Z']) := by
  have hlength := length_padded hwidth hn
  have hdigits : digits 1 9 ((padded width n).toList ++ ['Z']) =
      .ok ((padded width n).toList, ['Z']) :=
    digits_append (fun _ => isDigit_of_mem_padded) (by omega) (by omega) (.inr (by simp))
  have hrest : ((padded width n).toList ++ ['Z']).dropWhile Char.isDigit = ['Z'] := by
    rw [List.dropWhile_append_of_pos (fun _ => isDigit_of_mem_padded)]
    rfl
  rw [fraction, hdigits]
  simp only [bind, Except.bind, valueOf_padded, hlength, hrest]
  rfl

theorem fraction_fractionText {nano : Nat} (hnano : nano < 1000000000) :
    fraction ((fractionText nano).toList ++ ['Z']) = .ok (nano, ['Z']) := by
  rw [fractionText]
  split
  · next hzero =>
    subst hzero
    rfl
  split
  · next hmillis =>
    have hn : nano / 1000000 < Nat.pow 10 3 := Nat.div_lt_of_lt_mul hnano
    have hscaled : nano / 1000000 * Nat.pow 10 6 = nano :=
      Nat.div_mul_cancel (Nat.dvd_of_mod_eq_zero hmillis)
    rw [String.toList_append]
    refine (fraction_padded (by decide) (by decide) hn).trans ?_
    rw [hscaled]
  split
  · next hmicros =>
    have hn : nano / 1000 < Nat.pow 10 6 := Nat.div_lt_of_lt_mul hnano
    have hscaled : nano / 1000 * Nat.pow 10 3 = nano :=
      Nat.div_mul_cancel (Nat.dvd_of_mod_eq_zero hmicros)
    rw [String.toList_append]
    refine (fraction_padded (by decide) (by decide) hn).trans ?_
    rw [hscaled]
  · rw [String.toList_append]
    refine (fraction_padded (by decide) (by decide) hnano).trans ?_
    rw [show nano * Nat.pow 10 (9 - 9) = nano from Nat.mul_one nano]

/-- The year has four digits. -/
def HasPlainYear (i : Instant) : Prop := 0 ≤ i.date.year ∧ i.date.year ≤ 9999

instance (i : Instant) : Decidable i.HasPlainYear := by
  unfold HasPlainYear; infer_instance

theorem yearText_of_plain {year : Int} (hyear : 0 ≤ year ∧ year ≤ 9999) :
    yearText year = padded 4 year.toNat := by
  rw [yearText, if_pos hyear]

/-- A year of any other length starts with its sign. -/
theorem yearText_of_not_plain {year : Int} (hyear : ¬ (0 ≤ year ∧ year ≤ 9999)) :
    ∃ sign digits, (yearText year).toList = sign :: digits ∧ sign.isDigit = false := by
  rw [yearText, if_neg hyear, String.toList_append]
  split
  · exact ⟨'-', _, rfl, rfl⟩
  · exact ⟨'+', _, rfl, rfl⟩

theorem number_of_not_digit {c : Char} (hc : c.isDigit = false) (least most low high : Nat)
    (rest : List Char) (n : Nat × List Char) :
    number (least + 1) most low high (c :: rest) ≠ .ok n := by
  have hnone : (c :: rest).takeWhile Char.isDigit = [] :=
    List.takeWhile_cons_of_neg (by simp [hc])
  intro hok
  obtain ⟨found, hfound, _⟩ := bind_eq_ok_iff.1 hok
  rw [digits, hnone, List.take_nil] at hfound
  split at hfound
  · next hleast => exact Nat.not_succ_le_zero least hleast
  · split at hfound <;> contradiction

/-- The parts that the text of a moment spells. -/
def parts (i : Instant) : Parts where
  year := i.date.year
  month := i.date.month
  day := i.date.day
  hour := i.second / 3600
  minute := i.second / 60 % 60
  second := i.secondOfMinute
  nano := i.nano % 1000000000
  offset := 0

theorem secondOfMinute_eq (i : Instant) :
    (i.nano < 1000000000 ∧ i.secondOfMinute = i.second % 60) ∨
      (1000000000 ≤ i.nano ∧ i.secondOfMinute = 60 ∧ i.second % 60 = 59) := by
  obtain ⟨date, second, nano, hsecond, hnano, hleap⟩ := i
  simp only [secondOfMinute]
  by_cases hlong : 1000000000 ≤ nano
  · have := hleap hlong
    exact .inr ⟨hlong, by omega, this⟩
  · exact .inl ⟨by omega, by omega⟩

theorem ofLocal?_zero (date : Date) (second nano : Nat) (h : isClockReading second nano) :
    ofLocal? date second nano 0 h = some ⟨date, second, nano, h⟩ := by
  have hsecond := h.1
  have hshift : ((second : Int) - 60 * 0) = second := by omega
  have hclock : ((second : Int) % 86400).toNat = second := by omega
  simp only [ofLocal?, hshift, hclock]
  rw [if_neg (by omega), if_neg (by omega)]
  rfl

theorem instant_of_clock {p : Parts} {date : Date} {second nano : Nat}
    (hdate : Date.of? p.year p.month p.day = some date) (hoffset : p.offset = 0)
    (hsecond : p.hour * 3600 + p.minute * 60 + min p.second 59 = second)
    (hnano : (if p.second = 60 then p.nano + 1000000000 else p.nano) = nano)
    (hclock : isClockReading second nano) : p.instant = .ok ⟨date, second, nano, hclock⟩ := by
  subst hsecond hnano
  simp only [Parts.instant, hdate, hoffset, dif_pos hclock, ofLocal?_zero]
  rfl

theorem instant_parts (i : Instant) : i.parts.instant = .ok i := by
  have hparts := i.secondOfMinute_eq
  obtain ⟨hday, hnano, _⟩ := i.on_clock
  refine instant_of_clock i.date.of?_self rfl ?_ ?_ i.on_clock
  · simp only [parts]
    omega
  · change (if i.secondOfMinute = 60 then i.nano % 1000000000 + 1000000000
      else i.nano % 1000000000) = i.nano
    rcases hparts with ⟨hshort, hsecond⟩ | ⟨hlong, hsecond, _⟩
    · rw [if_neg (by omega)]
      exact Nat.mod_eq_of_lt hshort
    · rw [if_pos hsecond]
      omega

/-- The text of a moment after its year. -/
def restText (i : Instant) : List Char :=
  '-' :: ((padded 2 i.date.month).toList ++ ('-' :: ((padded 2 i.date.day).toList ++ ('T' ::
    ((padded 2 (i.second / 3600)).toList ++ (':' :: ((padded 2 (i.second / 60 % 60)).toList ++
      (':' :: ((padded 2 i.secondOfMinute).toList ++
        ((fractionText (i.nano % 1000000000)).toList ++ ['Z']))))))))))

theorem toList_text (i : Instant) : i.text.toList = (yearText i.date.year).toList ++ i.restText := by
  have hdash : "-".toList = ['-'] := rfl
  have hcolon : ":".toList = [':'] := rfl
  have htime : "T".toList = ['T'] := rfl
  have hzone : "Z".toList = ['Z'] := rfl
  simp only [text, restText, String.toList_append, List.append_assoc, hdash, hcolon, htime, hzone,
    List.cons_append, List.nil_append]

theorem ofRfc3339_text_of_plain {i : Instant} (hyear : i.HasPlainYear) :
    ofRfc3339 i.text = .ok i := by
  have hmonth := i.date.month_le
  have hmonth₀ := i.date.month_pos
  obtain ⟨_, _, hday₀, hday⟩ := i.date.exists_in_calendar
  have hdays := daysInMonth_le i.date.year i.date.month
  have hsecond := i.on_clock.1
  have hparts := i.secondOfMinute_eq
  obtain ⟨hlow, hhigh⟩ := hyear
  rw [ofRfc3339, toList_text, yearText_of_plain ⟨hlow, hhigh⟩]
  refine (bind_of_ok (number_padded (by decide) (by decide) (by omega) (by omega) _) _).trans ?_
  refine (bind_of_ok (mark_cons '-' _) _).trans ?_
  refine (bind_of_ok (number_padded (by decide) (by decide) (by omega) (by omega) _) _).trans ?_
  refine (bind_of_ok (mark_cons '-' _) _).trans ?_
  refine (bind_of_ok (number_padded (by decide) (by decide) (by omega) (by omega) _) _).trans ?_
  refine (bind_of_ok (a := ((), _)) rfl _).trans ?_
  refine (bind_of_ok (number_padded (by decide) (by decide) (by omega) (by omega) _) _).trans ?_
  refine (bind_of_ok (mark_cons ':' _) _).trans ?_
  refine (bind_of_ok (number_padded (by decide) (by decide) (by omega) (by omega) _) _).trans ?_
  refine (bind_of_ok (mark_cons ':' _) _).trans ?_
  refine (bind_of_ok (number_padded (by decide) (by decide) (by omega) (by omega) _) _).trans ?_
  refine (bind_of_ok (fraction_fractionText (by omega)) _).trans ?_
  rw [← i.instant_parts, parts, Int.toNat_of_nonneg hlow]
  rfl

/-- The RFC 3339 form reads what a moment is written as, unless its year does not
have four digits. -/
theorem answersIf_ofRfc3339_text (i : Instant) :
    AnswersIf (ofRfc3339 i.text) i.HasPlainYear i := by
  intro j
  by_cases hyear : i.HasPlainYear
  · rw [ofRfc3339_text_of_plain hyear, and_iff_right hyear, Except.ok.injEq]
  · obtain ⟨sign, digits, htext, hsign⟩ := yearText_of_not_plain hyear
    refine iff_of_false (fun hok => ?_) (fun h => hyear h.1)
    rw [ofRfc3339, toList_text, htext, List.cons_append] at hok
    obtain ⟨n, hn, _⟩ := bind_eq_ok_iff.1 hok
    exact number_of_not_digit hsign _ _ _ _ _ _ hn

end Instant

end FlagGovernance
