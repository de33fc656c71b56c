import FlagGovernance.Number.Double
/-
Which results are finite.

The level of a double is its power of two as its bits hold it.  Rounding a quotient
gives a level that is bounded by the lengths of the two numbers in bits, whatever the
rounding does, so bounds on levels pass through a quotient.
-/

namespace FlagGovernance.Double

theorem log2_mul_le (m n : Nat) : (m * n).log2 ≤ m.log2 + n.log2 + 1 := by
  by_cases hzero : m * n = 0
  · rw [hzero]
    exact Nat.zero_le _
  · refine Nat.le_of_lt_succ ((Nat.log2_lt hzero).2 ?_)
    calc m * n < 2 ^ (m.log2 + 1) * 2 ^ (n.log2 + 1) :=
          Nat.mul_lt_mul'' Nat.lt_log2_self Nat.lt_log2_self
      _ = 2 ^ (m.log2 + 1 + (n.log2 + 1)) := (Nat.pow_add _ _ _).symm
      _ = 2 ^ (m.log2 + n.log2 + 1 + 1) := congrArg (2 ^ ·) (by omega)

theorem le_log2_mul {m n : Nat} (hm : m ≠ 0) (hn : n ≠ 0) : m.log2 + n.log2 ≤ (m * n).log2 := by
  refine (Nat.le_log2 (Nat.mul_ne_zero hm hn)).2 ?_
  rw [Nat.pow_add]
  exact Nat.mul_le_mul (Nat.log2_self_le hm) (Nat.log2_self_le hn)

/-- The power of two of a magnitude, as the bits hold it. -/
def level (d : Double) : Nat := d.magnitude / fractionLimit

theorem isFinite_iff_level (d : Double) : d.isFinite = true ↔ d.level < 2047 := by
  rw [isFinite, decide_eq_true_iff, level, Nat.div_lt_iff_lt_mul (by decide)]
  rfl

theorem magnitude_ofMagnitude {n : Nat} (hn : n ≤ infiniteMagnitude) (negative : Bool) :
    (ofMagnitude negative n).magnitude = n := by
  rw [magnitude, ofMagnitude, UInt64.toNat_ofNat']
  simp only [signWeight, infiniteMagnitude] at hn ⊢
  cases negative with
  | false =>
      rw [if_neg Bool.false_ne_true]
      omega
  | true =>
      rw [if_pos rfl]
      omega

theorem isFinite_neg {d : Double} (hd : d.isFinite = true) : d.neg.isFinite = true := by
  rw [isFinite, decide_eq_true_iff] at hd ⊢
  rw [neg, magnitude_ofMagnitude (Nat.le_of_lt hd)]
  exact hd

theorem isFinite_zero (negative : Bool) : (ofMagnitude negative 0).isFinite = true := by
  rw [isFinite, magnitude_ofMagnitude (Nat.zero_le _)]
  rfl

theorem roundDiv_le (n d : Nat) : roundDiv n d ≤ n / d + 1 := by
  simp only [roundDiv]
  split
  · exact Nat.le_succ _
  split
  · exact Nat.le_refl _
  · omega

theorem le_roundDiv (n d : Nat) : n / d ≤ roundDiv n d := by
  simp only [roundDiv]
  split
  · exact Nat.le_refl _
  split
  · exact Nat.le_succ _
  · exact Nat.le_add_right _ _

theorem ratioLog2_bounds (n d : Nat) :
    (n.log2 : Int) - d.log2 - 1 ≤ ratioLog2 n d ∧ ratioLog2 n d ≤ (n.log2 : Int) - d.log2 := by
  simp only [ratioLog2]
  split <;> omega

/-- Scaling to at most fifty-four bits. -/
theorem scaleRatio_div_lt {n d : Nat} {k : Int} (hd : d ≠ 0) (hk : n.log2 + k ≤ 53 + d.log2) :
    (scaleRatio n d k).1 / (scaleRatio n d k).2 < 0x40000000000000 := by
  have hn : n < 2 ^ (n.log2 + 1) := Nat.lt_log2_self
  have hleast : 2 ^ d.log2 ≤ d := Nat.log2_self_le hd
  rw [scaleRatio]
  split
  · apply Nat.div_lt_of_lt_mul
    calc n * Nat.pow 2 k.toNat < 2 ^ (n.log2 + 1) * 2 ^ k.toNat :=
          Nat.mul_lt_mul_of_pos_right hn (Nat.two_pow_pos _)
      _ = 2 ^ (n.log2 + 1 + k.toNat) := (Nat.pow_add _ _ _).symm
      _ ≤ 2 ^ (d.log2 + 54) := Nat.pow_le_pow_right (by decide) (by omega)
      _ = 2 ^ d.log2 * 2 ^ 54 := Nat.pow_add _ _ _
      _ ≤ d * 2 ^ 54 := Nat.mul_le_mul_right _ hleast
  · apply Nat.div_lt_of_lt_mul
    calc n < 2 ^ (n.log2 + 1) := hn
      _ ≤ 2 ^ (d.log2 + (-k).toNat + 54) := Nat.pow_le_pow_right (by decide) (by omega)
      _ = 2 ^ d.log2 * 2 ^ (-k).toNat * 2 ^ 54 := by rw [Nat.pow_add, Nat.pow_add]
      _ ≤ d * Nat.pow 2 (-k).toNat * 2 ^ 54 :=
          Nat.mul_le_mul_right _ (Nat.mul_le_mul_right _ hleast)

/-- A quotient rounds to a level that its bits bound. -/
theorem level_ofRatio_le {n d limit : Nat} (hd : d ≠ 0) (hlimit : n.log2 + 1022 ≤ d.log2 + limit)
    (negative : Bool) : (ofRatio negative n d).level ≤ limit + 4 := by
  rw [ofRatio]
  split
  · rw [level, magnitude_ofMagnitude (Nat.zero_le _), Nat.zero_div]
    exact Nat.zero_le _
  · obtain ⟨hleast, hmost⟩ := ratioLog2_bounds n d
    have hround := roundDiv_le (scaleRatio n d (-(max (ratioLog2 n d - 52) (-1074)))).1
      (scaleRatio n d (-(max (ratioLog2 n d - 52) (-1074)))).2
    have hquotient := scaleRatio_div_lt (n := n) (k := -(max (ratioLog2 n d - 52) (-1074))) hd
      (by omega)
    rw [level, magnitude_ofMagnitude (Nat.min_le_right _ _)]
    refine Nat.le_of_lt_succ ((Nat.div_lt_iff_lt_mul (by decide)).2 ?_)
    refine Nat.lt_of_le_of_lt (Nat.min_le_left _ _) ?_
    simp only [fractionLimit]
    omega

theorem significand_lt (d : Double) : d.significand < 0x20000000000000 := by
  have hrest := Nat.mod_lt d.magnitude (show fractionLimit > 0 by decide)
  rw [significand]
  split
  · next hsmall =>
    exact Nat.lt_trans hsmall (by decide)
  · exact Nat.add_lt_add_right hrest fractionLimit

theorem ratio_snd_ne_zero (d : Double) : d.ratio.2 ≠ 0 := by
  rw [ratio, scaleRatio]
  split
  · exact Nat.one_ne_zero
  · rw [Nat.one_mul]
    exact Nat.ne_of_gt (Nat.two_pow_pos _)

/-- The level bounds the bits of a double as a quotient. -/
theorem log2_ratio_le (d : Double) :
    d.ratio.1.log2 + 1022 ≤ d.ratio.2.log2 + max d.level 1 := by
  have hbits : d.significand.log2 ≤ 52 := by
    by_cases hzero : d.significand = 0
    · rw [hzero]
      exact Nat.zero_le _
    · exact Nat.le_of_lt_succ ((Nat.log2_lt hzero).2 d.significand_lt)
  have hexponent : d.exponent = (max d.level 1 : Nat) - 1075 := rfl
  rw [ratio, scaleRatio]
  split
  · have hproduct := log2_mul_le d.significand (2 ^ d.exponent.toNat)
    rw [Nat.log2_two_pow] at hproduct
    change (d.significand * 2 ^ d.exponent.toNat).log2 + 1022 ≤ Nat.log2 1 + _
    omega
  · have hpower : (1 * Nat.pow 2 (-d.exponent).toNat).log2 = (-d.exponent).toNat := by
      rw [Nat.one_mul]
      exact Nat.log2_two_pow
    dsimp only
    omega

/-- A double that is one or more is a quotient of one or more. -/
theorem log2_ratio_of_le_level {d : Double} (hd : 1023 ≤ d.level) :
    d.ratio.1 ≠ 0 ∧ d.ratio.2.log2 ≤ d.ratio.1.log2 := by
  have hlarge : fractionLimit ≤ d.magnitude := by
    rw [level, Nat.le_div_iff_mul_le (by decide)] at hd
    exact Nat.le_trans (Nat.le_mul_of_pos_left _ (by decide)) hd
  have hsignificand : fractionLimit ≤ d.significand := by
    rw [significand, if_neg (Nat.not_lt.2 hlarge)]
    exact Nat.le_add_left _ _
  have hbits : 52 ≤ d.significand.log2 :=
    (Nat.le_log2 (Nat.ne_of_gt (Nat.lt_of_lt_of_le (by decide) hsignificand))).2 hsignificand
  have hne : d.significand ≠ 0 := Nat.ne_of_gt (Nat.lt_of_lt_of_le (by decide) hsignificand)
  have hexponent : d.exponent = (max d.level 1 : Nat) - 1075 := rfl
  rw [ratio, scaleRatio]
  split
  · exact ⟨Nat.mul_ne_zero hne (Nat.ne_of_gt (Nat.two_pow_pos _)), Nat.zero_le _⟩
  · have hpower : (1 * Nat.pow 2 (-d.exponent).toNat).log2 = (-d.exponent).toNat := by
      rw [Nat.one_mul]
      exact Nat.log2_two_pow
    refine ⟨hne, ?_⟩
    dsimp only
    omega

/-- A quotient by one or more. -/
theorem level_div_le {a b : Double} {limit : Nat} (ha : a.level ≤ limit) (hlimit : 1 ≤ limit)
    (hb : 1023 ≤ b.level) : (a.div b).level ≤ limit + 5 := by
  obtain ⟨hb, hone⟩ := log2_ratio_of_le_level hb
  have hdividend := a.log2_ratio_le
  have hnumerator := log2_mul_le a.ratio.1 b.ratio.2
  have hdenominator := le_log2_mul a.ratio_snd_ne_zero hb
  refine level_ofRatio_le (Nat.mul_ne_zero a.ratio_snd_ne_zero hb) ?_ _
  omega

/-- Whole numbers of sixty-four bits. -/
theorem level_whole_le {n : Nat} (hn : n < 0x10000000000000000) (negative : Bool) :
    (ofRatio negative n 1).level ≤ 1089 := by
  have hlog : n.log2 ≤ 63 := by
    by_cases hzero : n = 0
    · rw [hzero]
      exact Nat.zero_le _
    · exact Nat.le_of_lt_succ ((Nat.log2_lt hzero).2 hn)
  refine level_ofRatio_le Nat.one_ne_zero ?_ negative
  omega

theorem isFinite_whole {n : Nat} (hn : n < 0x10000000000000000) (negative : Bool) :
    (ofRatio negative n 1).isFinite = true :=
  (isFinite_iff_level _).2 (Nat.lt_of_le_of_lt (level_whole_le hn negative) (by decide))

theorem ratioLog2_one {n : Nat} (hn : n ≠ 0) : ratioLog2 n 1 = n.log2 := by
  have hone : Nat.log2 1 = 0 := by decide
  have hleast : 2 ^ n.log2 ≤ n := Nat.log2_self_le hn
  rw [ratioLog2, hone, if_neg, Int.natCast_zero, Int.sub_zero]
  rw [scaleRatio]
  split
  · change ¬ n * 2 ^ _ < 1
    exact Nat.not_lt.2 (Nat.mul_pos (Nat.pos_of_ne_zero hn) (Nat.two_pow_pos _))
  · have hexponent : (-(-((n.log2 : Int) - (0 : Nat)))).toNat = n.log2 := by omega
    rw [hexponent, Nat.one_mul]
    exact Nat.not_lt.2 hleast

/-- Scaling up to fifty-three bits. -/
theorem le_scaleRatio_div {n : Nat} (hn : n ≠ 0) {k : Int} (hk : n.log2 + k = 52) :
    fractionLimit ≤ (scaleRatio n 1 k).1 / (scaleRatio n 1 k).2 := by
  have hleast : 2 ^ n.log2 ≤ n := Nat.log2_self_le hn
  rw [scaleRatio]
  split
  · calc fractionLimit = 2 ^ (n.log2 + k.toNat) := by
          rw [show n.log2 + k.toNat = 52 by omega]
          rfl
      _ = 2 ^ n.log2 * 2 ^ k.toNat := Nat.pow_add _ _ _
      _ ≤ n * Nat.pow 2 k.toNat := Nat.mul_le_mul_right _ hleast
      _ = n * Nat.pow 2 k.toNat / 1 := (Nat.div_one _).symm
  · have hpower : 0 < 1 * Nat.pow 2 (-k).toNat := Nat.mul_pos Nat.one_pos (Nat.two_pow_pos _)
    refine (Nat.le_div_iff_mul_le hpower).2 ?_
    calc fractionLimit * (1 * Nat.pow 2 (-k).toNat) = 2 ^ 52 * 2 ^ (-k).toNat :=
          congrArg (fractionLimit * ·) (Nat.one_mul _)
      _ = 2 ^ n.log2 := by rw [← Nat.pow_add, show 52 + (-k).toNat = n.log2 by omega]
      _ ≤ n := hleast

theorem le_level_ofNat {n : Nat} (hn : n ≠ 0) : 1023 ≤ (ofNat n).level := by
  have hlog := ratioLog2_one hn
  have hquotient := le_scaleRatio_div hn (k := -(max (ratioLog2 n 1 - 52) (-1074))) (by omega)
  rw [ofNat, ofRatio, if_neg hn, level, Nat.le_div_iff_mul_le (by decide),
    magnitude_ofMagnitude (Nat.min_le_right _ _)]
  refine Nat.le_min.2 ⟨?_, by decide⟩
  have hrounded := Nat.le_trans hquotient (le_roundDiv _ _)
  have hplace : 1022 ≤ (max (ratioLog2 n 1 - 52) (-1074) + 1074).toNat := by omega
  calc 1023 * fractionLimit = 1022 * fractionLimit + fractionLimit := Nat.succ_mul _ _
    _ ≤ _ := Nat.add_le_add (Nat.mul_le_mul_right _ hplace) hrounded

end FlagGovernance.Double
