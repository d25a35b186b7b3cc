import Mathlib.Algebra.Order.Field.Power
import Mathlib.Data.Rat.Cast.Order
import Mathlib.Tactic.FieldSimp
import Mathlib.Tactic.Linarith
import Mathlib.Tactic.Ring
import SignedHandshake.Number.Basic

/-!
# What rounding leaves alone

Rounding takes a value to a binary64 number nearby, and a value that binary64 can hold to itself
(`nearest_of_isBinary64`). Natural numbers below 2^53 are such values, so sums and products of them
are exact as long as the result stays below 2^53 (`add_ofNat`, `mul_ofNat`). What is not below a
power of two does not get below it by rounding either (`not_nearest_lt`), and no more than half of a
value is ever lost (`lt_nearest`).

Proof structure: the exponent that `floorLog` finds is the one of the highest power of two in a
value (`zpow_floorLog_le`, `lt_zpow_floorLog`). Hence the last bit of a value `m * 2 ^ e` with fewer
than 53 bits in `m` is not above `2 ^ e`, the value is a whole number of last bits, and a quotient
that is whole is not changed when it is rounded (`significand_eq`).
-/

namespace SignedHandshake.Number

/-! ## Powers of two -/

theorem cast_one_shiftLeft (k : Nat) : ((1 <<< k : Nat) : Rat) = 2 ^ (k : Int) := by
  rw [Nat.one_shiftLeft, Nat.cast_pow, Nat.cast_ofNat, zpow_natCast]

theorem scaled_eq (m : Nat) (e : Int) : scaled m e = m * (2 : Rat) ^ e := by
  unfold scaled
  by_cases he : 0 ≤ e
  · obtain ⟨k, rfl⟩ := Int.eq_ofNat_of_zero_le he
    rw [if_pos he, Int.toNat_natCast, Nat.shiftLeft_eq, zpow_natCast]
    push_cast
    rfl
  · obtain ⟨k, hk⟩ := Int.eq_ofNat_of_zero_le (show 0 ≤ -e by omega)
    obtain rfl : e = -k := by omega
    rw [if_neg he, neg_neg, Int.toNat_natCast, Rat.mkRat_eq_div, cast_one_shiftLeft, zpow_neg,
      div_eq_mul_inv, Int.cast_natCast]

section

variable {n d : Nat}

theorem powerAtMost_iff (hd : 0 < d) (e : Int) :
    powerAtMost e n d = true ↔ (2 : Rat) ^ e ≤ n / d := by
  have hpositive : (0 : Rat) < d := Nat.cast_pos.mpr hd
  rw [le_div_iff₀ hpositive]
  unfold powerAtMost
  -- the power of two is a shift of the divisor, or else of the number
  by_cases he : 0 ≤ e
  · obtain ⟨k, rfl⟩ := Int.eq_ofNat_of_zero_le he
    rw [if_pos he, Int.toNat_natCast, Nat.shiftLeft_eq, zpow_natCast, decide_eq_true_iff,
      ← Nat.cast_le (α := Rat), mul_comm]
    push_cast
    rfl
  · obtain ⟨k, hk⟩ := Int.eq_ofNat_of_zero_le (show 0 ≤ -e by omega)
    obtain rfl : e = -k := by omega
    have hpower : (0 : Rat) < 2 ^ k := by positivity
    rw [if_neg he, neg_neg, Int.toNat_natCast, Nat.shiftLeft_eq, zpow_neg, zpow_natCast,
      decide_eq_true_iff, ← Nat.cast_le (α := Rat), inv_mul_le_iff₀ hpower, mul_comm]
    push_cast
    rfl

/-- A quotient lies between the powers of two that its two parts lie between. -/
theorem zpow_log2_bounds (hn : 0 < n) (hd : 0 < d) :
    (2 : Rat) ^ ((n.log2 : Int) - d.log2 - 1) ≤ n / d ∧
      (n : Rat) / d < 2 ^ ((n.log2 : Int) - d.log2 + 1) := by
  have hpositive : (0 : Rat) < d := Nat.cast_pos.mpr hd
  have hnlow : (2 : Rat) ^ n.log2 ≤ n := by exact_mod_cast Nat.log2_self_le (Nat.ne_of_gt hn)
  have hnhigh : (n : Rat) < 2 ^ (n.log2 + 1) := by exact_mod_cast Nat.lt_log2_self
  have hdlow : (2 : Rat) ^ d.log2 ≤ d := by exact_mod_cast Nat.log2_self_le (Nat.ne_of_gt hd)
  have hdhigh : (d : Rat) < 2 ^ (d.log2 + 1) := by exact_mod_cast Nat.lt_log2_self
  -- a quotient of powers of two is the power with the difference of the exponents
  have hexponent : (2 : Rat) ^ ((n.log2 : Int) - d.log2 - 1) = 2 ^ n.log2 / 2 ^ (d.log2 + 1) := by
    rw [sub_sub, zpow_sub₀ two_ne_zero]
    norm_cast
  have hexponent' : (2 : Rat) ^ ((n.log2 : Int) - d.log2 + 1) = 2 ^ (n.log2 + 1) / 2 ^ d.log2 := by
    rw [sub_add_eq_add_sub, zpow_sub₀ two_ne_zero]
    norm_cast
  constructor
  · rw [hexponent]
    exact div_le_div₀ (Nat.cast_nonneg n) hnlow hpositive hdhigh.le
  · rw [hexponent', div_lt_div_iff₀ hpositive (by positivity)]
    exact mul_lt_mul hnhigh hdlow (by positivity) (by positivity)

theorem zpow_floorLog_le (hn : 0 < n) (hd : 0 < d) : (2 : Rat) ^ floorLog n d ≤ n / d := by
  unfold floorLog
  by_cases h : powerAtMost ((n.log2 : Int) - d.log2) n d = true
  · rw [if_pos h]
    exact (powerAtMost_iff hd _).mp h
  · rw [if_neg h]
    exact (zpow_log2_bounds hn hd).1

theorem lt_zpow_floorLog (hn : 0 < n) (hd : 0 < d) : (n : Rat) / d < 2 ^ (floorLog n d + 1) := by
  unfold floorLog
  by_cases h : powerAtMost ((n.log2 : Int) - d.log2) n d = true
  · rw [if_pos h]
    exact (zpow_log2_bounds hn hd).2
  · rw [if_neg h, sub_add_cancel]
    exact lt_of_not_ge fun hle => h ((powerAtMost_iff hd _).mpr hle)

/-! ## Values that can be held -/

/-- A quotient that is whole is rounded to itself. -/
theorem roundQuotient_mul (q : Nat) (hd : 0 < d) : roundQuotient (q * d) d = q := by
  simp only [roundQuotient, Nat.mul_div_cancel q hd, Nat.mul_mod_left, Nat.mul_zero,
    if_pos (Or.inl hd)]

theorem div_le_roundQuotient (n d : Nat) : n / d ≤ roundQuotient n d := by
  show n / d ≤ if _ then n / d else n / d + 1
  split
  · exact Nat.le_refl _
  · exact Nat.le_succ _

/-- A whole number of last bits is its own significand. -/
theorem significand_eq {q : Nat} (hd : 0 < d) (h : (n : Rat) / d = q * 2 ^ lastBit n d) :
    significand n d = q := by
  have hpositive : (0 : Rat) < d := Nat.cast_pos.mpr hd
  rw [div_eq_iff hpositive.ne'] at h
  unfold significand
  generalize lastBit n d = e at h
  -- shifting gives a quotient that is whole, so there is nothing to round
  by_cases he : 0 ≤ e
  · obtain ⟨k, rfl⟩ := Int.eq_ofNat_of_zero_le he
    rw [zpow_natCast] at h
    have hwhole : n = q * (d * 2 ^ k) := by
      rw [mul_assoc, mul_comm (2 ^ k : Rat)] at h
      exact_mod_cast h
    simp only [if_pos he, Int.toNat_natCast, Nat.shiftLeft_eq]
    rw [hwhole, roundQuotient_mul q (by positivity)]
  · obtain ⟨k, hk⟩ := Int.eq_ofNat_of_zero_le (show 0 ≤ -e by omega)
    obtain rfl : e = -k := by omega
    have hwhole : n * 2 ^ k = q * d := by
      rw [zpow_neg, zpow_natCast] at h
      have hpower : (2 : Rat) ^ k ≠ 0 := by positivity
      field_simp at h
      exact_mod_cast h
    simp only [if_neg he, neg_neg, Int.toNat_natCast, Nat.shiftLeft_eq, hwhole]
    exact roundQuotient_mul q hd

/-- A quotient of at most 53 significant bits is rounded to itself. -/
theorem nearestQuotient_eq {m : Nat} {e : Int} (hn : 0 < n) (hd : 0 < d) (hm : m < 2 ^ 53)
    (hlow : -1074 ≤ e) (hhigh : e ≤ 971) (hvalue : (n : Rat) / d = m * 2 ^ e) :
    nearestQuotient n d = .finite (n / d) := by
  have hpower : (0 : Rat) < 2 ^ e := by positivity
  have hbits : (m : Rat) < 2 ^ (53 : Int) := by exact_mod_cast hm
  have hbelow : (n : Rat) / d < 2 ^ (53 + e) := by
    rw [hvalue, zpow_add₀ two_ne_zero]
    exact mul_lt_mul_of_pos_right hbits hpower
  -- the last bit is not above the power of two in the value
  have hlog : floorLog n d < 53 + e :=
    (zpow_lt_zpow_iff_right₀ one_lt_two).mp ((zpow_floorLog_le hn hd).trans_lt hbelow)
  have hlast : lastBit n d ≤ e := max_le (by omega) hlow
  obtain ⟨k, hk⟩ := Int.eq_ofNat_of_zero_le (show 0 ≤ e - lastBit n d by omega)
  have hwhole : (n : Rat) / d = (m * 2 ^ k : Nat) * 2 ^ lastBit n d := by
    obtain rfl : e = k + lastBit n d := by omega
    rw [hvalue, zpow_add₀ two_ne_zero, zpow_natCast]
    push_cast
    ring
  have hfinite : (n : Rat) / d < ((1 <<< 1024 : Nat) : Rat) := by
    rw [cast_one_shiftLeft]
    exact hbelow.trans_le (zpow_le_zpow_right₀ one_le_two (by omega))
  have hscaled : scaled (significand n d) (lastBit n d) = n / d := by
    rw [significand_eq hd hwhole, scaled_eq, ← hwhole]
  unfold nearestQuotient
  simp only [hscaled, if_pos hfinite]

/-- A quotient that is not tiny keeps all of its 53 significant bits. -/
theorem two_pow_le_significand (hn : 0 < n) (hd : 0 < d) (h : -1022 ≤ floorLog n d) :
    2 ^ 52 ≤ significand n d := by
  have hlast : lastBit n d = floorLog n d - 52 := max_eq_left (by omega)
  have hpositive : (0 : Rat) < d := Nat.cast_pos.mpr hd
  have hle := zpow_floorLog_le hn hd
  rw [le_div_iff₀ hpositive] at hle
  unfold significand
  -- the last bit is a multiple of one or a fraction of it, and is moved to the other part
  by_cases he : 0 ≤ lastBit n d
  · obtain ⟨k, hk⟩ := Int.eq_ofNat_of_zero_le he
    rw [show floorLog n d = ((52 + k : Nat) : Int) by omega, zpow_natCast] at hle
    simp only [hk, Int.natCast_nonneg, if_true, Int.toNat_natCast, Nat.shiftLeft_eq]
    refine le_trans ?_ (div_le_roundQuotient n _)
    rw [Nat.le_div_iff_mul_le (by positivity)]
    calc 2 ^ 52 * (d * 2 ^ k) = 2 ^ (52 + k) * d := by ring
      _ ≤ n := by exact_mod_cast hle
  · obtain ⟨k, hk⟩ := Int.eq_ofNat_of_zero_le (show 0 ≤ -lastBit n d by omega)
    simp only [if_neg he, hk, Int.toNat_natCast, Nat.shiftLeft_eq]
    refine le_trans ?_ (div_le_roundQuotient _ d)
    rw [Nat.le_div_iff_mul_le hd]
    have hshifted : ((2 ^ 52 * d : Nat) : Rat) ≤ (n * 2 ^ k : Nat) := by
      rw [show floorLog n d = 52 - (k : Int) by omega, zpow_sub₀ two_ne_zero, zpow_natCast,
        div_mul_eq_mul_div, div_le_iff₀ (by positivity)] at hle
      exact_mod_cast hle
    exact_mod_cast hshifted

/-- Rounding does not take a quotient below the highest power of two in it. -/
theorem zpow_floorLog_le_scaled (hn : 0 < n) (hd : 0 < d) (h : -1022 ≤ floorLog n d) :
    (2 : Rat) ^ floorLog n d ≤ scaled (significand n d) (lastBit n d) := by
  have hlast : lastBit n d = floorLog n d - 52 := max_eq_left (by omega)
  have hbits : ((2 ^ 52 : Nat) : Rat) ≤ significand n d :=
    Nat.cast_le.mpr (two_pow_le_significand hn hd h)
  rw [scaled_eq, hlast]
  calc (2 : Rat) ^ floorLog n d = ((2 ^ 52 : Nat) : Rat) * 2 ^ (floorLog n d - 52) := by
        rw [Nat.cast_pow, Nat.cast_ofNat, ← zpow_natCast, ← zpow_add₀ two_ne_zero]
        congr 1
        omega
    _ ≤ significand n d * 2 ^ (floorLog n d - 52) :=
        mul_le_mul_of_nonneg_right hbits (by positivity)

/-- A quotient that is not below a power of two does not get below it by rounding. -/
theorem le_scaled_significand (hn : 0 < n) (hd : 0 < d) {k : Nat} (h : (2 : Rat) ^ k ≤ n / d) :
    (2 : Rat) ^ k ≤ scaled (significand n d) (lastBit n d) := by
  rw [← zpow_natCast] at h ⊢
  have hlog : (k : Int) < floorLog n d + 1 :=
    (zpow_lt_zpow_iff_right₀ one_lt_two).mp (h.trans_lt (lt_zpow_floorLog hn hd))
  exact (zpow_le_zpow_right₀ one_le_two (by omega)).trans
    (zpow_floorLog_le_scaled hn hd (by omega))

/-- Rounding leaves more than half of a quotient that is not below one. -/
theorem half_lt_scaled (hn : 0 < n) (hd : 0 < d) (h : (1 : Rat) ≤ n / d) :
    (n : Rat) / d / 2 < scaled (significand n d) (lastBit n d) := by
  have habove := lt_zpow_floorLog hn hd
  have hlog : 0 < floorLog n d + 1 := by
    rw [← zpow_zero (2 : Rat)] at h
    exact (zpow_lt_zpow_iff_right₀ one_lt_two).mp (h.trans_lt habove)
  rw [zpow_add_one₀ two_ne_zero] at habove
  exact lt_of_lt_of_le (by linarith) (zpow_floorLog_le_scaled hn hd (by omega))

end

protected theorem neg_neg (x : Number) : x.neg.neg = x := by
  cases x <;> simp [neg]

/-- Rounding does the same on both sides of zero. -/
theorem nearest_neg (value : Rat) : nearest (-value) = (nearest value).neg := by
  unfold nearest
  simp only [Rat.num_neg_eq_neg_num, Rat.den_neg_eq_den, Int.natAbs_neg, neg_eq_zero, neg_lt_zero]
  rcases lt_trichotomy value.num 0 with hnum | hnum | hnum
  · rw [if_neg hnum.ne, if_neg hnum.ne, if_neg hnum.le.not_gt, if_pos hnum, Number.neg_neg]
  · rw [if_pos hnum, if_pos hnum]
    rfl
  · rw [if_neg hnum.ne', if_neg hnum.ne', if_pos hnum, if_neg hnum.le.not_gt]

/-- **Rounding leaves alone what binary64 can hold.** -/
theorem nearest_of_isBinary64 {value : Rat} (h : IsBinary64 value) :
    nearest value = .finite value := by
  have hheld (m : Nat) (e : Int) (hm : m < 2 ^ 53) (hlow : -1074 ≤ e) (hhigh : e ≤ 971) :
      nearest (scaled m e) = .finite (scaled m e) := by
    have hvalue := scaled_eq m e
    have hnonneg : 0 ≤ scaled m e := by
      rw [hvalue]
      positivity
    generalize scaled m e = value at hvalue hnonneg
    by_cases hzero : value = 0
    · rw [hzero]
      rfl
    · -- the quotient of numerator and denominator is rounded, and it is the value itself
      have hnum : 0 < value.num := Rat.num_pos.mpr (lt_of_le_of_ne hnonneg (Ne.symm hzero))
      have hparts : ((value.num.natAbs : Nat) : Rat) / value.den = value := by
        rw [Nat.cast_natAbs, abs_of_pos hnum, Rat.num_div_den]
      have hrounded := nearestQuotient_eq (Int.natAbs_pos.mpr hnum.ne') value.den_pos hm hlow hhigh
        (hparts.trans hvalue)
      rw [hparts] at hrounded
      simp only [nearest, if_neg hnum.ne', if_neg hnum.le.not_gt, hrounded]
  obtain ⟨m, e, hm, hlow, hhigh, rfl | rfl⟩ := h
  · exact hheld m e hm hlow hhigh
  · rw [nearest_neg, hheld m e hm hlow hhigh]
    rfl

/-- What holds of infinity and of the rounded quotient, however the value is written as one, holds
of the number nearest to a positive value. -/
theorem nearest_of_pos {value : Rat} (h : 0 < value) {P : Number → Prop}
    (hinfinite : P (.infinity false))
    (hfinite : ∀ n d : Nat, 0 < n → 0 < d → (n : Rat) / d = value →
      P (.finite (scaled (significand n d) (lastBit n d)))) : P (nearest value) := by
  have hnum : 0 < value.num := Rat.num_pos.mpr h
  have hparts : ((value.num.natAbs : Nat) : Rat) / value.den = value := by
    rw [Nat.cast_natAbs, abs_of_pos hnum, Rat.num_div_den]
  simp only [nearest, if_neg hnum.ne', if_neg hnum.le.not_gt, nearestQuotient]
  split
  · exact hfinite _ _ (Int.natAbs_pos.mpr hnum.ne') value.den_pos hparts
  · exact hinfinite

/-- What is not below a power of two does not get below it by rounding. -/
theorem not_nearest_lt {value : Rat} {k : Nat} (h : 2 ^ k ≤ value) :
    ¬ nearest value < .ofNat (2 ^ k) := by
  have hpositive : 0 < value := lt_of_lt_of_le (by positivity) h
  refine nearest_of_pos (P := fun x => ¬ x < .ofNat (2 ^ k)) hpositive Bool.false_ne_true
    fun n d hn hd hvalue => ?_
  have hle := le_scaled_significand hn hd (hvalue.symm ▸ h)
  show ¬ decide (scaled _ _ < ((2 ^ k : Nat) : Rat)) = true
  rw [decide_eq_true_iff, not_lt]
  exact_mod_cast hle

/-- Rounding leaves more than half of what is not below one. -/
theorem lt_nearest {value : Rat} {n : Nat} (hone : 1 ≤ value) (h : 2 * n ≤ value) :
    .ofNat n < nearest value := by
  refine nearest_of_pos (P := fun x => .ofNat n < x) (lt_of_lt_of_le one_pos hone) rfl
    fun m d hm hd hvalue => ?_
  have hhalf := half_lt_scaled hm hd (hvalue.symm ▸ hone)
  rw [hvalue] at hhalf
  exact decide_eq_true (lt_of_le_of_lt (by linarith) hhalf)

/-! ## Natural numbers -/

/-- Binary64 holds the natural numbers of at most 53 significant bits below 2^1024. -/
theorem isBinary64_natCast_iff {n : Nat} :
    IsBinary64 n ↔ ∃ m k : Nat, m < 2 ^ 53 ∧ k ≤ 971 ∧ n = m * 2 ^ k := by
  constructor
  · rintro ⟨m, e, hm, -, hhigh, hvalue | hvalue⟩
    · rw [scaled_eq] at hvalue
      by_cases he : 0 ≤ e
      · obtain ⟨k, rfl⟩ := Int.eq_ofNat_of_zero_le he
        rw [zpow_natCast] at hvalue
        exact ⟨m, k, hm, by omega, by exact_mod_cast hvalue⟩
      · -- a natural number that is a fraction of `m` is not above `m`
        have hle : n ≤ m := by
          have hpower : (2 : Rat) ^ e ≤ 1 := zpow_le_one_of_nonpos₀ one_le_two (by omega)
          have : (n : Rat) ≤ m := by
            rw [hvalue]
            exact mul_le_of_le_one_right (Nat.cast_nonneg m) hpower
          exact_mod_cast this
        exact ⟨n, 0, lt_of_le_of_lt hle hm, by omega, by omega⟩
    · have hzero : n = 0 := by
        have hnonneg : 0 ≤ scaled m e := by
          rw [scaled_eq]
          positivity
        have : (n : Rat) ≤ 0 := by linarith
        exact_mod_cast le_antisymm this (Nat.cast_nonneg n)
      exact ⟨0, 0, by norm_num, by omega, by omega⟩
  · rintro ⟨m, k, hm, hk, rfl⟩
    refine ⟨m, k, hm, by omega, by omega, .inl ?_⟩
    rw [scaled_eq, zpow_natCast]
    push_cast
    rfl

theorem isBinary64_of_lt {n : Nat} (h : n < 2 ^ 53) : IsBinary64 n :=
  isBinary64_natCast_iff.mpr ⟨n, 0, h, by omega, by omega⟩

/-- Binary64 holds the whole numbers below 2^53, with their signs. -/
theorem isBinary64_intCast {n : Int} (h : n.natAbs < 2 ^ 53) : IsBinary64 n := by
  refine ⟨n.natAbs, 0, h, by omega, by omega, ?_⟩
  rw [scaled_eq, zpow_zero, mul_one]
  rcases Int.natAbs_eq n with hn | hn
  · exact .inl ((congrArg Int.cast hn).trans (Int.cast_natCast _))
  · refine .inr ((congrArg Int.cast hn).trans ?_)
    rw [Int.cast_neg, Int.cast_natCast]

/-- What is left of a number without its last bits can be held. -/
theorem isBinary64_div_pow {n : Nat} (h : IsBinary64 n) (j : Nat) :
    IsBinary64 (n / 2 ^ j : Nat) := by
  obtain ⟨m, k, hm, hk, rfl⟩ := isBinary64_natCast_iff.mp h
  refine isBinary64_natCast_iff.mpr ?_
  rcases Nat.le_total j k with hle | hle
  · have hpower : m * 2 ^ k = m * 2 ^ (k - j) * 2 ^ j := by
      rw [Nat.mul_assoc, ← Nat.pow_add, Nat.sub_add_cancel hle]
    exact ⟨m, k - j, hm, by omega, by rw [hpower, Nat.mul_div_cancel _ (Nat.two_pow_pos j)]⟩
  · have hpower : 2 ^ j = 2 ^ (j - k) * 2 ^ k := by
      rw [← Nat.pow_add, Nat.sub_add_cancel hle]
    refine ⟨m / 2 ^ (j - k), 0, lt_of_le_of_lt (Nat.div_le_self _ _) hm, by omega, ?_⟩
    rw [hpower, Nat.mul_div_mul_right _ _ (Nat.two_pow_pos k), Nat.pow_zero, Nat.mul_one]

/-- Setting the last bits of a number to zero leaves a number that can be held. -/
theorem isBinary64_div_pow_mul {n : Nat} (h : IsBinary64 n) (j : Nat) :
    IsBinary64 (n / 2 ^ j * 2 ^ j : Nat) := by
  obtain ⟨m, k, hm, hk, rfl⟩ := isBinary64_natCast_iff.mp h
  refine isBinary64_natCast_iff.mpr ?_
  rcases Nat.le_total j k with hle | hle
  · exact ⟨m, k, hm, hk, Nat.div_mul_cancel (Dvd.dvd.mul_left (Nat.pow_dvd_pow 2 hle) m)⟩
  · have hpower : 2 ^ j = 2 ^ (j - k) * 2 ^ k := by
      rw [← Nat.pow_add, Nat.sub_add_cancel hle]
    refine ⟨m / 2 ^ (j - k) * 2 ^ (j - k), k, lt_of_le_of_lt (Nat.div_mul_le_self _ _) hm, hk, ?_⟩
    rw [hpower, Nat.mul_div_mul_right _ _ (Nat.two_pow_pos k), Nat.mul_assoc]

/-- A number divided by a small power of two can be held, with its fraction. -/
theorem isBinary64_mul_inv_pow {n : Nat} (h : IsBinary64 n) {j : Nat} (hj : j ≤ 1074) :
    IsBinary64 ((n : Rat) * (1 / 2 ^ j)) := by
  obtain ⟨m, k, hm, hk, rfl⟩ := isBinary64_natCast_iff.mp h
  refine ⟨m, k - j, hm, by omega, by omega, .inl ?_⟩
  rw [scaled_eq, zpow_sub₀ two_ne_zero, zpow_natCast, zpow_natCast]
  push_cast
  ring

section

variable {m n : Nat}

theorem nearest_natCast (h : IsBinary64 n) : nearest n = .ofNat n :=
  nearest_of_isBinary64 h

theorem add_ofNat (h : IsBinary64 (m + n : Nat)) : ofNat m + ofNat n = ofNat (m + n) := by
  show nearest ((m : Rat) + n) = ofNat (m + n)
  rw [← Nat.cast_add, nearest_natCast h]

theorem add_ofInt {m n : Int} (h : (m + n).natAbs < 2 ^ 53) :
    ofInt m + ofInt n = ofInt (m + n) := by
  show nearest ((m : Rat) + n) = ofInt (m + n)
  rw [← Int.cast_add, nearest_of_isBinary64 (isBinary64_intCast h)]
  rfl

theorem mul_ofNat (h : IsBinary64 (m * n : Nat)) : ofNat m * ofNat n = ofNat (m * n) := by
  show nearest ((m : Rat) * n) = ofNat (m * n)
  rw [← Nat.cast_mul, nearest_natCast h]

end

/-! ## Numbers that are not below 2^53 -/

section

variable {x : Number}

/-- What is added does not bring a number below 2^53. -/
theorem not_add_lt (h : ¬ x < .ofNat (2 ^ 53)) (n : Nat) : ¬ x + .ofNat n < .ofNat (2 ^ 53) := by
  match x with
  | .nan => exact Bool.false_ne_true
  | .infinity false => exact Bool.false_ne_true
  | .infinity true => exact absurd rfl h
  | .finite value =>
    have hvalue : ((2 ^ 53 : Nat) : Rat) ≤ value := not_lt.mp fun hlt => h (decide_eq_true hlt)
    have hn : (0 : Rat) ≤ n := Nat.cast_nonneg n
    push_cast at hvalue
    exact not_nearest_lt (by linarith)

/-- No multiple of a number that is not below 2^53 is below it. -/
theorem not_mul_lt (h : ¬ x < .ofNat (2 ^ 53)) {n : Nat} (hn : 0 < n) :
    ¬ x * .ofNat n < .ofNat (2 ^ 53) := by
  have hone : (1 : Rat) ≤ n := by exact_mod_cast hn
  match x with
  | .nan => exact Bool.false_ne_true
  | .infinity true => exact absurd rfl h
  | .infinity false =>
    -- an infinity times a positive number is an infinity
    have hzero : (n : Rat) ≠ 0 := by linarith
    have hbelow : ¬ (n : Rat) < 0 := by linarith
    show ¬ (if (n : Rat) = 0 then nan else infinity (false != decide ((n : Rat) < 0))) < _
    rw [if_neg hzero, decide_eq_false hbelow]
    exact Bool.false_ne_true
  | .finite value =>
    have hvalue : ((2 ^ 53 : Nat) : Rat) ≤ value := not_lt.mp fun hlt => h (decide_eq_true hlt)
    push_cast at hvalue
    refine not_nearest_lt (hvalue.trans ?_)
    exact le_mul_of_one_le_right (by linarith) hone

end

end SignedHandshake.Number
