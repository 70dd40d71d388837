import Mathlib.Tactic.FieldSimp
import Mathlib.Tactic.GCongr
import Mathlib.Tactic.Positivity
import KeysetBundle.Proofs.Decimal.Binary64

/-!
# Rounding to 53 binary digits

A ratio is rounded by scaling it to a whole mantissa: its exponent is the one
at which the mantissa has 53 digits, or the smallest one, and the quotient is
rounded to the nearest integer, a half to the even one.  What comes out is the
value nearest to the ratio, and infinity from the range on.

A decimal is a ratio of powers of ten.  Those far outside of the range are
decided by their number of digits, to the same value.

Main results.

- `ofRatio_nearest`: the value of a ratio is the nearest one.
- `ofDecimal_nearest`: the value of a decimal is the nearest one.
-/

namespace KeysetBundle.Decimal

/-! ## Powers -/

theorem twoPow_eq (n : Nat) : twoPow n = 2 ^ n := rfl

theorem tenPow_eq (n : Nat) : tenPow n = 10 ^ n := rfl

theorem zpow_eq_div {a : ℚ} (ha : a ≠ 0) (e : Int) : a ^ e = a ^ e.toNat / a ^ (-e).toNat := by
  have hexponent : e = (e.toNat : Int) - ((-e).toNat : Int) := by omega
  conv_lhs => rw [hexponent, zpow_sub₀ ha, zpow_natCast, zpow_natCast]

/-! ## Quotients -/

/-- A quotient is its whole part and what remains. -/
theorem cast_div_eq (num : Nat) {den : Nat} (hden : 0 < den) :
    (num : ℚ) / den = (num / den : Nat) + (num % den : Nat) / den := by
  have hpos : (0 : ℚ) < den := by exact_mod_cast hden
  have hparts : (num : ℚ) = den * (num / den : Nat) + (num % den : Nat) := by
    exact_mod_cast (Nat.div_add_mod num den).symm
  rw [div_eq_iff hpos.ne', add_mul, div_mul_cancel₀ _ hpos.ne', mul_comm _ (den : ℚ)]
  exact hparts

/-- A rounded quotient is off by a half at most, and it is even if it is off by a half. -/
theorem roundQuotient_near (num : Nat) {den : Nat} (hden : 0 < den) :
    |(roundQuotient num den : ℚ) - num / den| ≤ 1 / 2 ∧
      (|(roundQuotient num den : ℚ) - num / den| = 1 / 2 → roundQuotient num den % 2 = 0) := by
  have hpos : (0 : ℚ) < den := by exact_mod_cast hden
  have hremainder : (0 : ℚ) ≤ (num % den : Nat) / den := by positivity
  have hlt : ((num % den : Nat) : ℚ) / den < 1 := by
    rw [div_lt_one hpos]
    exact_mod_cast Nat.mod_lt num hden
  have htwice : (2 * (num % den : Nat) : ℚ) / den = 2 * ((num % den : Nat) / den) := by ring
  rw [cast_div_eq num hden]
  unfold roundQuotient
  dsimp only
  split
  · -- less than a half is dropped
    rename_i hless
    have hhalf : (2 * (num % den : Nat) : ℚ) / den < 1 := by
      rw [div_lt_one hpos]
      exact_mod_cast hless
    rw [sub_add_cancel_left, abs_neg, abs_of_nonneg hremainder]
    exact ⟨by linarith, fun heq => by linarith⟩
  · split
    · -- more than a half is filled up
      rename_i hmore
      have hhalf : 1 < (2 * (num % den : Nat) : ℚ) / den := by
        rw [one_lt_div hpos]
        exact_mod_cast hmore
      rw [Nat.cast_add_one, add_sub_add_left_eq_sub, abs_of_pos (by linarith)]
      exact ⟨by linarith, fun heq => by linarith⟩
    · -- a half goes to the even neighbour
      have hhalf : (2 * (num % den : Nat) : ℚ) / den = 1 := by
        rw [div_eq_one_iff_eq hpos.ne']
        exact_mod_cast (by omega : 2 * (num % den) = den)
      have heven : (num / den + num / den % 2) % 2 = 0 := by omega
      rcases Nat.mod_two_eq_zero_or_one (num / den) with hmod | hmod <;> rw [hmod] at heven ⊢
      · rw [Nat.add_zero, sub_add_cancel_left, abs_neg, abs_of_nonneg hremainder]
        exact ⟨by linarith, fun _ => heven⟩
      · rw [Nat.cast_add_one, add_sub_add_left_eq_sub, abs_of_nonneg (by linarith)]
        exact ⟨by linarith, fun _ => heven⟩

namespace Binary64

/-! ## The exponent of a ratio -/

section Ratio

variable {num den : Nat}

theorem scale_snd_pos (hden : 0 < den) (num : Nat) (e : Int) : 0 < (scale num den e).2 :=
  Nat.mul_pos hden (Nat.pow_pos two_pos)

/-- The scaled ratio is the ratio in steps of the exponent. -/
theorem scale_ratio (num den : Nat) (e : Int) :
    ((scale num den e).1 : ℚ) / (scale num den e).2 = num / den / 2 ^ e := by
  unfold scale
  rw [twoPow_eq, twoPow_eq, zpow_eq_div two_ne_zero e, div_div_div_eq]
  push_cast
  rfl

/-- A ratio lies between the powers of two that its numbers of digits give. -/
theorem ratio_bounds (hnum : num ≠ 0) (hden : den ≠ 0) :
    2 ^ 52 * (2 : ℚ) ^ ((num.log2 : Int) - den.log2 - 53) < num / den ∧
      (num : ℚ) / den < 2 ^ 53 * 2 ^ ((num.log2 : Int) - den.log2 - 53 + 1) := by
  have hpos : (0 : ℚ) < den := by exact_mod_cast Nat.pos_of_ne_zero hden
  have hnumlow : (2 : ℚ) ^ num.log2 ≤ num := by exact_mod_cast Nat.log2_self_le hnum
  have hnumhigh : (num : ℚ) < 2 ^ (num.log2 + 1) := by exact_mod_cast Nat.lt_log2_self
  have hdenlow : (2 : ℚ) ^ den.log2 ≤ den := by exact_mod_cast Nat.log2_self_le hden
  have hdenhigh : (den : ℚ) < 2 ^ (den.log2 + 1) := by exact_mod_cast Nat.lt_log2_self
  have hlow : 2 ^ 52 * (2 : ℚ) ^ ((num.log2 : Int) - den.log2 - 53) * 2 ^ (den.log2 + 1) =
      2 ^ num.log2 := by
    rw [← zpow_natCast, ← zpow_natCast, ← zpow_natCast, ← zpow_add₀ two_ne_zero,
      ← zpow_add₀ two_ne_zero]
    congr 1
    omega
  have hhigh : 2 ^ 53 * (2 : ℚ) ^ ((num.log2 : Int) - den.log2 - 53 + 1) * 2 ^ den.log2 =
      2 ^ (num.log2 + 1) := by
    rw [← zpow_natCast, ← zpow_natCast, ← zpow_natCast, ← zpow_add₀ two_ne_zero,
      ← zpow_add₀ two_ne_zero]
    congr 1
    omega
  constructor
  · rw [lt_div_iff₀ hpos]
    calc 2 ^ 52 * (2 : ℚ) ^ ((num.log2 : Int) - den.log2 - 53) * den
        < 2 ^ 52 * (2 : ℚ) ^ ((num.log2 : Int) - den.log2 - 53) * 2 ^ (den.log2 + 1) := by
          gcongr
      _ = 2 ^ num.log2 := hlow
      _ ≤ num := hnumlow
  · rw [div_lt_iff₀ hpos]
    calc (num : ℚ) < 2 ^ (num.log2 + 1) := hnumhigh
      _ = 2 ^ 53 * 2 ^ ((num.log2 : Int) - den.log2 - 53 + 1) * 2 ^ den.log2 := hhigh.symm
      _ ≤ 2 ^ 53 * 2 ^ ((num.log2 : Int) - den.log2 - 53 + 1) * den := by gcongr

/-- **The exponent of a ratio**: its mantissa has no more than 53 digits, and no fewer unless the
exponent is the smallest. -/
theorem exponentFor_spec (hnum : num ≠ 0) (hden : den ≠ 0) :
    minExponent ≤ exponentFor num den ∧
      (num : ℚ) / den < 2 ^ 53 * 2 ^ exponentFor num den ∧
      (2 ^ 52 * 2 ^ exponentFor num den ≤ (num : ℚ) / den ∨
        exponentFor num den = minExponent) := by
  obtain ⟨hlow, hhigh⟩ := ratio_bounds hnum hden
  have hpos := Nat.pos_of_ne_zero hden
  -- whether the quotient has more digits is whether the ratio is greater
  have hquotient (e : Int) : (scale num den e).1 / (scale num den e).2 < twoPow 53 ↔
      (num : ℚ) / den < 2 ^ 53 * 2 ^ e := by
    have hscaled : (0 : ℚ) < (scale num den e).2 := by exact_mod_cast scale_snd_pos hpos num e
    rw [Nat.div_lt_iff_lt_mul (scale_snd_pos hpos num e), ← div_lt_iff₀ (step_pos e),
      ← scale_ratio num den e, div_lt_iff₀ hscaled]
    exact_mod_cast Iff.rfl
  unfold exponentFor
  dsimp only
  rcases le_total ((num.log2 : Int) - den.log2 - 53) minExponent with hmin | hmin
  · rw [max_eq_right hmin]
    split
    · rename_i hfits
      exact ⟨le_rfl, (hquotient _).1 hfits, .inr rfl⟩
    · rename_i hmore
      refine ⟨by omega, hhigh.trans_le ?_, .inl ?_⟩
      · gcongr
        norm_num
      · have hge := not_lt.1 (mt (hquotient _).2 hmore)
        rw [zpow_add_one₀ two_ne_zero]
        linarith
  · rw [max_eq_left hmin]
    split
    · rename_i hfits
      exact ⟨hmin, (hquotient _).1 hfits, .inl hlow.le⟩
    · rename_i hmore
      refine ⟨by omega, hhigh, .inl ?_⟩
      have hge := not_lt.1 (mt (hquotient _).2 hmore)
      rw [zpow_add_one₀ two_ne_zero]
      linarith

end Ratio

/-! ## The value of a ratio -/

section Mantissa

variable {m : Nat} {e : Int} {x : ℚ}

/-- A mantissa that is off by a half at most makes a value within half a step. -/
theorem between_of_near (h : |(m : ℚ) - x / 2 ^ e| ≤ 1 / 2) :
    dyadic m e - 2 ^ e / 2 ≤ x ∧ x ≤ dyadic m e + 2 ^ e / 2 := by
  have hstep := step_pos e
  have hvalue : dyadic m e = (m - x / 2 ^ e) * 2 ^ e + x := by
    unfold dyadic
    rw [sub_mul, div_mul_cancel₀ _ hstep.ne', sub_add_cancel]
  obtain ⟨hlow, hhigh⟩ := abs_le.1 h
  have hscaledLow := mul_le_mul_of_nonneg_right hlow hstep.le
  have hscaledHigh := mul_le_mul_of_nonneg_right hhigh hstep.le
  constructor <;> linarith

/-- A value that is off by half a step has a mantissa that is off by a half. -/
theorem near_of_end (h : x = dyadic m e - 2 ^ e / 2 ∨ x = dyadic m e + 2 ^ e / 2) :
    |(m : ℚ) - x / 2 ^ e| = 1 / 2 := by
  have hstep := step_pos e
  refine (abs_eq (by norm_num)).2 ?_
  unfold dyadic at h
  rcases h with h | h
  · left
    rw [h]
    field_simp
    ring
  · right
    rw [h]
    field_simp
    ring

/-- The mantissa has the digits of the exponent, or is the next power of two. -/
theorem mantissa_bounds (hless : x < 2 ^ 53 * 2 ^ e) (hfull : 2 ^ 52 * 2 ^ e ≤ x ∨ e = minExponent)
    (hlow : dyadic m e - 2 ^ e / 2 ≤ x) (hhigh : x ≤ dyadic m e + 2 ^ e / 2) :
    m ≤ 2 ^ 53 ∧ (2 ^ 52 ≤ m ∨ e = minExponent) := by
  have hstep := step_pos e
  constructor
  · have hlt : dyadic m e < dyadic (2 ^ 53 + 1) e := by
      rw [dyadic_add_one, dyadic_pow]
      linarith
    exact Nat.le_of_lt_succ (dyadic_lt_dyadic.1 hlt)
  · refine hfull.imp_left fun hfull => ?_
    have hlt : dyadic (2 ^ 52) e < dyadic (m + 1) e := by
      rw [dyadic_add_one, dyadic_pow]
      linarith
    exact Nat.le_of_lt_succ (dyadic_lt_dyadic.1 hlt)

/-- A mantissa that is rounded up to 53 digits more is the next power of two. -/
theorem isNearest_of_carry (hmin : minExponent ≤ e) (hless : x < 2 ^ 53 * 2 ^ e)
    (hlow : dyadic (2 ^ 53) e - 2 ^ e / 2 ≤ x) : IsNearest (2 ^ 52) (e + 1) x := by
  -- the step below the next power of two is as wide as the one before
  have hnarrow : stepBelow (2 ^ 52) (e + 1) = 2 ^ e := by
    unfold stepBelow
    rw [if_pos ⟨rfl, Int.lt_add_one_of_le hmin⟩, zpow_add_one₀ two_ne_zero]
    exact mul_div_cancel_right₀ _ two_ne_zero
  have hsame : dyadic (2 ^ 52) (e + 1) = dyadic (2 ^ 53) e := by
    rw [← dyadic_two_mul]
    rfl
  have hstep := step_pos e
  refine .of_between (isCanonical_pow (Int.le_add_one hmin)) ?_ ?_ fun _ => by norm_num
  · rw [hnarrow, hsame]
    exact hlow
  · rw [hsame, dyadic_pow, zpow_add_one₀ two_ne_zero]
    linarith

/-- A mantissa that is off by a half at most makes the nearest value. -/
theorem isNearest_of_near (h : IsCanonical m e) (hfull : 2 ^ 52 * 2 ^ e ≤ x ∨ e = minExponent)
    (hnear : |(m : ℚ) - x / 2 ^ e| ≤ 1 / 2)
    (heven : |(m : ℚ) - x / 2 ^ e| = 1 / 2 → m % 2 = 0) : IsNearest m e x := by
  obtain ⟨hlow, hhigh⟩ := between_of_near hnear
  by_cases hpower : m = 2 ^ 52 ∧ minExponent < e
  · -- a number is not rounded up to the least mantissa
    have hge : dyadic m e ≤ x := by
      rw [hpower.1, dyadic_pow]
      exact hfull.resolve_right hpower.2.ne'
    have hbelow := stepBelow_pos m e
    refine .of_between h (by linarith) hhigh fun _ => ?_
    rw [hpower.1]
    norm_num
  · have hwide : stepBelow m e = 2 ^ e := if_neg hpower
    refine .of_between h ?_ hhigh ?_ <;> rw [hwide]
    · exact hlow
    · exact fun hend => heven (near_of_end hend)

/-- A value is infinite from the largest exponent on. -/
theorem nearest_of_isNearest (h : IsNearest m e x) :
    (if maxExponent < e then infinite else finite m e).Nearest x := by
  split
  · rename_i hmax
    exact .infinite h hmax
  · rename_i hmax
    exact .finite h (not_lt.1 hmax)

/-- **What is packed is nearest**, if the exponent is the one of the number and the mantissa is off
by a half at most. -/
theorem pack_nearest (hmin : minExponent ≤ e) (hless : x < 2 ^ 53 * 2 ^ e)
    (hfull : 2 ^ 52 * 2 ^ e ≤ x ∨ e = minExponent) (hnear : |(m : ℚ) - x / 2 ^ e| ≤ 1 / 2)
    (heven : |(m : ℚ) - x / 2 ^ e| = 1 / 2 → m % 2 = 0) : (pack m e).Nearest x := by
  obtain ⟨hlow, hhigh⟩ := between_of_near hnear
  obtain ⟨htop, hdigits⟩ := mantissa_bounds hless hfull hlow hhigh
  unfold pack
  rw [twoPow_eq, twoPow_eq]
  by_cases hcarry : m = 2 ^ 53
  · rw [hcarry] at hlow
    rw [if_pos hcarry]
    exact nearest_of_isNearest (isNearest_of_carry hmin hless hlow)
  · rw [if_neg hcarry]
    have hcanonical : IsCanonical m e := ⟨lt_of_le_of_ne htop hcarry, hmin, hdigits⟩
    exact nearest_of_isNearest (isNearest_of_near hcanonical hfull hnear heven)

end Mantissa

theorem zero_nearest : zero.Nearest 0 :=
  .finite (dyadic_zero minExponent ▸ isCanonical_zero.isNearest) (by decide)

/-- **The value of a ratio is the nearest one.** -/
theorem ofRatio_nearest (num : Nat) {den : Nat} (hden : den ≠ 0) :
    (ofRatio num den).Nearest (num / den) := by
  unfold ofRatio
  split
  · rename_i hzero
    rw [hzero, Nat.cast_zero, zero_div]
    exact zero_nearest
  · rename_i hnum
    obtain ⟨hmin, hless, hfull⟩ := exponentFor_spec hnum hden
    have hnear := roundQuotient_near (scale num den (exponentFor num den)).1
      (scale_snd_pos (Nat.pos_of_ne_zero hden) num (exponentFor num den))
    rw [scale_ratio] at hnear
    exact pack_nearest hmin hless hfull hnear.1 hnear.2

/-! ## The value of a decimal -/

/-- A ratio beyond the range is nearest to a value that is not finite. -/
theorem infinite_nearest {num den : Nat} (hden : den ≠ 0) (h : 2 ^ (1024 : Int) ≤ (num : ℚ) / den) :
    infinite.Nearest (num / den) := by
  have hnearest := ofRatio_nearest num hden
  cases hvalue : ofRatio num den with
  | infinite => exact hvalue ▸ hnearest
  | finite m e =>
      rw [hvalue] at hnearest
      obtain ⟨hnear, hmax⟩ := hnearest
      have hbeyond : dyadic (2 ^ 52) 972 = 2 ^ (1024 : Int) := by
        rw [dyadic_pow, ← zpow_natCast, ← zpow_add₀ two_ne_zero]
        rfl
      have hpower : IsCanonical (2 ^ 52) 972 := isCanonical_pow (by decide)
      have hlt := hnear.canonical.lt_of_exponent hpower (Int.lt_add_one_of_le hmax)
      exact absurd (hnear.le_dyadic hpower (hbeyond ▸ h)) (not_le.2 hlt)

/-- A number below half of the smallest value is nearest to zero. -/
theorem zero_nearest_of_lt {x : ℚ} (hnonneg : 0 ≤ x) (h : x < 2 ^ (-1075 : Int)) :
    zero.Nearest x := by
  have hhalf : (2 : ℚ) ^ minExponent / 2 = 2 ^ (-1075 : Int) := (zpow_sub_one₀ two_ne_zero _).symm
  have hbelow := stepBelow_pos 0 minExponent
  refine .finite (.of_between isCanonical_zero ?_ ?_ fun _ => rfl) (by decide) <;> rw [dyadic_zero]
  · linarith
  · linarith

/-- Ten is more than three powers of two. -/
theorem two_zpow_le_ten_zpow {k : Int} (hk : 0 ≤ k) : (2 : ℚ) ^ (3 * k) ≤ 10 ^ k := by
  rw [zpow_mul]
  exact zpow_le_zpow_left₀ hk (by positivity) (by norm_num)

/-- A number of more than 400 digits is beyond the range. -/
theorem two_zpow_le_of_large {k : Int} (hk : 400 ≤ k) : (2 : ℚ) ^ (1024 : Int) ≤ 10 ^ k :=
  calc (2 : ℚ) ^ (1024 : Int) ≤ 2 ^ (3 * k) := zpow_le_zpow_right₀ one_le_two (by omega)
    _ ≤ 10 ^ k := two_zpow_le_ten_zpow (by omega)

/-- A number with 401 zeros behind the point is below half of the smallest value. -/
theorem le_two_zpow_of_small {k : Int} (hk : k ≤ -401) : (10 : ℚ) ^ k ≤ 2 ^ (-1075 : Int) :=
  calc (10 : ℚ) ^ k = (10 ^ (-k))⁻¹ := by rw [zpow_neg, inv_inv]
    _ ≤ (2 ^ (3 * -k))⁻¹ := inv_anti₀ (by positivity) (two_zpow_le_ten_zpow (by omega))
    _ = 2 ^ (3 * k) := by rw [← zpow_neg, mul_neg, neg_neg]
    _ ≤ 2 ^ (-1075 : Int) := zpow_le_zpow_right₀ one_le_two (by omega)

section Decimals

variable {digits count : Nat}

/-- A decimal is not below the power of ten of its first digit. -/
theorem le_decimal (hlow : 10 ^ count ≤ 10 * digits) (exponent : Int) :
    (10 : ℚ) ^ (exponent + count - 1) ≤ digits * 10 ^ exponent := by
  have hten : (10 : ℚ) ≠ 0 := by norm_num
  have hdigits : (10 : ℚ) ^ count ≤ 10 * digits := by exact_mod_cast hlow
  have hscale : (0 : ℚ) < 10 ^ exponent := zpow_pos (by norm_num) exponent
  rw [zpow_sub_one₀ hten, ← div_eq_mul_inv, div_le_iff₀ (by norm_num), add_comm,
    zpow_add₀ hten, zpow_natCast]
  calc (10 : ℚ) ^ count * 10 ^ exponent ≤ 10 * digits * 10 ^ exponent :=
        mul_le_mul_of_nonneg_right hdigits hscale.le
    _ = digits * 10 ^ exponent * 10 := by ring

/-- A decimal is below the power of ten of all its digits. -/
theorem decimal_lt (hhigh : digits < 10 ^ count) (exponent : Int) :
    (digits : ℚ) * 10 ^ exponent < 10 ^ (exponent + count) := by
  have hdigits : (digits : ℚ) < 10 ^ count := by exact_mod_cast hhigh
  rw [add_comm, zpow_add₀ (by norm_num), zpow_natCast]
  exact mul_lt_mul_of_pos_right hdigits (zpow_pos (by norm_num) exponent)

/-- **The value of a decimal is the nearest one.** -/
theorem ofDecimal_nearest (hlow : digits ≠ 0 → 10 ^ count ≤ 10 * digits)
    (hhigh : digits < 10 ^ count) (exponent : Int) :
    (ofDecimal digits count exponent).Nearest (digits * 10 ^ exponent) := by
  have hden : tenPow (-exponent).toNat ≠ 0 := (Nat.pow_pos (by norm_num)).ne'
  have hratio : (digits : ℚ) * 10 ^ exponent =
      (digits * tenPow exponent.toNat : Nat) / (tenPow (-exponent).toNat : Nat) := by
    rw [tenPow_eq, tenPow_eq, zpow_eq_div (by norm_num : (10 : ℚ) ≠ 0), ← mul_div_assoc]
    push_cast
    rfl
  unfold ofDecimal
  split_ifs with hzero hlarge hsmall
  · rw [hzero, Nat.cast_zero, zero_mul]
    exact zero_nearest
  · have hbeyond := (two_zpow_le_of_large (by omega)).trans (le_decimal (hlow hzero) exponent)
    rw [hratio] at hbeyond ⊢
    exact infinite_nearest hden hbeyond
  · have hbelow := (decimal_lt hhigh exponent).trans_le (le_two_zpow_of_small (by omega))
    exact zero_nearest_of_lt (by positivity) hbelow
  · rw [hratio]
    exact ofRatio_nearest _ hden

end Decimals

theorem ofDecimal_isStored (digits count : Nat) (exponent : Int) :
    (ofDecimal digits count exponent).IsStored := by
  unfold ofDecimal
  split_ifs
  · exact zero_nearest.isStored
  · exact .infinite
  · exact zero_nearest.isStored
  · exact (ofRatio_nearest _ (Nat.pow_pos (by norm_num)).ne').isStored

/-! ## The value of digits in another base -/

theorem extend_isStored (base : Nat) (value : Binary64) (digit : Nat) :
    (extend base value digit).IsStored := by
  unfold extend
  split
  · exact .infinite
  · exact (ofRatio_nearest _ (Nat.pow_pos two_pos).ne').isStored

theorem ofDigits_isStored (base : Nat) (digits : List Nat) : (ofDigits base digits).IsStored := by
  unfold ofDigits
  induction digits using List.reverseRecOn with
  | nil => exact zero_nearest.isStored
  | append_singleton digits digit ih =>
      rw [List.foldl_append]
      exact extend_isStored base _ digit

end Binary64

end KeysetBundle.Decimal
