import KeysetBundle.Decimal.Shortest
import KeysetBundle.Proofs.Decimal.Digits
import KeysetBundle.Proofs.Decimal.Rounding

/-!
# The shortest decimal stands for its value

Whatever decimal is chosen for a value, the value is the one that is nearest to
it: a candidate is tested for it, zeros at the end do not count, and where no
candidate is found the decimal is exact.  So two values never have one
decimal.

A large value has a decimal without places, so that it is written as a natural
number (`positional_shortest`).
-/

namespace KeysetBundle.Decimal

namespace Scaled

/-! ## Comparisons -/

/-- The number that a decimal is. -/
def value (d : Scaled) : ℚ := d.digits * 10 ^ d.exponent

/-- The two sides of a comparison are the two numbers, in the same steps. -/
theorem compareBinary_sides (d : Scaled) (n : Nat) (q : Int) :
    ∃ step : ℚ, 0 < step ∧
      (d.digits * tenPow d.exponent.toNat * twoPow (-q).toNat : Nat) = d.value * step ∧
      (n * twoPow q.toNat * tenPow (-d.exponent).toNat : Nat) = dyadic n q * step := by
  refine ⟨10 ^ (-d.exponent).toNat * 2 ^ (-q).toNat, by positivity, ?_, ?_⟩
  · unfold value
    rw [tenPow_eq, twoPow_eq, zpow_eq_div (by norm_num : (10 : ℚ) ≠ 0)]
    push_cast
    field_simp
  · unfold dyadic
    rw [tenPow_eq, twoPow_eq, zpow_eq_div two_ne_zero]
    push_cast
    field_simp

theorem compareBinary_eq_lt {d : Scaled} {n : Nat} {q : Int} :
    d.compareBinary n q = .lt ↔ d.value < dyadic n q := by
  obtain ⟨step, hstep, hleft, hright⟩ := d.compareBinary_sides n q
  unfold compareBinary
  rw [Nat.compare_eq_lt, ← mul_lt_mul_iff_left₀ hstep, ← hleft, ← hright, Nat.cast_lt]

theorem compareBinary_eq_gt {d : Scaled} {n : Nat} {q : Int} :
    d.compareBinary n q = .gt ↔ dyadic n q < d.value := by
  obtain ⟨step, hstep, hleft, hright⟩ := d.compareBinary_sides n q
  unfold compareBinary
  rw [Nat.compare_eq_gt, ← mul_lt_mul_iff_left₀ hstep, ← hleft, ← hright, Nat.cast_lt]

theorem compareBinary_eq_eq {d : Scaled} {n : Nat} {q : Int} :
    d.compareBinary n q = .eq ↔ d.value = dyadic n q := by
  obtain ⟨step, hstep, hleft, hright⟩ := d.compareBinary_sides n q
  unfold compareBinary
  rw [Nat.compare_eq_eq, ← mul_left_inj' hstep.ne', ← hleft, ← hright, Nat.cast_inj]

/-! ## Candidates -/

section Candidates

variable {m : Nat} {e : Int} {d : Scaled}

/-- The number of quarter steps, in quarter steps. -/
theorem dyadic_quarters (n : Nat) (e : Int) : dyadic n (e - 2) = n * 2 ^ e / 4 := by
  unfold dyadic
  rw [zpow_sub₀ two_ne_zero, mul_div_assoc]
  norm_num

/-- The lower end of the numbers that are nearest to a value. -/
theorem dyadic_lowEnd (hm : 0 < m) :
    dyadic (4 * m - if m = twoPow 52 ∧ Binary64.minExponent < e then 1 else 2) (e - 2) =
      dyadic m e - stepBelow m e / 2 := by
  rw [dyadic_quarters, twoPow_eq]
  unfold dyadic stepBelow
  split
  · rw [Nat.cast_sub (by omega)]
    push_cast
    ring
  · rw [Nat.cast_sub (by omega)]
    push_cast
    ring

/-- The upper end of the numbers that are nearest to a value. -/
theorem dyadic_highEnd (m : Nat) (e : Int) :
    dyadic (4 * m + 2) (e - 2) = dyadic m e + 2 ^ e / 2 := by
  rw [dyadic_quarters]
  unfold dyadic
  push_cast
  ring

/-- **A decimal that rounds to a value is nearest to it.** -/
theorem isNearest_of_roundsTo (h : IsCanonical m e) (hm : 0 < m) (hrounds : d.roundsTo m e) :
    IsNearest m e d.value := by
  unfold roundsTo at hrounds
  simp only [Bool.and_eq_true, Bool.or_eq_true, beq_iff_eq,
    compareBinary_eq_gt, compareBinary_eq_lt, compareBinary_eq_eq, dyadic_lowEnd hm,
    dyadic_highEnd] at hrounds
  obtain ⟨hlow, hhigh⟩ := hrounds
  refine .of_between h ?_ ?_ ?_
  · exact hlow.elim le_of_lt fun hend => hend.2.ge
  · exact hhigh.elim le_of_lt fun hend => hend.2.le
  · rintro (hend | hend)
    · exact hlow.elim (fun hlt => absurd hend hlt.ne') And.left
    · exact hhigh.elim (fun hlt => absurd hend hlt.ne) And.left

end Candidates

end Scaled

section Shortest

variable {m : Nat} {e : Int} {d : Scaled}

/-- A candidate has been tested, and its last digit has the place of the count. -/
theorem candidate?_spec {count : Nat} (h : candidate? m e count = some d) :
    d.roundsTo m e ∧ d.exponent = magnitude m e - count := by
  unfold candidate? at h
  dsimp only at h
  split at h
  · cases h
  · rename_i hlower hupper
    cases h
    exact ⟨hlower, rfl⟩
  · rename_i hlower hupper
    cases h
    exact ⟨hupper, rfl⟩
  · rename_i hlower hupper
    split at h
    · cases h
      exact ⟨hlower, rfl⟩
    · cases h
      exact ⟨hupper, rfl⟩
    · split at h
      · cases h
        exact ⟨hlower, rfl⟩
      · cases h
        exact ⟨hupper, rfl⟩

/-- Zeros at the end do not count. -/
theorem strip_spec (count : Nat) (d : Scaled) :
    (d.strip count).value = d.value ∧ d.exponent ≤ (d.strip count).exponent := by
  induction count generalizing d with
  | zero => exact ⟨rfl, le_rfl⟩
  | succ count ih =>
      unfold Scaled.strip
      split
      · rename_i hzero
        obtain ⟨hvalue, hexponent⟩ := ih ⟨d.digits / 10, d.exponent + 1⟩
        refine ⟨?_, (Int.le_add_one le_rfl).trans hexponent⟩
        have hdigits : d.digits = d.digits / 10 * 10 := by omega
        rw [hvalue]
        unfold Scaled.value
        conv_rhs => rw [hdigits]
        rw [zpow_add_one₀ (by norm_num)]
        push_cast
        ring
      · exact ⟨rfl, le_rfl⟩

theorem exactDecimal_value (m : Nat) (e : Int) : (exactDecimal m e).value = dyadic m e := by
  unfold Scaled.value exactDecimal dyadic
  rw [twoPow_eq, zpow_eq_div two_ne_zero e, zpow_neg, zpow_natCast]
  have hten : (10 : ℚ) ^ (-e).toNat = 2 ^ (-e).toNat * 5 ^ (-e).toNat := by
    rw [← mul_pow]
    norm_num
  rw [hten]
  change ((m * 2 ^ e.toNat * 5 ^ (-e).toNat : Nat) : ℚ) * _ = _
  push_cast
  field_simp

/-- **A value is the one nearest to its shortest decimal.** -/
theorem shortest_isNearest (h : IsCanonical m e) (hm : 0 < m) :
    IsNearest m e (shortest m e).value := by
  unfold shortest
  split
  · rename_i found hfound
    obtain ⟨count, -, hcount⟩ := List.exists_of_findSome?_eq_some hfound
    rw [(strip_spec 17 found).1]
    exact Scaled.isNearest_of_roundsTo h hm (candidate?_spec hcount).1
  · rw [exactDecimal_value]
    exact h.isNearest

/-! ## Large values -/

/-- The number of digits of a value is not far from the guess. -/
theorem le_magnitude (m : Nat) (e : Int) :
    ((m.log2 : Int) + e) * 30103 / 100000 - 1 ≤ magnitude m e := by
  unfold magnitude
  dsimp only
  cases hfound : List.find? _ _ with
  | none =>
      rw [Option.getD_none]
      omega
  | some power =>
      obtain ⟨i, hi, rfl⟩ := List.mem_map.1 (List.mem_of_find?_eq_some hfound)
      rw [Option.getD_some]
      simp only [List.mem_cons, List.not_mem_nil, or_false] at hi
      omega

/-- The shortest decimal of a large value has no places. -/
theorem shortest_exponent_nonneg (h : IsCanonical m e) (hlarge : 63 ≤ (m.log2 : Int) + e) :
    0 ≤ (shortest m e).exponent := by
  unfold shortest
  split
  · rename_i found hfound
    obtain ⟨count, hmem, hcount⟩ := List.exists_of_findSome?_eq_some hfound
    have hle : count ≤ 17 := by
      obtain ⟨i, hi, rfl⟩ := List.mem_map.1 hmem
      exact List.mem_range.1 hi
    have hguess := le_magnitude m e
    have hpower := (candidate?_spec hcount).2
    have hstrip := (strip_spec 17 found).2
    omega
  · have hdigits : m.log2 < 53 := by
      by_cases hm : m = 0
      · rw [hm]
        decide
      · exact (Nat.log2_lt hm).2 h.mantissa_lt
    show 0 ≤ -((-e).toNat : Int)
    omega

/-- Zeros behind a number that is not zero are written behind its digits. -/
theorem toDigits_mul_pow {n : Nat} (hn : 0 < n) (k : Nat) :
    Nat.toDigits 10 (n * 10 ^ k) = Nat.toDigits 10 n ++ List.replicate k '0' := by
  have hzeros : extendValue n (List.replicate k '0') = n * 10 ^ k := by
    rw [mul_comm]
    exact Nat.ofDigitChars_replicate_zero
  rw [← hzeros]
  refine toDigits_extendValue (fun c hc => ?_) hn
  rw [List.eq_of_mem_replicate hc]
  rfl

/-- A decimal without places is written as a natural number. -/
theorem positional_of_nonneg (hdigits : 0 < d.digits) (hexponent : 0 ≤ d.exponent) :
    d.positional = toString (d.digits * 10 ^ d.exponent.toNat) := by
  have hplaces : (-d.exponent).toNat = 0 := by omega
  unfold Scaled.positional
  dsimp only
  rw [if_pos hplaces, ← String.toList_inj, String.toList_ofList, Nat.toString_eq_repr,
    Nat.toString_eq_repr, Nat.toList_repr, Nat.toList_repr, toDigits_mul_pow hdigits]

/-- **A large value is written as a natural number**, one to which it is nearest. -/
theorem positional_shortest (h : IsCanonical m e) (hm : 0 < m)
    (hlarge : 63 ≤ (m.log2 : Int) + e) :
    ∃ n : Nat, (shortest m e).positional = toString n ∧ IsNearest m e n := by
  have hnearest := shortest_isNearest h hm
  have hexponent := shortest_exponent_nonneg h hlarge
  generalize shortest m e = d at hnearest hexponent
  have hdigits : 0 < d.digits := by
    refine Nat.pos_of_ne_zero fun hzero => ?_
    have hvalue : d.value = dyadic 0 Binary64.minExponent := by
      simp [Scaled.value, dyadic_zero, hzero]
    exact hm.ne' (hnearest.unique (hvalue ▸ isCanonical_zero.isNearest)).1
  have hvalue : d.value = (d.digits * 10 ^ d.exponent.toNat : Nat) := by
    unfold Scaled.value
    conv_lhs => rw [← Int.toNat_of_nonneg hexponent, zpow_natCast]
    push_cast
    rfl
  exact ⟨_, positional_of_nonneg hdigits hexponent, hvalue ▸ hnearest⟩

end Shortest

end KeysetBundle.Decimal
