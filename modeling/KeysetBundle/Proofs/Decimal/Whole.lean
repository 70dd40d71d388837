import KeysetBundle.Proofs.Decimal.Rounding

/-!
# Whole numbers among the values

`Binary64.whole?` gives the number of a value that is whole.  A value that is
kept is the only one of its number (`eq_of_whole?`), and every number of 53
binary digits is a value, so that what is nearest to it is the number itself
(`whole?_of_nearest`).
-/

namespace KeysetBundle.Decimal

/-- The number that is whole is the number of the value. -/
theorem dyadic_of_whole? {m : Nat} {e : Int} {n : Nat}
    (h : (Binary64.finite m e).whole? = some n) : dyadic m e = n := by
  unfold Binary64.whole? at h
  dsimp only at h
  split at h
  · rename_i hwhole
    cases h
    have hdivides : (m / twoPow (-e).toNat * twoPow (-e).toNat : Nat) = m :=
      Nat.div_mul_cancel (Nat.dvd_of_mod_eq_zero hwhole)
    unfold dyadic
    rw [zpow_eq_div two_ne_zero e, ← mul_div_assoc, div_eq_iff (by positivity)]
    conv_lhs => rw [← hdivides]
    rw [twoPow_eq, twoPow_eq]
    push_cast
    ring
  · cases h

/-- The value of a natural number is whole. -/
theorem whole?_of_dyadic {m : Nat} {e : Int} {n : Nat} (h : dyadic m e = n) :
    (Binary64.finite m e).whole? = some n := by
  have hnat : m * 2 ^ e.toNat = n * 2 ^ (-e).toNat := by
    unfold dyadic at h
    rw [zpow_eq_div two_ne_zero e, ← mul_div_assoc, div_eq_iff (by positivity)] at h
    exact_mod_cast h
  unfold Binary64.whole?
  dsimp only
  rw [twoPow_eq, twoPow_eq]
  rcases le_total 0 e with he | he
  · have hplaces : (-e).toNat = 0 := by omega
    rw [hplaces, pow_zero, mul_one] at hnat
    simp [hplaces, hnat, Nat.mod_one]
  · have hzeros : e.toNat = 0 := by omega
    rw [hzeros, pow_zero, mul_one] at hnat
    simp [hzeros, hnat]

/-- A value that is kept is the only one of its number. -/
theorem eq_of_whole? {v w : Binary64} {n : Nat} (hv : v.IsStored) (hw : w.IsStored)
    (hn : v.whole? = some n) (hk : w.whole? = some n) : v = w := by
  cases hv with
  | infinite => cases hn
  | finite hv =>
      cases hw with
      | infinite => cases hk
      | finite hw =>
          obtain ⟨rfl, rfl⟩ := hv.unique hw
            ((dyadic_of_whole? hn).trans (dyadic_of_whole? hk).symm)
          rfl

/-- A number of 53 binary digits is a value. -/
theorem exists_canonical {n : Nat} (hn : n < 2 ^ 53) :
    ∃ m e, IsCanonical m e ∧ e ≤ Binary64.maxExponent ∧ dyadic m e = n := by
  by_cases hzero : n = 0
  · exact ⟨0, Binary64.minExponent, isCanonical_zero, by decide, by simp [dyadic_zero, hzero]⟩
  · have hlow := Nat.log2_self_le hzero
    have hhigh : n < 2 ^ (n.log2 + 1) := Nat.lt_log2_self
    have hlog : n.log2 < 53 := (Nat.log2_lt hzero).2 hn
    refine ⟨n * 2 ^ (52 - n.log2), n.log2 - 52, ⟨?_, ?_, .inl ?_⟩, ?_, ?_⟩
    · calc n * 2 ^ (52 - n.log2) < 2 ^ (n.log2 + 1) * 2 ^ (52 - n.log2) :=
            Nat.mul_lt_mul_of_pos_right hhigh (Nat.pow_pos two_pos)
        _ = 2 ^ 53 := by rw [← pow_add]; congr 1; omega
    · show (-1074 : Int) ≤ _
      omega
    · calc 2 ^ 52 = 2 ^ n.log2 * 2 ^ (52 - n.log2) := by rw [← pow_add]; congr 1; omega
        _ ≤ n * 2 ^ (52 - n.log2) := Nat.mul_le_mul_right _ hlow
    · show _ ≤ (971 : Int)
      omega
    · have hexponent : (2 : ℚ) ^ (52 - n.log2) * 2 ^ ((n.log2 : Int) - 52) = 1 := by
        rw [← zpow_natCast, ← zpow_add₀ two_ne_zero, Nat.cast_sub (by omega)]
        simp
      unfold dyadic
      push_cast
      rw [mul_assoc, hexponent, mul_one]

/-- **A number of 53 binary digits is the only value that is nearest to it.** -/
theorem whole?_of_nearest {value : Binary64} {n : Nat} (hn : n < 2 ^ 53) (h : value.Nearest n) :
    value.whole? = some n := by
  obtain ⟨m, e, hcanonical, hmax, hvalue⟩ := exists_canonical hn
  have hself : IsNearest m e n := hvalue ▸ hcanonical.isNearest
  rw [h.unique (.finite hself hmax)]
  exact whole?_of_dyadic hvalue

end KeysetBundle.Decimal
