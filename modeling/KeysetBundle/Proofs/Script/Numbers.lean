import KeysetBundle.Script.Literal
import KeysetBundle.Proofs.Decimal.Digits
import KeysetBundle.Proofs.Decimal.Rounding

/-!
# Numbers of scripts

A number is read as the value nearest to the decimal that is written
(`decimalNumber_nearest`), and whatever a number is read as is a value of the
format as it is kept (`readNumber_isStored`).
-/

namespace KeysetBundle.Script

open KeysetBundle.Decimal

/-- The number that digits with a fraction and an exponent write. -/
def writtenValue (whole fraction : List Char) (exponent : Int) : ℚ :=
  extendValue 0 (whole ++ fraction) * 10 ^ (exponent - fraction.length)

/-- **A decimal is the value nearest to the number that is written.** -/
theorem decimalNumber_nearest {whole fraction : List Char}
    (h : ∀ c ∈ whole ++ fraction, c.isDigit) (exponent : Int) :
    (decimalNumber whole fraction exponent).Nearest (writtenValue whole fraction exponent) := by
  have hdigits : ∀ c ∈ (whole ++ fraction).dropWhile (· == '0'), c.isDigit := fun c hc =>
    h c ((List.dropWhile_sublist _).subset hc)
  unfold decimalNumber writtenValue
  rw [← extendValue_dropWhile]
  refine Binary64.ofDecimal_nearest (fun hne => ?_) (extendValue_lt hdigits) _
  cases hrest : (whole ++ fraction).dropWhile (· == '0') with
  | nil =>
      rw [hrest] at hne
      exact absurd rfl hne
  | cons c digits =>
      have hc : c ≠ '0' := by
        rintro rfl
        have hhead := List.head_dropWhile_not (· == '0') (l := whole ++ fraction)
          (by rw [hrest]; exact List.cons_ne_nil _ _)
        simp [hrest] at hhead
      rw [hrest] at hdigits
      have hpow : 10 ^ digits.length ≤ extendValue 0 (c :: digits) :=
        pow_le_extendValue (hdigits c (by simp)) hc
      rw [List.length_cons, Nat.pow_succ]
      omega

/-! ## What is read -/

theorem readDecimalTail_isStored {whole cs rest : List Char} {value : Binary64}
    (h : readDecimalTail whole cs = some (.number value, rest)) : value.IsStored := by
  unfold readDecimalTail at h
  split at h
  · cases h
  · dsimp only at h
    split at h
    all_goals
      obtain ⟨⟨fraction, behind⟩, -, h⟩ := Option.bind_eq_some_iff.1 h
      obtain ⟨⟨exponent, after⟩, -, h⟩ := Option.bind_eq_some_iff.1 h
      cases h
      exact Binary64.ofDecimal_isStored _ _ _

theorem readBased_isStored {base : Nat} {cs rest : List Char} {value : Binary64}
    (h : readBased base cs = some (.number value, rest)) : value.IsStored := by
  unfold readBased at h
  obtain ⟨⟨digits, behind⟩, -, h⟩ := Option.bind_eq_some_iff.1 h
  dsimp only at h
  split at h
  · cases h
  · cases h
    exact Binary64.ofDigits_isStored _ _

/-- **Every number that is read is a value of the format as it is kept.** -/
theorem readNumber_isStored {cs rest : List Char} {value : Binary64}
    (h : readNumber cs = some (.number value, rest)) : value.IsStored := by
  unfold readNumber at h
  split at h
  · -- a point and digits
    obtain ⟨⟨fraction, behind⟩, -, h⟩ := Option.bind_eq_some_iff.1 h
    obtain ⟨⟨exponent, after⟩, -, h⟩ := Option.bind_eq_some_iff.1 h
    cases h
    exact Binary64.ofDecimal_isStored _ _ _
  · -- a zero
    split at h
    · split at h
      · exact readBased_isStored h
      · split at h
        · cases h
        · exact readDecimalTail_isStored h
    · exact readDecimalTail_isStored h
  · -- any other first digit
    obtain ⟨⟨whole, behind⟩, -, h⟩ := Option.bind_eq_some_iff.1 h
    exact readDecimalTail_isStored h

end KeysetBundle.Script
