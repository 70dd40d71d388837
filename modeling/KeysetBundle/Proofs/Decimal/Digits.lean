import Mathlib.Algebra.Group.Nat.Defs
import KeysetBundle.Decimal.Digits

/-!
# Numbers and their digits

A natural number is written in base ten in one way, without zeros in front of
it.  Reading what was written gives the number, and digits without such zeros
are those that are written for the number that they are read as.

Main results.

- `value?_toDigits`: what was written is read.
- `value?_eq_some_iff`: digits without leading zeros are the digits of their number.
-/

namespace KeysetBundle.Decimal

/-! ## Writing -/

/-- The digits of a number that is not zero do not start with a zero. -/
theorem head_toDigits {n : Nat} (hn : n ≠ 0) :
    ∃ c cs, Nat.toDigits 10 n = c :: cs ∧ c ≠ '0' := by
  induction n using Nat.strongRecOn with
  | ind n ih =>
      rw [Nat.toDigits_eq_if (by decide)]
      split
      · exact ⟨n.digitChar, [], rfl, mt Nat.digitChar_eq_zero.1 hn⟩
      · obtain ⟨c, cs, hdigits, hc⟩ := ih (n / 10) (by omega) (by omega)
        rw [hdigits]
        exact ⟨c, _, rfl, hc⟩

/-- A number whose digits start with a zero is zero. -/
theorem eq_zero_of_toDigits {n : Nat} {rest : List Char} (h : Nat.toDigits 10 n = '0' :: rest) :
    n = 0 ∧ rest = [] := by
  by_cases hn : n = 0
  · rw [hn, Nat.toDigits_zero] at h
    exact ⟨hn, (List.cons.inj h).2.symm⟩
  · obtain ⟨c, cs, hdigits, hc⟩ := head_toDigits hn
    rw [hdigits] at h
    exact absurd (List.cons.inj h).1 hc

theorem isDigit_of_mem_toDigits {n : Nat} {c : Char} (h : c ∈ Nat.toDigits 10 n) : c.isDigit :=
  Nat.isDigit_of_mem_toDigits (by decide) (by decide) h

/-- **What was written is read.** -/
theorem value?_toDigits (n : Nat) : value? (Nat.toDigits 10 n) = some n := by
  have hall : (Nat.toDigits 10 n).all Char.isDigit = true :=
    List.all_eq_true.2 fun c hc => isDigit_of_mem_toDigits hc
  have hne : (Nat.toDigits 10 n).isEmpty = false := by
    rw [List.isEmpty_eq_false_iff]
    exact Nat.toDigits_ne_nil
  have hvalue : extendValue 0 (Nat.toDigits 10 n) = n := Nat.ofDigitChars_ten_toDigits
  rw [value?, hall, hne, hvalue]
  rfl

/-- Two numbers are not written alike. -/
theorem toString_injective {n k : Nat} (h : toString n = toString k) : n = k := by
  rw [Nat.toString_eq_repr, Nat.toString_eq_repr, ← String.toList_inj, Nat.toList_repr,
    Nat.toList_repr] at h
  have hread := value?_toDigits n
  rw [h, value?_toDigits] at hread
  exact (Option.some.inj hread).symm

/-! ## Reading -/

theorem toNat_of_isDigit {c : Char} (h : c.isDigit) : 48 ≤ c.toNat ∧ c.toNat ≤ 57 := by
  simpa [Char.isDigit, UInt32.le_iff_toNat_le] using h

/-- A digit is the one that is written for its value. -/
theorem digitChar_digitValue {c : Char} (h : c.isDigit) :
    digitValue c < 10 ∧ (digitValue c).digitChar = c := by
  have hrange := toNat_of_isDigit h
  have hlt : digitValue c < 10 := by
    unfold digitValue
    omega
  refine ⟨hlt, Char.toNat_inj.1 ?_⟩
  rw [Nat.toNat_digitChar_of_lt_ten hlt]
  unfold digitValue
  omega

theorem digitValue_pos {c : Char} (h : c.isDigit) (hc : c ≠ '0') : 0 < digitValue c := by
  rw [Nat.pos_iff_ne_zero]
  intro hzero
  have hchar := (digitChar_digitValue h).2
  rw [hzero] at hchar
  exact hc hchar.symm

/-- The first digit is the number in front of the others. -/
theorem extendValue_cons (c : Char) (digits : List Char) :
    extendValue 0 (c :: digits) = extendValue (digitValue c) digits := by
  simp [extendValue]

/-- The number in front counts as many powers of ten as there are digits. -/
theorem extendValue_eq (n : Nat) (digits : List Char) :
    extendValue n digits = 10 ^ digits.length * n + extendValue 0 digits :=
  Nat.ofDigitChars_eq_ofDigitChars_zero

/-- A number is less than the power of ten of its digits. -/
theorem extendValue_lt {digits : List Char} (hdigits : ∀ c ∈ digits, c.isDigit) :
    extendValue 0 digits < 10 ^ digits.length := by
  induction digits with
  | nil => exact Nat.one_pos
  | cons c digits ih =>
      have hlt := (digitChar_digitValue (hdigits c (by simp))).1
      have hrest := ih fun d hd => hdigits d (List.mem_cons_of_mem c hd)
      have hfirst := Nat.mul_le_mul_left (10 ^ digits.length) (Nat.le_of_lt_succ hlt)
      rw [extendValue_cons, extendValue_eq, List.length_cons, Nat.pow_succ]
      omega

/-- A number whose digits do not start with a zero has the power of ten of its first digit. -/
theorem pow_le_extendValue {c : Char} {digits : List Char} (hdigit : c.isDigit) (hc : c ≠ '0') :
    10 ^ digits.length ≤ extendValue 0 (c :: digits) := by
  rw [extendValue_cons, extendValue_eq]
  exact Nat.le_add_right_of_le (Nat.le_mul_of_pos_right _ (digitValue_pos hdigit hc))

/-- Zeros in front do not count. -/
theorem extendValue_dropWhile (digits : List Char) :
    extendValue 0 (digits.dropWhile (· == '0')) = extendValue 0 digits := by
  induction digits with
  | nil => rfl
  | cons c digits ih =>
      rw [List.dropWhile_cons]
      split
      · rename_i hc
        rw [ih, eq_of_beq hc]
        rfl
      · rfl

/-- Digits behind a number that is not zero are written behind its own. -/
theorem toDigits_extendValue {digits : List Char} (hdigits : ∀ c ∈ digits, c.isDigit) {n : Nat}
    (hn : 0 < n) : Nat.toDigits 10 (extendValue n digits) = Nat.toDigits 10 n ++ digits := by
  induction digits generalizing n with
  | nil => simp [extendValue]
  | cons c digits ih =>
      obtain ⟨hlt, hchar⟩ := digitChar_digitValue (hdigits c (by simp))
      have hone : Nat.toDigits 10 (10 * n + digitValue c) = Nat.toDigits 10 n ++ [c] := by
        rw [← Nat.toDigits_append_toDigits (by decide) hn hlt, Nat.toDigits_of_lt_base hlt, hchar]
      have hrest := ih (fun d hd => hdigits d (by simp [hd])) (n := 10 * n + digitValue c) (by omega)
      show Nat.toDigits 10 (extendValue (10 * n + digitValue c) digits) = _
      rw [hrest, hone, List.append_assoc]
      rfl

/-- Digits behind a first one that is no zero are written as they stand. -/
theorem toDigits_of_head {c : Char} {digits : List Char} (hdigits : ∀ d ∈ c :: digits, d.isDigit)
    (hc : c ≠ '0') : Nat.toDigits 10 (extendValue 0 (c :: digits)) = c :: digits := by
  have hdigit := hdigits c (by simp)
  obtain ⟨hlt, hchar⟩ := digitChar_digitValue hdigit
  have hrest : ∀ d ∈ digits, d.isDigit := fun d hd => hdigits d (List.mem_cons_of_mem c hd)
  rw [extendValue_cons, toDigits_extendValue hrest (digitValue_pos hdigit hc),
    Nat.toDigits_of_lt_base hlt, hchar]
  rfl

/-- **Digits that do not start with a zero are the digits of their number.** -/
theorem value?_eq_some_iff {digits : List Char} {n : Nat} (h : digits.head? ≠ some '0') :
    value? digits = some n ↔ n ≠ 0 ∧ digits = Nat.toDigits 10 n := by
  constructor
  · intro hvalue
    unfold value? at hvalue
    split at hvalue
    · rename_i hall
      cases hvalue
      cases digits with
      | nil => cases hall
      | cons c digits =>
          rw [Bool.and_eq_true, List.all_eq_true] at hall
          have hc : c ≠ '0' := fun heq => h (congrArg some heq)
          have hwritten := toDigits_of_head hall.2 hc
          refine ⟨?_, hwritten.symm⟩
          intro hzero
          rw [hzero, Nat.toDigits_zero] at hwritten
          exact hc (List.cons.inj hwritten).1.symm
    · cases hvalue
  · rintro ⟨-, rfl⟩
    exact value?_toDigits n

end KeysetBundle.Decimal
