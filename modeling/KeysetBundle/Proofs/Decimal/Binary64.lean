import Mathlib.Algebra.Order.Field.Power
import Mathlib.Algebra.Order.Field.Rat
import Mathlib.Tactic.Linarith
import Mathlib.Tactic.NormNum
import Mathlib.Tactic.Ring
import KeysetBundle.Decimal.Binary64

/-!
# The values of 53 binary digits

A value is kept with all 53 digits of its mantissa, except for the smallest
ones, whose exponent is the smallest.  So a value is written in one way, and
the distance to its neighbours is known: one step above it, and one step below
it, or half of one below a power of two.

A number is nearest to a value if no other one is nearer, the even mantissa
deciding between two.  By the distances it lies within half a step of the
value, and conversely.

Main results.

- `IsCanonical.unique`: a value is written in one way.
- `IsNearest.of_between`: what lies within half a step is nearest.
- `IsNearest.unique`, `Binary64.Nearest.unique`: a number is nearest to one value.
-/

namespace KeysetBundle.Decimal

/-! ## Values -/

/-- The number `mantissa * 2 ^ exponent`. -/
def dyadic (mantissa : Nat) (exponent : Int) : ℚ := mantissa * 2 ^ exponent

/-- A mantissa of 53 digits, or of fewer at the smallest exponent. -/
structure IsCanonical (mantissa : Nat) (exponent : Int) : Prop where
  /-- There are no more digits. -/
  mantissa_lt : mantissa < 2 ^ 53
  /-- No exponent is smaller. -/
  minExponent_le : Binary64.minExponent ≤ exponent
  /-- There are no fewer digits. -/
  full : 2 ^ 52 ≤ mantissa ∨ exponent = Binary64.minExponent

/-- A value of the format as it is kept. -/
inductive Binary64.IsStored : Binary64 → Prop
  /-- A finite value. -/
  | finite {mantissa : Nat} {exponent : Int} (h : IsCanonical mantissa exponent)
    (hmax : exponent ≤ Binary64.maxExponent) : IsStored (.finite mantissa exponent)
  /-- Infinity. -/
  | infinite : IsStored .infinite

section Steps

variable {m n : Nat} {e f : Int}

theorem step_pos (e : Int) : (0 : ℚ) < 2 ^ e := zpow_pos two_pos e

theorem dyadic_add_one (m : Nat) (e : Int) : dyadic (m + 1) e = dyadic m e + 2 ^ e := by
  unfold dyadic
  push_cast
  ring

theorem dyadic_two_mul (m : Nat) (e : Int) : dyadic (2 * m) e = dyadic m (e + 1) := by
  unfold dyadic
  rw [zpow_add_one₀ two_ne_zero]
  push_cast
  ring

theorem dyadic_zero (e : Int) : dyadic 0 e = 0 := by
  rw [dyadic, Nat.cast_zero, zero_mul]

theorem dyadic_pow (k : Nat) (e : Int) : dyadic (2 ^ k) e = 2 ^ k * 2 ^ e := by
  rw [dyadic, Nat.cast_pow, Nat.cast_two]

/-- A value at a smaller exponent. -/
theorem dyadic_of_le (m : Nat) (h : f ≤ e) : dyadic m e = dyadic (m * 2 ^ (e - f).toNat) f := by
  have hexponent : e = ((e - f).toNat : Int) + f := by omega
  unfold dyadic
  conv_lhs => rw [hexponent, zpow_add₀ two_ne_zero, zpow_natCast]
  push_cast
  ring

theorem dyadic_le_dyadic : dyadic m e ≤ dyadic n e ↔ m ≤ n := by
  unfold dyadic
  rw [mul_le_mul_iff_left₀ (step_pos e), Nat.cast_le]

theorem dyadic_lt_dyadic : dyadic m e < dyadic n e ↔ m < n := by
  unfold dyadic
  rw [mul_lt_mul_iff_left₀ (step_pos e), Nat.cast_lt]

theorem isCanonical_zero : IsCanonical 0 Binary64.minExponent :=
  ⟨by norm_num, le_rfl, .inr rfl⟩

/-- A power of two has all digits. -/
theorem isCanonical_pow (h : Binary64.minExponent ≤ e) : IsCanonical (2 ^ 52) e :=
  ⟨by norm_num, h, .inl le_rfl⟩

/-- So has the value before the next power of two. -/
theorem isCanonical_pred (h : Binary64.minExponent ≤ e) : IsCanonical (2 ^ 53 - 1) e :=
  ⟨by norm_num, h, .inl (by norm_num)⟩

theorem IsCanonical.full_of_lt (h : IsCanonical n f) (hlt : Binary64.minExponent < f) :
    2 ^ 52 ≤ n := h.full.resolve_right hlt.ne'

/-- A greater exponent makes a greater value. -/
theorem IsCanonical.lt_of_exponent (h : IsCanonical m e) (h' : IsCanonical n f) (hlt : e < f) :
    dyadic m e < dyadic n f := by
  have hfull := h'.full_of_lt (h.minExponent_le.trans_lt hlt)
  rw [dyadic_of_le n hlt.le, dyadic_lt_dyadic]
  have hpow : 2 ^ 1 ≤ 2 ^ (f - e).toNat := Nat.pow_le_pow_right two_pos (by omega)
  calc m < 2 ^ 52 * 2 ^ 1 := h.mantissa_lt
    _ ≤ n * 2 ^ (f - e).toNat := Nat.mul_le_mul hfull hpow

/-- **A value is written in one way.** -/
theorem IsCanonical.unique (h : IsCanonical m e) (h' : IsCanonical n f)
    (heq : dyadic m e = dyadic n f) : m = n ∧ e = f := by
  rcases lt_trichotomy e f with hlt | rfl | hgt
  · exact absurd heq (h.lt_of_exponent h' hlt).ne
  · exact ⟨le_antisymm (dyadic_le_dyadic.1 heq.le) (dyadic_le_dyadic.1 heq.ge), rfl⟩
  · exact absurd heq (h'.lt_of_exponent h hgt).ne'

/-- A greater value is greater by a step. -/
theorem IsCanonical.add_step_le (h : IsCanonical m e) (h' : IsCanonical n f)
    (hlt : dyadic m e < dyadic n f) : dyadic m e + 2 ^ e ≤ dyadic n f := by
  have hexponent : e ≤ f := by
    by_contra hgt
    exact absurd (h'.lt_of_exponent h (not_le.1 hgt)) hlt.not_gt
  rw [dyadic_of_le n hexponent] at hlt ⊢
  rw [← dyadic_add_one, dyadic_le_dyadic]
  exact dyadic_lt_dyadic.1 hlt

/-- The distance to the value below: half a step below a power of two. -/
def stepBelow (mantissa : Nat) (exponent : Int) : ℚ :=
  if mantissa = 2 ^ 52 ∧ Binary64.minExponent < exponent then 2 ^ exponent / 2 else 2 ^ exponent

theorem stepBelow_pos (m : Nat) (e : Int) : 0 < stepBelow m e := by
  have hpos := step_pos e
  unfold stepBelow
  split <;> linarith

theorem stepBelow_le (m : Nat) (e : Int) : stepBelow m e ≤ 2 ^ e := by
  have hpos := step_pos e
  unfold stepBelow
  split <;> linarith

/-- A smaller value is smaller by the step below. -/
theorem IsCanonical.add_stepBelow_le (h : IsCanonical m e) (h' : IsCanonical n f)
    (hlt : dyadic n f < dyadic m e) : dyadic n f + stepBelow m e ≤ dyadic m e := by
  rcases lt_trichotomy e f with hexponent | rfl | hexponent
  · exact absurd (h.lt_of_exponent h' hexponent) hlt.not_gt
  · have hle := h'.add_step_le h hlt
    have hstep := stepBelow_le m e
    linarith
  · -- the value below is at most the greatest one with the exponent before
    have hbound : dyadic n f + 2 ^ e / 2 ≤ 2 ^ 52 * 2 ^ e := by
      have hstep : (2 : ℚ) ^ e / 2 = 2 ^ (e - 1) := (zpow_sub_one₀ two_ne_zero e).symm
      have htop : dyadic (2 ^ 53 - 1) (e - 1) + 2 ^ (e - 1) = 2 ^ 52 * 2 ^ e := by
        unfold dyadic
        rw [← hstep]
        norm_num
        ring
      have hle : dyadic n f ≤ dyadic (2 ^ 53 - 1) (e - 1) := by
        have hexponent := Int.le_sub_one_of_lt hexponent
        rcases hexponent.lt_or_eq with hless | heq
        · exact (h'.lt_of_exponent (isCanonical_pred (h'.minExponent_le.trans hexponent)) hless).le
        · rw [heq, dyadic_le_dyadic]
          exact Nat.le_sub_one_of_lt h'.mantissa_lt
      linarith
    have hfull := h.full_of_lt (h'.minExponent_le.trans_lt hexponent)
    unfold stepBelow
    split
    · rename_i hnarrow
      rw [hnarrow.1]
      unfold dyadic at hbound ⊢
      push_cast
      linarith
    · rename_i hnarrow
      have hmore : 2 ^ 52 + 1 ≤ m := by
        have hne : m ≠ 2 ^ 52 := fun heq =>
          hnarrow ⟨heq, h'.minExponent_le.trans_lt hexponent⟩
        omega
      have hvalue := dyadic_le_dyadic (e := e).2 hmore
      rw [dyadic_add_one, dyadic_pow] at hvalue
      have hpos := step_pos e
      linarith

end Steps

/-! ## The nearest value -/

/-- A number is nearest to a value: no value is nearer, and the mantissa is even if another one is
as near. -/
structure IsNearest (mantissa : Nat) (exponent : Int) (x : ℚ) : Prop where
  /-- The value has all its digits. -/
  canonical : IsCanonical mantissa exponent
  /-- No value is nearer. -/
  le {n : Nat} {f : Int} (h : IsCanonical n f) :
    |dyadic mantissa exponent - x| ≤ |dyadic n f - x|
  /-- Of two values that are as near the even one is taken. -/
  even {n : Nat} {f : Int} (h : IsCanonical n f)
    (heq : |dyadic mantissa exponent - x| = |dyadic n f - x|) :
    (n = mantissa ∧ f = exponent) ∨ mantissa % 2 = 0

section Nearest

variable {m n : Nat} {e f : Int} {x : ℚ}

/-- **What lies within half a step of a value is nearest to it**, the ends if the mantissa is
even. -/
theorem IsNearest.of_between (h : IsCanonical m e) (hlow : dyadic m e - stepBelow m e / 2 ≤ x)
    (hhigh : x ≤ dyadic m e + 2 ^ e / 2)
    (hends : x = dyadic m e - stepBelow m e / 2 ∨ x = dyadic m e + 2 ^ e / 2 → m % 2 = 0) :
    IsNearest m e x := by
  have hbelow := stepBelow_pos m e
  have hstep := stepBelow_le m e
  have hboth {n : Nat} {f : Int} (h' : IsCanonical n f) :
      |dyadic m e - x| ≤ |dyadic n f - x| ∧
        (|dyadic m e - x| = |dyadic n f - x| → (n = m ∧ f = e) ∨ m % 2 = 0) := by
    rcases lt_trichotomy (dyadic m e) (dyadic n f) with hlt | heq | hgt
    · -- the other value lies above
      have hnext := h.add_step_le h' hlt
      have hdistance : 2 ^ e / 2 ≤ dyadic n f - x := by linarith
      rw [abs_of_pos (by linarith : 0 < dyadic n f - x)]
      rcases abs_cases (dyadic m e - x) with ⟨habs, -⟩ | ⟨habs, -⟩ <;> rw [habs]
      · exact ⟨by linarith, fun heq => by linarith⟩
      · exact ⟨by linarith, fun heq => .inr (hends (.inr (by linarith)))⟩
    · obtain ⟨rfl, rfl⟩ := h.unique h' heq
      exact ⟨le_rfl, fun _ => .inl ⟨rfl, rfl⟩⟩
    · -- the other value lies below
      have hprevious := h.add_stepBelow_le h' hgt
      have hdistance : stepBelow m e / 2 ≤ x - dyadic n f := by linarith
      rw [abs_sub_comm (dyadic n f), abs_of_pos (by linarith : 0 < x - dyadic n f)]
      rcases abs_cases (dyadic m e - x) with ⟨habs, -⟩ | ⟨habs, -⟩ <;> rw [habs]
      · exact ⟨by linarith, fun heq => .inr (hends (.inl (by linarith)))⟩
      · exact ⟨by linarith, fun heq => by linarith⟩
  exact ⟨h, fun h' => (hboth h').1, fun h' => (hboth h').2⟩

/-- A value is nearest to itself. -/
theorem IsCanonical.isNearest (h : IsCanonical m e) : IsNearest m e (dyadic m e) := by
  have hstep := step_pos e
  have hbelow := stepBelow_pos m e
  refine .of_between h (by linarith) (by linarith) ?_
  rintro (heq | heq) <;> linarith

/-- Of two values that are as near as any not both have an even mantissa: the one above the lower
of them lies between. -/
theorem IsNearest.not_dyadic_lt (h : IsNearest m e x) (h' : IsNearest n f x) :
    ¬ dyadic m e < dyadic n f := by
  intro hlt
  have hdistance := le_antisymm (h.le h'.canonical) (h'.le h.canonical)
  have hne : ¬ (m = n ∧ e = f) := by
    rintro ⟨rfl, rfl⟩
    exact lt_irrefl _ hlt
  have hm : m % 2 = 0 := (h.even h'.canonical hdistance).resolve_left fun heq =>
    hne ⟨heq.1.symm, heq.2.symm⟩
  have hn : n % 2 = 0 := (h'.even h.canonical hdistance.symm).resolve_left hne
  have hbetween : IsCanonical (m + 1) e := by
    have hcanonical := h.canonical
    exact ⟨by have := hcanonical.mantissa_lt; omega, hcanonical.minExponent_le,
      hcanonical.full.imp_left fun hfull => by omega⟩
  have hle := h.canonical.add_step_le h'.canonical hlt
  have hpos := step_pos e
  rw [← dyadic_add_one] at hle
  rcases hle.lt_or_eq with hless | heq
  · have hmiddle : dyadic n f - x = -(dyadic m e - x) := by
      rcases abs_eq_abs.1 hdistance with heq | heq <;> linarith
    have hnearer := h.le hbetween
    rw [dyadic_add_one] at hnearer hless
    have hsign : dyadic m e - x < 0 := by linarith
    rw [abs_of_neg hsign] at hnearer
    rcases abs_cases (dyadic m e + 2 ^ e - x) with ⟨habs, -⟩ | ⟨habs, -⟩ <;> linarith
  · have hodd := (hbetween.unique h'.canonical heq).1
    omega

/-- **A number is nearest to one value.** -/
theorem IsNearest.unique (h : IsNearest m e x) (h' : IsNearest n f x) : m = n ∧ e = f :=
  h.canonical.unique h'.canonical
    (le_antisymm (not_lt.1 (h'.not_dyadic_lt h)) (not_lt.1 (h.not_dyadic_lt h')))

/-- A number above a value is not nearest to a smaller one. -/
theorem IsNearest.le_dyadic (h : IsNearest m e x) (h' : IsCanonical n f) (hx : dyadic n f ≤ x) :
    dyadic n f ≤ dyadic m e := by
  by_contra hlt
  have hnearer := h.le h'
  rw [abs_of_nonpos (by linarith : dyadic n f - x ≤ 0),
    abs_of_nonpos (by linarith : dyadic m e - x ≤ 0)] at hnearer
  linarith

/-- A number below a value is not nearest to a greater one. -/
theorem IsNearest.dyadic_le (h : IsNearest m e x) (h' : IsCanonical n f) (hx : x ≤ dyadic n f) :
    dyadic m e ≤ dyadic n f := by
  by_contra hlt
  have hnearer := h.le h'
  rw [abs_of_nonneg (by linarith : 0 ≤ dyadic n f - x),
    abs_of_nonneg (by linarith : 0 ≤ dyadic m e - x)] at hnearer
  linarith

end Nearest

/-- The value nearest to a number, which is infinity from the range on. -/
inductive Binary64.Nearest : Binary64 → ℚ → Prop
  /-- A finite value. -/
  | finite {mantissa : Nat} {exponent : Int} {x : ℚ} (h : IsNearest mantissa exponent x)
    (hmax : exponent ≤ Binary64.maxExponent) : Nearest (.finite mantissa exponent) x
  /-- A value whose exponent would be too large. -/
  | infinite {mantissa : Nat} {exponent : Int} {x : ℚ} (h : IsNearest mantissa exponent x)
    (hmax : Binary64.maxExponent < exponent) : Nearest .infinite x

theorem Binary64.Nearest.isStored {value : Binary64} {x : ℚ} (h : value.Nearest x) :
    value.IsStored := by
  cases h with
  | finite h hmax => exact .finite h.canonical hmax
  | infinite h hmax => exact .infinite

/-- **There is one value that is nearest to a number.** -/
theorem Binary64.Nearest.unique {value other : Binary64} {x : ℚ} (h : value.Nearest x)
    (h' : other.Nearest x) : value = other := by
  cases h with
  | finite h hmax =>
      cases h' with
      | finite h' =>
          obtain ⟨rfl, rfl⟩ := h.unique h'
          rfl
      | infinite h' hmore =>
          obtain ⟨rfl, rfl⟩ := h.unique h'
          exact absurd hmax (not_le.2 hmore)
  | infinite h hmore =>
      cases h' with
      | finite h' hmax =>
          obtain ⟨rfl, rfl⟩ := h.unique h'
          exact absurd hmax (not_le.2 hmore)
      | infinite => rfl

end KeysetBundle.Decimal
