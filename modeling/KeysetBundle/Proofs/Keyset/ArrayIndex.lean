import KeysetBundle.Keyset.ArrayIndex
import KeysetBundle.Proofs.Decimal.Digits
import Mathlib.Data.List.Induction
import Mathlib.Data.Nat.Digits.Lemmas

/-!
# Which keys are array indices

A key is an array index exactly if it is what is written for a number below the
limit.  So no two keys have one number, and signs, leading zeros and digits of
other scripts make a key that is no array index.  What is written for a number
is its numeral, and `IsNumeral` says what that is by the digits themselves:
which of them may stand where, and how much each of them counts.

Main results.

- `arrayIndex?_eq_some_iff`: array indices are what is written for the numbers
  below the limit.
- `isNumeral_iff`: what is written for a number is its one numeral.
- `arrayIndex?_recognises`: which keys are array indices, and which are not.
-/

namespace KeysetBundle

/-! ## Written numbers -/

theorem eq_toString_iff {text : String} {n : Nat} :
    text = toString n ↔ text.toList = Nat.toDigits 10 n := by
  rw [Nat.toString_eq_repr, ← String.toList_inj, Nat.toList_repr]

/-- **Array indices are the numbers below the limit, as they are written.** -/
theorem arrayIndex?_eq_some_iff {key : String} {n : Nat} :
    arrayIndex? key = some n ↔ n < arrayIndexLimit ∧ key = toString n := by
  rw [eq_toString_iff]
  unfold arrayIndex?
  split
  · -- the zero
    rename_i hkey
    rw [hkey]
    constructor
    · intro h
      cases h
      exact ⟨by decide, (Nat.toDigits_zero 10).symm⟩
    · rintro ⟨-, h⟩
      rw [(Decimal.eq_zero_of_toDigits h.symm).1]
  · -- a zero with more behind it
    rename_i rest hmore hkey
    rw [hkey]
    refine ⟨nofun, fun h => ?_⟩
    exact absurd (Decimal.eq_zero_of_toDigits h.2.symm).2 hmore
  · -- any other first character
    rename_i digits hzero hhead
    have hfirst : key.toList.head? ≠ some '0' := by
      intro h
      obtain ⟨rest, hrest⟩ := List.head?_eq_some_iff.1 h
      exact hhead rest hrest
    have hpos : key.toList = Nat.toDigits 10 n → n ≠ 0 := by
      rintro h rfl
      rw [h] at hfirst
      exact hfirst rfl
    rw [Option.filter_eq_some_iff, Decimal.value?_eq_some_iff hfirst, decide_eq_true_eq]
    exact ⟨fun h => ⟨h.2, h.1.2⟩, fun h => ⟨⟨hpos h.2, h.2⟩, h.1⟩⟩

/-- A number is the array index of one key. -/
theorem arrayIndex?_injective {key other : String} {n : Nat} (h : arrayIndex? key = some n)
    (hother : arrayIndex? other = some n) : key = other := by
  rw [arrayIndex?_eq_some_iff] at h hother
  rw [h.2, hother.2]

/-! ## Numerals -/

/-- A text is the numeral of a number in base ten: it consists of ASCII digits alone, no zero stands
in front of other digits, and each digit counts as many powers of ten as there are digits behind
it. -/
structure IsNumeral (text : String) (n : Nat) : Prop where
  /-- There is at least one character. -/
  nonempty : text.toList ≠ []
  /-- All characters are ASCII digits. -/
  digits : ∀ c ∈ text.toList, c.isDigit
  /-- A zero at the start stands alone. -/
  unpadded : ∀ rest, text.toList = '0' :: rest → rest = []
  /-- The digits, the last one first, make up the number. -/
  value : Nat.ofDigits 10 (text.toList.reverse.map Decimal.digitValue) = n

/-- The digits are read from the first one on, and count from the last one on. -/
theorem Decimal.extendValue_eq_ofDigits (digits : List Char) :
    extendValue 0 digits = Nat.ofDigits 10 (digits.reverse.map digitValue) := by
  induction digits using List.reverseRecOn with
  | nil => rfl
  | append_singleton digits c ih =>
      rw [extendValue, List.foldl_concat, List.reverse_concat, List.map_cons, Nat.ofDigits_cons,
        ← ih, Nat.add_comm]
      rfl

/-- **A number has one numeral**, which is what is written for it. -/
theorem isNumeral_iff {text : String} {n : Nat} : IsNumeral text n ↔ text = toString n := by
  rw [eq_toString_iff]
  constructor
  · intro h
    obtain ⟨c, rest, htext⟩ := List.exists_cons_of_ne_nil h.nonempty
    have hvalue := h.value
    rw [← Decimal.extendValue_eq_ofDigits, htext] at hvalue
    by_cases hc : c = '0'
    · rw [hc] at htext
      rw [h.unpadded rest htext] at hvalue htext
      have hzero : n = 0 := by
        rw [← hvalue, hc]
        rfl
      rw [htext, hzero, Nat.toDigits_zero]
    · have hdigits : ∀ d ∈ c :: rest, d.isDigit := fun d hd => h.digits d (htext ▸ hd)
      rw [htext, ← hvalue, Decimal.toDigits_of_head hdigits hc]
  · intro h
    refine ⟨h ▸ Nat.toDigits_ne_nil, ?_, ?_, ?_⟩
    · intro c hc
      rw [h] at hc
      exact Decimal.isDigit_of_mem_toDigits hc
    · intro rest hrest
      exact (Decimal.eq_zero_of_toDigits (h.symm.trans hrest)).2
    · rw [← Decimal.extendValue_eq_ofDigits, h]
      exact Nat.ofDigitChars_ten_toDigits

/-- Texts that look like numbers and are no numerals of an array index. -/
inductive IsIrregular : String → Prop
  /-- There is a sign. -/
  | signed (sign : Char) (rest : String) (h : sign = '+' ∨ sign = '-') :
    IsIrregular (String.singleton sign ++ rest)
  /-- There is a zero in front of something. -/
  | padded (rest : String) (h : rest ≠ "") : IsIrregular ("0" ++ rest)
  /-- There are more characters than the largest array index has. -/
  | tooLong (text : String) (h : 10 < text.length) : IsIrregular text
  /-- There is something else than an ASCII digit, such as a digit of another script. -/
  | foreign (text : String) (c : Char) (hc : c ∈ text.toList) (h : 127 < c.toNat) :
    IsIrregular text

/-- A text of this kind is not the numeral of an array index. -/
theorem IsIrregular.not_isNumeral {text : String} (h : IsIrregular text) {n : Nat}
    (hn : n < arrayIndexLimit) : ¬IsNumeral text n := by
  intro hnumeral
  cases h with
  | signed sign rest hsign =>
      have hdigit := hnumeral.digits sign (by simp [String.toList_append])
      rcases hsign with rfl | rfl <;> exact absurd hdigit (by decide)
  | padded rest hrest =>
      have htext : ("0" ++ rest).toList = '0' :: rest.toList := by
        rw [String.toList_append]
        rfl
      exact hrest (String.toList_eq_nil_iff.1 (hnumeral.unpadded _ htext))
  | tooLong _ hlong =>
      have hshort : (Nat.toDigits 10 n).length ≤ 10 :=
        (Nat.length_toDigits_le_iff (by decide) (by decide)).2 (Nat.lt_trans hn (by decide))
      rw [isNumeral_iff.1 hnumeral, Nat.toString_eq_repr, ← String.length_toList,
        Nat.toList_repr] at hlong
      omega
  | foreign _ c hc hcode =>
      have hrange := Decimal.toNat_of_isDigit (hnumeral.digits c hc)
      omega

/-- **Array indices are recognised exactly.**  A key has a number exactly if the number is at most
the largest index and the key is its numeral, which is what is written for it.  No two keys have one
number, and keys with signs, with zeros in front, with too many characters or with characters of
other scripts have none, nor has any other key that is no numeral. -/
theorem arrayIndex?_recognises (key : String) (n : Nat) :
    (arrayIndex? key = some n ↔ n ≤ 2 ^ 32 - 2 ∧ IsNumeral key n) ∧
    (IsNumeral key n ↔ key = toString n) ∧
    (∀ other, arrayIndex? key = some n → arrayIndex? other = some n → key = other) ∧
    ((∀ m, m ≤ 2 ^ 32 - 2 → ¬IsNumeral key m) → arrayIndex? key = none) ∧
    (IsIrregular key → arrayIndex? key = none) := by
  have hexact : ∀ m, arrayIndex? key = some m ↔ m ≤ 2 ^ 32 - 2 ∧ IsNumeral key m := by
    intro m
    have hlimit : m < arrayIndexLimit ↔ m ≤ 2 ^ 32 - 2 := Nat.lt_succ_iff
    rw [arrayIndex?_eq_some_iff, hlimit, isNumeral_iff]
  refine ⟨hexact n, isNumeral_iff, fun other => arrayIndex?_injective, ?_, ?_⟩
  · intro hnone
    rw [Option.eq_none_iff_forall_ne_some]
    intro m hm
    obtain ⟨hlimit, hnumeral⟩ := (hexact m).1 hm
    exact hnone m hlimit hnumeral
  · intro hirregular
    rw [Option.eq_none_iff_forall_ne_some]
    intro m hm
    obtain ⟨hlimit, hnumeral⟩ := (hexact m).1 hm
    exact hirregular.not_isNumeral (Nat.lt_succ_of_le hlimit) hnumeral

end KeysetBundle
