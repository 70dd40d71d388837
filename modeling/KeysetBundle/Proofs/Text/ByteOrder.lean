/-!
# The order of texts is the order of their bytes

Texts are compared by their code points.  UTF-8 keeps this order: of two
different characters, the encoding of the smaller one has the smaller byte
where the encodings first differ, and neither encoding continues the other
(`utf8EncodeChar_append_lt`).  Texts in ascending order are therefore in
ascending order of their bytes (`bytes_lt_of_lt`).
-/

namespace KeysetBundle.Text

open String (utf8EncodeChar)

/-- The bytes of a text. -/
def bytes (text : String) : List UInt8 := text.toUTF8.data.toList

theorem bytes_eq_flatMap (text : String) : bytes text = text.toList.flatMap utf8EncodeChar := by
  unfold bytes
  rw [String.toUTF8_eq_toByteArray, ← String.utf8Encode_toList]
  simp [List.utf8Encode]

theorem ofNat_lt_ofNat {m n : Nat} (hn : n < 256) (h : m < n) : UInt8.ofNat m < UInt8.ofNat n := by
  rw [UInt8.lt_iff_toNat_lt, UInt8.toNat_ofNat', UInt8.toNat_ofNat']
  omega

theorem cons_append_lt {m n : Nat} {as bs xs ys : List UInt8} (hn : n < 256)
    (h : m < n ∨ m = n ∧ as ++ xs < bs ++ ys) :
    UInt8.ofNat m :: as ++ xs < UInt8.ofNat n :: bs ++ ys := by
  rw [List.cons_append, List.cons_append, List.cons_lt_cons_iff]
  rcases h with h | ⟨rfl, h⟩
  · exact .inl (ofNat_lt_ofNat hn h)
  · exact .inr ⟨rfl, h⟩

/-- The encoding of a smaller character is smaller, whatever follows. -/
theorem utf8EncodeChar_append_lt {c d : Char} (h : c < d) (xs ys : List UInt8) :
    utf8EncodeChar c ++ xs < utf8EncodeChar d ++ ys := by
  have hlt : c.val.toNat < d.val.toNat := h
  have hd : d.val.toNat < 0x110000 := by
    have := d.valid
    unfold UInt32.isValidChar Nat.isValidChar at this
    omega
  unfold utf8EncodeChar
  generalize c.val.toNat = m at hlt
  generalize d.val.toNat = n at hlt hd
  -- A longer encoding has a larger first byte.  In encodings of one length the bytes are the
  -- digits of the code points to the base 64, the highest first.
  by_cases hm₁ : m ≤ 0x7f
  · rw [if_pos hm₁]
    by_cases hn₁ : n ≤ 0x7f
    · rw [if_pos hn₁]
      exact cons_append_lt (by omega) (.inl hlt)
    · rw [if_neg hn₁]
      split
      · exact cons_append_lt (by omega) (.inl (by omega))
      · split <;> exact cons_append_lt (by omega) (.inl (by omega))
  · have hn₁ : ¬n ≤ 0x7f := by omega
    rw [if_neg hm₁, if_neg hn₁]
    by_cases hm₂ : m ≤ 0x7ff
    · rw [if_pos hm₂]
      by_cases hn₂ : n ≤ 0x7ff
      · rw [if_pos hn₂]
        apply cons_append_lt (by omega)
        by_cases hfirst : m / 64 = n / 64
        · exact .inr ⟨by omega, cons_append_lt (by omega) (.inl (by omega))⟩
        · exact .inl (by omega)
      · rw [if_neg hn₂]
        split <;> exact cons_append_lt (by omega) (.inl (by omega))
    · have hn₂ : ¬n ≤ 0x7ff := by omega
      rw [if_neg hm₂, if_neg hn₂]
      by_cases hm₃ : m ≤ 0xffff
      · rw [if_pos hm₃]
        by_cases hn₃ : n ≤ 0xffff
        · rw [if_pos hn₃]
          apply cons_append_lt (by omega)
          by_cases hfirst : m / 4096 = n / 4096
          · refine .inr ⟨by omega, cons_append_lt (by omega) ?_⟩
            by_cases hsecond : m / 64 = n / 64
            · exact .inr ⟨by omega, cons_append_lt (by omega) (.inl (by omega))⟩
            · exact .inl (by omega)
          · exact .inl (by omega)
        · rw [if_neg hn₃]
          exact cons_append_lt (by omega) (.inl (by omega))
      · have hn₃ : ¬n ≤ 0xffff := by omega
        rw [if_neg hm₃, if_neg hn₃]
        apply cons_append_lt (by omega)
        by_cases hfirst : m / 262144 = n / 262144
        · refine .inr ⟨by omega, cons_append_lt (by omega) ?_⟩
          by_cases hsecond : m / 4096 = n / 4096
          · refine .inr ⟨by omega, cons_append_lt (by omega) ?_⟩
            by_cases hthird : m / 64 = n / 64
            · exact .inr ⟨by omega, cons_append_lt (by omega) (.inl (by omega))⟩
            · exact .inl (by omega)
          · exact .inl (by omega)
        · exact .inl (by omega)

theorem utf8EncodeChar_ne_nil (c : Char) : utf8EncodeChar c ≠ [] := by
  unfold utf8EncodeChar
  simp only
  split
  · simp
  · split
    · simp
    · split <;> simp

theorem append_lt_append (bs : List UInt8) {xs ys : List UInt8} (h : xs < ys) :
    bs ++ xs < bs ++ ys := by
  induction bs with
  | nil => exact h
  | cons b bs ih =>
      rw [List.cons_append, List.cons_append, List.cons_lt_cons_iff]
      exact .inr ⟨rfl, ih⟩

theorem flatMap_utf8EncodeChar_lt {cs ds : List Char} (h : cs < ds) :
    cs.flatMap utf8EncodeChar < ds.flatMap utf8EncodeChar := by
  induction cs generalizing ds with
  | nil =>
      cases ds with
      | nil => exact absurd h (List.lt_irrefl [])
      | cons d ds =>
          rw [List.flatMap_cons]
          cases hbytes : utf8EncodeChar d with
          | nil => exact absurd hbytes (utf8EncodeChar_ne_nil d)
          | cons b bs => exact List.nil_lt_cons _ _
  | cons c cs ih =>
      cases ds with
      | nil => exact absurd h (List.not_lt_nil _)
      | cons d ds =>
          rw [List.flatMap_cons, List.flatMap_cons]
          rcases List.cons_lt_cons_iff.1 h with hlt | ⟨rfl, htail⟩
          · exact utf8EncodeChar_append_lt hlt _ _
          · exact append_lt_append _ (ih htail)

/-- **A smaller text has smaller bytes.** -/
theorem bytes_lt_of_lt {text other : String} (h : text < other) : bytes text < bytes other := by
  rw [bytes_eq_flatMap, bytes_eq_flatMap]
  exact flatMap_utf8EncodeChar_lt h

end KeysetBundle.Text
