import KeysetBundle.Text.Surrogates

/-!
# The code points of a text

No character of a text is half of a surrogate pair, so the code points of a
text stand for the text itself.
-/

namespace KeysetBundle.Text

theorem joinHalves?_map_toNat (cs : List Char) : joinHalves? (cs.map Char.toNat) = some cs := by
  have hhalf : ∀ c : Char, isHighHalf c.toNat = false ∧ isLowHalf c.toNat = false := by
    intro c
    have hvalid : c.toNat < 0xd800 ∨ 0xdfff < c.toNat ∧ c.toNat < 0x110000 := c.valid
    unfold isHighHalf isLowHalf
    rw [Bool.and_eq_false_iff, Bool.and_eq_false_iff, decide_eq_false_iff_not,
      decide_eq_false_iff_not, decide_eq_false_iff_not, decide_eq_false_iff_not]
    omega
  induction cs with
  | nil => rfl
  | cons c cs ih =>
      obtain ⟨hhigh, hlow⟩ := hhalf c
      cases cs with
      | nil =>
          rw [List.map_cons, List.map_nil, joinHalves?, hhigh, hlow, Char.ofNat_toNat]
          rfl
      | cons d cs =>
          rw [List.map_cons] at ih ⊢
          rw [List.map_cons, joinHalves?, hhigh, hlow, ih, Char.ofNat_toNat]
          rfl

/-- The code points of a text stand for the text. -/
theorem ofCodePoints?_toNat (text : String) :
    ofCodePoints? (text.toList.map Char.toNat) = some text := by
  rw [ofCodePoints?, joinHalves?_map_toNat, Option.map_some, String.ofList_toList]

end KeysetBundle.Text
