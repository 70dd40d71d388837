import KeysetBundle.Proofs.Text.Hex
import KeysetBundle.Script.Literal
import KeysetBundle.Text.Quoted

/-!
# Quoted texts read back

A text that is written between double quotes is read by the reader of scripts
as the code points of the text, and the reading stops right behind the
closing quote: no character of the text can end the literal early.

The argument is made for one character at a time.  `readText_append_dataEscape`
and `readText_append_doubleEscape` say that the written form of a character
is read as that character, whatever follows; the text is an induction over
its characters.
-/

namespace KeysetBundle.Script

open KeysetBundle.Text

/-! ## Escapes of code units -/

private theorem hexDigit_ne_brace_all : ∀ n, n < 16 → hexDigit n ≠ '{' := by decide

/-- The escape of a code unit is read as that unit. -/
theorem readEscape_unitEscape {n : Nat} (hn : n < 65536) (rest : List Char) :
    readEscape ((unitEscape n).tail ++ rest) = some ([n], rest) := by
  have hbrace : hexDigit (n / 4096 % 16) ≠ '{' :=
    hexDigit_ne_brace_all _ (Nat.mod_lt _ (by decide))
  simp only [unitEscape, List.tail_cons, List.cons_append, List.nil_append, readEscape]
  unfold readUnicodeEscape
  split
  · rename_i heq
    exact absurd (List.cons.inj heq).1 hbrace
  · rename_i a b c d after _ heq
    simp only [List.cons.injEq] at heq
    obtain ⟨rfl, rfl, rfl, rfl, rfl⟩ := heq
    simp [hexValue?_unitDigits hn]
  · rename_i hshort
    exact absurd rfl (hshort _ _ _ _ _)

/-! ## One character -/

/-- A backslash and an escape inside quotes add the code points of the escape. -/
theorem readText_escape {quote : Char} {cs after : List Char} {points : List Nat}
    (hquote : quote ≠ '\\') (h : readEscape cs = some (points, after)) :
    readText quote ('\\' :: cs) =
      (readText quote after).map fun r => (points ++ r.1, r.2) := by
  rw [readText]
  rw [if_neg (fun heq => hquote heq.symm), if_pos rfl]
  split
  · rename_i hnone
    rw [h] at hnone
    cases hnone
  · rename_i points' after' hsome
    rw [h] at hsome
    obtain ⟨rfl, rfl⟩ := Prod.mk.inj (Option.some.inj hsome)
    cases readText quote after <;> rfl

/-- A character that needs no escape adds itself. -/
theorem readText_plain {quote c : Char} (hquote : c ≠ quote) (hslash : c ≠ '\\')
    (hfeed : c ≠ '\n') (hreturn : c ≠ '\r') (cs : List Char) :
    readText quote (c :: cs) =
      (readText quote cs).map fun r => (c.toNat :: r.1, r.2) := by
  rw [readText]
  rw [if_neg hquote, if_neg hslash, if_neg (by simp [hfeed, hreturn])]
  cases readText quote cs <;> rfl

private theorem toNat_lt_of_lt_32 {c : Char} (h : c.toNat < 32) : c.toNat < 65536 := by
  omega

/-- The escape of a code unit inside quotes adds the unit. -/
theorem readText_unitEscape {quote : Char} (hquote : quote ≠ '\\') {n : Nat} (hn : n < 65536)
    (cs : List Char) :
    readText quote (unitEscape n ++ cs) =
      (readText quote cs).map fun r => (n :: r.1, r.2) := by
  have h := readText_escape hquote (readEscape_unitEscape hn cs)
  simpa [unitEscape] using h

/-- The form in which a data file writes a character is read as the character. -/
theorem readText_append_dataEscape (c : Char) (cs : List Char) :
    readText '"' (dataEscape c ++ cs) =
      (readText '"' cs).map fun r => (c.toNat :: r.1, r.2) := by
  have hq : ('"' : Char) ≠ '\\' := by decide
  -- the escapes by a letter: the letter is read as the code point of `c`
  have hletter : ∀ e : Char, readEscape (e :: cs) = some ([c.toNat], cs) →
      readText '"' ('\\' :: e :: cs) =
        (readText '"' cs).map fun r => (c.toNat :: r.1, r.2) :=
    fun e he => readText_escape hq he
  unfold dataEscape
  split
  · subst_vars
    exact hletter '"' rfl
  split
  · subst_vars
    exact hletter '\\' rfl
  split
  · subst_vars
    exact hletter 'b' rfl
  split
  · subst_vars
    exact hletter 't' rfl
  split
  · subst_vars
    exact hletter 'n' rfl
  split
  · subst_vars
    exact hletter 'f' rfl
  split
  · subst_vars
    exact hletter 'r' rfl
  split
  · rename_i hlt
    exact readText_unitEscape hq (toNat_lt_of_lt_32 hlt) cs
  · rename_i hquote hslash _ _ hfeed _ hreturn _
    exact readText_plain hquote hslash hfeed hreturn cs

/-- The form in which a script writes a character is read as the character. -/
theorem readText_append_doubleEscape (c : Char) (cs : List Char) :
    readText '"' (doubleEscape c ++ cs) =
      (readText '"' cs).map fun r => (c.toNat :: r.1, r.2) := by
  unfold doubleEscape
  split
  · rename_i hsep
    refine readText_unitEscape (by decide) ?_ cs
    rcases hsep with rfl | rfl <;> decide
  · exact readText_append_dataEscape c cs

/-! ## Texts -/

/-- **A text in double quotes reads back.**  Behind the opening quote the reader
finds the code points of the text, and what follows the literal is left. -/
theorem readText_doubleEscape (cs rest : List Char) :
    readText '"' (cs.flatMap doubleEscape ++ '"' :: rest) = some (cs.map Char.toNat, rest) := by
  induction cs with
  | nil =>
      simp only [List.flatMap_nil, List.nil_append, List.map_nil]
      rw [readText]
      rw [if_pos rfl]
  | cons c cs ih =>
      rw [List.flatMap_cons, List.append_assoc, readText_append_doubleEscape, ih]
      rfl

end KeysetBundle.Script
