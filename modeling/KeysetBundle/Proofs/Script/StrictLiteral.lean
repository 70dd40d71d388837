import KeysetBundle.Proofs.Script.Tokens
import KeysetBundle.Proofs.Text.Surrogates

/-!
# Literals by the strictest rules

A literal is what stands between two quotes.  In it a character stands for
itself unless it is the quote, a backslash or a line terminator; a backslash
starts an escape.  The rules here are the strictest that scripts have had: the
two line separators may not stand in a literal, no escape goes over the end of
a line, and a digit is no escape but for a zero that no digit follows.

`IsLiteral` holds of such a literal and the code points that it stands for.
The reader of texts finds just these code points and stops behind the closing
quote (`IsBody.readText`), so a literal ends in one place only.

Main results.

- `isBody_doubleEscape`, `isBody_singleEscape`: a text in quotes, in either way.
- `quoting_roundTrip`: what is written of a text is one literal that stands for it.
- `doubleQuoted_eq_escapeSeparators`: the separators may be escaped last.
-/

namespace KeysetBundle.Script

open KeysetBundle.Text

/-! ## Literals -/

/-- The letters that are not escapes of themselves. -/
def escapeLetters : List Char := ['b', 'f', 'n', 'r', 't', 'v', 'x', 'u']

/-- What stands behind the opening quote of a literal, and the code points it stands for. -/
inductive IsBody (quote : Char) : List Char → List Nat → Prop
  /-- The closing quote. -/
  | close : IsBody quote [quote] []
  /-- A character that stands for itself. -/
  | plain {c : Char} {cs : List Char} {points : List Nat} (hquote : c ≠ quote) (hslash : c ≠ '\\')
    (hline : isLineTerminator c = false) (h : IsBody quote cs points) :
    IsBody quote (c :: cs) (c.toNat :: points)
  /-- The escape of a control character by a letter. -/
  | letter {c : Char} {cs : List Char} {points : List Nat}
    (hc : c ∈ ['b', 'f', 'n', 'r', 't', 'v']) (h : IsBody quote cs points) :
    IsBody quote ('\\' :: c :: cs) (letterEscape c :: points)
  /-- The escape of a character by itself. -/
  | self {c : Char} {cs : List Char} {points : List Nat} (hletter : c ∉ escapeLetters)
    (hdigit : c.isDigit = false) (hline : isLineTerminator c = false) (h : IsBody quote cs points) :
    IsBody quote ('\\' :: c :: cs) (c.toNat :: points)
  /-- A zero that no digit follows. -/
  | zero {cs : List Char} {points : List Nat} (hdigit : startsWithDigit cs = false)
    (h : IsBody quote cs points) : IsBody quote ('\\' :: '0' :: cs) (0 :: points)
  /-- Two digits behind a letter. -/
  | byte {a b : Char} {cs : List Char} {n : Nat} {points : List Nat}
    (hn : hexValue? [a, b] = some n) (h : IsBody quote cs points) :
    IsBody quote ('\\' :: 'x' :: a :: b :: cs) (n :: points)
  /-- Four digits behind a letter. -/
  | unit {a b c d : Char} {cs : List Char} {n : Nat} {points : List Nat}
    (hn : hexValue? [a, b, c, d] = some n) (h : IsBody quote cs points) :
    IsBody quote ('\\' :: 'u' :: a :: b :: c :: d :: cs) (n :: points)

/-- A literal and the code points it stands for. -/
def IsLiteral (quote : Char) (written : List Char) (points : List Nat) : Prop :=
  ∃ body, written = quote :: body ∧ IsBody quote body points

/-! ## Reading literals -/

theorem isHexDigit_of_hexValue? {digits : List Char} {n : Nat} (h : hexValue? digits = some n) :
    ∀ c ∈ digits, isHexDigit c := by
  have hfold : ∀ (digits : List Char) (start : Option Nat),
      digits.foldl (fun n? c => do some (16 * (← n?) + (← hexDigitValue? c))) start = some n →
      start.isSome ∧ ∀ c ∈ digits, isHexDigit c := by
    intro digits
    induction digits with
    | nil =>
        intro start hstart
        rw [List.foldl_nil] at hstart
        exact ⟨by rw [hstart]; rfl, by simp⟩
    | cons c digits ih =>
        intro start hstart
        obtain ⟨hsome, hdigits⟩ := ih _ hstart
        cases start with
        | none => cases hsome
        | some m =>
            refine ⟨rfl, List.forall_mem_cons.2 ⟨?_, hdigits⟩⟩
            unfold isHexDigit
            cases hvalue : hexDigitValue? c with
            | none =>
                simp only [hvalue] at hsome
                cases hsome
            | some value => rfl
  exact (hfold digits _ h).2

theorem readEscape_self {c : Char} (hletter : c ∉ escapeLetters) (hdigit : c.isDigit = false)
    (hline : isLineTerminator c = false) (rest : List Char) :
    readEscape (c :: rest) = some ([c.toNat], rest) := by
  simp only [escapeLetters, List.mem_cons, List.not_mem_nil, or_false, not_or] at hletter
  obtain ⟨hb, hf, hn, hr, ht, hv, hx, hu⟩ := hletter
  have hvalue : letterEscape c = c.toNat := by
    unfold letterEscape
    split <;> first | contradiction | rfl
  unfold readEscape
  split
  · rename_i heq
    cases heq
  · rename_i heq
    obtain ⟨rfl, -⟩ := List.cons.inj heq
    exact absurd hline (by decide)
  · rename_i heq
    exact absurd (List.cons.inj heq).1 hx
  · rename_i heq
    exact absurd (List.cons.inj heq).1 hu
  · rename_i heq
    obtain ⟨rfl, rfl⟩ := List.cons.inj heq
    simp [hline, hdigit, hvalue]

theorem readEscape_letter {c : Char} (hc : c ∈ ['b', 'f', 'n', 'r', 't', 'v']) (rest : List Char) :
    readEscape (c :: rest) = some ([letterEscape c], rest) := by
  simp only [List.mem_cons, List.not_mem_nil, or_false] at hc
  rcases hc with rfl | rfl | rfl | rfl | rfl | rfl <;> rfl

theorem readEscape_zero {rest : List Char} (h : startsWithDigit rest = false) :
    readEscape ('0' :: rest) = some ([0], rest) := by
  simp [readEscape, h, isLineTerminator]

theorem readEscape_unit {a b c d : Char} {n : Nat} (hn : hexValue? [a, b, c, d] = some n)
    (rest : List Char) : readEscape ('u' :: a :: b :: c :: d :: rest) = some ([n], rest) := by
  have hbrace : a ≠ '{' := by
    rintro rfl
    exact absurd (isHexDigit_of_hexValue? hn '{' (by simp)) (by decide)
  simp only [readEscape]
  unfold readUnicodeEscape
  split
  · rename_i heq
    exact absurd (List.cons.inj heq).1 hbrace
  · rename_i heq
    simp only [List.cons.injEq] at heq
    obtain ⟨rfl, rfl, rfl, rfl, rfl⟩ := heq
    rw [hn]
    rfl
  · rename_i hshort
    exact absurd rfl (hshort _ _ _ _ _)

namespace IsBody

variable {quote : Char} {cs : List Char} {points : List Nat}

theorem exists_cons (h : IsBody quote cs points) : ∃ c rest, cs = c :: rest := by
  cases h <;> exact ⟨_, _, rfl⟩

/-- **The reader finds what a literal stands for**, and stops behind it. -/
theorem readText (hquote : quote ≠ '\\') (h : IsBody quote cs points) (rest : List Char) :
    readText quote (cs ++ rest) = some (points, rest) := by
  induction h with
  | close =>
      rw [List.cons_append, Script.readText, if_pos rfl]
      rfl
  | @plain c cs points hne hslash hline _ ih =>
      have hbreak : c ≠ '\n' ∧ c ≠ '\r' := by
        constructor <;> rintro rfl <;> exact absurd hline (by decide)
      rw [List.cons_append, readText_plain hne hslash hbreak.1 hbreak.2, ih]
      rfl
  | @letter c cs points hc _ ih =>
      rw [List.cons_append, List.cons_append, readText_escape hquote (readEscape_letter hc _), ih]
      rfl
  | @self c cs points hletter hdigit hline _ ih =>
      rw [List.cons_append, List.cons_append,
        readText_escape hquote (readEscape_self hletter hdigit hline _), ih]
      rfl
  | @zero cs points hdigit hbody ih =>
      obtain ⟨c, after, rfl⟩ := hbody.exists_cons
      have hescape : readEscape ('0' :: (c :: after ++ rest)) = some ([0], c :: after ++ rest) :=
        readEscape_zero hdigit
      rw [List.cons_append, List.cons_append, readText_escape hquote hescape, ih]
      rfl
  | @byte a b cs n points hn _ ih =>
      have hescape : readEscape ('x' :: a :: b :: (cs ++ rest)) = some ([n], cs ++ rest) := by
        simp only [readEscape, hn, Option.map_some]
      rw [List.cons_append, List.cons_append, List.cons_append, List.cons_append,
        readText_escape hquote hescape, ih]
      rfl
  | @unit a b c d cs n points hn _ ih =>
      have hescape := readEscape_unit hn (cs ++ rest)
      simp only [List.cons_append] at ih ⊢
      rw [readText_escape hquote hescape, ih]
      rfl

/-- A literal does not go over the end of a line. -/
theorem oneLine (hquote : isLineTerminator quote = false) (h : IsBody quote cs points) :
    ∀ c ∈ cs, isLineTerminator c = false := by
  have hhex : ∀ c, isHexDigit c → isLineTerminator c = false := by
    intro c hc
    cases hline : isLineTerminator c with
    | false => rfl
    | true =>
        simp only [isLineTerminator, Bool.or_eq_true, beq_iff_eq] at hline
        rcases hline with ((rfl | rfl) | rfl) | rfl <;> exact absurd hc (by decide)
  have hslash : isLineTerminator '\\' = false := by decide
  induction h with
  | close => simpa using hquote
  | plain _ _ hline _ ih => exact List.forall_mem_cons.2 ⟨hline, ih⟩
  | letter hc _ ih =>
      have hletter : ∀ c ∈ ['b', 'f', 'n', 'r', 't', 'v'], isLineTerminator c = false := by
        simp [isLineTerminator]
      exact List.forall_mem_cons.2 ⟨hslash, List.forall_mem_cons.2 ⟨hletter _ hc, ih⟩⟩
  | self _ _ hline _ ih =>
      exact List.forall_mem_cons.2 ⟨hslash, List.forall_mem_cons.2 ⟨hline, ih⟩⟩
  | zero _ _ ih =>
      exact List.forall_mem_cons.2 ⟨hslash, List.forall_mem_cons.2 ⟨by decide, ih⟩⟩
  | byte hn _ ih =>
      have hdigits := isHexDigit_of_hexValue? hn
      simp only [List.forall_mem_cons] at hdigits ⊢
      exact ⟨hslash, by decide, hhex _ hdigits.1, hhex _ hdigits.2.1, ih⟩
  | unit hn _ ih =>
      have hdigits := isHexDigit_of_hexValue? hn
      simp only [List.forall_mem_cons] at hdigits ⊢
      exact ⟨hslash, by decide, hhex _ hdigits.1, hhex _ hdigits.2.1, hhex _ hdigits.2.2.1,
        hhex _ hdigits.2.2.2.1, ih⟩

end IsBody

/-- The two quotes of scripts. -/
def IsQuote (quote : Char) : Prop := quote = '"' ∨ quote = '\''

theorem IsQuote.ne_slash {quote : Char} (h : IsQuote quote) : quote ≠ '\\' := by
  rcases h with rfl | rfl <;> decide

theorem IsQuote.oneLine {quote : Char} (h : IsQuote quote) : isLineTerminator quote = false := by
  rcases h with rfl | rfl <;> decide

/-- A quote starts no name. -/
theorem IsQuote.not_isIdentifierStart {quote : Char} (h : IsQuote quote) :
    isIdentifierStart quote.toNat = false := by
  apply Script.not_isIdentifierStart
  rcases h with rfl | rfl <;> simp

namespace IsLiteral

variable {quote : Char} {written : List Char} {points : List Nat}

/-- A literal is one token of a script, whatever follows. -/
theorem readToken (hquote : IsQuote quote) (h : IsLiteral quote written points)
    (rest : List Char) : readToken (written ++ rest) = .ok (.text points, rest) := by
  obtain ⟨body, rfl, hbody⟩ := h
  have hname : ¬(isIdentifierStart quote.toNat || quote = '\\') := by
    rw [hquote.not_isIdentifierStart]
    simpa using hquote.ne_slash
  have htext : quote = '"' ∨ quote = '\'' := hquote
  rw [List.cons_append, Script.readToken, if_neg hname, if_pos htext,
    hbody.readText hquote.ne_slash]

/-- **A literal ends in one place**: no beginning of it is a literal, and it stands for one thing
only. -/
theorem unique (hquote : IsQuote quote) (h : IsLiteral quote written points)
    {front back : List Char} {others : List Nat} (hsplit : front ++ back = written)
    (hfront : IsLiteral quote front others) : back = [] ∧ others = points := by
  have hwhole := h.readToken hquote []
  rw [List.append_nil, ← hsplit, hfront.readToken hquote back] at hwhole
  cases hwhole
  exact ⟨rfl, rfl⟩

theorem oneLine (hquote : IsQuote quote) (h : IsLiteral quote written points) :
    ∀ c ∈ written, isLineTerminator c = false := by
  obtain ⟨body, rfl, hbody⟩ := h
  exact List.forall_mem_cons.2 ⟨hquote.oneLine, hbody.oneLine hquote.oneLine⟩

/-- A text is written as a literal if its characters are, one after the other. -/
theorem of_escape {escape : Char → List Char}
    (hescape : ∀ c cs points, IsBody quote cs points →
      IsBody quote (escape c ++ cs) (c.toNat :: points)) (cs : List Char) :
    IsLiteral quote (quote :: cs.flatMap escape ++ [quote]) (cs.map Char.toNat) := by
  refine ⟨cs.flatMap escape ++ [quote], rfl, ?_⟩
  induction cs with
  | nil => exact .close
  | cons c cs ih =>
      rw [List.flatMap_cons, List.append_assoc, List.map_cons]
      exact hescape c _ _ ih

end IsLiteral

/-! ## The characters of a text -/

theorem isBody_unitEscape {quote : Char} {n : Nat} (hn : n < 65536) {cs : List Char}
    {points : List Nat} (h : IsBody quote cs points) :
    IsBody quote (unitEscape n ++ cs) (n :: points) :=
  .unit (hexValue?_unitDigits hn) h

/-- A character as a data file writes it, unless it is a line separator. -/
theorem isBody_dataEscape {c : Char} (hseparator : ¬(c = '\u2028' ∨ c = '\u2029'))
    {cs : List Char} {points : List Nat} (h : IsBody '"' cs points) :
    IsBody '"' (dataEscape c ++ cs) (c.toNat :: points) := by
  unfold dataEscape
  split
  · subst_vars
    exact .self (by decide) (by decide) (by decide) h
  split
  · subst_vars
    exact .self (by decide) (by decide) (by decide) h
  split
  · subst_vars
    exact .letter (c := 'b') (by decide) h
  split
  · subst_vars
    exact .letter (c := 't') (by decide) h
  split
  · subst_vars
    exact .letter (c := 'n') (by decide) h
  split
  · subst_vars
    exact .letter (c := 'f') (by decide) h
  split
  · subst_vars
    exact .letter (c := 'r') (by decide) h
  split
  · rename_i hlow
    exact isBody_unitEscape (Nat.lt_trans hlow (by decide)) h
  · rename_i hquote hslash _ _ hfeed _ hreturn _
    refine .plain hquote hslash ?_ h
    simp only [isLineTerminator, Bool.or_eq_false_iff, beq_eq_false_iff_ne]
    exact ⟨⟨⟨hfeed, hreturn⟩, fun hline => hseparator (.inl hline)⟩,
      fun hline => hseparator (.inr hline)⟩

/-- A character in double quotes. -/
theorem isBody_doubleEscape (c : Char) (cs : List Char) (points : List Nat)
    (h : IsBody '"' cs points) : IsBody '"' (doubleEscape c ++ cs) (c.toNat :: points) := by
  unfold doubleEscape
  split
  · rename_i hseparator
    refine isBody_unitEscape ?_ h
    rcases hseparator with rfl | rfl <;> decide
  · rename_i hseparator
    exact isBody_dataEscape hseparator h

/-- A character in single quotes. -/
theorem isBody_singleEscape (c : Char) (cs : List Char) (points : List Nat)
    (h : IsBody '\'' cs points) : IsBody '\'' (singleEscape c ++ cs) (c.toNat :: points) := by
  unfold singleEscape
  split
  · subst_vars
    exact .self (by decide) (by decide) (by decide) h
  split
  · subst_vars
    exact .self (by decide) (by decide) (by decide) h
  split
  · subst_vars
    exact .letter (c := 'n') (by decide) h
  split
  · subst_vars
    exact .letter (c := 'r') (by decide) h
  split
  · rename_i hseparator
    refine isBody_unitEscape ?_ h
    rcases hseparator with rfl | rfl <;> decide
  · rename_i hslash hquote hfeed hreturn hseparator
    refine .plain hquote hslash ?_ h
    simp only [isLineTerminator, Bool.or_eq_false_iff, beq_eq_false_iff_ne]
    exact ⟨⟨⟨hfeed, hreturn⟩, fun hline => hseparator (.inl hline)⟩,
      fun hline => hseparator (.inr hline)⟩

/-! ## Separators that are escaped last -/

/-- The escape of a line separator; all other characters stay. -/
def escapeSeparator (c : Char) : List Char :=
  if c = '\u2028' ∨ c = '\u2029' then unitEscape c.toNat else [c]

/-- No escape of a data file holds a line separator. -/
theorem flatMap_escapeSeparator_dataEscape {c : Char} (h : ¬(c = '\u2028' ∨ c = '\u2029')) :
    (dataEscape c).flatMap escapeSeparator = dataEscape c := by
  have hunit : ∀ n, n < 32 →
      (unitEscape n).flatMap escapeSeparator = unitEscape n := by decide
  unfold dataEscape
  repeat' split
  · rfl
  · rfl
  · rfl
  · rfl
  · rfl
  · rfl
  · rfl
  · rename_i hlow
    exact hunit _ hlow
  · rw [List.flatMap_singleton, escapeSeparator, if_neg h]

/-- **A text in double quotes** is what a data file writes, with the line separators escaped
behind. -/
theorem doubleQuoted_eq_escapeSeparators (text : String) :
    (doubleQuoted text).toList = (dataQuoted text).toList.flatMap escapeSeparator := by
  have hquote : escapeSeparator '"' = ['"'] := by decide
  have hchar : doubleEscape = fun c => (dataEscape c).flatMap escapeSeparator := by
    funext c
    unfold doubleEscape
    split
    · rename_i hseparator
      rcases hseparator with rfl | rfl <;> decide
    · rename_i hseparator
      rw [flatMap_escapeSeparator_dataEscape hseparator]
  rw [doubleQuoted, dataQuoted, String.toList_ofList, String.toList_ofList, List.flatMap_append,
    List.flatMap_cons, List.flatMap_singleton, hquote, List.flatMap_assoc, hchar]
  rfl

/-! ## Texts in quotes -/

/-- A text is written as one literal that stands for it. -/
structure IsQuoted (quote : Char) (text written : String) : Prop where
  /-- It starts and ends with the quote. -/
  ends : ∃ inner, written.toList = quote :: inner ++ [quote]
  /-- It is a literal that stands for the characters of the text. -/
  literal : IsLiteral quote written.toList (text.toList.map Char.toNat)
  /-- These are the text. -/
  value : ofCodePoints? (text.toList.map Char.toNat) = some text
  /-- No line terminator is in it. -/
  oneLine : ∀ c ∈ written.toList, isLineTerminator c = false
  /-- No beginning of it is a literal, and it stands for nothing else. -/
  whole : ∀ front back points, front ++ back = written.toList → IsLiteral quote front points →
    back = [] ∧ points = text.toList.map Char.toNat
  /-- It is read as one token, whatever follows. -/
  token : ∀ rest, readToken (written.toList ++ rest) =
    .ok (.text (text.toList.map Char.toNat), rest)

theorem IsQuoted.of_isLiteral {quote : Char} {text written : String} (hquote : IsQuote quote)
    (hends : ∃ inner, written.toList = quote :: inner ++ [quote])
    (h : IsLiteral quote written.toList (text.toList.map Char.toNat)) :
    IsQuoted quote text written where
  ends := hends
  literal := h
  value := ofCodePoints?_toNat text
  oneLine := h.oneLine hquote
  whole := fun _ _ _ hsplit hfront => h.unique hquote hsplit hfront
  token := h.readToken hquote

theorem IsQuoted.injective {quote : Char} {write : String → String}
    (h : ∀ text, IsQuoted quote text (write text)) : Function.Injective write := by
  intro text other hsame
  have hpoints := ((h text).whole (write other).toList [] _ (by rw [hsame, List.append_nil])
    (h other).literal).2
  have hvalue := (h other).value
  rw [hpoints, (h text).value] at hvalue
  exact Option.some.inj hvalue

theorem isQuoted_doubleQuoted (text : String) : IsQuoted '"' text (doubleQuoted text) := by
  have hwritten : (doubleQuoted text).toList = '"' :: text.toList.flatMap doubleEscape ++ ['"'] :=
    String.toList_ofList
  refine .of_isLiteral (.inl rfl) ⟨_, hwritten⟩ ?_
  rw [hwritten]
  exact .of_escape isBody_doubleEscape _

theorem isQuoted_singleQuoted (text : String) : IsQuoted '\'' text (singleQuoted text) := by
  have hwritten : (singleQuoted text).toList =
      '\'' :: text.toList.flatMap singleEscape ++ ['\''] := String.toList_ofList
  refine .of_isLiteral (.inr rfl) ⟨_, hwritten⟩ ?_
  rw [hwritten]
  exact .of_escape isBody_singleEscape _

/-- **What is written of a text is one literal that stands for the text**, in double quotes and in
single quotes; so different texts are written differently. -/
theorem quoting_roundTrip :
    (∀ text, IsQuoted '"' text (doubleQuoted text)) ∧
    (∀ text, IsQuoted '\'' text (singleQuoted text)) ∧
    Function.Injective doubleQuoted ∧ Function.Injective singleQuoted :=
  ⟨isQuoted_doubleQuoted, isQuoted_singleQuoted, IsQuoted.injective isQuoted_doubleQuoted,
    IsQuoted.injective isQuoted_singleQuoted⟩

end KeysetBundle.Script
