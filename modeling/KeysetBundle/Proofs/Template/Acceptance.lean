import KeysetBundle.Proofs.Script.NumberTokens
import KeysetBundle.Proofs.Template.Grammar
import KeysetBundle.Proofs.Template.Merged
import KeysetBundle.Proofs.Template.WellFormed

/-!
# The reader accepts the grammar

The reader of templates goes over the characters once.  Each of its loops reads
what a rule of the grammar derives and stops where that ends, and each of its
tests on what it has read is the condition of a rule.  So it succeeds on the
templates of the grammar and on nothing else.

Main results.

- `readTokens_append`, `exists_reads_of_readTokens`: what is read between braces.
- `Derives.readElements_written`, `exists_derives_of_readElements`: what is read of a template.
- `parse_iff_derives`: a template is read exactly if it has a derivation, which
  is the only one and decides its parts.
-/

namespace KeysetBundle.Template

open KeysetBundle.Text (isBlank)

/-! ## Lengths -/

@[simp] theorem utf8Length_nil : utf8Length [] = 0 := rfl

@[simp] theorem utf8Length_cons (c : Char) (cs : List Char) :
    utf8Length (c :: cs) = c.utf8Size + utf8Length cs := rfl

@[simp] theorem utf8Length_append (cs others : List Char) :
    utf8Length (cs ++ others) = utf8Length cs + utf8Length others := by
  induction cs with
  | nil => simp
  | cons c cs ih => simp [ih]; omega

/-! ## Numbers -/

theorem takeWhile_isDigit_append {whole fraction : List Char} (hwhole : whole.all Char.isDigit)
    (hfraction : fraction = [] ∨ ∃ digits, fraction = '.' :: digits) :
    (whole ++ fraction).takeWhile Char.isDigit = whole ∧
      (whole ++ fraction).dropWhile Char.isDigit = fraction := by
  have hall : ∀ c ∈ whole, c.isDigit := List.all_eq_true.1 hwhole
  have hpoint : Char.isDigit '.' = false := by decide
  rw [List.takeWhile_append_of_pos hall, List.dropWhile_append_of_pos hall]
  rcases hfraction with rfl | ⟨digits, rfl⟩
  · simp
  · simp [hpoint]

theorem isUnsignedNumber_append {whole fraction : List Char} (hwhole : isDigits whole)
    (hfraction : fraction = [] ∨ ∃ digits, isDigits digits ∧ fraction = '.' :: digits) :
    isUnsignedNumber (whole ++ fraction) := by
  have hall : whole.all Char.isDigit := by
    rw [isDigits, Bool.and_eq_true] at hwhole
    exact hwhole.2
  have hpoint : fraction = [] ∨ ∃ digits, fraction = '.' :: digits := by
    rcases hfraction with rfl | ⟨digits, -, rfl⟩
    · exact .inl rfl
    · exact .inr ⟨digits, rfl⟩
  obtain ⟨htake, hdrop⟩ := takeWhile_isDigit_append hall hpoint
  simp only [isUnsignedNumber, htake, hdrop]
  rcases hfraction with rfl | ⟨digits, hdigits, rfl⟩
  · exact hwhole
  · simp [hwhole, hdigits]

theorem exists_digit_of_isDigits {cs : List Char} (h : isDigits cs) :
    ∃ c rest, cs = c :: rest ∧ c.isDigit := by
  cases cs with
  | nil => cases h
  | cons c rest =>
      simp only [isDigits, List.all_cons, Bool.and_eq_true] at h
      exact ⟨c, rest, rfl, h.2.1⟩

/-- The test for numbers is that of their spelling. -/
theorem isNumber_iff {word : List Char} : isNumber word ↔ IsNumeral word := by
  have hspelling : ∀ {word : List Char}, isUnsignedNumber word →
      ∃ whole fraction, word = whole ++ fraction ∧ isDigits whole ∧
        (fraction = [] ∨ ∃ digits, isDigits digits ∧ fraction = '.' :: digits) := by
    intro word h
    have hdigits : ∀ {ds : List Char}, Script.AreDigits ds → isDigits ds := by
      intro ds hds
      simp [isDigits, hds.1, hds.2]
    obtain ⟨whole, fraction, hword, hwhole, rfl | ⟨digits, h, rfl⟩⟩ :=
      Script.spelling_of_isUnsignedNumber h
    · exact ⟨whole, [], hword, hdigits hwhole, .inl rfl⟩
    · exact ⟨whole, '.' :: digits, hword, hdigits hwhole, .inr ⟨digits, hdigits h, rfl⟩⟩
  constructor
  · intro h
    unfold isNumber at h
    split at h
    · rename_i word
      obtain ⟨whole, fraction, rfl, hwhole, hfraction⟩ := hspelling h
      exact ⟨['-'], whole, fraction, rfl, .inr rfl, hwhole, hfraction⟩
    · obtain ⟨whole, fraction, rfl, hwhole, hfraction⟩ := hspelling h
      exact ⟨[], whole, fraction, rfl, .inl rfl, hwhole, hfraction⟩
  · rintro ⟨sign, whole, fraction, rfl, hsign, hwhole, hfraction⟩
    have hunsigned := isUnsignedNumber_append hwhole hfraction
    rcases hsign with rfl | rfl
    · obtain ⟨c, rest, rfl, hc⟩ := exists_digit_of_isDigits hwhole
      have hne : c ≠ '-' := by
        rintro rfl
        exact absurd hc (by decide)
      rw [isNumber.eq_2]
      · exact hunsigned
      · intro word hword
        exact hne (List.cons.inj hword).1
    · exact hunsigned

theorem IsNumeral.exists_head {word : List Char} (h : IsNumeral word) :
    ∃ c rest, word = c :: rest ∧ StartsNumeral c := by
  obtain ⟨sign, whole, fraction, rfl, hsign, hwhole, -⟩ := h
  rcases hsign with rfl | rfl
  · obtain ⟨c, rest, rfl, hc⟩ := exists_digit_of_isDigits hwhole
    exact ⟨c, rest ++ fraction, rfl, .inl hc⟩
  · exact ⟨'-', whole ++ fraction, rfl, .inr rfl⟩

/-! ## Paths -/

theorem not_mem_of_isName {segment : List Char} (h : isName segment) : '.' ∉ segment := by
  have hpart : isNamePart '.' = false := by decide
  have hstart : isNameStart '.' = false := by decide
  cases segment with
  | nil => cases h
  | cons c rest =>
      simp only [isName, Bool.and_eq_true] at h
      intro hmem
      rcases List.mem_cons.1 hmem with hc | hrest
      · rw [← hc, hstart] at h
        cases h.1
      · rw [List.all_eq_true.1 h.2 _ hrest] at hpart
        cases hpart

theorem splitDots_of_not_mem {segment : List Char} (h : '.' ∉ segment) :
    splitDots segment = [segment] := by
  induction segment with
  | nil => rfl
  | cons c rest ih =>
      have hc : c ≠ '.' := fun hc => h (by simp [hc])
      have hrest : '.' ∉ rest := fun hrest => h (by simp [hrest])
      simp [splitDots, hc, ih hrest]

theorem splitDots_append_dot {segment rest : List Char} (h : '.' ∉ segment) :
    splitDots (segment ++ '.' :: rest) = segment :: splitDots rest := by
  induction segment with
  | nil => rfl
  | cons c segment ih =>
      have hc : c ≠ '.' := fun hc => h (by simp [hc])
      have hsegment : '.' ∉ segment := fun hrest => h (by simp [hrest])
      simp [splitDots, hc, ih hsegment]

theorem splitDots_intercalate {segments : List (List Char)} (hsome : segments ≠ [])
    (h : ∀ segment ∈ segments, '.' ∉ segment) :
    splitDots (['.'].intercalate segments) = segments := by
  induction segments with
  | nil => exact absurd rfl hsome
  | cons segment segments ih =>
      have hsegment := h segment (by simp)
      cases segments with
      | nil =>
          rw [List.intercalate_singleton]
          exact splitDots_of_not_mem hsegment
      | cons next segments =>
          rw [List.intercalate_cons_cons, List.append_assoc, List.singleton_append,
            splitDots_append_dot hsegment,
            ih (by simp) fun other hother => h other (by simp [hother])]

theorem intercalate_splitDots (word : List Char) : ['.'].intercalate (splitDots word) = word := by
  induction word with
  | nil => rfl
  | cons c rest ih =>
      unfold splitDots
      by_cases hc : c = '.'
      · subst hc
        rw [if_pos rfl]
        cases hsplit : splitDots rest with
        | nil => exact absurd hsplit (splitDots_ne_nil rest)
        | cons piece pieces =>
            rw [List.intercalate_cons_cons, ← hsplit, ih]
            rfl
      · rw [if_neg hc]
        cases hsplit : splitDots rest with
        | nil => exact absurd hsplit (splitDots_ne_nil rest)
        | cons piece pieces =>
            rw [hsplit] at ih
            cases pieces with
            | nil =>
                rw [List.intercalate_singleton] at ih ⊢
                rw [ih]
            | cons next pieces =>
                rw [List.intercalate_cons_cons] at ih ⊢
                simp only [List.cons_append, ih]

/-- A word is read as a parameter exactly if it is a path. -/
theorem parseParam_eq_ok_iff {word : List Char} {offset : Nat} {path : ParamPath} :
    parseParam word offset = .ok path ↔
      ∃ segments, IsPath word segments ∧ path = pathOf segments := by
  unfold parseParam
  constructor
  · intro h
    simp only at h
    split at h
    · rename_i hnames
      cases h
      exact ⟨splitDots word, ⟨splitDots_ne_nil word, List.all_eq_true.1 hnames,
        (intercalate_splitDots word).symm⟩, rfl⟩
    · cases h
  · intro ⟨segments, ⟨hsome, hnames, hword⟩, hpath⟩
    have hsplit : splitDots word = segments := by
      rw [hword]
      exact splitDots_intercalate hsome fun segment hsegment =>
        not_mem_of_isName (hnames _ hsegment)
    rw [hsplit, if_pos (List.all_eq_true.2 hnames), hpath]
    rfl

theorem not_startsNumeral_of_isNameStart {c : Char} (h : isNameStart c) : ¬StartsNumeral c := by
  have hrange := Script.toNat_of_isNameStart h
  rintro (hdigit | rfl)
  · have hdigits := Decimal.toNat_of_isDigit hdigit
    omega
  · exact absurd h (by decide)

/-- A path starts as its first name does. -/
theorem IsPath.exists_head {word : List Char} {segments : List (List Char)}
    (h : IsPath word segments) : ∃ c rest, word = c :: rest ∧ isNameStart c := by
  obtain ⟨hsome, hnames, hword⟩ := h
  cases segments with
  | nil => exact absurd rfl hsome
  | cons segment segments =>
      have hname := hnames segment (by simp)
      cases segment with
      | nil => cases hname
      | cons c rest =>
          simp only [isName, Bool.and_eq_true] at hname
          cases segments with
          | nil =>
              rw [List.intercalate_singleton] at hword
              exact ⟨c, rest, hword, hname.1⟩
          | cons next segments =>
              rw [List.intercalate_cons_cons] at hword
              exact ⟨c, _, hword, hname.1⟩

/-- A path does not start as a number does. -/
theorem IsPath.not_startsNumeral {c : Char} {rest : List Char} {segments : List (List Char)}
    (h : IsPath (c :: rest) segments) : ¬StartsNumeral c := by
  obtain ⟨d, ds, hword, hd⟩ := h.exists_head
  rw [(List.cons.inj hword).1]
  exact not_startsNumeral_of_isNameStart hd

/-! ## Quoted texts -/

/-- A quoted text is read up to the first quote that stands by itself. -/
theorem readQuoted_append {quote : Char} (hquote : quote ≠ '\\') {marks : List Mark}
    (h : ∀ mark ∈ marks, mark.IsQuoted quote) (after : List Char) :
    readQuoted quote (marks.flatMap Mark.chars ++ quote :: after) =
      some (marks.map Mark.quotedValue,
        utf8Length (marks.flatMap Mark.chars ++ [quote]), after) := by
  induction marks with
  | nil =>
      rw [List.flatMap_nil, List.nil_append, readQuoted.eq_4]
      · simp
      · exact fun hq => absurd hq hquote
      · exact fun _ _ hq => absurd hq hquote
  | cons mark marks ih =>
      have hrest := ih fun other hother => h other (by simp [hother])
      cases mark with
      | plain c =>
          obtain ⟨hslash, hne⟩ := h (.plain c) (by simp)
          have hchars : (Mark.plain c :: marks).flatMap Mark.chars ++ quote :: after =
              c :: (marks.flatMap Mark.chars ++ quote :: after) := rfl
          rw [hchars, readQuoted.eq_4, if_neg hne, hrest]
          · simp [Mark.chars, Mark.quotedValue]
          · exact fun hc => absurd hc hslash
          · exact fun _ _ hc => absurd hc hslash
      | escaped c =>
          have hslash : Char.utf8Size '\\' = 1 := by decide
          have hchars : (Mark.escaped c :: marks).flatMap Mark.chars ++ quote :: after =
              '\\' :: c :: (marks.flatMap Mark.chars ++ quote :: after) := rfl
          rw [hchars, readQuoted.eq_3, hrest]
          simp [Mark.chars, Mark.quotedValue, hslash]
          omega

theorem exists_marks_of_readQuoted {quote : Char} {cs text after : List Char} {size : Nat}
    (h : readQuoted quote cs = some (text, size, after)) :
    ∃ marks : List Mark, (∀ mark ∈ marks, mark.IsQuoted quote) ∧
      cs = marks.flatMap Mark.chars ++ quote :: after ∧ text = marks.map Mark.quotedValue := by
  fun_induction readQuoted quote cs generalizing text size after with
  | case1 => cases h
  | case2 => cases h
  | case3 c rest hnone => cases h
  | case4 c rest text' size' after' hsome ih =>
      cases h
      obtain ⟨marks, hmarks, rfl, rfl⟩ := ih hsome
      refine ⟨.escaped c :: marks, ?_, rfl, rfl⟩
      intro mark hmark
      rcases List.mem_cons.1 hmark with rfl | hmark
      · exact trivial
      · exact hmarks mark hmark
  | case5 rest =>
      cases h
      exact ⟨[], by simp, rfl, rfl⟩
  | case6 => cases h
  | case7 c rest hlone hnext hne text' size' after' hsome ih =>
      cases h
      obtain ⟨marks, hmarks, rfl, rfl⟩ := ih hsome
      have hslash : c ≠ '\\' := by
        intro hc
        cases hrest : marks.flatMap Mark.chars ++ quote :: after' with
        | nil => exact hlone hc hrest
        | cons d ds => exact hnext d ds hc hrest
      refine ⟨.plain c :: marks, ?_, rfl, rfl⟩
      intro mark hmark
      rcases List.mem_cons.1 hmark with rfl | hmark
      · exact ⟨hslash, hne⟩
      · exact hmarks mark hmark

/-! ## Tokens -/

/-- What a token that was read was written as. -/
inductive Token.Reads : Token → Lexeme → Prop
  /-- A word. -/
  | word {c : Char} {rest : List Char} (offset : Nat) (h : ¬StartsNumeral c) :
    Reads (.word (c :: rest) offset) (.run (c :: rest))
  /-- A quoted text. -/
  | text (quote : Char) (marks : List Mark) :
    Reads (.text (marks.map Mark.quotedValue)) (.quoted quote marks)
  /-- A number. -/
  | number {word : List Char} (h : IsNumeral word) : Reads (.number word) (.run word)

theorem readTokens_blanks {blanks : List Char} (h : ∀ c ∈ blanks, isBlank c) (opening offset : Nat)
    (rest : List Char) :
    readTokens opening offset (blanks ++ rest) =
      readTokens opening (offset + utf8Length blanks) rest := by
  induction blanks generalizing offset with
  | nil => rfl
  | cons c blanks ih =>
      rw [List.cons_append, readTokens.eq_def]
      simp only [h c (by simp), if_true]
      rw [ih fun other hother => h other (by simp [hother]), utf8Length_cons, Nat.add_assoc]

theorem readTokens_close (opening offset : Nat) (rest : List Char) :
    readTokens opening offset ('}' :: rest) = .ok ([], offset + 1, rest) := by
  have hblank : isBlank '}' = false := by decide
  have hsize : Char.utf8Size '}' = 1 := by decide
  rw [readTokens.eq_def]
  simp [hblank, hsize]

theorem isWordChar_iff {c : Char} :
    isWordChar c ↔ ¬isBlank c ∧ c ≠ '}' ∧ c ≠ '{' ∧ ¬(c = '"' ∨ c = '\'') := by
  simp only [isWordChar, Bool.and_eq_true, Bool.not_eq_true', bne_iff_ne, Bool.not_eq_true]
  grind

/-- Tokens go on behind a token. -/
def continued (token : Token) (rest : Except Error (List Token × Nat × List Char)) :
    Except Error (List Token × Nat × List Char) := do
  let (tokens, next) ← rest
  .ok (token :: tokens, next)

theorem readTokens_quoted {quote : Char} (hquote : quote = '"' ∨ quote = '\'') {marks : List Mark}
    (hmarks : ∀ mark ∈ marks, mark.IsQuoted quote) (opening offset : Nat) (after : List Char) :
    readTokens opening offset ((Lexeme.quoted quote marks).chars ++ after) =
      continued (.text (marks.map Mark.quotedValue))
        (readTokens opening (offset + utf8Length (Lexeme.quoted quote marks).chars) after) := by
  have hslash : quote ≠ '\\' := by rcases hquote with rfl | rfl <;> decide
  have hclose : quote ≠ '}' := by rcases hquote with rfl | rfl <;> decide
  have hopen : quote ≠ '{' := by rcases hquote with rfl | rfl <;> decide
  have hread := readQuoted_append hslash hmarks after
  have hchars : (Lexeme.quoted quote marks).chars ++ after =
      quote :: (marks.flatMap Mark.chars ++ quote :: after) := by
    simp [Lexeme.chars]
  rw [hchars, readTokens.eq_def]
  simp only [not_isBlank_of_isQuote hquote, Bool.false_eq_true, hclose, hopen, hquote, if_true,
    if_false]
  split
  · rename_i hnone
    rw [hread] at hnone
    cases hnone
  · rename_i text size rest hsome
    rw [hread] at hsome
    cases hsome
    rw [Nat.add_assoc]
    rfl

/-- The beginning of a run is read up to the first character that is none of a word. -/
theorem readTokens_run {c : Char} {rest after : List Char} (hword : ∀ x ∈ c :: rest, isWordChar x)
    (hafter : ∃ x xs, after = x :: xs ∧ ¬isWordChar x) (opening offset : Nat) :
    readTokens opening offset (c :: rest ++ after) =
      if c.isDigit ∨ c = '-' then
        if isNumber (c :: rest) then
          continued (.number (c :: rest))
            (readTokens opening (offset + utf8Length (c :: rest)) after)
        else .error ⟨.invalidNumber (String.ofList (c :: rest)), offset⟩
      else if isWordStart c then
        continued (.word (c :: rest) offset)
          (readTokens opening (offset + utf8Length (c :: rest)) after)
      else .error ⟨.unexpectedChar c, offset⟩ := by
  obtain ⟨x, xs, rfl, hx⟩ := hafter
  have hrest : ∀ y ∈ rest, isWordChar y := fun y hy => hword y (by simp [hy])
  have htake : (rest ++ x :: xs).takeWhile isWordChar = rest := by
    rw [List.takeWhile_append_of_pos hrest, List.takeWhile_cons_of_neg hx, List.append_nil]
  have hdrop : (rest ++ x :: xs).dropWhile isWordChar = x :: xs := by
    rw [List.dropWhile_append_of_pos hrest, List.dropWhile_cons_of_neg hx]
  obtain ⟨hblank, hclose, hopen, hquote⟩ := isWordChar_iff.1 (hword c (by simp))
  rw [List.cons_append, readTokens.eq_def]
  simp only [hblank, hclose, hopen, hquote, if_false, htake, hdrop]
  rfl

/-- A token is read as far as it goes, and then the others. -/
theorem readTokens_lexeme {lexeme : Lexeme} (h : lexeme.IsValid) {after : List Char}
    (hafter : lexeme.IsRun → ∃ c rest, after = c :: rest ∧ ¬isWordChar c) (opening offset : Nat) :
    ∃ token : Token, token.Reads lexeme ∧
      readTokens opening offset (lexeme.chars ++ after) =
        continued token (readTokens opening (offset + utf8Length lexeme.chars) after) := by
  cases h with
  | @quoted quote marks hquote hmarks =>
      exact ⟨_, .text quote marks, readTokens_quoted hquote hmarks opening offset after⟩
  | @number c rest hword hstart hnumeral =>
      refine ⟨.number (c :: rest), .number hnumeral, ?_⟩
      have hread := readTokens_run hword (hafter trivial) opening offset
      rw [if_pos (show c.isDigit ∨ c = '-' from hstart), if_pos (isNumber_iff.2 hnumeral)] at hread
      exact hread
  | @word c rest hword hnumber hstart =>
      refine ⟨.word (c :: rest) offset, .word offset hnumber, ?_⟩
      have hread := readTokens_run hword (hafter trivial) opening offset
      rw [if_neg (show ¬(c.isDigit ∨ c = '-') from hnumber), if_pos hstart] at hread
      exact hread

/-- **Tokens are read as they are written.** -/
theorem readTokens_append {lexed : List (List Char × Lexeme)} {last : List Char}
    (h : AreTokens lexed last) (opening offset : Nat) (after : List Char) :
    ∃ tokens, List.Forall₂ Token.Reads tokens (lexed.map Prod.snd) ∧
      readTokens opening offset (tokenChars lexed ++ (last ++ '}' :: after)) =
        .ok (tokens, offset + utf8Length (tokenChars lexed ++ last) + 1, after) := by
  induction lexed generalizing offset with
  | nil =>
      refine ⟨[], .nil, ?_⟩
      rw [tokenChars, List.flatMap_nil, List.nil_append, readTokens_blanks h.blankLast,
        readTokens_close]
      rfl
  | cons entry lexed ih =>
      obtain ⟨gap, lexeme⟩ := entry
      obtain ⟨token, htoken, hfirst⟩ := readTokens_lexeme (h.valid (gap, lexeme) (by simp))
        (fun hrun => h.exists_rest hrun after) opening (offset + utf8Length gap)
      obtain ⟨tokens, htokens, hrest⟩ :=
        ih h.tail (offset + utf8Length gap + utf8Length lexeme.chars)
      refine ⟨token :: tokens, .cons htoken htokens, ?_⟩
      have hchars : tokenChars ((gap, lexeme) :: lexed) ++ (last ++ '}' :: after) =
          gap ++ (lexeme.chars ++ (tokenChars lexed ++ (last ++ '}' :: after))) := by
        simp [tokenChars]
      have hlength : utf8Length (tokenChars ((gap, lexeme) :: lexed) ++ last) =
          utf8Length gap + utf8Length lexeme.chars + utf8Length (tokenChars lexed ++ last) := by
        simp [tokenChars]
        omega
      have hnext : offset + utf8Length gap + utf8Length lexeme.chars +
          utf8Length (tokenChars lexed ++ last) + 1 =
          offset + utf8Length (tokenChars ((gap, lexeme) :: lexed) ++ last) + 1 := by omega
      rw [hchars, readTokens_blanks (h.blank (gap, lexeme) (by simp)), hfirst, hrest, hnext]
      rfl

/-- One more blank may stand before tokens. -/
theorem AreTokens.blank_cons {c : Char} {lexed : List (List Char × Lexeme)} {last : List Char}
    (h : AreTokens lexed last) (hc : isBlank c) :
    ∃ lexed' last', AreTokens lexed' last' ∧
      tokenChars lexed' ++ last' = c :: (tokenChars lexed ++ last) := by
  cases lexed with
  | nil =>
      refine ⟨[], c :: last, ⟨by simp, by simp, ?_, .nil⟩, rfl⟩
      intro x hx
      rcases List.mem_cons.1 hx with rfl | hx
      · exact hc
      · exact h.blankLast x hx
  | cons entry lexed =>
      obtain ⟨gap, lexeme⟩ := entry
      refine ⟨(c :: gap, lexeme) :: lexed, last, ⟨?_, ?_, h.blankLast, ?_⟩, rfl⟩
      · intro token htoken
        rcases List.mem_cons.1 htoken with rfl | htoken
        · exact h.valid (gap, lexeme) (by simp)
        · exact h.valid token (by simp [htoken])
      · intro token htoken x hx
        rcases List.mem_cons.1 htoken with rfl | htoken
        · rcases List.mem_cons.1 hx with rfl | hx
          · exact hc
          · exact h.blank (gap, lexeme) (by simp) x hx
        · exact h.blank token (by simp [htoken]) x hx
      · cases h.maximal with
        | singleton => exact .singleton _
        | cons_cons hnext hrest => exact .cons_cons hnext hrest

/-- One more token may stand before tokens, unless a run would go on. -/
theorem AreTokens.cons {lexeme : Lexeme} {lexed : List (List Char × Lexeme)} {last : List Char}
    (h : AreTokens lexed last) (hvalid : lexeme.IsValid)
    (hmaximal : lexeme.IsRun → ∀ next ∈ lexed.head?, next.2.IsRun → next.1 ≠ []) :
    AreTokens (([], lexeme) :: lexed) last where
  valid := by
    intro token htoken
    rcases List.mem_cons.1 htoken with rfl | htoken
    · exact hvalid
    · exact h.valid token htoken
  blank := by
    intro token htoken c hc
    rcases List.mem_cons.1 htoken with rfl | htoken
    · cases hc
    · exact h.blank token htoken c hc
  blankLast := h.blankLast
  maximal := by
    cases lexed with
    | nil => exact .singleton _
    | cons next lexed => exact .cons_cons (fun hrun => hmaximal hrun next rfl) h.maximal

theorem all_isWordChar_takeWhile {c : Char} (hc : isWordChar c) (rest : List Char) :
    ∀ x ∈ c :: rest.takeWhile isWordChar, isWordChar x := by
  intro x hx
  rcases List.mem_cons.1 hx with rfl | hx
  · exact hc
  · exact List.all_eq_true.1 List.all_takeWhile x hx

/-- A run that goes as far as it can may stand before tokens. -/
theorem AreTokens.cons_run {c : Char} {rest after : List Char} {lexed : List (List Char × Lexeme)}
    {last : List Char} (h : AreTokens lexed last)
    (hrest : rest.dropWhile isWordChar = tokenChars lexed ++ (last ++ '}' :: after))
    (hvalid : (Lexeme.run (c :: rest.takeWhile isWordChar)).IsValid) :
    AreTokens (([], .run (c :: rest.takeWhile isWordChar)) :: lexed) last ∧
      c :: rest = tokenChars (([], .run (c :: rest.takeWhile isWordChar)) :: lexed) ++
        (last ++ '}' :: after) := by
  constructor
  · refine h.cons hvalid fun _ next hnext hrun hgap => ?_
    obtain ⟨x, xs, hchars, -, -, hword⟩ :=
      (h.valid next (List.mem_of_mem_head? hnext)).exists_head
    cases lexed with
    | nil => cases hnext
    | cons entry lexed =>
        cases hnext
        have hhead : (rest.dropWhile isWordChar).head? = some x := by
          rw [hrest]
          simp [tokenChars, hgap, hchars]
        have hstop := List.head?_dropWhile_not isWordChar rest
        rw [hhead] at hstop
        simp [hword.1 hrun] at hstop
  · have hsplit := List.takeWhile_append_dropWhile (p := isWordChar) (l := rest)
    conv => lhs; rw [← hsplit, hrest]
    simp [tokenChars, Lexeme.chars]

/-- What was read as tokens was written as tokens. -/
theorem exists_lexed_of_readTokens {opening offset next : Nat} {cs after : List Char}
    {tokens : List Token} (h : readTokens opening offset cs = .ok (tokens, next, after)) :
    ∃ lexed last, AreTokens lexed last ∧ cs = tokenChars lexed ++ (last ++ '}' :: after) := by
  fun_induction readTokens opening offset cs generalizing tokens next after with
  | case1 => cases h
  | case2 offset c rest hblank ih =>
      obtain ⟨lexed, last, htokens, rfl⟩ := ih h
      obtain ⟨lexed', last', htokens', hchars⟩ := htokens.blank_cons hblank
      refine ⟨lexed', last', htokens', ?_⟩
      rw [← List.append_assoc (tokenChars lexed'), hchars]
      simp
  | case3 =>
      cases h
      exact ⟨[], [], ⟨by simp, by simp, by simp, .nil⟩, rfl⟩
  | case4 => cases h
  | case5 => cases h
  | case6 offset c rest hblank hclose hopen hquote text size after' hread ih =>
      obtain ⟨⟨tokens', next'⟩, hr, h⟩ := bind_eq_ok.1 h
      cases h
      obtain ⟨marks, hmarks, rfl, -⟩ := exists_marks_of_readQuoted hread
      obtain ⟨lexed, last, htokens, rfl⟩ := ih hr
      refine ⟨([], .quoted c marks) :: lexed, last,
        htokens.cons (.quoted hquote hmarks) fun hrun => False.elim hrun, ?_⟩
      simp [tokenChars, Lexeme.chars]
  | case7 offset c rest hblank hclose hopen hquote word hstart hnumber =>
      rename_i ih
      obtain ⟨⟨tokens', next'⟩, hr, h⟩ := bind_eq_ok.1 h
      cases h
      obtain ⟨lexed, last, htokens, hrest⟩ := ih hr
      have hc : isWordChar c := isWordChar_iff.2 ⟨hblank, hclose, hopen, hquote⟩
      exact ⟨_, last, htokens.cons_run hrest
        (.number (all_isWordChar_takeWhile hc rest) hstart (isNumber_iff.1 hnumber))⟩
  | case8 => cases h
  | case9 offset c rest hblank hclose hopen hquote word hnumber hstart =>
      rename_i ih
      obtain ⟨⟨tokens', next'⟩, hr, h⟩ := bind_eq_ok.1 h
      cases h
      obtain ⟨lexed, last, htokens, hrest⟩ := ih hr
      have hc : isWordChar c := isWordChar_iff.2 ⟨hblank, hclose, hopen, hquote⟩
      exact ⟨_, last, htokens.cons_run hrest
        (.word (all_isWordChar_takeWhile hc rest) hnumber hstart)⟩
  | case10 => cases h

/-- What was read as tokens, each token with what was written for it. -/
theorem exists_reads_of_readTokens {opening offset next : Nat} {cs after : List Char}
    {tokens : List Token} (h : readTokens opening offset cs = .ok (tokens, next, after)) :
    ∃ lexed last, AreTokens lexed last ∧ cs = tokenChars lexed ++ (last ++ '}' :: after) ∧
      List.Forall₂ Token.Reads tokens (lexed.map Prod.snd) ∧
      next = offset + utf8Length (tokenChars lexed ++ last) + 1 := by
  obtain ⟨lexed, last, hlexed, rfl⟩ := exists_lexed_of_readTokens h
  obtain ⟨tokens', hreads, hread⟩ := readTokens_append hlexed opening offset after
  rw [h] at hread
  cases hread
  exact ⟨lexed, last, hlexed, rfl, hreads, rfl⟩

/-! ## Substitutions -/

theorem argument_eq_ok_iff {token : Token} {lexeme : Lexeme} (h : token.Reads lexeme)
    {argument : Argument} : token.argument = .ok argument ↔ IsArgument lexeme argument := by
  cases h with
  | @word c rest offset hnumber =>
      constructor
      · intro hok
        obtain ⟨path, hpath, rfl⟩ := map_eq_ok.1 hok
        obtain ⟨segments, hsegments, rfl⟩ := parseParam_eq_ok_iff.1 hpath
        exact .path hsegments
      · intro harg
        cases harg with
        | path hpath => exact map_eq_ok.2 ⟨_, parseParam_eq_ok_iff.2 ⟨_, hpath, rfl⟩, rfl⟩
        | number hnumeral =>
            obtain ⟨d, ds, heq, hstart⟩ := hnumeral.exists_head
            cases heq
            exact absurd hstart hnumber
  | text quote marks =>
      constructor
      · intro hok
        cases hok
        exact .text quote marks
      · intro harg
        cases harg
        rfl
  | number hnumeral =>
      constructor
      · intro hok
        cases hok
        exact .number hnumeral
      · intro harg
        cases harg with
        | path hpath =>
            obtain ⟨d, ds, rfl, hstart⟩ := hnumeral.exists_head
            exact absurd hstart hpath.not_startsNumeral
        | number hnumeral' => rfl

theorem arguments_eq_ok_iff {tokens : List Token} {lexemes : List Lexeme}
    (h : List.Forall₂ Token.Reads tokens lexemes) {arguments : List Argument} :
    tokens.mapM Token.argument = .ok arguments ↔ List.Forall₂ IsArgument lexemes arguments := by
  induction h generalizing arguments with
  | nil =>
      constructor
      · intro hok
        cases hok
        exact .nil
      · intro hargs
        cases hargs
        rfl
  | cons hfirst hrest ih =>
      rw [mapM_cons_eq_ok]
      constructor
      · intro ⟨argument, others, hargument, hothers, heq⟩
        subst heq
        exact .cons ((argument_eq_ok_iff hfirst).1 hargument) (ih.1 hothers)
      · intro hargs
        cases hargs with
        | cons hargument hothers =>
            exact ⟨_, _, (argument_eq_ok_iff hfirst).2 hargument, ih.2 hothers, rfl⟩

theorem isName_of_isNumeral {word : List Char} (h : IsNumeral word) : ¬isName word := by
  intro hname
  obtain ⟨c, rest, rfl, hstart⟩ := h.exists_head
  simp only [isName, Bool.and_eq_true] at hname
  exact not_startsNumeral_of_isNameStart hname.1 hstart

/-- **The test on the tokens between braces is that of the grammar.** -/
theorem ofTokens_eq_ok_iff {opening : Nat} {tokens : List Token} {lexemes : List Lexeme}
    (h : List.Forall₂ Token.Reads tokens lexemes) {value : Substitution} :
    Substitution.ofTokens opening tokens = .ok value ↔ IsSubstitution opening lexemes value := by
  cases h with
  | nil => exact ⟨nofun, nofun⟩
  | @cons token lexeme tokens lexemes hfirst hrest =>
      cases hfirst with
      | @word c rest offset hnumber =>
          cases hrest with
          | nil =>
              constructor
              · intro hok
                obtain ⟨path, hpath, rfl⟩ := map_eq_ok.1 hok
                obtain ⟨segments, hsegments, rfl⟩ := parseParam_eq_ok_iff.1 hpath
                exact .param hsegments
              · intro hvalue
                cases hvalue with
                | param hpath =>
                    exact map_eq_ok.2 ⟨_, parseParam_eq_ok_iff.2 ⟨_, hpath, rfl⟩, rfl⟩
                | call hname hsome harguments => exact absurd rfl hsome
          | @cons next lexeme' tokens lexemes hnext hrest =>
              have harguments : ∀ {arguments : List Argument},
                  (next :: tokens).mapM Token.argument = .ok arguments ↔
                    List.Forall₂ IsArgument (lexeme' :: lexemes) arguments :=
                arguments_eq_ok_iff (.cons hnext hrest)
              constructor
              · intro hok
                simp only [Substitution.ofTokens] at hok
                split at hok
                · rename_i hname
                  obtain ⟨arguments, hok', hvalue⟩ := bind_eq_ok.1 hok
                  cases hvalue
                  exact .call hname (by simp) (harguments.1 hok')
                · cases hok
              · intro hvalue
                cases hvalue with
                | call hname hsome hargs =>
                    simp only [Substitution.ofTokens]
                    rw [if_pos hname, harguments.2 hargs]
                    rfl
      | text quote marks => exact ⟨nofun, nofun⟩
      | number hnumeral =>
          constructor
          · intro hok
            cases hok
          · intro hvalue
            cases hvalue with
            | param hpath =>
                obtain ⟨c, rest, rfl, hstart⟩ := hnumeral.exists_head
                exact absurd hstart hpath.not_startsNumeral
            | call hname hsome hargs => exact absurd hname (isName_of_isNumeral hnumeral)

/-! ## Characters and substitutions -/

theorem readElements_mark {m : Mark} (h : m.IsText) (offset : Nat) (rest : List Char) :
    readElements offset (m.chars ++ rest) = (do
      let elements ← readElements (offset + utf8Length m.chars) rest
      .ok (.char m.value :: elements)) := by
  cases m with
  | plain c =>
      obtain ⟨hslash, hopen, hclose⟩ := h
      have hchars : (Mark.plain c).chars ++ rest = c :: rest := rfl
      rw [hchars, readElements.eq_4 _ _ _ (fun hc => absurd hc hslash)
        (fun _ _ hc => absurd hc hslash), if_neg hclose, if_neg hopen]
      rfl
  | escaped c =>
      have hslash : Char.utf8Size '\\' = 1 := by decide
      have hchars : (Mark.escaped c).chars ++ rest = '\\' :: c :: rest := rfl
      rw [hchars, readElements.eq_3]
      simp [Mark.chars, Mark.value, hslash, Nat.add_assoc]

theorem readElements_braces {offset next : Nat} {rest after : List Char} {tokens : List Token}
    (h : readTokens offset (offset + 1) rest = .ok (tokens, next, after)) :
    readElements offset ('{' :: rest) = (do
      let value ← Substitution.ofTokens offset tokens
      let elements ← readElements next after
      .ok (.subst value :: elements)) := by
  have hsize : Char.utf8Size '{' = 1 := by decide
  rw [readElements.eq_4 _ _ _ (fun hc => absurd hc (by decide))
    (fun _ _ hc => absurd hc (by decide)), if_neg (by decide), if_pos rfl]
  split
  · rename_i e herror
    rw [hsize, h] at herror
    cases herror
  · rename_i tokens' next' after' hok
    rw [hsize, h] at hok
    cases hok
    rfl

theorem written_braces (lexed : List (List Char × Lexeme)) (last : List Char) (items : List Item) :
    written (.braces lexed last :: items) =
      '{' :: (tokenChars lexed ++ (last ++ '}' :: written items)) := by
  simp [written, Item.chars]

/-- Two braces are behind one another, with the tokens between them. -/
theorem utf8Length_braces (lexed : List (List Char × Lexeme)) (last : List Char) :
    utf8Length (Item.braces lexed last).chars = utf8Length (tokenChars lexed ++ last) + 2 := by
  have hopen : Char.utf8Size '{' = 1 := by decide
  have hclose : Char.utf8Size '}' = 1 := by decide
  simp [Item.chars, hopen, hclose]
  omega

/-- Behind the closing brace is behind the substitution. -/
theorem offset_behind_braces (offset : Nat) (lexed : List (List Char × Lexeme))
    (last : List Char) :
    offset + Char.utf8Size '{' + utf8Length (tokenChars lexed ++ last) + 1 =
      offset + utf8Length (Item.braces lexed last).chars := by
  have hopen : Char.utf8Size '{' = 1 := by decide
  rw [utf8Length_braces, hopen]
  omega

/-- A substitution is read up to its closing brace, and then the rest. -/
theorem readElements_braces_append {offset : Nat} {lexed : List (List Char × Lexeme)}
    {last : List Char} {value : Substitution} (htokens : AreTokens lexed last)
    (hvalue : IsSubstitution offset (lexed.map Prod.snd) value) (rest : List Char) :
    readElements offset ((Item.braces lexed last).chars ++ rest) = (do
      let elements ← readElements (offset + utf8Length (Item.braces lexed last).chars) rest
      .ok (.subst value :: elements)) := by
  obtain ⟨tokens, hreads, hread⟩ := readTokens_append htokens offset (offset + 1) rest
  have hnext : offset + 1 + utf8Length (tokenChars lexed ++ last) + 1 =
      offset + utf8Length (Item.braces lexed last).chars := by
    rw [utf8Length_braces]
    omega
  have hchars : (Item.braces lexed last).chars ++ rest =
      '{' :: (tokenChars lexed ++ (last ++ '}' :: rest)) := by
    simp [Item.chars]
  rw [hnext] at hread
  rw [hchars, readElements_braces hread, (ofTokens_eq_ok_iff hreads).2 hvalue]
  rfl

/-- **A template is read as it is written**, and then what follows it. -/
theorem Derives.readElements_written_append {offset : Nat} {items : List Item}
    {elements : List Element} (h : Derives offset items elements) (rest : List Char) :
    readElements offset (written items ++ rest) = (do
      let more ← readElements (offset + utf8Length (written items)) rest
      .ok (elements ++ more)) := by
  induction h with
  | nil offset =>
      show readElements offset rest = (readElements offset rest >>= _)
      cases readElements offset rest <;> rfl
  | @mark offset m items elements hm hrest ih =>
      have hwritten : written (.mark m :: items) = m.chars ++ written items := rfl
      rw [hwritten, List.append_assoc, readElements_mark hm, ih, utf8Length_append,
        ← Nat.add_assoc]
      cases readElements _ rest <;> rfl
  | @braces offset lexed last value items elements htokens hvalue hrest ih =>
      have hwritten : written (.braces lexed last :: items) =
          (Item.braces lexed last).chars ++ written items := rfl
      rw [hwritten, List.append_assoc, readElements_braces_append htokens hvalue, ih,
        utf8Length_append, ← Nat.add_assoc]
      cases readElements _ rest <;> rfl

theorem Derives.readElements_written {offset : Nat} {items : List Item} {elements : List Element}
    (h : Derives offset items elements) : readElements offset (written items) = .ok elements := by
  have hread := h.readElements_written_append []
  rw [List.append_nil, readElements.eq_1] at hread
  rw [hread]
  show Except.ok (elements ++ []) = _
  rw [List.append_nil]

/-- What was read as a template was written as one. -/
theorem exists_derives_of_readElements {offset : Nat} {cs : List Char} {elements : List Element}
    (h : readElements offset cs = .ok elements) :
    ∃ items, cs = written items ∧ Derives offset items elements := by
  have hslash : Char.utf8Size '\\' = 1 := by decide
  fun_induction readElements offset cs generalizing elements with
  | case1 offset =>
      cases h
      exact ⟨[], rfl, .nil offset⟩
  | case2 => cases h
  | case3 offset c rest ih =>
      obtain ⟨others, hothers, h⟩ := bind_eq_ok.1 h
      cases h
      obtain ⟨items, rfl, hderives⟩ := ih hothers
      refine ⟨.mark (.escaped c) :: items, rfl, .mark (m := .escaped c) trivial ?_⟩
      simpa [Mark.chars, hslash, Nat.add_assoc] using hderives
  | case4 => cases h
  | case5 => cases h
  | case6 offset rest tokens next after hlone hnext hne htokens ih =>
      obtain ⟨value, hvalue, h⟩ := bind_eq_ok.1 h
      obtain ⟨others, hothers, h⟩ := bind_eq_ok.1 h
      cases h
      obtain ⟨items, rfl, hderives⟩ := ih hothers
      obtain ⟨lexed, last, hlexed, rfl, hreads, rfl⟩ := exists_reads_of_readTokens htokens
      refine ⟨.braces lexed last :: items, (written_braces _ _ _).symm,
        .braces hlexed ((ofTokens_eq_ok_iff hreads).1 hvalue) ?_⟩
      rw [← offset_behind_braces]
      exact hderives
  | case7 offset c rest hlone hnext hclose hopen ih =>
      obtain ⟨others, hothers, h⟩ := bind_eq_ok.1 h
      cases h
      obtain ⟨items, rfl, hderives⟩ := ih hothers
      have hne : c ≠ '\\' := by
        intro hc
        cases hrest : written items with
        | nil => exact hlone hc hrest
        | cons d ds => exact hnext d ds hc hrest
      exact ⟨.mark (.plain c) :: items, rfl, .mark (m := .plain c) ⟨hne, hopen, hclose⟩ hderives⟩

/-! ## Templates -/

/-- **The reader accepts exactly the grammar.**  A template is read if and only if it has a
derivation. There is only one, and the parts that are read are those with its characters and
substitutions in which neighbouring characters are one text. -/
theorem parse_iff_derives (template : String) :
    ((∃ parts, parse template = .ok parts) ↔
      ∃ items elements, written items = template.toList ∧ Derives 0 items elements) ∧
    (∀ items elements items' elements', written items = template.toList →
      Derives 0 items elements → written items' = template.toList → Derives 0 items' elements' →
      items = items' ∧ elements = elements') ∧
    ∀ items elements, written items = template.toList → Derives 0 items elements →
      ∀ parts, parse template = .ok parts ↔
        Merged parts ∧ parts.flatMap Part.elements = elements := by
  have hread : ∀ {items elements}, written items = template.toList → Derives 0 items elements →
      readElements 0 template.toList = .ok elements := by
    intro items elements hchars hderives
    rw [← hchars]
    exact hderives.readElements_written
  refine ⟨⟨?_, ?_⟩, ?_, ?_⟩
  · intro ⟨parts, hparts⟩
    obtain ⟨elements, helements, -⟩ := map_eq_ok.1 hparts
    obtain ⟨items, hchars, hderives⟩ := exists_derives_of_readElements helements
    exact ⟨items, elements, hchars.symm, hderives⟩
  · intro ⟨items, elements, hchars, hderives⟩
    exact ⟨_, map_eq_ok.2 ⟨elements, hread hchars hderives, rfl⟩⟩
  · intro items elements items' elements' hchars hderives hchars' hderives'
    have hsame := (hread hchars hderives).symm.trans (hread hchars' hderives')
    exact ⟨hderives.unique hderives' (hchars.trans hchars'.symm), Except.ok.inj hsame⟩
  · intro items elements hchars hderives parts
    rw [← ofElements_eq_iff, parse, map_eq_ok]
    constructor
    · intro ⟨elements', helements', hparts⟩
      rw [hread hchars hderives] at helements'
      cases helements'
      exact hparts
    · intro hparts
      exact ⟨elements, hread hchars hderives, hparts⟩

end KeysetBundle.Template
