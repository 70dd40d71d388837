import KeysetBundle.Proofs.Decimal.Digits
import KeysetBundle.Proofs.Script.QuotedText
import KeysetBundle.Script.Lexer
import KeysetBundle.Template.Parser

/-!
# The tokens of a source

`tokens` cuts a source into its tokens by the lexical rules of scripts:
blanks and comments are dropped, and every token is the one that `readToken`
finds.  Code that is not strict has two kinds of numbers more, octal ones and
decimal ones that start with a zero; `readLooseToken` knows these too, since
a bundle is not strict.  `tokensBy` cuts a source with either reader.

`Begins read cs ts rest` says that a source `cs` starts with the tokens `ts`
and goes on with `rest`.  It composes (`Begins.append`), so the tokens of a
compound text are found piece by piece; the pieces are texts in double quotes,
names, numbers and the few punctuators of concatenations and calls.  Only a
number is read in another way by another reader (`IsReader`).
-/

namespace KeysetBundle.Script

open KeysetBundle.Decimal (toNat_of_isDigit)
open KeysetBundle.Template (isName isNameStart isNamePart)
open KeysetBundle.Text

/-! ## Tokens of loose code -/

/-- A digit that an octal number may have. -/
def isOctalDigit (c : Char) : Bool := '0' ≤ c && c ≤ '7'

/-- Reads a number that starts with a zero and another digit: an octal number
if it has octal digits only, which takes no fraction, else a decimal one. -/
def readLegacyNumber (cs : List Char) : Except Fault (Token × List Char) :=
  let digits := cs.takeWhile Char.isDigit
  let after := cs.dropWhile Char.isDigit
  let found :=
    if digits.all isOctalDigit then
      some (.number (.ofDigits 8 (digits.filterMap hexDigitValue?)), after)
    else readDecimalTail digits after
  match found with
  | some (token, rest) =>
    if startsWithNamePart rest ∨ token = .bigInteger then .error .invalidNumber
    else .ok (token, rest)
  | none => .error .invalidNumber

/-- Reads the token at the start of a source that is not strict. -/
def readLooseToken (cs : List Char) : Except Fault (Token × List Char) :=
  match cs with
  | '0' :: rest => if startsWithDigit rest then readLegacyNumber cs else readToken cs
  | _ => readToken cs

/-- A reader of the token at the start of a source. -/
abbrev Reader := List Char → Except Fault (Token × List Char)

/-- A reader that differs from the one of strict code at most where a zero stands before another
digit. -/
class IsReader (read : Reader) : Prop where
  /-- Anything else is read as in strict code. -/
  read_eq {c : Char} {rest : List Char} (h : c ≠ '0' ∨ startsWithDigit rest = false) :
    read (c :: rest) = readToken (c :: rest)

instance : IsReader readToken := ⟨fun _ => rfl⟩

instance : IsReader readLooseToken where
  read_eq {c rest} h := by
    unfold readLooseToken
    split
    · rename_i heq
      obtain ⟨rfl, rfl⟩ := List.cons.inj heq
      simp [h.resolve_left fun hne => hne rfl]
    · rfl

/-- Readers differ only where a zero stands. -/
theorem read_of_ne_zero (read : Reader) [IsReader read] {c : Char} (hc : c ≠ '0')
    (rest : List Char) : read (c :: rest) = readToken (c :: rest) :=
  IsReader.read_eq (.inl hc)

theorem length_skipGap {gap : Gap} {newline found : Bool} {cs start : List Char}
    (h : skipGap gap newline cs = some (found, start)) : start.length ≤ cs.length := by
  fun_induction skipGap gap newline cs <;> grind

/-- The tokens of a source, if all of it can be cut into tokens. -/
def tokens (cs : List Char) : Option (List Token) :=
  match _h : skipBlanks cs with
  | none => none
  | some (_, []) => some []
  | some (_, c :: start) =>
    match readLooseToken (c :: start) with
    | .error _ => none
    | .ok (token, rest) =>
      if rest.length ≤ start.length then (tokens rest).map (token :: ·) else none
termination_by cs.length
decreasing_by
  have := length_skipGap _h
  simp only [List.length_cons] at this
  omega

/-- The tokens of a source as a reader reads them. -/
def tokensBy (read : Reader) (cs : List Char) : Option (List Token) :=
  match _h : skipBlanks cs with
  | none => none
  | some (_, []) => some []
  | some (_, c :: start) =>
    match read (c :: start) with
    | .error _ => none
    | .ok (token, rest) =>
      if rest.length ≤ start.length then (tokensBy read rest).map (token :: ·) else none
termination_by cs.length
decreasing_by
  have := length_skipGap _h
  simp only [List.length_cons] at this
  omega

/-- The tokens of a source in strict code. -/
def strictTokens (cs : List Char) : Option (List Token) := tokensBy readToken cs

theorem tokensBy_readLooseToken (cs : List Char) : tokensBy readLooseToken cs = tokens cs := by
  fun_induction tokens cs <;> rw [tokensBy] <;> grind

/-- A source starts with the given tokens, as a reader reads them, and the rest goes on behind
them. -/
def Begins (read : Reader) (cs : List Char) (ts : List Token) (rest : List Char) : Prop :=
  rest.length ≤ cs.length ∧ tokensBy read cs = (tokensBy read rest).map (ts ++ ·)

namespace Begins

variable {read : Reader}

theorem refl (cs : List Char) : Begins read cs [] cs :=
  ⟨Nat.le_refl _, by cases tokensBy read cs <;> rfl⟩

theorem append {cs ds es : List Char} {ts us : List Token}
    (hfirst : Begins read cs ts ds) (hsecond : Begins read ds us es) :
    Begins read cs (ts ++ us) es := by
  refine ⟨Nat.le_trans hsecond.1 hfirst.1, ?_⟩
  rw [hfirst.2, hsecond.2, Option.map_map]
  congr 1
  funext vs
  exact (List.append_assoc ts us vs).symm

/-- Nothing is left: the tokens of the source are the ones it starts with. -/
theorem tokensBy_eq {cs : List Char} {ts : List Token} (h : Begins read cs ts []) :
    tokensBy read cs = some ts := by
  have hnil : tokensBy read [] = some [] := by
    rw [tokensBy]
    rfl
  rw [h.2, hnil]
  simp

theorem tokens_eq {cs : List Char} {ts : List Token} (h : Begins readLooseToken cs ts []) :
    tokens cs = some ts := by
  rw [← tokensBy_readLooseToken]
  exact h.tokensBy_eq

end Begins

/-! ## One token -/

/-- A character that may stand at the start of a token. -/
def startsToken (c : Char) : Bool := !isLineTerminator c && !isSpace c && c != '/'

theorem skipBlanks_of_startsToken {c : Char} (hc : startsToken c) (rest : List Char) :
    skipBlanks (c :: rest) = some (false, c :: rest) := by
  simp only [startsToken, Bool.and_eq_true, Bool.not_eq_true', bne_iff_ne, ne_eq] at hc
  obtain ⟨⟨hline, hspace⟩, hslash⟩ := hc
  unfold skipBlanks
  rw [skipGap.eq_def]
  split
  · rename_i heq
    cases heq
  · rename_i heq
    obtain ⟨rfl, rfl⟩ := List.cons.inj heq
    rfl
  · rename_i heq
    exact absurd (List.cons.inj heq).1 hslash
  · rename_i heq
    exact absurd (List.cons.inj heq).1 hslash
  · rename_i heq
    obtain ⟨rfl, rfl⟩ := List.cons.inj heq
    simp [hline, hspace]

section Reader

variable {read : Reader}

/-- The tokens of a source depend only on what follows the blanks at its start. -/
theorem tokensBy_congr {cs ds : List Char}
    (h : (skipBlanks cs).map Prod.snd = (skipBlanks ds).map Prod.snd) :
    tokensBy read cs = tokensBy read ds := by
  rw [tokensBy.eq_def, tokensBy.eq_def]
  grind

/-- A token that is read at the start of a source is the first one of it. -/
theorem Begins.of_read {c : Char} {rest after : List Char} {token : Token}
    (hc : startsToken c) (hread : read (c :: rest) = .ok (token, after))
    (hlength : after.length ≤ rest.length) : Begins read (c :: rest) [token] after := by
  refine ⟨Nat.le_succ_of_le hlength, ?_⟩
  rw [tokensBy]
  grind [skipBlanks_of_startsToken]

/-- A token that cannot be read makes the source unreadable. -/
theorem tokensBy_eq_none {c : Char} {rest : List Char} {fault : Fault} (hc : startsToken c)
    (hread : read (c :: rest) = .error fault) : tokensBy read (c :: rest) = none := by
  rw [tokensBy]
  grind [skipBlanks_of_startsToken]

/-- A blank before a token is dropped. -/
theorem Begins.space (rest : List Char) : Begins read (' ' :: rest) [] rest := by
  refine ⟨Nat.le_succ _, ?_⟩
  have hskip : skipBlanks (' ' :: rest) = skipBlanks rest := by
    unfold skipBlanks
    rw [skipGap.eq_def]
    rfl
  rw [tokensBy_congr (congrArg _ hskip)]
  cases tokensBy read rest <;> rfl

/-- Whether a line has ended does not matter for what is skipped. -/
theorem snd_skipGap (gap : Gap) (newline : Bool) (cs : List Char) :
    (skipGap gap newline cs).map Prod.snd = (skipGap gap false cs).map Prod.snd := by
  fun_induction skipGap gap newline cs <;> grind [skipGap]

/-- The end of a line before a token is dropped. -/
theorem Begins.lineFeed (rest : List Char) : Begins read ('\n' :: rest) [] rest := by
  refine ⟨Nat.le_succ _, ?_⟩
  have hskip : skipBlanks ('\n' :: rest) = skipGap .blank true rest := by
    unfold skipBlanks
    rw [skipGap.eq_def]
    rfl
  rw [tokensBy_congr (hskip ▸ snd_skipGap .blank true rest)]
  cases tokensBy read rest <;> rfl

end Reader

/-- Every token takes at least one character. -/
theorem length_tokens {cs : List Char} {ts : List Token} (h : tokens cs = some ts) :
    ts.length ≤ cs.length := by
  fun_induction tokens cs generalizing ts with
  | case1 => cases h
  | case2 => simp_all
  | case3 => cases h
  | case4 cs newline c start hskip token rest hread hlength ih =>
      obtain ⟨others, hothers, rfl⟩ := Option.map_eq_some_iff.1 h
      have hskipped := length_skipGap hskip
      have hrest := ih hothers
      simp only [List.length_cons] at hskipped ⊢
      omega
  | case5 => cases h

/-! ## Characters of names -/

theorem toNat_of_isNameStart {c : Char} (h : isNameStart c) :
    (65 ≤ c.toNat ∧ c.toNat ≤ 90) ∨ (97 ≤ c.toNat ∧ c.toNat ≤ 122) ∨ c.toNat = 95 ∨
      c.toNat = 36 := by
  have hupper : c.isUpper = decide (c.val ≥ 65 ∧ c.val ≤ 90) := rfl
  have hlower : c.isLower = (decide (c.val ≥ 97) && decide (c.val ≤ 122)) := rfl
  have halpha : c.isAlpha = (c.isUpper || c.isLower) := rfl
  simp only [isNameStart, halpha, hupper, hlower, Bool.or_eq_true, Bool.and_eq_true,
    decide_eq_true_eq, ge_iff_le, UInt32.le_iff_toNat_le, beq_iff_eq] at h
  rcases h with ((h | h) | rfl) | rfl
  · exact .inl h
  · exact .inr (.inl h)
  · exact .inr (.inr (.inl rfl))
  · exact .inr (.inr (.inr rfl))

/-- Whether a code point below 128 may start a name of a script. -/
def startsAsciiName (n : Nat) : Bool :=
  n == 36 || n == 95 || (65 ≤ n && n ≤ 90) || (97 ≤ n && n ≤ 122)

/-- Ranges that start later do not matter. -/
theorem inRanges_append_of_lt (low : List (Nat × Nat)) {high : List (Nat × Nat)}
    {bound n : Nat} (hhigh : high.all fun range => bound ≤ range.1) (hn : n < bound) :
    inRanges (low ++ high) n = inRanges low n := by
  have hnone : inRanges high n = false := by
    rw [inRanges, List.any_eq_false]
    intro range hrange
    have hle := List.all_eq_true.1 hhigh range hrange
    simp only [decide_eq_true_eq] at hle
    simp only [Bool.and_eq_true, decide_eq_true_eq]
    omega
  unfold inRanges at hnone ⊢
  rw [List.any_append, hnone, Bool.or_false]

/-- Of the code points below 128 the tables have letters and digits. -/
theorem highRanges : ((identifierStartRanges.drop 2).all fun range => 128 ≤ range.1) ∧
    (identifierExtendRanges.drop 2).all fun range => 128 ≤ range.1 := by
  decide +kernel

theorem isIdentifierStart_ascii {n : Nat} (hn : n < 128) :
    isIdentifierStart n = startsAsciiName n := by
  have hlow : inRanges identifierStartRanges n = inRanges [(65, 90), (97, 122)] n :=
    inRanges_append_of_lt [(65, 90), (97, 122)] highRanges.1 hn
  rw [isIdentifierStart, hlow]
  simp [inRanges, startsAsciiName, Bool.or_assoc]

theorem isIdentifierPart_ascii {n : Nat} (hn : n < 128) :
    isIdentifierPart n = (startsAsciiName n || (48 ≤ n && n ≤ 57)) := by
  have hlow : inRanges identifierExtendRanges n = inRanges [(48, 57), (95, 95)] n :=
    inRanges_append_of_lt [(48, 57), (95, 95)] highRanges.2 hn
  rw [isIdentifierPart, isIdentifierStart_ascii hn, hlow, Bool.eq_iff_iff]
  simp only [inRanges, startsAsciiName, List.any_cons, List.any_nil, Bool.or_false,
    Bool.or_eq_true, Bool.and_eq_true, beq_iff_eq, decide_eq_true_eq]
  omega

/-- A quotation mark, a point or a digit starts no name of a script. -/
theorem not_isIdentifierStart {n : Nat} (h : n = 34 ∨ n = 39 ∨ n = 46 ∨ 48 ≤ n ∧ n ≤ 57) :
    isIdentifierStart n = false := by
  rw [isIdentifierStart_ascii (by omega), Bool.eq_false_iff]
  simp only [startsAsciiName, ne_eq, Bool.or_eq_true, Bool.and_eq_true, beq_iff_eq,
    decide_eq_true_eq]
  omega

/-- The start of a name of a template may start a name of a script. -/
theorem isIdentifierStart_of_isNameStart {c : Char} (h : isNameStart c) :
    isIdentifierStart c.toNat := by
  have hrange := toNat_of_isNameStart h
  rw [isIdentifierStart_ascii (by omega)]
  simp only [startsAsciiName, Bool.or_eq_true, Bool.and_eq_true, beq_iff_eq, decide_eq_true_eq]
  omega

theorem ne_of_isNameStart {c d : Char} (hc : isNameStart c) (hd : isNameStart d = false) :
    c ≠ d := by
  rintro rfl
  rw [hd] at hc
  cases hc

/-- The spaces and line ends of other scripts are far behind the characters of ASCII. -/
theorem not_wide_of_lt {c : Char} (h : c.toNat < 128) : ¬('\u2000' ≤ c) := by
  rw [Char.le_def, UInt32.le_iff_toNat_le]
  intro hle
  have : (8192 : Nat) ≤ c.toNat := hle
  omega

theorem startsToken_of_isNameStart {c : Char} (h : isNameStart c) : startsToken c := by
  have hrange := toNat_of_isNameStart h
  have hne : ∀ d : Char, isNameStart d = false → c ≠ d := fun d => ne_of_isNameStart h
  have hwide := not_wide_of_lt (show c.toNat < 128 by omega)
  simp [startsToken, isLineTerminator, isSpace, hne, hwide, isNameStart]

theorem isNamePart_cases {c : Char} (h : isNamePart c) : isNameStart c ∨ c.isDigit := by
  simp only [isNamePart, Char.isAlphanum, Bool.or_eq_true] at h
  simp only [isNameStart, Bool.or_eq_true]
  grind

/-- The other characters of a name of a template may continue a name of a script. -/
theorem isIdentifierPart_of_isNamePart {c : Char} (h : isNamePart c) :
    isIdentifierPart c.toNat := by
  rcases isNamePart_cases h with h | h
  · rw [isIdentifierPart, isIdentifierStart_of_isNameStart h]
    rfl
  · have hrange := toNat_of_isDigit h
    rw [isIdentifierPart_ascii (by omega)]
    simp [hrange]

/-! ## Punctuators -/

variable {read : Reader} [IsReader read]

/-- A character that can only start a punctuator, unless it is a point before a digit. -/
def startsPunctuator (c : Char) : Bool :=
  startsToken c && !isIdentifierStart c.toNat && c != '\\' && c != '"' && c != '\'' &&
    c != '\x60' && !c.isDigit && c != '#'

/-- A character that starts a punctuator is read as one. -/
theorem Begins.of_readPunctuator {c : Char} {rest after : List Char} {punctuator : Punctuator}
    (hc : startsPunctuator c) (hpoint : c = '.' → startsWithDigit rest = false)
    (hread : readPunctuator (c :: rest) = .ok (.punctuator punctuator, after))
    (hlength : after.length ≤ rest.length) :
    Begins read (c :: rest) [.punctuator punctuator] after := by
  simp only [startsPunctuator, Bool.and_eq_true, Bool.not_eq_true', bne_iff_ne, ne_eq] at hc
  obtain ⟨⟨⟨⟨⟨⟨⟨hstart, hname⟩, hslash⟩, hdouble⟩, hsingle⟩, hback⟩, hdigit⟩, hmark⟩ := hc
  refine Begins.of_read hstart ?_ hlength
  have hzero : c ≠ '0' := by
    rintro rfl
    exact absurd hdigit (by decide)
  have hnumber : ¬(c.isDigit = true ∨ c = '.' ∧ startsWithDigit rest = true) := by
    rintro (h | ⟨h, hd⟩)
    · rw [hdigit] at h
      cases h
    · rw [hpoint h] at hd
      cases hd
  rw [read_of_ne_zero read hzero, readToken]
  rw [if_neg (by simp [hname, hslash]), if_neg (by simp [hdouble, hsingle]), if_neg hback,
    if_neg hnumber, if_neg hmark]
  exact hread

/-- The characters of the punctuators that are used here. -/
def usedPunctuators : List Char :=
  ['(', ')', '{', '}', '[', ']', ';', ',', ':', '=', '+', '-', '.']

theorem startsPunctuator_of_mem {c : Char} (hc : c ∈ usedPunctuators) : startsPunctuator c := by
  have hall : usedPunctuators.all fun c => c.toNat < 128 && !startsAsciiName c.toNat &&
      (startsToken c && c != '\\' && c != '"' && c != '\'' && c != '\x60' && !c.isDigit &&
        c != '#') := by decide
  have hplain := List.all_eq_true.1 hall c hc
  simp only [Bool.and_eq_true, decide_eq_true_eq] at hplain
  simp only [startsPunctuator, isIdentifierStart_ascii hplain.1.1, hplain, Bool.and_self]

/-- A punctuator of one character is a token of its own. -/
theorem begins_punctuator {c : Char} {rest : List Char} {punctuator : Punctuator}
    (hc : c ∈ usedPunctuators) (hpoint : c = '.' → startsWithDigit rest = false)
    (hread : readPunctuator (c :: rest) = .ok (.punctuator punctuator, rest)) :
    Begins read (c :: rest) [.punctuator punctuator] rest :=
  .of_readPunctuator (startsPunctuator_of_mem hc) hpoint hread (Nat.le_refl _)

theorem begins_openParen (rest : List Char) :
    Begins read ('(' :: rest) [.punctuator .openParen] rest :=
  begins_punctuator (by simp [usedPunctuators]) (by simp) rfl

theorem begins_closeParen (rest : List Char) :
    Begins read (')' :: rest) [.punctuator .closeParen] rest :=
  begins_punctuator (by simp [usedPunctuators]) (by simp) rfl

theorem begins_openBrace (rest : List Char) :
    Begins read ('{' :: rest) [.punctuator .openBrace] rest :=
  begins_punctuator (by simp [usedPunctuators]) (by simp) rfl

theorem begins_closeBrace (rest : List Char) :
    Begins read ('}' :: rest) [.punctuator .closeBrace] rest :=
  begins_punctuator (by simp [usedPunctuators]) (by simp) rfl

theorem begins_openBracket (rest : List Char) :
    Begins read ('[' :: rest) [.punctuator .openBracket] rest :=
  begins_punctuator (by simp [usedPunctuators]) (by simp) rfl

theorem begins_closeBracket (rest : List Char) :
    Begins read (']' :: rest) [.punctuator .closeBracket] rest :=
  begins_punctuator (by simp [usedPunctuators]) (by simp) rfl

theorem begins_colon (rest : List Char) :
    Begins read (':' :: rest) [.punctuator .colon] rest :=
  begins_punctuator (by simp [usedPunctuators]) (by simp) rfl

theorem begins_semicolon (rest : List Char) :
    Begins read (';' :: rest) [.punctuator .semicolon] rest :=
  begins_punctuator (by simp [usedPunctuators]) (by simp) rfl

theorem begins_comma (rest : List Char) :
    Begins read (',' :: rest) [.punctuator .comma] rest :=
  begins_punctuator (by simp [usedPunctuators]) (by simp) rfl

/-- A sign of equality before a blank assigns; it is no part of a comparison. -/
theorem begins_assign (rest : List Char) :
    Begins read ('=' :: ' ' :: rest) [.punctuator .assign] rest :=
  (begins_punctuator (by simp [usedPunctuators]) (by simp) rfl).append
    (Begins.space rest)

/-- A plus sign before a blank adds; it is no part of an increment. -/
theorem begins_plus (rest : List Char) :
    Begins read ('+' :: ' ' :: rest) [.punctuator .plus] rest :=
  (begins_punctuator (by simp [usedPunctuators]) (by simp) rfl).append
    (Begins.space rest)

/-- A minus sign before a digit is a sign of its own. -/
theorem begins_minus {c : Char} (hc : c.isDigit) (rest : List Char) :
    Begins read ('-' :: c :: rest) [.punctuator .minus] (c :: rest) := by
  have hminus : c ≠ '-' := by
    rintro rfl
    exact absurd hc (by decide)
  have hassign : c ≠ '=' := by
    rintro rfl
    exact absurd hc (by decide)
  refine begins_punctuator (by simp [usedPunctuators]) (by simp) ?_
  simp [readPunctuator, Punctuator.spellings, hminus.symm, hassign.symm]

/-- A point before the start of a name is a token of its own. -/
theorem begins_dot {c : Char} (hc : isNameStart c) (rest : List Char) :
    Begins read ('.' :: c :: rest) [.punctuator .dot] (c :: rest) := by
  have hdot : c ≠ '.' := by
    rintro rfl
    exact absurd hc (by decide)
  have hdigit : startsWithDigit (c :: rest) = false := by
    cases h : c.isDigit with
    | false => exact h
    | true =>
        have hrange := toNat_of_isDigit h
        have := toNat_of_isNameStart hc
        omega
  refine begins_punctuator (by simp [usedPunctuators]) (fun _ => hdigit) ?_
  simp [readPunctuator, Punctuator.spellings, hdot.symm]

/-! ## Texts and names -/

/-- What a point or a blank follows is complete. -/
theorem startsWithNamePart_of_mem {c : Char}
    (hc : c ∈ ['.', ' ', ',', ')', ';', '(', '+', '[']) (rest : List Char) :
    startsWithNamePart (c :: rest) = false := by
  have hall : ['.', ' ', ',', ')', ';', '(', '+', '['].all fun c => c.toNat < 128 &&
      !(startsAsciiName c.toNat || (48 ≤ c.toNat && c.toNat ≤ 57)) && c != '\\' := by decide
  have hplain := List.all_eq_true.1 hall c hc
  simp only [Bool.and_eq_true, decide_eq_true_eq, Bool.not_eq_true', bne_iff_ne, ne_eq] at hplain
  simp only [startsWithNamePart, isIdentifierPart_ascii hplain.1.1, hplain, Bool.false_or,
    beq_eq_false_iff_ne, ne_eq, not_false_eq_true]

/-- A text in double quotes is one token, with the code points of the text. -/
theorem begins_doubleQuoted (text : String) (rest : List Char) :
    Begins read ((doubleQuoted text).toList ++ rest) [.text (text.toList.map Char.toNat)] rest := by
  have hread : readText '"' (text.toList.flatMap doubleEscape ++ '"' :: rest) =
      some (text.toList.map Char.toNat, rest) := readText_doubleEscape _ _
  have hlist : (doubleQuoted text).toList ++ rest =
      '"' :: (text.toList.flatMap doubleEscape ++ '"' :: rest) := by
    simp [doubleQuoted]
  rw [hlist]
  refine Begins.of_read (by decide) ?_ ?_
  · rw [read_of_ne_zero read (by decide), readToken]
    have hname : isIdentifierStart 34 = false := not_isIdentifierStart (by simp)
    rw [if_neg (by simp [hname]), if_pos (.inl rfl), hread]
  · simp only [List.length_append, List.length_cons]
    omega

/-- A name is read up to the first character that is no part of it. -/
theorem readNameRest_append {cs rest : List Char} (hcs : cs.all isNamePart)
    (hrest : startsWithNamePart rest = false) :
    readNameRest (cs ++ rest) = some (cs, false, rest) := by
  induction cs with
  | nil =>
      rw [List.nil_append, readNameRest.eq_def]
      cases rest with
      | nil => rfl
      | cons c rest =>
          simp only [startsWithNamePart, Bool.or_eq_false_iff, beq_eq_false_iff_ne, ne_eq] at hrest
          simp [hrest.1, hrest.2]
  | cons c cs ih =>
      simp only [List.all_cons, Bool.and_eq_true] at hcs
      have hpart := isIdentifierPart_of_isNamePart hcs.1
      have hslash : c ≠ '\\' := by
        rintro rfl
        exact absurd hcs.1 (by decide)
      rw [List.cons_append, readNameRest.eq_def]
      simp [hslash, hpart, ih hcs.2]

theorem readName_append {c : Char} {cs rest : List Char} (hc : isNameStart c)
    (hcs : cs.all isNamePart) (hrest : startsWithNamePart rest = false) :
    readName (c :: (cs ++ rest)) = some (String.ofList (c :: cs), false, rest) := by
  unfold readName
  split
  · rename_i heq
    exact absurd (List.cons.inj heq).1 (ne_of_isNameStart hc (by decide))
  · rename_i heq
    obtain ⟨rfl, rfl⟩ := List.cons.inj heq
    rw [if_pos (isIdentifierStart_of_isNameStart hc), readNameRest_append hcs hrest]
    rfl
  · rename_i heq
    cases heq

/-- A name of a template is one token, a name of the same spelling. -/
theorem begins_name {word rest : List Char} (hword : isName word)
    (hrest : startsWithNamePart rest = false) :
    Begins read (word ++ rest) [.name (String.ofList word) false] rest := by
  cases word with
  | nil => cases hword
  | cons c cs =>
      simp only [isName, Bool.and_eq_true] at hword
      rw [List.cons_append]
      refine Begins.of_read (startsToken_of_isNameStart hword.1) ?_ ?_
      · rw [read_of_ne_zero read (ne_of_isNameStart hword.1 (by decide)), readToken]
        rw [if_pos (by simp [isIdentifierStart_of_isNameStart hword.1]),
          readName_append hword.1 hword.2 hrest]
      · rw [List.length_append]
        omega

end KeysetBundle.Script
