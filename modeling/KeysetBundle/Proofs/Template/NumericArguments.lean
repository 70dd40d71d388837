import KeysetBundle.Proofs.Decimal.Whole
import KeysetBundle.Proofs.Script.Numbers
import KeysetBundle.Proofs.Template.Compaction

/-!
# Numbers in compiled templates

A number of a template is put into the compiled function as it is written.  It
is a number of the script by the same digits, unless it starts with a zero and
another digit: then strict code does not have it, and other code may take it
for an octal number.

So a compiled template in which no number starts with such a zero is read alike
in strict code and in other code, and each number is read as the value nearest
to what the template says.

Main results.

- `exists_denotes`: how a number is read, by every reader.
- `strictTokens_eq_none`: a zero too many is refused in strict code.
- `numbers_kept`: the numbers of a compiled template.
-/

namespace KeysetBundle.Template

open KeysetBundle.Decimal (Binary64)
open KeysetBundle.Script (AreDigits Begins IsFraction IsReader Reader ReadsAsNumber begins_decimal
  begins_legacy begins_minus decimalNumber_nearest fractionDigits readLooseToken readToken
  readToken_of_zero spelling_of_isUnsignedNumber startsWithDigit startsWithZero strictTokens tokens
  tokensBy_eq_none tokensBy_readLooseToken writtenValue)

/-! ## What a number says -/

/-- The number that is written without a sign. -/
def unsignedValue (word : List Char) : ℚ :=
  writtenValue (word.takeWhile Char.isDigit) (fractionDigits (word.dropWhile Char.isDigit)) 0

/-- The number that is written. -/
def numberValue : List Char → ℚ
  | '-' :: word => -unsignedValue word
  | word => unsignedValue word

/-- A number whose whole part starts with a zero and another digit. -/
def hasExtraZero : List Char → Bool
  | '-' :: word => startsWithZero (word.takeWhile Char.isDigit)
  | word => startsWithZero (word.takeWhile Char.isDigit)

/-- Tokens that have a number as their value: the nearest value, or its negative. -/
inductive Denotes : List Script.Token → ℚ → Prop
  /-- A number. -/
  | number {value : Binary64} {x : ℚ} (h : value.Nearest x) : Denotes [.number value] x
  /-- A number behind a minus sign. -/
  | minus {value : Binary64} {x : ℚ} (h : value.Nearest x) :
    Denotes [.punctuator .minus, .number value] (-x)

/-! ## How a number is read -/

/-- The whole part and the fraction of a number are found where its digits end. -/
theorem takeWhile_spelling {whole fraction : List Char} (hwhole : AreDigits whole)
    (hfraction : IsFraction fraction) :
    (whole ++ fraction).takeWhile Char.isDigit = whole ∧
      (whole ++ fraction).dropWhile Char.isDigit = fraction := by
  refine Script.takeWhile_digits_append hwhole.2 ?_
  rcases hfraction with rfl | ⟨digits, -, rfl⟩ <;> rfl

theorem unsignedValue_append {whole fraction : List Char} (hwhole : AreDigits whole)
    (hfraction : IsFraction fraction) :
    unsignedValue (whole ++ fraction) = writtenValue whole (fractionDigits fraction) 0 := by
  obtain ⟨htake, hdrop⟩ := takeWhile_spelling hwhole hfraction
  unfold unsignedValue
  rw [htake, hdrop]

/-- A number without a sign is one token, the value nearest to it. -/
theorem exists_denotes_unsigned {word : List Char} (hword : isUnsignedNumber word)
    (hzero : startsWithZero (word.takeWhile Char.isDigit) = false) :
    ∃ value : Binary64, value.Nearest (unsignedValue word) ∧
      ∀ (read : Reader) [IsReader read], ReadsAsNumber read word [.number value] := by
  obtain ⟨whole, fraction, rfl, hwhole, hfraction⟩ := spelling_of_isUnsignedNumber hword
  rw [(takeWhile_spelling hwhole hfraction).1] at hzero
  have hdigits : ∀ c ∈ whole ++ fractionDigits fraction, c.isDigit := by
    intro c hc
    rcases List.mem_append.1 hc with hc | hc
    · exact List.all_eq_true.1 hwhole.2 c hc
    · rcases hfraction with rfl | ⟨digits, hdigits, rfl⟩
      · cases hc
      · exact List.all_eq_true.1 hdigits.2 c hc
  rw [unsignedValue_append hwhole hfraction]
  refine ⟨_, decimalNumber_nearest hdigits 0, fun read _ => ⟨by simp, rfl, fun rest hrest => ?_⟩⟩
  rw [List.append_assoc]
  exact begins_decimal hwhole hzero hfraction hrest

/-- A number is one without a sign, or such a one behind a minus sign. -/
theorem isNumber_cases {word : List Char} (h : isNumber word) :
    (∃ digits, word = '-' :: digits ∧ isUnsignedNumber digits) ∨
      (isUnsignedNumber word ∧ numberValue word = unsignedValue word ∧
        hasExtraZero word = startsWithZero (word.takeWhile Char.isDigit)) := by
  unfold isNumber at h
  split at h
  · exact .inl ⟨_, rfl, h⟩
  · rename_i hminus
    refine .inr ⟨h, ?_, ?_⟩
    · unfold numberValue
      split
      · exact absurd rfl (hminus _)
      · rfl
    · unfold hasExtraZero
      split
      · exact absurd rfl (hminus _)
      · rfl

/-- **How a number is read**: by every reader as the value nearest to it, unless it has a zero too
many. -/
theorem exists_denotes {word : List Char} (hword : isNumber word)
    (hzero : hasExtraZero word = false) :
    ∃ run, Denotes run (numberValue word) ∧
      ∀ (read : Reader) [IsReader read], ReadsAsNumber read word run := by
  rcases isNumber_cases hword with ⟨digits, rfl, hdigits⟩ | ⟨hdigits, hvalue, hstart⟩
  · obtain ⟨value, hnearest, hread⟩ := exists_denotes_unsigned hdigits hzero
    exact ⟨_, .minus hnearest, fun read _ => (hread read).minus hdigits⟩
  · obtain ⟨value, hnearest, hread⟩ := exists_denotes_unsigned hdigits (hstart ▸ hzero)
    exact ⟨_, hvalue ▸ .number hnearest, hread⟩

theorem strictTokens_of_startsWithZero {word : List Char} (hword : isUnsignedNumber word)
    (hzero : startsWithZero (word.takeWhile Char.isDigit)) :
    strictTokens word = none ∧ ∃ rest, word = '0' :: rest := by
  obtain ⟨whole, fraction, rfl, hwhole, hfraction⟩ := spelling_of_isUnsignedNumber hword
  rw [(takeWhile_spelling hwhole hfraction).1] at hzero
  unfold startsWithZero at hzero
  split at hzero
  · rename_i digits
    have hstart : startsWithDigit (digits ++ fraction) := by
      cases digits with
      | nil => cases hzero
      | cons d ds => exact hzero
    exact ⟨tokensBy_eq_none (by decide) (readToken_of_zero hstart), _, rfl⟩
  · cases hzero

/-- **A zero too many is refused in strict code.** -/
theorem strictTokens_eq_none {word : List Char} (hword : isNumber word)
    (hzero : hasExtraZero word) : strictTokens word = none := by
  rcases isNumber_cases hword with ⟨digits, rfl, hdigits⟩ | ⟨hdigits, -, hstart⟩
  · obtain ⟨hnone, rest, rfl⟩ := strictTokens_of_startsWithZero hdigits hzero
    have hminus : Begins readToken ('-' :: '0' :: rest) _ _ := begins_minus (by decide) rest
    unfold strictTokens at hnone ⊢
    rw [hminus.2, hnone]
    rfl
  · exact (strictTokens_of_startsWithZero hdigits (hstart ▸ hzero)).1

/-! ## The numbers of a template -/

/-- A number among the arguments of the calls of a template. -/
inductive HasNumber (parts : List Part) (word : String) : Prop
  /-- The call has the number as an argument. -/
  | mk {function : String} {arguments : List Argument} {offset : Nat}
    (hcall : Part.subst (.call function arguments offset) ∈ parts)
    (hword : Argument.number word ∈ arguments) : HasNumber parts word

/-- Strict code and other code have the same tokens. -/
def ReadsAlike (source : String) (ts : List Script.Token) : Prop :=
  tokens source.toList = some ts ∧ strictTokens source.toList = some ts

/-- The tokens of an argument; those of a number have its value. -/
def Argument.Passed (argument : Argument) (run : List Script.Token) : Prop :=
  argument.run? = some run ∧ ∀ word, argument = .number word → Denotes run (numberValue word.toList)

theorem HasNumber.isNumber {parts : List Part} {word : String} (h : HasNumber parts word)
    (hparts : ∀ part ∈ parts, part.WellFormed) : isNumber word.toList := by
  obtain ⟨hcall, hword⟩ := h
  exact hparts _ hcall _ hword

/-- A number without a zero too many is read alike, as a number of its value. -/
theorem exists_readsAlike {word : List Char} (hword : isNumber word)
    (hzero : hasExtraZero word = false) :
    ∃ run, tokens word = some run ∧ strictTokens word = some run ∧
      Denotes run (numberValue word) ∧
      ∀ (read : Reader) [IsReader read], ReadsAsNumber read word run := by
  obtain ⟨run, hdenotes, hread⟩ := exists_denotes hword hzero
  have hloose := (hread readLooseToken).2.2 [] (.inl rfl)
  have hstrict := (hread readToken).2.2 [] (.inl rfl)
  rw [List.append_nil] at hloose hstrict
  exact ⟨run, hloose.tokens_eq, hstrict.tokensBy_eq, hdenotes, hread⟩

/-- Without zeros too many a part is read by every reader. -/
theorem readable_of_noExtraZero {parts : List Part} (hparts : ∀ part ∈ parts, part.WellFormed)
    (hzero : ∀ word, HasNumber parts word → hasExtraZero word.toList = false) (read : Reader)
    [IsReader read] : ∀ part ∈ parts, part.Readable read := by
  intro part hpart
  cases part with
  | text value => trivial
  | subst value =>
      cases value with
      | param path => trivial
      | call function arguments offset =>
          intro argument hargument
          cases argument with
          | number word =>
              have hword : HasNumber parts word := .mk hpart hargument
              obtain ⟨run, hrun, -, -, hread⟩ :=
                exists_readsAlike (hword.isNumber hparts) (hzero word hword)
              exact ⟨run, hrun, hread read⟩
          | _ => trivial

/-- The arguments of a call are passed one by one. -/
theorem exists_passed {arguments : List Argument} (harguments : ∀ a ∈ arguments, a.WellFormed)
    (hzero : ∀ word, Argument.number word ∈ arguments → hasExtraZero word.toList = false) :
    ∃ runs, arguments.mapM Argument.run? = some runs ∧
      List.Forall₂ Argument.Passed arguments runs := by
  induction arguments with
  | nil => exact ⟨[], rfl, .nil⟩
  | cons argument arguments ih =>
      obtain ⟨runs, hruns, hpassed⟩ := ih (fun a ha => harguments a (List.mem_cons_of_mem _ ha))
        fun word hword => hzero word (List.mem_cons_of_mem _ hword)
      have hfirst : ∃ run, argument.Passed run := by
        have hargument := harguments argument (by simp)
        cases argument with
        | number word =>
            obtain ⟨run, hrun, -, hdenotes, -⟩ :=
              exists_readsAlike hargument (hzero word (by simp))
            refine ⟨run, hrun, fun other heq => ?_⟩
            cases heq
            exact hdenotes
        | param path => exact ⟨_, rfl, nofun⟩
        | text value => exact ⟨_, rfl, nofun⟩
      obtain ⟨run, hrun⟩ := hfirst
      refine ⟨run :: runs, ?_, .cons hrun hpassed⟩
      simp [List.mapM_cons, hrun.1, hruns]

/-- A compiled template without zeros too many is read alike. -/
theorem readsAlike_compileParts {parts : List Part} (hparts : ∀ part ∈ parts, part.WellFormed)
    (hzero : ∀ word, HasNumber parts word → hasExtraZero word.toList = false) {output : String}
    (h : Compactor.localized.compileParts parts = .ok output) : ∃ ts, ReadsAlike output ts := by
  cases hplain : plainText? parts with
  | some text =>
      obtain ⟨values, rfl, -⟩ := plainText?_eq_some hplain
      exact ⟨_, compileParts_text h, tokensBy_compileParts_text h⟩
  | none =>
      obtain ⟨value, hvalue⟩ := exists_mem_subst hplain
      obtain ⟨-, operands, -, hoperands, hstrict, -⟩ :=
        tokensBy_compileParts hparts (readable_of_noExtraZero hparts hzero readToken) hvalue h
      obtain ⟨-, others, -, hothers, hloose, -⟩ := tokensBy_compileParts hparts
        (readable_of_noExtraZero hparts hzero readLooseToken) hvalue h
      obtain rfl := Option.some.inj (hoperands.symm.trans hothers)
      rw [tokensBy_readLooseToken] at hloose
      exact ⟨_, hloose, hstrict⟩

/-- **The numbers of a template keep their values.**  A number is read in strict code exactly if it
has no zero too many.  Then strict code and other code read it alike, as the value nearest to it.
And a compiled template without such zeros is read alike: it returns the sum of its parts, and its
calls get the values of the numbers among their arguments. -/
theorem numbers_kept {template : String} {parts : List Part} (hparse : parse template = .ok parts) :
    (∀ word, HasNumber parts word →
      ((∃ run, strictTokens (Argument.number word).expression.toList = some run) ↔
        hasExtraZero word.toList = false) ∧
      (hasExtraZero word.toList = false →
        ∃ run, ReadsAlike (Argument.number word).expression run ∧
          Denotes run (numberValue word.toList))) ∧
    ∀ output, Compactor.localized.compact template = .ok output →
      (∀ word, HasNumber parts word → hasExtraZero word.toList = false) →
        (∃ ts, ReadsAlike output ts) ∧
        ((∃ value, Part.subst value ∈ parts) → ReturnsSum parts output) ∧
        ∀ function arguments offset, Part.subst (.call function arguments offset) ∈ parts →
          ∃ runs, (Part.subst (.call function arguments offset)).operand? =
              some (.call (calleeOf function) (runs ++ contextOf function)) ∧
            List.Forall₂ Argument.Passed arguments runs := by
  have hparts := parse_wellFormed hparse
  constructor
  · intro word hword
    have hnumber := hword.isNumber hparts
    refine ⟨⟨?_, fun hzero => ?_⟩, fun hzero => ?_⟩
    · rintro ⟨run, hrun⟩
      refine Bool.eq_false_iff.2 fun hzero => ?_
      exact nomatch hrun.symm.trans (strictTokens_eq_none hnumber hzero)
    · obtain ⟨run, -, hstrict, -⟩ := exists_readsAlike hnumber hzero
      exact ⟨run, hstrict⟩
    · obtain ⟨run, hloose, hstrict, hdenotes, -⟩ := exists_readsAlike hnumber hzero
      exact ⟨run, ⟨hloose, hstrict⟩, hdenotes⟩
  · intro output hcompact hzero
    obtain ⟨found, hfound, houtput⟩ := bind_eq_ok.1 hcompact
    obtain rfl := Except.ok.inj (hparse.symm.trans hfound)
    refine ⟨readsAlike_compileParts hparts hzero houtput, ?_, ?_⟩
    · rintro ⟨value, hvalue⟩
      exact compileParts_function hparts hvalue houtput
    · intro function arguments offset hcall
      obtain ⟨runs, hruns, hpassed⟩ := exists_passed (hparts _ hcall)
        fun word hword => hzero word (.mk hcall hword)
      exact ⟨runs, by simp [Part.operand?, hruns], hpassed⟩

/-- A template of a call with a number before its texts. -/
def templateWith (word : String) : String :=
  "\x7bplural " ++ word ++ " \"a\" \"b\" \"c\"\x7d"

/-- The part of such a template. -/
def callWith (word : String) : Part :=
  .subst (.call "plural" [.number word, .text "a", .text "b", .text "c"] 0)

/-- What such a template is compiled to. -/
def functionWith (word : String) : String :=
  "function(params) \x7b return \"\" + i18n.plural(" ++ word ++ ", \"a\", \"b\", \"c\"); \x7d"

theorem hasNumber_callWith {word other : String} :
    HasNumber [callWith word] other ↔ other = word := by
  constructor
  · rintro ⟨hcall, hword⟩
    cases List.mem_singleton.1 hcall
    simpa using hword
  · rintro rfl
    exact .mk List.mem_cons_self List.mem_cons_self

theorem numbers_kept_fraction :
    parse (templateWith "-0.5") = .ok [callWith "-0.5"] ∧
      (∃ run, ReadsAlike "-0.5" run ∧ Denotes run (-(1 / 2))) ∧
      ∃ ts, ReadsAlike (functionWith "-0.5") ts := by
  have hparse : parse (templateWith "-0.5") = .ok [callWith "-0.5"] := by decide +kernel
  obtain ⟨hnumbers, houtput⟩ := numbers_kept hparse
  have hvalue : numberValue "-0.5".toList = -(1 / 2) := by
    have hchars : "-0.5".toList = ['-', '0', '.', '5'] := by decide
    have hdigits : Decimal.extendValue 0 ['0', '5'] = 5 := by decide
    have hwritten : writtenValue ['0'] ['5'] 0 = 1 / 2 := by norm_num [writtenValue, hdigits]
    rw [hchars, numberValue, ← hwritten]
    rfl
  refine ⟨hparse, ?_, ?_⟩
  · obtain ⟨run, hread, hdenotes⟩ := (hnumbers _ (hasNumber_callWith.2 rfl)).2 (by decide)
    exact ⟨run, hread, hvalue ▸ hdenotes⟩
  · refine (houtput _ (by decide +kernel) fun word hword => ?_).1
    rw [hasNumber_callWith.1 hword]
    decide

theorem Denotes.nearest {value : Binary64} {x : ℚ} (h : Denotes [.number value] x) :
    value.Nearest x := by
  cases h
  assumption

/-- **A zero too many changes the number**: strict code refuses it, and other code reads ten as
eight. -/
theorem numbers_not_kept :
    parse (templateWith "010") = .ok [callWith "010"] ∧
      Compactor.localized.compact (templateWith "010") = .ok (functionWith "010") ∧
      strictTokens "010".toList = none ∧
      ∃ run, tokens "010".toList = some run ∧ numberValue "010".toList = 10 ∧ ¬Denotes run 10 := by
  have hchars : "010".toList = ['0', '1', '0'] := by decide
  have hvalue : numberValue ['0', '1', '0'] = 10 := by
    have hdigits : Decimal.extendValue 0 ['0', '1', '0'] = 10 := by decide
    have hwritten : writtenValue ['0', '1', '0'] [] 0 = 10 := by norm_num [writtenValue, hdigits]
    rw [numberValue, ← hwritten]
    · rfl
    · nofun
  have hrun : tokens ['0', '1', '0'] = some [.number (.ofDigits 8 [0, 1, 0])] := by
    have hdigits : AreDigits ['1', '0'] := ⟨List.cons_ne_nil _ _, by decide⟩
    have hlegacy : Begins readLooseToken (['0', '1', '0'] ++ ([] ++ [])) _ [] :=
      begins_legacy hdigits (.inl rfl) (.inl rfl)
    exact hlegacy.tokens_eq
  refine ⟨by decide +kernel, by decide +kernel, strictTokens_eq_none (by decide) (by decide), ?_⟩
  rw [hchars]
  refine ⟨_, hrun, hvalue, fun hdenotes => ?_⟩
  have hten : (Binary64.ofDigits 8 [0, 1, 0]).Nearest (10 : Nat) := hdenotes.nearest
  exact absurd (Decimal.whole?_of_nearest (by norm_num) hten) (by decide +kernel)

end KeysetBundle.Template
