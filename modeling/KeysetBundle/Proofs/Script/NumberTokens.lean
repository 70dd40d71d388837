import KeysetBundle.Proofs.Script.Tokens

/-!
# Numbers of templates as tokens

A number of a template is spelled with digits and at most one point.  In code
that is not strict such a spelling always reads as tokens of numbers, behind
a minus sign of its own if it starts with one, and the reading stops at the
comma or parenthesis behind it (`begins_number`).

A spelling that starts with a zero and another digit may be an octal number,
and its fraction is then a token of its own.  Any other is read as one decimal,
by every reader (`begins_decimal`).
-/

namespace KeysetBundle.Script

open KeysetBundle.Decimal (toNat_of_isDigit)
open KeysetBundle.Template (isDigits isNumber isUnsignedNumber)
open KeysetBundle.Text

/-! ## Spellings -/

/-- One or more digits. -/
def AreDigits (ds : List Char) : Prop := ds ≠ [] ∧ ds.all Char.isDigit = true

/-- Nothing, or a point and digits. -/
def IsFraction (cs : List Char) : Prop := cs = [] ∨ ∃ ds, AreDigits ds ∧ cs = '.' :: ds

/-- Nothing, or a comma or closing parenthesis: what may follow an argument. -/
def EndsArgument (rest : List Char) : Prop :=
  rest = [] ∨ ∃ after, rest = ',' :: after ∨ rest = ')' :: after

/-- A number without a sign is digits with a fraction. -/
theorem spelling_of_isUnsignedNumber {word : List Char} (h : isUnsignedNumber word) :
    ∃ whole fraction, word = whole ++ fraction ∧ AreDigits whole ∧ IsFraction fraction := by
  refine ⟨word.takeWhile Char.isDigit, word.dropWhile Char.isDigit,
    List.takeWhile_append_dropWhile.symm, ?_⟩
  have hdigits : ∀ {ds : List Char}, isDigits ds → AreDigits ds := by
    intro ds hds
    simp only [isDigits, Bool.and_eq_true, Bool.not_eq_true', List.isEmpty_eq_false_iff] at hds
    exact hds
  simp only [isUnsignedNumber] at h
  split at h
  · rename_i heq
    exact ⟨hdigits h, .inl heq⟩
  · rename_i fraction heq
    simp only [Bool.and_eq_true] at h
    exact ⟨hdigits h.1, .inr ⟨fraction, hdigits h.2, heq⟩⟩
  · cases h

theorem startsWithDigit_of_areDigits {ds : List Char} (h : AreDigits ds) (rest : List Char) :
    startsWithDigit (ds ++ rest) = true := by
  obtain ⟨hne, hall⟩ := h
  cases ds with
  | nil => exact absurd rfl hne
  | cons d ds =>
      simp only [List.all_cons, Bool.and_eq_true] at hall
      exact hall.1

/-- What may follow the digits of a whole part. -/
theorem fraction_append_cases {fraction rest : List Char} (hfraction : IsFraction fraction)
    (hrest : EndsArgument rest) :
    fraction ++ rest = [] ∨
      ∃ c after, fraction ++ rest = c :: after ∧ (c = '.' ∨ c = ',' ∨ c = ')') := by
  rcases hfraction with rfl | ⟨ds, _, rfl⟩
  · rcases hrest with rfl | ⟨after, rfl | rfl⟩
    · exact .inl rfl
    · exact .inr ⟨',', after, rfl, by simp⟩
    · exact .inr ⟨')', after, rfl, by simp⟩
  · exact .inr ⟨'.', ds ++ rest, rfl, by simp⟩

/-! ## The readers of numbers -/

/-- Digits are read up to the first character that is neither a digit nor a separator. -/
theorem readDigits_append {ds rest : List Char} (hds : AreDigits ds)
    (hdigit : startsWithDigit rest = false) (hmark : rest.head? ≠ some '_') :
    readDigits Char.isDigit (ds ++ rest) = some (ds, rest) := by
  obtain ⟨hne, hall⟩ := hds
  induction ds with
  | nil => exact absurd rfl hne
  | cons d ds ih =>
      simp only [List.all_cons, Bool.and_eq_true] at hall
      obtain ⟨hd, hds⟩ := hall
      cases ds with
      | nil =>
          cases rest with
          | nil => simp [readDigits, hd]
          | cons c rest =>
              have hc : c ≠ '_' := fun h => hmark (by simp [h])
              have hc' : c.isDigit = false := hdigit
              simp [readDigits, hd, hc, hc']
      | cons e es =>
          have he : e.isDigit = true := by
            simp only [List.all_cons, Bool.and_eq_true] at hds
            exact hds.1
          have hmark' : e ≠ '_' := by
            rintro rfl
            exact absurd he (by decide)
          have hrec := ih (by simp) hds
          rw [List.cons_append, List.cons_append, readDigits]
          · rw [if_pos hd]
            simp only [he, if_true]
            rw [← List.cons_append, hrec]
            rfl
          · intro rest' heq
            exact hmark' (List.cons.inj heq).1

theorem readExponent_of_endsArgument {rest : List Char} (hrest : EndsArgument rest) :
    readExponent rest = some (0, rest) := by
  rcases hrest with rfl | ⟨after, rfl | rfl⟩ <;> rfl

theorem startsWithDigit_of_endsArgument {rest : List Char} (hrest : EndsArgument rest) :
    startsWithDigit rest = false := by
  rcases hrest with rfl | ⟨after, rfl | rfl⟩ <;> rfl

theorem head?_of_endsArgument {rest : List Char} (hrest : EndsArgument rest) :
    rest.head? ≠ some '_' := by
  rcases hrest with rfl | ⟨after, rfl | rfl⟩ <;> simp

theorem startsWithNamePart_of_endsArgument {rest : List Char} (hrest : EndsArgument rest) :
    startsWithNamePart rest = false := by
  rcases hrest with rfl | ⟨after, rfl | rfl⟩
  · rfl
  · exact startsWithNamePart_of_mem (by simp) after
  · exact startsWithNamePart_of_mem (by simp) after

/-- The digits of a fraction. -/
def fractionDigits (fraction : List Char) : List Char := fraction.drop 1

/-- A fraction belongs to the decimal before it. -/
theorem readDecimalTail_append (whole : List Char) {fraction rest : List Char}
    (hfraction : IsFraction fraction) (hrest : EndsArgument rest) :
    readDecimalTail whole (fraction ++ rest) =
      some (.number (decimalNumber whole (fractionDigits fraction) 0), rest) := by
  have hexponent := readExponent_of_endsArgument hrest
  rcases hfraction with rfl | ⟨ds, hds, rfl⟩
  · rcases hrest with rfl | ⟨after, rfl | rfl⟩ <;> rfl
  · have hdigits : readFraction (ds ++ rest) = some (ds, rest) := by
      rw [readFraction, if_pos (startsWithDigit_of_areDigits hds rest)]
      exact readDigits_append hds (startsWithDigit_of_endsArgument hrest)
        (head?_of_endsArgument hrest)
    simp [readDecimalTail, hdigits, hexponent, fractionDigits]

/-! ## Numbers -/

variable {read : Reader} [IsReader read]

theorem startsToken_of_isDigit {c : Char} (h : c.isDigit) : startsToken c := by
  have hrange := toNat_of_isDigit h
  have hne : ∀ d : Char, d.isDigit = false → c ≠ d := by
    rintro d hd rfl
    rw [hd] at h
    cases h
  have hwide := not_wide_of_lt (show c.toNat < 128 by omega)
  simp [startsToken, isLineTerminator, isSpace, hne, hwide]

/-- A character that starts a number is read as one, strict or not. -/
theorem readToken_eq {c : Char} {rest : List Char}
    (hc : c.isDigit ∨ c = '.' ∧ startsWithDigit rest) :
    readToken (c :: rest) =
      match readNumber (c :: rest) with
      | some (token, after) =>
        if startsWithNamePart after then .error .invalidNumber else .ok (token, after)
      | none => .error .invalidNumber := by
  have hstart : ¬(isIdentifierStart c.toNat || decide (c = '\\')) = true := by
    rcases hc with hc | ⟨rfl, _⟩
    · have hrange := toNat_of_isDigit hc
      have hname := not_isIdentifierStart (.inr (.inr (.inr hrange)))
      have hslash : c ≠ '\\' := by
        rintro rfl
        exact absurd hc (by decide)
      simp [hname, hslash]
    · have hname : isIdentifierStart 46 = false := not_isIdentifierStart (by simp)
      simp [hname]
  have hquote : ¬(c = '"' ∨ c = '\'') := by
    rcases hc with hc | ⟨rfl, _⟩
    · rintro (rfl | rfl) <;> exact absurd hc (by decide)
    · decide
  have hback : c ≠ '\x60' := by
    rcases hc with hc | ⟨rfl, _⟩
    · rintro rfl
      exact absurd hc (by decide)
    · decide
  rw [readToken, if_neg hstart, if_neg hquote, if_neg hback]
  exact if_pos hc

theorem readToken_number {c : Char} {rest after : List Char} {token : Token}
    (hc : c.isDigit ∨ c = '.' ∧ startsWithDigit rest)
    (hread : readNumber (c :: rest) = some (token, after))
    (hafter : startsWithNamePart after = false) :
    readToken (c :: rest) = .ok (token, after) := by
  rw [readToken_eq hc, hread]
  simp [hafter]

/-- Strict code has no number that starts with a zero and another digit. -/
theorem readToken_of_zero {rest : List Char} (h : startsWithDigit rest) :
    readToken ('0' :: rest) = .error .invalidNumber := by
  have hnone : readNumber ('0' :: rest) = none := by
    cases rest with
    | nil => cases h
    | cons d ds =>
        have hd : d.isDigit = true := h
        have hbase : baseOf? d = none := by
          unfold baseOf?
          have hne : ∀ c : Char, c.isDigit = false → d ≠ c := by
            rintro c hc rfl
            rw [hc] at hd
            cases hd
          simp [hne]
        unfold readNumber
        simp only [hbase, hd, true_or, if_true]
  rw [readToken_eq (.inl (by decide)), hnone]

/-- What follows the digits of a whole part is neither a digit nor a separator, and no part of a
name. -/
theorem head_fraction_append {fraction rest : List Char} (hfraction : IsFraction fraction)
    (hrest : EndsArgument rest) :
    startsWithDigit (fraction ++ rest) = false ∧ (fraction ++ rest).head? ≠ some '_' ∧
      startsWithNamePart (fraction ++ rest) = false := by
  rcases hfraction with rfl | ⟨ds, _, rfl⟩
  · exact ⟨startsWithDigit_of_endsArgument hrest, head?_of_endsArgument hrest,
      startsWithNamePart_of_endsArgument hrest⟩
  · exact ⟨rfl, by simp, startsWithNamePart_of_mem (by simp) _⟩

/-- The token of a decimal. -/
def decimalToken (whole fraction : List Char) : Token :=
  .number (decimalNumber whole (fractionDigits fraction) 0)

/-- Whether digits start with a zero that is not all of them. -/
def startsWithZero : List Char → Bool
  | '0' :: rest => startsWithDigit rest
  | _ => false

/-- A zero that starts digits alone is all of them. -/
theorem eq_nil_of_startsWithZero {cs : List Char} (hwhole : AreDigits ('0' :: cs))
    (hzero : startsWithZero ('0' :: cs) = false) : cs = [] := by
  cases cs with
  | nil => rfl
  | cons d ds =>
      have hall := hwhole.2
      simp only [List.all_cons, Bool.and_eq_true] at hall
      exact absurd (hall.2.1.symm.trans hzero) nofun

/-- A decimal is read up to the end of its fraction, if its whole part is a zero or does not start
with one. -/
theorem readNumber_decimal {whole fraction rest : List Char} (hwhole : AreDigits whole)
    (hzero : startsWithZero whole = false) (hfraction : IsFraction fraction)
    (hrest : EndsArgument rest) :
    readNumber (whole ++ (fraction ++ rest)) = some (decimalToken whole fraction, rest) := by
  obtain ⟨hdigit, hmark, _⟩ := head_fraction_append hfraction hrest
  have hdigits := readDigits_append hwhole hdigit hmark
  have htail := readDecimalTail_append whole hfraction hrest
  cases whole with
  | nil => exact absurd rfl hwhole.1
  | cons c cs =>
      by_cases hc : c = '0'
      · -- nothing but the zero stands before the fraction
        subst hc
        obtain rfl := eq_nil_of_startsWithZero hwhole hzero
        rcases fraction_append_cases hfraction hrest with heq | ⟨c, after, heq, hc⟩
        · rw [heq] at htail ⊢
          exact htail
        · rw [heq] at htail ⊢
          rcases hc with rfl | rfl | rfl <;> exact htail
      · have hd : c.isDigit = true := startsWithDigit_of_areDigits hwhole []
        unfold readNumber
        split
        · rename_i heq
          obtain ⟨rfl, rfl⟩ := List.cons.inj heq
          exact absurd hd (by decide)
        · rename_i heq
          exact absurd (List.cons.inj heq).1 hc
        · rw [hdigits]
          exact htail

/-- **A decimal is one token**, unless its whole part starts with a zero and another digit. -/
theorem begins_decimal {whole fraction rest : List Char} (hwhole : AreDigits whole)
    (hzero : startsWithZero whole = false) (hfraction : IsFraction fraction)
    (hrest : EndsArgument rest) :
    Begins read (whole ++ (fraction ++ rest)) [decimalToken whole fraction] rest := by
  have hnumber := readNumber_decimal hwhole hzero hfraction hrest
  have hdigit := (head_fraction_append hfraction hrest).1
  cases whole with
  | nil => exact absurd rfl hwhole.1
  | cons c cs =>
      have hd : c.isDigit = true := startsWithDigit_of_areDigits hwhole []
      have hstart : c ≠ '0' ∨ startsWithDigit (cs ++ (fraction ++ rest)) = false := by
        by_cases hc : c = '0'
        · subst hc
          obtain rfl := eq_nil_of_startsWithZero hwhole hzero
          exact .inr hdigit
        · exact .inl hc
      refine Begins.of_read (startsToken_of_isDigit hd) ?_ ?_
      · exact (IsReader.read_eq hstart).trans
          (readToken_number (.inl hd) hnumber (startsWithNamePart_of_endsArgument hrest))
      · simp only [List.append_eq, List.length_append]
        omega

/-- A point and digits behind an octal number are a number of their own. -/
theorem begins_fraction {ds rest : List Char} (hds : AreDigits ds) (hrest : EndsArgument rest) :
    Begins read ('.' :: (ds ++ rest)) [.number (decimalNumber [] ds 0)] rest := by
  have hdigits := readDigits_append hds (startsWithDigit_of_endsArgument hrest)
    (head?_of_endsArgument hrest)
  have hnumber : readNumber ('.' :: (ds ++ rest)) =
      some (.number (decimalNumber [] ds 0), rest) := by
    simp [readNumber, hdigits, readExponent_of_endsArgument hrest]
  refine Begins.of_read (by decide) ?_ ?_
  · rw [read_of_ne_zero read (by decide)]
    exact readToken_number (.inr ⟨rfl, startsWithDigit_of_areDigits hds rest⟩) hnumber
      (startsWithNamePart_of_endsArgument hrest)
  · simp only [List.length_append]
    omega

/-- The tokens of a number whose whole part starts with a zero and another digit. -/
def legacyTokens (whole fraction : List Char) : List Token :=
  if whole.all isOctalDigit then
    .number (.ofDigits 8 (whole.filterMap hexDigitValue?)) ::
      (if fraction = [] then [] else [.number (decimalNumber [] (fractionDigits fraction) 0)])
  else [decimalToken whole fraction]

theorem takeWhile_digits_append {whole rest : List Char} (hwhole : whole.all Char.isDigit)
    (hrest : startsWithDigit rest = false) :
    (whole ++ rest).takeWhile Char.isDigit = whole ∧
      (whole ++ rest).dropWhile Char.isDigit = rest := by
  have hall : ∀ c ∈ whole, c.isDigit = true := List.all_eq_true.1 hwhole
  rw [List.takeWhile_append_of_pos hall, List.dropWhile_append_of_pos hall]
  cases rest with
  | nil => simp
  | cons c rest =>
      have hc : c.isDigit = false := hrest
      simp [hc]

/-- A number whose whole part starts with a zero and another digit. -/
theorem begins_legacy {cs fraction rest : List Char} (hcs : AreDigits cs)
    (hfraction : IsFraction fraction) (hrest : EndsArgument rest) :
    Begins readLooseToken ('0' :: cs ++ (fraction ++ rest)) (legacyTokens ('0' :: cs) fraction)
      rest := by
  obtain ⟨hdigit, hmark, hname⟩ := head_fraction_append hfraction hrest
  have hwhole : ('0' :: cs).all Char.isDigit = true := by simpa using hcs.2
  obtain ⟨htake, hdrop⟩ := takeWhile_digits_append hwhole hdigit
  have hstart : startsWithDigit (cs ++ (fraction ++ rest)) = true :=
    startsWithDigit_of_areDigits hcs _
  have hloose : readLooseToken ('0' :: (cs ++ (fraction ++ rest))) =
      readLegacyNumber ('0' :: (cs ++ (fraction ++ rest))) := by
    unfold readLooseToken
    simp only [hstart, if_true]
  rw [← List.cons_append] at hloose
  unfold legacyTokens
  split
  · rename_i hoctal
    have hread : readLegacyNumber ('0' :: cs ++ (fraction ++ rest)) =
        .ok (.number (.ofDigits 8 (('0' :: cs).filterMap hexDigitValue?)), fraction ++ rest) := by
      unfold readLegacyNumber
      simp only [htake, hdrop, hoctal, if_true, hname]
      simp
    have hfirst := Begins.of_read (by decide) (hloose.trans hread)
      (by simp only [List.append_eq, List.length_append]; omega)
    rcases hfraction with rfl | ⟨ds, hds, rfl⟩
    · simpa using hfirst
    · exact hfirst.append (begins_fraction hds hrest)
  · rename_i hoctal
    have hread : readLegacyNumber ('0' :: cs ++ (fraction ++ rest)) =
        .ok (decimalToken ('0' :: cs) fraction, rest) := by
      unfold readLegacyNumber
      simp only [htake, hdrop, if_neg hoctal, readDecimalTail_append _ hfraction hrest,
        startsWithNamePart_of_endsArgument hrest]
      simp [decimalToken]
    exact Begins.of_read (by decide) (hloose.trans hread)
      (by simp only [List.append_eq, List.length_append]; omega)

/-- A number or the sign before one. -/
def isNumberToken : Token → Bool
  | .number _ => true
  | .punctuator .minus => true
  | _ => false

/-- Tokens that a spelling reads as, whatever follows it behind a comma or parenthesis. -/
def ReadsAsNumber (read : Reader) (word : List Char) (ts : List Token) : Prop :=
  ts ≠ [] ∧ ts.all isNumberToken ∧
    ∀ rest, EndsArgument rest → Begins read (word ++ rest) ts rest

theorem readsAsNumber_unsigned {word : List Char} (hword : isUnsignedNumber word) :
    ∃ ts, ReadsAsNumber readLooseToken word ts := by
  obtain ⟨whole, fraction, rfl, hwhole, hfraction⟩ := spelling_of_isUnsignedNumber hword
  by_cases hzero : startsWithZero whole = false
  · refine ⟨[decimalToken whole fraction], by simp, rfl, fun rest hrest => ?_⟩
    rw [List.append_assoc]
    exact begins_decimal hwhole hzero hfraction hrest
  · unfold startsWithZero at hzero
    split at hzero
    · rename_i cs
      have hcs : AreDigits cs := by
        refine ⟨?_, (Bool.and_eq_true _ _ ▸ hwhole.2).2⟩
        rintro rfl
        exact hzero rfl
      refine ⟨legacyTokens ('0' :: cs) fraction, ?_, ?_, fun rest hrest => ?_⟩
      · unfold legacyTokens
        split <;> simp
      · unfold legacyTokens
        split
        · split <;> rfl
        · rfl
      · rw [List.append_assoc]
        exact begins_legacy hcs hfraction hrest
    · exact absurd rfl hzero

/-- A minus sign is a token of its own before the ones of a number. -/
theorem ReadsAsNumber.minus {word : List Char} {ts : List Token}
    (hword : isUnsignedNumber word) (h : ReadsAsNumber read word ts) :
    ReadsAsNumber read ('-' :: word) (.punctuator .minus :: ts) := by
  obtain ⟨-, hnumbers, hts⟩ := h
  obtain ⟨whole, fraction, rfl, hwhole, -⟩ := spelling_of_isUnsignedNumber hword
  cases whole with
  | nil => exact absurd rfl hwhole.1
  | cons c cs =>
      have hc : c.isDigit = true := startsWithDigit_of_areDigits hwhole []
      refine ⟨by simp, by simpa [isNumberToken] using hnumbers, fun rest hrest => ?_⟩
      exact (begins_minus hc _).append (hts rest hrest)

/-- **A number of a template reads as numbers**, which do not depend on the
comma or parenthesis behind it. -/
theorem begins_number {word : List Char} (hword : isNumber word) :
    ∃ ts, ReadsAsNumber readLooseToken word ts := by
  unfold isNumber at hword
  split at hword
  · obtain ⟨ts, hts⟩ := readsAsNumber_unsigned hword
    exact ⟨_, hts.minus hword⟩
  · exact readsAsNumber_unsigned hword

end KeysetBundle.Script
