import Mathlib.Data.List.Forall2
import KeysetBundle.Template.Parser

/-!
# The grammar of templates

A template is a sequence of characters, of characters behind a backslash, and
of substitutions in braces.  Between braces stand tokens with blanks around
them: quoted texts and runs, where a run goes as far as it can.  What follows
keeps all that is written (`Item.chars` gives it back) and says which sequences
are templates and what they stand for (`Derives`), without regard to how they
are read.

Main results.

- `AreTokens.unique`: the tokens between braces are determined by the text.
- `Derives.unique`: so is the whole derivation.
-/

namespace KeysetBundle.Template

open KeysetBundle.Text (isBlank)

/-! ## Characters -/

/-- A character as it is written: by itself or behind a backslash. -/
inductive Mark
  /-- A character that stands by itself. -/
  | plain (c : Char)
  /-- A character behind a backslash. -/
  | escaped (c : Char)
  deriving DecidableEq, Repr

namespace Mark

/-- What is written. -/
def chars : Mark → List Char
  | .plain c => [c]
  | .escaped c => ['\\', c]

/-- The character of a text outside braces. -/
def value : Mark → Char
  | .plain c => c
  | .escaped c => c

/-- The character of a quoted text, where some escapes stand for another character. -/
def quotedValue : Mark → Char
  | .plain c => c
  | .escaped c => unescape c

/-- Outside braces backslashes and braces do not stand by themselves. -/
def IsText : Mark → Prop
  | .plain c => c ≠ '\\' ∧ c ≠ '{' ∧ c ≠ '}'
  | .escaped _ => True

/-- In a quoted text neither the backslash nor the quote stands by itself. -/
def IsQuoted (quote : Char) : Mark → Prop
  | .plain c => c ≠ '\\' ∧ c ≠ quote
  | .escaped _ => True

end Mark

/-! ## Tokens -/

/-- A token as it is written. -/
inductive Lexeme
  /-- A text between two quotes of one kind. -/
  | quoted (quote : Char) (marks : List Mark)
  /-- A run of characters. -/
  | run (word : List Char)
  deriving DecidableEq, Repr

/-- `-?[0-9]+(\.[0-9]+)?` -/
def IsNumeral (word : List Char) : Prop :=
  ∃ sign whole fraction, word = sign ++ whole ++ fraction ∧ (sign = [] ∨ sign = ['-']) ∧
    isDigits whole ∧ (fraction = [] ∨ ∃ digits, isDigits digits ∧ fraction = '.' :: digits)

/-- A run that starts with a digit or with `-` has to be a number. -/
def StartsNumeral (c : Char) : Prop := c.isDigit ∨ c = '-'

namespace Lexeme

/-- What is written. -/
def chars : Lexeme → List Char
  | .quoted quote marks => quote :: marks.flatMap Mark.chars ++ [quote]
  | .run word => word

/-- Whether a token has no quotes. -/
def IsRun : Lexeme → Prop
  | .quoted .. => False
  | .run _ => True

/-- What a token may be: a quoted text, a number, or a run that starts like a word. -/
inductive IsValid : Lexeme → Prop
  /-- A text between two quotes. -/
  | quoted {quote : Char} {marks : List Mark} (hquote : quote = '"' ∨ quote = '\'')
      (hmarks : ∀ mark ∈ marks, mark.IsQuoted quote) : IsValid (.quoted quote marks)
  /-- A number. -/
  | number {c : Char} {rest : List Char} (hword : ∀ x ∈ c :: rest, isWordChar x)
      (hstart : StartsNumeral c) (hnumeral : IsNumeral (c :: rest)) : IsValid (.run (c :: rest))
  /-- A word. -/
  | word {c : Char} {rest : List Char} (hword : ∀ x ∈ c :: rest, isWordChar x)
      (hnumber : ¬StartsNumeral c) (hstart : isWordStart c) : IsValid (.run (c :: rest))

end Lexeme

/-- Tokens, each with the blanks before it, as they are written. -/
def tokenChars (tokens : List (List Char × Lexeme)) : List Char :=
  tokens.flatMap fun token => token.1 ++ token.2.chars

/-- Tokens with blanks before each of them and behind the last one. -/
structure AreTokens (tokens : List (List Char × Lexeme)) (last : List Char) : Prop where
  /-- Each of them is one. -/
  valid : ∀ token ∈ tokens, token.2.IsValid
  /-- Only blanks are before them. -/
  blank : ∀ token ∈ tokens, ∀ c ∈ token.1, isBlank c
  /-- Only blanks are behind them. -/
  blankLast : ∀ c ∈ last, isBlank c
  /-- No run goes on with the next one. -/
  maximal : tokens.IsChain fun token next => token.2.IsRun → next.2.IsRun → next.1 ≠ []

/-! ## Substitutions -/

/-- A word that is names joined by dots. -/
def IsPath (word : List Char) (segments : List (List Char)) : Prop :=
  segments ≠ [] ∧ (∀ segment ∈ segments, isName segment) ∧
    word = ['.'].intercalate segments

/-- The path with the given names. -/
def pathOf (segments : List (List Char)) : ParamPath := ⟨segments.map String.ofList⟩

/-- The argument that a token stands for. -/
inductive IsArgument : Lexeme → Argument → Prop
  /-- A path. -/
  | path {word : List Char} {segments : List (List Char)} (h : IsPath word segments) :
    IsArgument (.run word) (.param (pathOf segments))
  /-- A quoted text. -/
  | text (quote : Char) (marks : List Mark) :
    IsArgument (.quoted quote marks) (.text (String.ofList (marks.map Mark.quotedValue)))
  /-- A number. -/
  | number {word : List Char} (h : IsNumeral word) :
    IsArgument (.run word) (.number (String.ofList word))

/-- The substitution that tokens between braces stand for: a path, or a name with one or more
arguments. -/
inductive IsSubstitution (offset : Nat) : List Lexeme → Substitution → Prop
  /-- A path. -/
  | param {word : List Char} {segments : List (List Char)} (h : IsPath word segments) :
    IsSubstitution offset [.run word] (.param (pathOf segments))
  /-- A name with arguments. -/
  | call {name : List Char} {lexemes : List Lexeme} {arguments : List Argument}
    (hname : isName name) (hsome : lexemes ≠ [])
    (harguments : List.Forall₂ IsArgument lexemes arguments) :
    IsSubstitution offset (.run name :: lexemes) (.call (String.ofList name) arguments offset)

/-! ## Templates -/

/-- What a template consists of. -/
inductive Item
  /-- A character. -/
  | mark (m : Mark)
  /-- Tokens between braces, each with the blanks before it, and the blanks behind them. -/
  | braces (tokens : List (List Char × Lexeme)) (last : List Char)
  deriving DecidableEq, Repr

/-- What is written. -/
def Item.chars : Item → List Char
  | .mark m => m.chars
  | .braces tokens last => '{' :: (tokenChars tokens ++ last ++ ['}'])

/-- What items stand for that are written from a place on, counted in bytes. -/
inductive Derives : Nat → List Item → List Element → Prop
  /-- Nothing. -/
  | nil (offset : Nat) : Derives offset [] []
  /-- A character. -/
  | mark {offset : Nat} {m : Mark} {items : List Item} {elements : List Element} (h : m.IsText)
    (rest : Derives (offset + utf8Length m.chars) items elements) :
    Derives offset (.mark m :: items) (.char m.value :: elements)
  /-- A substitution. -/
  | braces {offset : Nat} {tokens : List (List Char × Lexeme)} {last : List Char}
    {value : Substitution} {items : List Item} {elements : List Element}
    (htokens : AreTokens tokens last)
    (hvalue : IsSubstitution offset (tokens.map Prod.snd) value)
    (rest : Derives (offset + utf8Length (Item.braces tokens last).chars) items elements) :
    Derives offset (.braces tokens last :: items) (.subst value :: elements)

/-- What is written as a template. -/
def written (items : List Item) : List Char := items.flatMap Item.chars

/-! ## Spans -/

/-- Two prefixes are the same if they have a property that what follows them does not have. -/
theorem append_cons_cancel {p : Char → Bool} {before before' : List Char} {c c' : Char}
    {after after' : List Char} (h : ∀ x ∈ before, p x) (h' : ∀ x ∈ before', p x) (hc : ¬p c)
    (hc' : ¬p c') (heq : before ++ c :: after = before' ++ c' :: after') :
    before = before' ∧ c :: after = c' :: after' := by
  have htake : ∀ {xs : List Char} {x : Char} (ys : List Char), (∀ y ∈ xs, p y) → ¬p x →
      (xs ++ x :: ys).takeWhile p = xs := by
    intro xs x ys hxs hx
    rw [List.takeWhile_append_of_pos hxs, List.takeWhile_cons_of_neg hx, List.append_nil]
  have hbefore : before = before' := by
    rw [← htake after h hc, heq, htake after' h' hc']
  subst hbefore
  exact ⟨rfl, List.append_cancel_left heq⟩

/-! ## Beginnings of tokens -/

theorem not_isBlank_of_isWordChar {c : Char} (h : isWordChar c) : ¬isBlank c := by
  simp only [isWordChar, Bool.and_eq_true, Bool.not_eq_true'] at h
  simp [h.1.1.1.1]

theorem not_isWordChar_of_isQuote {c : Char} (h : c = '"' ∨ c = '\'') : ¬isWordChar c := by
  rcases h with rfl | rfl <;> decide

theorem not_isBlank_of_isQuote {c : Char} (h : c = '"' ∨ c = '\'') : ¬isBlank c := by
  rcases h with rfl | rfl <;> decide

/-- A token starts with a character that is neither blank nor a brace. -/
theorem Lexeme.IsValid.exists_head {lexeme : Lexeme} (h : lexeme.IsValid) :
    ∃ c rest, lexeme.chars = c :: rest ∧ ¬isBlank c ∧ c ≠ '}' ∧ (lexeme.IsRun ↔ isWordChar c) := by
  cases h with
  | @quoted quote marks hquote hmarks =>
      refine ⟨quote, marks.flatMap Mark.chars ++ [quote], rfl, not_isBlank_of_isQuote hquote, ?_,
        ⟨nofun, fun h => absurd h (not_isWordChar_of_isQuote hquote)⟩⟩
      rcases hquote with rfl | rfl <;> decide
  | @number c rest hword hstart hnumeral =>
      have hc := hword c (by simp)
      refine ⟨c, rest, rfl, not_isBlank_of_isWordChar hc, ?_, ⟨fun _ => hc, fun _ => trivial⟩⟩
      rintro rfl
      exact absurd hc (by decide)
  | @word c rest hword hnumber hstart =>
      have hc := hword c (by simp)
      refine ⟨c, rest, rfl, not_isBlank_of_isWordChar hc, ?_, ⟨fun _ => hc, fun _ => trivial⟩⟩
      rintro rfl
      exact absurd hc (by decide)

theorem AreTokens.tail {token : List Char × Lexeme} {tokens : List (List Char × Lexeme)}
    {last : List Char} (h : AreTokens (token :: tokens) last) : AreTokens tokens last where
  valid := fun other hother => h.valid other (by simp [hother])
  blank := fun other hother => h.blank other (by simp [hother])
  blankLast := h.blankLast
  maximal := by
    cases h.maximal with
    | singleton => exact .nil
    | cons_cons _ htail => exact htail

/-- What follows a token goes on: with a blank, a token or the closing brace. It does not go on with
a run right behind a run. -/
theorem AreTokens.exists_rest {token : List Char × Lexeme} {tokens : List (List Char × Lexeme)}
    {last : List Char} (h : AreTokens (token :: tokens) last) (hrun : token.2.IsRun)
    (after : List Char) :
    ∃ c rest, tokenChars tokens ++ (last ++ '}' :: after) = c :: rest ∧ ¬isWordChar c := by
  have hblank : ∀ c : Char, isBlank c → ¬isWordChar c :=
    fun c hc hword => not_isBlank_of_isWordChar hword hc
  cases tokens with
  | nil =>
      cases hlast : last with
      | nil => exact ⟨'}', after, rfl, by decide⟩
      | cons c rest =>
          exact ⟨c, rest ++ '}' :: after, rfl, hblank c (h.blankLast c (by simp [hlast]))⟩
  | cons next tokens =>
      obtain ⟨gap, lexeme⟩ := next
      obtain ⟨c, rest, hchars, -, -, hword⟩ := (h.valid (gap, lexeme) (by simp)).exists_head
      cases hgap : gap with
      | nil =>
          have hnext := (List.isChain_cons_cons.1 h.maximal).1 hrun
          refine ⟨c, rest ++ (tokenChars tokens ++ (last ++ '}' :: after)), ?_, fun hc => ?_⟩
          · simp [tokenChars, hchars]
          · exact hnext (hword.2 hc) hgap
      | cons x xs =>
          refine ⟨x, xs ++ lexeme.chars ++ (tokenChars tokens ++ (last ++ '}' :: after)), ?_, ?_⟩
          · simp [tokenChars]
          · exact hblank x (h.blank (gap, lexeme) (by simp) x (by simp [hgap]))

/-! ## Uniqueness -/

/-- The characters of a quoted text are determined by what is written. -/
theorem marks_unique {quote : Char} (hquote : quote ≠ '\\') {marks marks' : List Mark}
    {after after' : List Char} (h : ∀ mark ∈ marks, mark.IsQuoted quote)
    (h' : ∀ mark ∈ marks', mark.IsQuoted quote)
    (heq : marks.flatMap Mark.chars ++ quote :: after =
      marks'.flatMap Mark.chars ++ quote :: after') :
    marks = marks' ∧ after = after' := by
  induction marks generalizing marks' with
  | nil =>
      cases marks' with
      | nil => exact ⟨rfl, (List.cons.inj heq).2⟩
      | cons mark' marks' =>
          cases mark' with
          | plain c => exact absurd (List.cons.inj heq).1.symm (h' (.plain c) (by simp)).2
          | escaped c => exact absurd (List.cons.inj heq).1 hquote
  | cons mark marks ih =>
      have hmarks : ∀ mark ∈ marks, mark.IsQuoted quote :=
        fun other hother => h other (by simp [hother])
      cases marks' with
      | nil =>
          cases mark with
          | plain c => exact absurd (List.cons.inj heq).1 (h (.plain c) (by simp)).2
          | escaped c => exact absurd (List.cons.inj heq).1.symm hquote
      | cons mark' marks' =>
          have hmarks' : ∀ mark ∈ marks', mark.IsQuoted quote :=
            fun other hother => h' other (by simp [hother])
          cases mark with
          | plain c =>
              cases mark' with
              | plain c' =>
                  obtain ⟨hc, hrest⟩ := List.cons.inj heq
                  obtain ⟨hsame, hafter⟩ := ih hmarks hmarks' hrest
                  exact ⟨by rw [hc, hsame], hafter⟩
              | escaped c' => exact absurd (List.cons.inj heq).1 (h (.plain c) (by simp)).1
          | escaped c =>
              cases mark' with
              | plain c' => exact absurd (List.cons.inj heq).1.symm (h' (.plain c') (by simp)).1
              | escaped c' =>
                  obtain ⟨hc, hrest⟩ := List.cons.inj (List.cons.inj heq).2
                  obtain ⟨hsame, hafter⟩ := ih hmarks hmarks' hrest
                  exact ⟨by rw [hc, hsame], hafter⟩

theorem Lexeme.IsValid.all_of_run {word : List Char} (h : (Lexeme.run word).IsValid) :
    ∀ c ∈ word, isWordChar c := by
  cases h with
  | number hword hstart hnumeral => exact hword
  | word hword hnumber hstart => exact hword

/-- Two tokens are the same if they stand at the same place, provided that runs end there. -/
theorem Lexeme.IsValid.unique {lexeme lexeme' : Lexeme} {after after' : List Char}
    (h : lexeme.IsValid) (h' : lexeme'.IsValid)
    (hafter : lexeme.IsRun → ∃ c rest, after = c :: rest ∧ ¬isWordChar c)
    (hafter' : lexeme'.IsRun → ∃ c rest, after' = c :: rest ∧ ¬isWordChar c)
    (heq : lexeme.chars ++ after = lexeme'.chars ++ after') :
    lexeme = lexeme' ∧ after = after' := by
  obtain ⟨c, rest, hchars, -, -, hword⟩ := h.exists_head
  obtain ⟨c', rest', hchars', -, -, hword'⟩ := h'.exists_head
  have hhead : c = c' := by
    rw [hchars, hchars'] at heq
    exact (List.cons.inj heq).1
  subst hhead
  cases lexeme with
  | quoted quote marks =>
      cases lexeme' with
      | quoted quote' marks' =>
          cases hchars
          cases hchars'
          cases h with
          | quoted hquote hmarks =>
              cases h' with
              | quoted hquote' hmarks' =>
                  have hne : c ≠ '\\' := by rcases hquote with rfl | rfl <;> decide
                  have hbody : marks.flatMap Mark.chars ++ c :: after =
                      marks'.flatMap Mark.chars ++ c :: after' := by
                    simpa [Lexeme.chars] using heq
                  obtain ⟨hsame, hrest⟩ := marks_unique hne hmarks hmarks' hbody
                  exact ⟨by rw [hsame], hrest⟩
      | run word' => exact absurd (hword.2 (hword'.1 trivial)) id
  | run word =>
      cases lexeme' with
      | quoted quote' marks' => exact absurd (hword'.2 (hword.1 trivial)) id
      | run word' =>
          obtain ⟨x, xs, rfl, hx⟩ := hafter trivial
          obtain ⟨x', xs', rfl, hx'⟩ := hafter' trivial
          obtain ⟨hsame, hrest⟩ := append_cons_cancel h.all_of_run h'.all_of_run hx hx' heq
          exact ⟨by rw [hsame], hrest⟩

/-- **The tokens between braces are determined by what is written.** -/
theorem AreTokens.unique {tokens tokens' : List (List Char × Lexeme)} {last last' : List Char}
    {after after' : List Char} (h : AreTokens tokens last) (h' : AreTokens tokens' last')
    (heq : tokenChars tokens ++ (last ++ '}' :: after) =
      tokenChars tokens' ++ (last' ++ '}' :: after')) :
    tokens = tokens' ∧ last = last' ∧ after = after' := by
  have hclose : ¬isBlank '}' := by decide
  -- blanks are followed by a token or by the closing brace
  have hcross : ∀ {token : List Char × Lexeme} {tokens : List (List Char × Lexeme)}
      {last last' after after' : List Char}, AreTokens (token :: tokens) last →
      (∀ c ∈ last', isBlank c) →
      tokenChars (token :: tokens) ++ (last ++ '}' :: after) ≠ last' ++ '}' :: after' := by
    intro token tokens last last' after after' h hlast' heq
    obtain ⟨c, rest, hchars, hblank, hne, -⟩ := (h.valid token (by simp)).exists_head
    have hwritten : tokenChars (token :: tokens) ++ (last ++ '}' :: after) =
        token.1 ++ c :: (rest ++ (tokenChars tokens ++ (last ++ '}' :: after))) := by
      simp [tokenChars, hchars]
    rw [hwritten] at heq
    obtain ⟨-, hrest⟩ := append_cons_cancel (h.blank token (by simp)) hlast' hblank hclose heq
    exact hne (List.cons.inj hrest).1
  induction tokens generalizing tokens' with
  | nil =>
      cases tokens' with
      | nil =>
          obtain ⟨hlast, hafter⟩ :=
            append_cons_cancel h.blankLast h'.blankLast hclose hclose heq
          exact ⟨rfl, hlast, (List.cons.inj hafter).2⟩
      | cons token' tokens' => exact absurd heq.symm (hcross h' h.blankLast)
  | cons token tokens ih =>
      cases tokens' with
      | nil => exact absurd heq (hcross h h'.blankLast)
      | cons token' tokens' =>
          obtain ⟨gap, lexeme⟩ := token
          obtain ⟨gap', lexeme'⟩ := token'
          have hvalid : lexeme.IsValid := h.valid (gap, lexeme) (by simp)
          have hvalid' : lexeme'.IsValid := h'.valid (gap', lexeme') (by simp)
          obtain ⟨c, rest, hchars, hblank, -, -⟩ := hvalid.exists_head
          obtain ⟨c', rest', hchars', hblank', -, -⟩ := hvalid'.exists_head
          have hwritten : gap ++ (lexeme.chars ++ (tokenChars tokens ++ (last ++ '}' :: after))) =
              gap' ++ (lexeme'.chars ++ (tokenChars tokens' ++ (last' ++ '}' :: after'))) := by
            simpa [tokenChars] using heq
          have hgaps : gap = gap' := by
            rw [hchars, hchars'] at hwritten
            exact (append_cons_cancel (h.blank (gap, lexeme) (by simp))
              (h'.blank (gap', lexeme') (by simp)) hblank hblank' hwritten).1
          subst hgaps
          obtain ⟨hlexeme, hrest⟩ := hvalid.unique hvalid' (fun hrun => h.exists_rest hrun after)
            (fun hrun => h'.exists_rest hrun after') (List.append_cancel_left hwritten)
          obtain ⟨htokens, hlast⟩ := ih h.tail h'.tail hrest
          exact ⟨by rw [hlexeme, htokens], hlast⟩

/-- **A derivation is determined by what is written.** -/
theorem Derives.unique {offset : Nat} {items items' : List Item} {elements elements' : List Element}
    (h : Derives offset items elements) (h' : Derives offset items' elements')
    (heq : written items = written items') : items = items' := by
  have hbraces : ∀ {tokens : List (List Char × Lexeme)} {last : List Char} {items : List Item},
      written (.braces tokens last :: items) =
        '{' :: (tokenChars tokens ++ (last ++ '}' :: written items)) := by
    intro tokens last items
    simp [written, Item.chars]
  induction h generalizing items' elements' with
  | nil offset =>
      cases h' with
      | nil => rfl
      | @mark offset m items elements hm hrest => cases m <;> cases heq
      | braces htokens hvalue hrest => cases heq
  | @mark offset m items elements hm hrest ih =>
      cases h' with
      | nil => cases m <;> cases heq
      | @mark offset m' items' elements' hm' hrest' =>
          -- a backslash does not stand by itself
          have hmark : m = m' ∧ written items = written items' := by
            cases m with
            | plain c =>
                cases m' with
                | plain c' =>
                    obtain ⟨hc, hsame⟩ := List.cons.inj heq
                    exact ⟨by rw [hc], hsame⟩
                | escaped c' => exact absurd (List.cons.inj heq).1 hm.1
            | escaped c =>
                cases m' with
                | plain c' => exact absurd (List.cons.inj heq).1.symm hm'.1
                | escaped c' =>
                    obtain ⟨hc, hsame⟩ := List.cons.inj (List.cons.inj heq).2
                    exact ⟨by rw [hc], hsame⟩
          obtain ⟨rfl, hsame⟩ := hmark
          rw [ih hrest' hsame]
      | braces htokens hvalue hrest' =>
          cases m with
          | plain c => exact absurd (List.cons.inj heq).1 hm.2.1
          | escaped c => exact absurd (List.cons.inj heq).1 (by decide)
  | @braces offset tokens last value items elements htokens hvalue hrest ih =>
      cases h' with
      | nil => cases heq
      | @mark offset m items' elements' hm hrest' =>
          cases m with
          | plain c => exact absurd (List.cons.inj heq).1.symm hm.2.1
          | escaped c => exact absurd (List.cons.inj heq).1 (by decide)
      | @braces offset tokens' last' value' items' elements' htokens' hvalue' hrest' =>
          rw [hbraces, hbraces] at heq
          obtain ⟨rfl, rfl, hsame⟩ := htokens.unique htokens' (List.cons.inj heq).2
          rw [ih hrest' hsame]

end KeysetBundle.Template
