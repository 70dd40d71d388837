import KeysetBundle.Proofs.Template.Composition
import KeysetBundle.Proofs.Template.Layers

/-!
# The places of faults

A template is read from the left, so a fault is in the first element that is
not as it should be: all that stands before this element is a template of its
own.  The place that is reported is that of the element itself, or, inside
braces, of the token that does not fit, with nothing but complete tokens and
blanks between the opening brace and this token (`TokensBefore`).

A template that is read can still fail to compile.  Then the place is that of
the first call that is not answered or refused.

Main results.

- `readTokens_error`: where the tokens of a substitution fail.
- `readElements_error`: where a template fails.
- `call_place`: where a call of a template stands.
- `error_place`: what stands at the place of an error, and what stands before it.
-/

namespace KeysetBundle.Template

open KeysetBundle.Text (isBlank)

/-! ## Inside braces -/

/-- Complete tokens with blanks between them, before the rest of a source. -/
inductive TokensBefore (rest : List Char) : List Char → Prop
  /-- Nothing. -/
  | nil : TokensBefore rest []
  /-- A blank. -/
  | blank {c : Char} {inner : List Char} (hblank : isBlank c) (h : TokensBefore rest inner) :
    TokensBefore rest (c :: inner)
  /-- A token, which does not go on with what follows it. -/
  | token {lexeme : Lexeme} {inner : List Char} (hvalid : lexeme.IsValid)
    (hends : lexeme.IsRun → ∀ c ∈ (inner ++ rest).head?, ¬isWordChar c)
    (h : TokensBefore rest inner) : TokensBefore rest (lexeme.chars ++ inner)

/-- A word stands at the start of a source and goes as far as it can. -/
structure StartsWithWord (word source : List Char) : Prop where
  /-- There is a word. -/
  nonempty : word ≠ []
  /-- It has characters of words only. -/
  chars : ∀ c ∈ word, isWordChar c
  /-- It ends where it cannot go on. -/
  ends : ∃ after, source = word ++ after ∧ ∀ c ∈ after.head?, ¬isWordChar c

/-- A character that no token and no brace starts with. -/
def StartsNoToken (c : Char) : Prop :=
  isWordChar c ∧ ¬StartsNumeral c ∧ ¬isWordStart c

/-- A token with which no substitution starts: a text in quotes or a number. -/
def Lexeme.IsNoHead : Lexeme → Prop
  | .quoted _ _ => True
  | .run word => IsNumeral word

namespace Fault

/-- What stands at the place of a fault of reading. -/
def ShownBy : Fault → List Char → Prop
  | .trailingBackslash, source => source = ['\\']
  | .strayClose, source => ∃ after, source = '}' :: after
  | .unclosed, source => ∃ inner, source = '{' :: inner ∧ TokensBefore [] inner
  | .nested, source => ∃ after, source = '{' :: after
  | .unterminatedText, source => ∃ quote after, (quote = '"' ∨ quote = '\'') ∧
      source = quote :: after ∧ ∀ marks : List Mark, (∀ mark ∈ marks, mark.IsQuoted quote) →
        ∀ last, after ≠ marks.flatMap Mark.chars ++ quote :: last
  | .invalidNumber word, source => StartsWithWord word.toList source ∧
      (∀ c ∈ source.head?, StartsNumeral c) ∧ ¬IsNumeral word.toList
  | .unexpectedChar c, source => StartsNoToken c ∧ ∃ after, source = c :: after
  | .emptySubstitution, source => ∃ blanks after, (∀ c ∈ blanks, isBlank c) ∧
      source = '{' :: (blanks ++ '}' :: after)
  | .expectedName, source => ∃ (blanks : List Char) (lexeme : Lexeme) (after : List Char),
      (∀ c ∈ blanks, isBlank c) ∧ lexeme.IsValid ∧ lexeme.IsNoHead ∧
        source = '{' :: (blanks ++ (lexeme.chars ++ after))
  | .invalidParameter word, source => StartsWithWord word.toList source ∧
      ∀ segments, ¬IsPath word.toList segments
  | .invalidFunction word, source => StartsWithWord word.toList source ∧ ¬isName word.toList
  | .unknownFunction _, _ => False
  | .refused _, _ => False

/-- Whether the place of a fault is the start of the element that does not fit. -/
def IsOfElement : Fault → Prop
  | .trailingBackslash | .strayClose | .unclosed | .emptySubstitution | .expectedName => True
  | _ => False

/-- What stands between the start of the element that does not fit and the place of the fault:
nothing, or a brace and complete tokens. -/
def ReachedOver (fault : Fault) (between source : List Char) : Prop :=
  (fault.IsOfElement ∧ between = []) ∨
    ¬fault.IsOfElement ∧ ∃ inner, between = '{' :: inner ∧ TokensBefore source inner

end Fault

/-- How the tokens of a substitution fail: they go on to the end of the source, or there are
complete tokens and then something that is no token. -/
def TokensFail (opening offset : Nat) (cs : List Char) (e : Error) : Prop :=
  (e = ⟨.unclosed, opening⟩ ∧ TokensBefore [] cs) ∨
    ∃ inner rest, cs = inner ++ rest ∧ TokensBefore rest inner ∧
      e.offset = offset + utf8Length inner ∧ ¬e.fault.IsOfElement ∧ e.fault.ShownBy rest

namespace TokensFail

variable {opening offset : Nat} {cs : List Char} {e : Error}

theorem here {fault : Fault} (hinside : ¬fault.IsOfElement) (hshown : fault.ShownBy cs) :
    TokensFail opening offset cs ⟨fault, offset⟩ :=
  .inr ⟨[], cs, rfl, .nil, rfl, hinside, hshown⟩

theorem blank {c : Char} (hblank : isBlank c)
    (h : TokensFail opening (offset + c.utf8Size) cs e) :
    TokensFail opening offset (c :: cs) e := by
  rcases h with ⟨rfl, htokens⟩ | ⟨inner, rest, rfl, htokens, hplace, hshown⟩
  · exact .inl ⟨rfl, .blank hblank htokens⟩
  · refine .inr ⟨c :: inner, rest, rfl, .blank hblank htokens, ?_, hshown⟩
    rw [hplace, utf8Length_cons, Nat.add_assoc]

/-- What fails behind a token fails in the same way from before it. -/
theorem token {lexeme : Lexeme} (hvalid : lexeme.IsValid)
    (hends : lexeme.IsRun → ∀ c ∈ cs.head?, ¬isWordChar c)
    (h : TokensFail opening (offset + utf8Length lexeme.chars) cs e) :
    TokensFail opening offset (lexeme.chars ++ cs) e := by
  rcases h with ⟨rfl, htokens⟩ | ⟨inner, rest, rfl, htokens, hplace, hshown⟩
  · refine .inl ⟨rfl, .token hvalid ?_ htokens⟩
    rwa [List.append_nil]
  · refine .inr ⟨lexeme.chars ++ inner, rest, ?_, .token hvalid hends htokens, ?_, hshown⟩
    · rw [List.append_assoc]
    · rw [hplace, utf8Length_append, Nat.add_assoc]

end TokensFail

/-- A text in quotes that was read is a token, and what follows it is what was left. -/
theorem exists_quoted_of_readQuoted {quote : Char} {cs text after : List Char} {size : Nat}
    (hquote : quote = '"' ∨ quote = '\'') (h : readQuoted quote cs = some (text, size, after)) :
    ∃ marks : List Mark, (Lexeme.quoted quote marks).IsValid ∧
      quote :: cs = (Lexeme.quoted quote marks).chars ++ after ∧
      quote.utf8Size + size = utf8Length (Lexeme.quoted quote marks).chars := by
  obtain ⟨marks, hmarks, rfl, -⟩ := exists_marks_of_readQuoted h
  have hslash : quote ≠ '\\' := by rcases hquote with rfl | rfl <;> decide
  rw [readQuoted_append hslash hmarks] at h
  cases h
  exact ⟨marks, .quoted hquote hmarks, by simp [Lexeme.chars], rfl⟩

/-- A run goes as far as it can. -/
theorem head?_dropWhile_isWordChar (rest : List Char) :
    ∀ c ∈ (rest.dropWhile isWordChar).head?, ¬isWordChar c := by
  intro c hc
  have hstop := List.head?_dropWhile_not isWordChar rest
  rw [hc] at hstop
  simpa using hstop

theorem startsWithWord_takeWhile {c : Char} (hc : isWordChar c) (rest : List Char) :
    StartsWithWord (c :: rest.takeWhile isWordChar) (c :: rest) where
  nonempty := by simp
  chars := all_isWordChar_takeWhile hc rest
  ends := ⟨rest.dropWhile isWordChar, by rw [List.cons_append, List.takeWhile_append_dropWhile],
    head?_dropWhile_isWordChar rest⟩

/-- **Where the tokens of a substitution fail.** -/
theorem readTokens_error {opening offset : Nat} {cs : List Char} {e : Error}
    (h : readTokens opening offset cs = .error e) : TokensFail opening offset cs e := by
  fun_induction readTokens opening offset cs with
  | case1 offset =>
      cases h
      exact .inl ⟨rfl, .nil⟩
  | case2 offset c rest hblank ih => exact (ih h).blank hblank
  | case3 => cases h
  | case4 offset rest hblank hclose =>
      cases h
      exact .here id ⟨rest, rfl⟩
  | case5 offset c rest hblank hclose hopen hquote hread =>
      cases h
      refine .here id ⟨c, rest, hquote, rfl, ?_⟩
      rintro marks hmarks last rfl
      have hslash : c ≠ '\\' := by rcases hquote with rfl | rfl <;> decide
      rw [readQuoted_append hslash hmarks] at hread
      cases hread
  | case6 offset c rest hblank hclose hopen hquote text size after hread ih =>
      obtain ⟨marks, hvalid, hchars, hsize⟩ := exists_quoted_of_readQuoted hquote hread
      rcases bind_eq_error.1 h with h | ⟨_, _, h⟩
      · have hrest := ih h
        rw [Nat.add_assoc, hsize] at hrest
        rw [hchars]
        exact hrest.token hvalid fun hrun => hrun.elim
      · cases h
  | case7 offset c rest hblank hclose hopen hquote word hstart hnumber =>
      rename_i ih
      have hc : isWordChar c := isWordChar_iff.2 ⟨hblank, hclose, hopen, hquote⟩
      have hvalid : (Lexeme.run word).IsValid :=
        .number (all_isWordChar_takeWhile hc rest) hstart (isNumber_iff.1 hnumber)
      rcases bind_eq_error.1 h with h | ⟨_, _, h⟩
      · rw [← List.takeWhile_append_dropWhile (p := isWordChar) (l := rest)]
        exact (ih h).token hvalid fun _ => head?_dropWhile_isWordChar rest
      · cases h
  | case8 offset c rest hblank hclose hopen hquote word hstart hnumber =>
      cases h
      have hc : isWordChar c := isWordChar_iff.2 ⟨hblank, hclose, hopen, hquote⟩
      refine .here id ⟨?_, ?_, ?_⟩
      · rw [String.toList_ofList]
        exact startsWithWord_takeWhile hc rest
      · intro x hx
        cases hx
        exact hstart
      · rw [String.toList_ofList]
        exact fun hnumeral => hnumber (isNumber_iff.2 hnumeral)
  | case9 offset c rest hblank hclose hopen hquote word hnumber hstart =>
      rename_i ih
      have hc : isWordChar c := isWordChar_iff.2 ⟨hblank, hclose, hopen, hquote⟩
      have hvalid : (Lexeme.run word).IsValid :=
        .word (all_isWordChar_takeWhile hc rest) hnumber hstart
      rcases bind_eq_error.1 h with h | ⟨_, _, h⟩
      · rw [← List.takeWhile_append_dropWhile (p := isWordChar) (l := rest)]
        exact (ih h).token hvalid fun _ => head?_dropWhile_isWordChar rest
      · cases h
  | case10 offset c rest hblank hclose hopen hquote hnumber hstart =>
      cases h
      exact .here id ⟨⟨isWordChar_iff.2 ⟨hblank, hclose, hopen, hquote⟩, hnumber, hstart⟩,
        rest, rfl⟩

/-! ## Words of a substitution -/

/-- How a word among tokens stands in the source: behind complete tokens. -/
def WordStands (offset : Nat) (cs word : List Char) (place : Nat) : Prop :=
  ∃ inner rest, cs = inner ++ rest ∧ TokensBefore rest inner ∧
    place = offset + utf8Length inner ∧ StartsWithWord word rest

theorem WordStands.token {offset place : Nat} {cs word : List Char} {lexeme : Lexeme}
    (hvalid : lexeme.IsValid) (hends : lexeme.IsRun → ∀ c ∈ cs.head?, ¬isWordChar c)
    (h : WordStands (offset + utf8Length lexeme.chars) cs word place) :
    WordStands offset (lexeme.chars ++ cs) word place := by
  obtain ⟨inner, rest, rfl, htokens, rfl, hword⟩ := h
  refine ⟨lexeme.chars ++ inner, rest, ?_, .token hvalid hends htokens, ?_, hword⟩
  · rw [List.append_assoc]
  · rw [utf8Length_append, Nat.add_assoc]

/-- **A word of a substitution stands where its token says.** -/
theorem readTokens_word {opening offset next place : Nat} {cs after word : List Char}
    {tokens : List Token} (h : readTokens opening offset cs = .ok (tokens, next, after))
    (hword : .word word place ∈ tokens) : WordStands offset cs word place := by
  fun_induction readTokens opening offset cs generalizing tokens next after with
  | case1 => cases h
  | case2 offset c rest hblank ih =>
      obtain ⟨inner, rest', rfl, htokens, rfl, hstarts⟩ := ih h hword
      refine ⟨c :: inner, rest', rfl, .blank hblank htokens, ?_, hstarts⟩
      rw [utf8Length_cons, Nat.add_assoc]
  | case3 =>
      cases h
      cases hword
  | case4 => cases h
  | case5 => cases h
  | case6 offset c rest hblank hclose hopen hquote text size after' hread ih =>
      obtain ⟨marks, hvalid, hchars, hsize⟩ := exists_quoted_of_readQuoted hquote hread
      obtain ⟨⟨others, next'⟩, hr, h⟩ := bind_eq_ok.1 h
      cases h
      rcases List.mem_cons.1 hword with hword | hword
      · cases hword
      · have hrest := ih hr hword
        rw [Nat.add_assoc, hsize] at hrest
        rw [hchars]
        exact hrest.token hvalid fun hrun => hrun.elim
  | case7 offset c rest hblank hclose hopen hquote word' hstart hnumber =>
      rename_i ih
      have hc : isWordChar c := isWordChar_iff.2 ⟨hblank, hclose, hopen, hquote⟩
      have hvalid : (Lexeme.run word').IsValid :=
        .number (all_isWordChar_takeWhile hc rest) hstart (isNumber_iff.1 hnumber)
      obtain ⟨⟨others, next'⟩, hr, h⟩ := bind_eq_ok.1 h
      cases h
      rcases List.mem_cons.1 hword with hword | hword
      · cases hword
      · rw [← List.takeWhile_append_dropWhile (p := isWordChar) (l := rest)]
        exact (ih hr hword).token hvalid fun _ => head?_dropWhile_isWordChar rest
  | case8 => cases h
  | case9 offset c rest hblank hclose hopen hquote word' hnumber hstart =>
      rename_i ih
      have hc : isWordChar c := isWordChar_iff.2 ⟨hblank, hclose, hopen, hquote⟩
      have hvalid : (Lexeme.run word').IsValid :=
        .word (all_isWordChar_takeWhile hc rest) hnumber hstart
      obtain ⟨⟨others, next'⟩, hr, h⟩ := bind_eq_ok.1 h
      cases h
      rcases List.mem_cons.1 hword with hword | hword
      · obtain ⟨hsame, hplace⟩ := Token.word.inj hword
        rw [hsame, hplace]
        exact ⟨[], _, rfl, .nil, rfl, startsWithWord_takeWhile hc rest⟩
      · rw [← List.takeWhile_append_dropWhile (p := isWordChar) (l := rest)]
        exact (ih hr hword).token hvalid fun _ => head?_dropWhile_isWordChar rest
  | case10 => cases h

/-! ## Substitutions -/

theorem parseParam_eq_error {word : List Char} {offset : Nat} {e : Error}
    (h : parseParam word offset = .error e) :
    e = ⟨.invalidParameter (String.ofList word), offset⟩ ∧ ∀ segments, ¬IsPath word segments := by
  have hnone : ∀ segments, ¬IsPath word segments := by
    intro segments hpath
    rw [parseParam_eq_ok_iff.2 ⟨segments, hpath, rfl⟩] at h
    cases h
  unfold parseParam at h
  simp only at h
  split at h
  · cases h
  · cases h
    exact ⟨rfl, hnone⟩

/-- How the shape of a substitution fails: at the brace, or at one of its words. -/
theorem ofTokens_error {opening : Nat} {tokens : List Token} {e : Error}
    (h : Substitution.ofTokens opening tokens = .error e) :
    (tokens = [] ∧ e = ⟨.emptySubstitution, opening⟩) ∨
      (∃ token rest, tokens = token :: rest ∧ (∀ word place, token ≠ .word word place) ∧
        e = ⟨.expectedName, opening⟩) ∨
      ∃ word, .word word e.offset ∈ tokens ∧
        ((e.fault = .invalidParameter (String.ofList word) ∧ ∀ segments, ¬IsPath word segments) ∨
          e.fault = .invalidFunction (String.ofList word) ∧ ¬isName word) := by
  have hparam : ∀ {word : List Char} {place : Nat} {tokens : List Token},
      parseParam word place = .error e → .word word place ∈ tokens →
      ∃ word, .word word e.offset ∈ tokens ∧
        ((e.fault = .invalidParameter (String.ofList word) ∧ ∀ segments, ¬IsPath word segments) ∨
          e.fault = .invalidFunction (String.ofList word) ∧ ¬isName word) := by
    intro word place tokens herror hmem
    obtain ⟨rfl, hpath⟩ := parseParam_eq_error herror
    exact ⟨word, hmem, .inl ⟨rfl, hpath⟩⟩
  unfold Substitution.ofTokens at h
  split at h
  · cases h
    exact .inl ⟨rfl, rfl⟩
  · exact .inr (.inr (hparam (map_eq_error.1 h) (by simp)))
  · rename_i word place others hone
    split at h
    · -- the name is a name, so one of the arguments fails
      rcases bind_eq_error.1 h with h | ⟨_, _, h⟩
      · obtain ⟨before, token, after, rfl, -, htoken⟩ := mapM_eq_error.1 h
        cases token with
        | word argument argumentPlace =>
            exact .inr (.inr (hparam (map_eq_error.1 htoken) (by simp)))
        | text chars => cases htoken
        | number chars => cases htoken
      · cases h
    · rename_i hname
      cases h
      exact .inr (.inr ⟨word, by simp, .inr ⟨rfl, hname⟩⟩)
  · rename_i token rest hone hmore
    cases h
    refine .inr (.inl ⟨token, rest, rfl, ?_, rfl⟩)
    rintro word place rfl
    exact hmore word place rfl

/-- How an element fails that starts at a place: between the place and that of the fault stands what
may stand there, and the fault shows. -/
def ElementFails (offset : Nat) (cs : List Char) (e : Error) : Prop :=
  ∃ between rest, cs = between ++ rest ∧ e.offset = offset + utf8Length between ∧
    e.fault.ReachedOver between rest ∧ e.fault.ShownBy rest

theorem ElementFails.here {offset : Nat} {cs : List Char} {fault : Fault}
    (helement : fault.IsOfElement) (hshown : fault.ShownBy cs) :
    ElementFails offset cs ⟨fault, offset⟩ :=
  ⟨[], cs, rfl, rfl, .inl ⟨helement, rfl⟩, hshown⟩

/-- A fault inside braces, behind complete tokens. -/
theorem ElementFails.inside {offset : Nat} {inner rest : List Char} {e : Error}
    (htokens : TokensBefore rest inner) (hplace : e.offset = offset + 1 + utf8Length inner)
    (hinside : ¬e.fault.IsOfElement) (hshown : e.fault.ShownBy rest) :
    ElementFails offset ('{' :: (inner ++ rest)) e := by
  have hsize : Char.utf8Size '{' = 1 := by decide
  refine ⟨'{' :: inner, rest, rfl, ?_, .inr ⟨hinside, inner, rfl, htokens⟩, hshown⟩
  rw [hplace, utf8Length_cons, hsize, Nat.add_assoc]

theorem elementFails_tokens {offset : Nat} {rest : List Char} {e : Error}
    (h : readTokens offset (offset + 1) rest = .error e) : ElementFails offset ('{' :: rest) e := by
  rcases readTokens_error h with
    ⟨rfl, htokens⟩ | ⟨inner, after, rfl, htokens, hplace, hinside, hshown⟩
  · exact .here trivial ⟨rest, rfl, htokens⟩
  · exact .inside htokens hplace hinside hshown

theorem elementFails_shape {offset next : Nat} {rest after : List Char} {tokens : List Token}
    {e : Error} (htokens : readTokens offset (offset + 1) rest = .ok (tokens, next, after))
    (h : Substitution.ofTokens offset tokens = .error e) :
    ElementFails offset ('{' :: rest) e := by
  obtain ⟨lexed, last, hlexed, hrest, hreads, -⟩ := exists_reads_of_readTokens htokens
  rcases ofTokens_error h with
    ⟨rfl, rfl⟩ | ⟨token, others, rfl, hnoWord, rfl⟩ | ⟨word, hmem, hfault⟩
  · cases lexed with
    | nil => exact .here trivial ⟨last, after, hlexed.blankLast, by rw [hrest]; rfl⟩
    | cons entry lexed => cases hreads
  · cases lexed with
    | nil => cases hreads
    | cons entry lexed =>
        obtain ⟨gap, lexeme⟩ := entry
        have hhead : lexeme.IsNoHead := by
          cases (List.forall₂_cons.1 hreads).1 with
          | word offset hnumber => exact absurd rfl (hnoWord _ _)
          | text quote marks => trivial
          | number hnumeral => exact hnumeral
        refine .here trivial ⟨gap, lexeme, tokenChars lexed ++ (last ++ '}' :: after),
          hlexed.blank (gap, lexeme) (by simp), hlexed.valid (gap, lexeme) (by simp), hhead, ?_⟩
        rw [hrest]
        simp [tokenChars]
  · obtain ⟨inner, source, rfl, hbefore, hplace, hstarts⟩ := readTokens_word htokens hmem
    have hword : (String.ofList word).toList = word := String.toList_ofList
    rcases hfault with ⟨hfault, hpath⟩ | ⟨hfault, hname⟩
    · refine .inside hbefore hplace (by rw [hfault]; exact id) ?_
      rw [hfault]
      exact ⟨by rwa [hword], by rwa [hword]⟩
    · refine .inside hbefore hplace (by rw [hfault]; exact id) ?_
      rw [hfault]
      exact ⟨by rwa [hword], by rwa [hword]⟩

/-! ## Templates -/

/-- How a template fails: behind a template of its own, at an element that does not fit. -/
def TemplateFails (offset : Nat) (cs : List Char) (e : Error) : Prop :=
  ∃ accepted element, cs = accepted ++ element ∧
    (∃ elements, readElements offset accepted = .ok elements) ∧
    ElementFails (offset + utf8Length accepted) element e

theorem TemplateFails.here {offset : Nat} {cs : List Char} {e : Error}
    (h : ElementFails offset cs e) : TemplateFails offset cs e :=
  ⟨[], cs, rfl, ⟨[], readElements.eq_1 offset⟩, h⟩

/-- What fails behind an element fails in the same way from before it. -/
theorem TemplateFails.behind {offset : Nat} {front cs : List Char} {e : Error}
    {elements : List Element} (hfront : readElements offset front = .ok elements)
    (h : TemplateFails (offset + utf8Length front) cs e) :
    TemplateFails offset (front ++ cs) e := by
  obtain ⟨accepted, element, rfl, ⟨others, hothers⟩, hfails⟩ := h
  refine ⟨front ++ accepted, element, (List.append_assoc _ _ _).symm, ?_, ?_⟩
  · rw [readElements_append hfront, hothers]
    exact ⟨_, rfl⟩
  · rwa [utf8Length_append, ← Nat.add_assoc]

theorem readElements_single {m : Mark} (h : m.IsText) (offset : Nat) :
    readElements offset m.chars = .ok [.char m.value] := by
  have hread := readElements_mark h offset []
  rwa [List.append_nil, readElements.eq_1] at hread

/-- **Where a template fails.** -/
theorem readElements_error {offset : Nat} {cs : List Char} {e : Error}
    (h : readElements offset cs = .error e) : TemplateFails offset cs e := by
  fun_induction readElements offset cs with
  | case1 => cases h
  | case2 =>
      cases h
      exact .here (.here trivial rfl)
  | case3 offset c rest ih =>
      have hslash : Char.utf8Size '\\' = 1 := by decide
      have hmark : (Mark.escaped c).IsText := trivial
      rcases bind_eq_error.1 h with h | ⟨_, _, h⟩
      · refine TemplateFails.behind (readElements_single hmark offset) ?_
        have hrest := ih h
        rwa [Nat.add_assoc, ← hslash] at hrest
      · cases h
  | case4 offset rest hlone hnext =>
      cases h
      exact .here (.here trivial ⟨rest, rfl⟩)
  | case5 offset rest e' hlone hnext hne hread =>
      cases h
      exact .here (elementFails_tokens hread)
  | case6 offset rest tokens next after hlone hnext hne hread ih =>
      rcases bind_eq_error.1 h with h | ⟨value, hvalue, h⟩
      · exact .here (elementFails_shape hread h)
      · rcases bind_eq_error.1 h with h | ⟨_, _, h⟩
        · obtain ⟨lexed, last, hlexed, rfl, hreads, rfl⟩ := exists_reads_of_readTokens hread
          have hchars : '{' :: (tokenChars lexed ++ (last ++ '}' :: after)) =
              (Item.braces lexed last).chars ++ after := by
            simp [Item.chars]
          have hfront := readElements_braces_append hlexed ((ofTokens_eq_ok_iff hreads).1 hvalue) []
          rw [List.append_nil, readElements.eq_1] at hfront
          have hrest := ih h
          rw [offset_behind_braces] at hrest
          rw [hchars]
          exact hrest.behind hfront
        · cases h
  | case7 offset c rest hlone hnext hclose hopen ih =>
      have hmark : (Mark.plain c).IsText := by
        refine ⟨?_, hopen, hclose⟩
        intro hc
        cases rest with
        | nil => exact hlone hc rfl
        | cons d ds => exact hnext d ds hc rfl
      rcases bind_eq_error.1 h with h | ⟨_, _, h⟩
      · exact TemplateFails.behind (readElements_single hmark offset) (ih h)
      · cases h

/-! ## Places of calls -/

theorem written_append (items others : List Item) :
    written (items ++ others) = written items ++ written others :=
  List.flatMap_append

/-- A substitution of a template is written in braces, behind what was derived before it. -/
theorem Derives.exists_braces {offset : Nat} {items : List Item} {front back : List Element}
    {value : Substitution} (h : Derives offset items (front ++ .subst value :: back)) :
    ∃ before tokens last after, items = before ++ .braces tokens last :: after ∧
      Derives offset before front ∧
      IsSubstitution (offset + utf8Length (written before)) (tokens.map Prod.snd) value := by
  generalize helements : front ++ .subst value :: back = elements at h
  induction h generalizing front with
  | nil => simp at helements
  | @mark offset m items elements hm hrest ih =>
      cases front with
      | nil => cases helements
      | cons element front =>
          obtain ⟨rfl, hothers⟩ := List.cons.inj helements
          obtain ⟨before, tokens, last, after, rfl, hbefore, hvalue⟩ := ih hothers
          refine ⟨.mark m :: before, tokens, last, after, rfl, .mark hm hbefore, ?_⟩
          rwa [written, List.flatMap_cons, utf8Length_append, ← Nat.add_assoc]
  | @braces offset tokens last other items elements htokens hother hrest ih =>
      cases front with
      | nil =>
          cases helements
          exact ⟨[], tokens, last, items, rfl, .nil offset, hother⟩
      | cons element front =>
          obtain ⟨rfl, hothers⟩ := List.cons.inj helements
          obtain ⟨before, others, last', after, rfl, hbefore, hvalue⟩ := ih hothers
          refine ⟨.braces tokens last :: before, others, last', after, rfl,
            .braces htokens hother hbefore, ?_⟩
          rwa [written, List.flatMap_cons, utf8Length_append, ← Nat.add_assoc]

theorem IsSubstitution.place_eq {offset place : Nat} {lexemes : List Lexeme} {function : String}
    {arguments : List Argument}
    (h : IsSubstitution offset lexemes (.call function arguments place)) : place = offset := by
  cases h
  rfl

theorem Merged.left {parts others : List Part} (h : Merged (parts ++ others)) : Merged parts where
  nonempty := fun hmem => h.nonempty (List.mem_append_left _ hmem)
  apart := h.apart.left_of_append

/-- **The place of a call is that of its brace**, and what stands before the brace is a template
with the parts before the call. -/
theorem call_place {template : String} {before after : List Part} {function : String}
    {arguments : List Argument} {place : Nat}
    (h : parse template = .ok (before ++ .subst (.call function arguments place) :: after)) :
    ∃ accepted source : String, template = accepted ++ source ∧ accepted.utf8ByteSize = place ∧
      source.toList.head? = some '{' ∧ parse accepted = .ok before := by
  obtain ⟨elements, helements, hparts⟩ := map_eq_ok.1 h
  obtain ⟨items, hchars, hderives⟩ := exists_derives_of_readElements helements
  obtain ⟨hmerged, rfl⟩ := ofElements_eq_iff.1 hparts
  rw [List.flatMap_append] at hderives
  obtain ⟨front, tokens, last, back, rfl, hfront, hvalue⟩ := hderives.exists_braces
  refine ⟨String.ofList (written front), String.ofList (written (.braces tokens last :: back)),
    ?_, ?_, ?_, ?_⟩
  · rw [← String.ofList_append, ← written_append, ← hchars, String.ofList_toList]
  · rw [utf8ByteSize_ofList]
    rw [hvalue.place_eq, Nat.zero_add]
  · rw [String.toList_ofList, written_braces]
    rfl
  · refine map_eq_ok.2 ⟨before.flatMap Part.elements, ?_, ofElements_elements hmerged.left⟩
    rw [String.toList_ofList]
    exact hfront.readElements_written

/-! ## The places -/

/-- Where reading a template fails: `accepted` is a template of its own, and `between` is what
stands from there to the place of the error, at which `source` starts. -/
structure FaultAt (template : String) (e : Error) (accepted between source : String) : Prop where
  /-- The template goes over the place. -/
  written : template = accepted ++ between ++ source
  /-- The place is between two characters. -/
  place : e.offset = (accepted ++ between).utf8ByteSize
  /-- What stands before the element that does not fit can be read. -/
  accepts : ∃ parts, parse accepted = .ok parts
  /-- From the start of the element on there is nothing that is not as it should be. -/
  reached : e.fault.ReachedOver between.toList source.toList
  /-- The fault shows at the place. -/
  shown : e.fault.ShownBy source.toList

theorem not_startsWithWord_nil (word : List Char) : ¬StartsWithWord word [] := by
  intro h
  obtain ⟨after, hnil, -⟩ := h.ends
  exact h.nonempty (List.append_eq_nil_iff.1 hnil.symm).1

/-- Every fault shows at a character. -/
theorem Fault.ShownBy.ne_nil {fault : Fault} {source : List Char} (h : fault.ShownBy source) :
    source ≠ [] := by
  rintro rfl
  cases fault <;> simp only [ShownBy] at h
  case invalidNumber word => exact not_startsWithWord_nil _ h.1
  case invalidParameter word => exact not_startsWithWord_nil _ h.1
  case invalidFunction word => exact not_startsWithWord_nil _ h.1
  all_goals simp at h

theorem exists_faultAt {template : String} {e : Error} (h : parse template = .error e) :
    ∃ accepted between source, FaultAt template e accepted between source := by
  obtain ⟨accepted, element, hchars, ⟨elements, helements⟩, between, source, rfl, hplace, hreached,
    hshown⟩ := readElements_error (map_eq_error.1 h)
  refine ⟨String.ofList accepted, String.ofList between, String.ofList source, ?_, ?_, ?_, ?_, ?_⟩
  · rw [← String.ofList_append, ← String.ofList_append, List.append_assoc, ← hchars,
      String.ofList_toList]
  · rw [← String.ofList_append, utf8ByteSize_ofList, utf8Length_append, hplace, Nat.zero_add]
  · refine ⟨_, map_eq_ok.2 ⟨elements, ?_, rfl⟩⟩
    rwa [String.toList_ofList]
  · rwa [String.toList_ofList, String.toList_ofList]
  · rwa [String.toList_ofList]

theorem FaultAt.offset_lt {template accepted between source : String} {e : Error}
    (h : FaultAt template e accepted between source) : e.offset < template.utf8ByteSize := by
  have hne : source ≠ "" := fun hempty => h.shown.ne_nil (String.toList_eq_nil_iff.2 hempty)
  have hpos : source.utf8ByteSize ≠ 0 := mt String.utf8ByteSize_eq_zero_iff.1 hne
  have hsize : (accepted ++ between ++ source).utf8ByteSize =
      (accepted ++ between).utf8ByteSize + source.utf8ByteSize := String.utf8ByteSize_append
  rw [h.place, h.written, hsize]
  omega

/-- **Errors are found where they are reported.**  The place of an error of reading is a character
of the template, at which the fault shows, and what stands before the element that does not fit is
a template of its own.  The place of an error of compiling is the brace of the first call that no
layer provides, or that the first layer that provides it refuses. -/
theorem error_place :
    (∀ template e, parse template = .error e →
      e.offset < template.utf8ByteSize ∧ (⟨e.offset⟩ : String.Pos.Raw).IsValid template ∧
        ∃ accepted between source, FaultAt template e accepted between source) ∧
    ∀ (compactor : Compactor) template parts e, parse template = .ok parts →
      compactor.compact template = .error e →
        ∃ before function arguments after,
          parts = before ++ .subst (.call function arguments e.offset) :: after ∧
          (∀ name others place, .subst (.call name others place) ∈ before →
            ∃ expression, compactor.Answers name others (.ok expression)) ∧
          compactor.Fails function arguments e.fault ∧
          ∃ accepted source : String, template = accepted ++ source ∧
            accepted.utf8ByteSize = e.offset ∧ source.toList.head? = some '{' ∧
            parse accepted = .ok before := by
  constructor
  · intro template e h
    obtain ⟨accepted, between, source, hfault⟩ := exists_faultAt h
    refine ⟨hfault.offset_lt, ?_, accepted, between, source, hfault⟩
    rw [String.Pos.Raw.isValid_iff_exists_append]
    exact ⟨accepted ++ between, source, hfault.written, String.Pos.Raw.ext hfault.place⟩
  · intro compactor template parts e hparse h
    have hcompile : compactor.compileParts parts = .error e := by
      rcases bind_eq_error.1 h with h | ⟨parts', hparse', h⟩
      · rw [hparse] at h
        cases h
      · rw [hparse] at hparse'
        cases hparse'
        exact h
    obtain ⟨before, function, arguments, after, rfl, hbefore, hfails⟩ :=
      Compactor.compileParts_error hcompile
    exact ⟨before, function, arguments, after, rfl, hbefore, hfails, call_place hparse⟩

/-- The word is the third token between its braces, and the first letter of the template has two
bytes. -/
example : parse "é\x7bf 'x' 1y\x7d" = .error ⟨.invalidNumber "1y", 9⟩ := by decide +kernel

end KeysetBundle.Template
