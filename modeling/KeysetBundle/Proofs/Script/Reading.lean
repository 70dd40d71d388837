import Mathlib.Data.List.Forall2
import KeysetBundle.Proofs.Script.Tokens
import KeysetBundle.Script.Parser

/-!
# Parsers on tokens

A parser looks at the tokens of a source and at little else.  `Runs` says which
tokens a parser reads of those that are to come and what it finds.  It composes
along the sequences of parsers, so what a production reads is found step by
step; the characters of the source come in once, where the first token is read
(`exists_lexeme`).

Numbers are left out: strict code has fewer of them than `tokens` knows.

Main results.

- `exists_lexeme`: a parser at the start of a source.
- `Runs.bind`: parsers one after the other.
- `runs_commaSeparated`, `runs_repeatUntil`: lists.
-/

namespace KeysetBundle.Script

/-! ## Tokens to come -/

/-- A token that is no number. -/
def isPlain : Token → Bool
  | .number _ => false
  | .bigInteger => false
  | _ => true

/-- The tokens that a parser has still to read, the current one first. -/
structure ParserState.Before (state : ParserState) (ts : List Token) : Prop where
  /-- The current token is the first one. -/
  current : state.current.token = ts.head?.getD .finish
  /-- The others are behind it. -/
  behind : tokens state.current.rest = some ts.tail
  /-- None of them is a number. -/
  plain : ts.all isPlain

theorem readDecimalTail_not_plain {whole cs rest : List Char} {token : Token}
    (h : readDecimalTail whole cs = some (token, rest)) : isPlain token = false := by
  unfold readDecimalTail at h
  split at h
  · cases h
    rfl
  · simp only [Option.bind_eq_bind] at h
    split at h <;> simp only [Option.bind_eq_some_iff] at h <;>
      · obtain ⟨_, _, _, _, h⟩ := h
        cases h
        rfl

/-- Loose and strict code have the same tokens but for numbers. -/
theorem readToken_of_readLooseToken {cs rest : List Char} {token : Token}
    (h : readLooseToken cs = .ok (token, rest)) (hplain : isPlain token) :
    readToken cs = .ok (token, rest) := by
  unfold readLooseToken at h
  split at h
  · split at h
    · unfold readLegacyNumber at h
      simp only at h
      split at h
      · rename_i found after hfound
        split at h
        · cases h
        · cases h
          split at hfound
          · cases hfound
            cases hplain
          · rw [readDecimalTail_not_plain hfound] at hplain
            cases hplain
      · cases h
    · exact h
  · exact h

/-- **The first token of a source** that has tokens. -/
theorem exists_lexeme {cs : List Char} {ts : List Token} (h : tokens cs = some ts)
    (hplain : ts.all isPlain) (lastLine : Nat) :
    ∃ current, lexeme lastLine cs = .ok current ∧ ParserState.Before ⟨current, lastLine⟩ ts := by
  rw [tokens] at h
  unfold lexeme
  split at h
  · cases h
  · rename_i hskip
    cases h
    rw [hskip]
    exact ⟨_, rfl, rfl, Begins.tokens_eq (.refl []), rfl⟩
  · rename_i newline c start hskip
    split at h
    · cases h
    · rename_i token rest hread
      split at h
      · obtain ⟨others, hothers, rfl⟩ := Option.map_eq_some_iff.1 h
        simp only [List.all_cons, Bool.and_eq_true] at hplain
        rw [hskip]
        simp only [readToken_of_readLooseToken hread hplain.1]
        refine ⟨_, rfl, rfl, hothers, ?_⟩
        simp only [List.all_cons, Bool.and_eq_true]
        exact hplain
      · cases h

/-- The next token becomes the current one. -/
theorem ParserState.Before.advance {state : ParserState} {t : Token} {ts : List Token}
    (h : state.Before (t :: ts)) :
    ∃ next, advance state = .ok ((), next) ∧ next.Before ts := by
  have hplain := h.plain
  simp only [List.all_cons, Bool.and_eq_true] at hplain
  obtain ⟨current, hcurrent, hbefore⟩ := exists_lexeme h.behind hplain.2 state.lastLine
  refine ⟨_, ?_, hbefore⟩
  unfold Script.advance
  rw [hcurrent]

/-! ## What a parser reads -/

variable {α β : Type} {t : Token} {ts us vs : List Token}

/-- A parser that is before some tokens reads up to others and finds a result. -/
def Runs (parser : Parser α) (ts us : List Token) (Result : α → Prop) : Prop :=
  ∀ state : ParserState, state.Before ts →
    ∃ result next, parser state = .ok (result, next) ∧ next.Before us ∧ Result result

namespace Runs

theorem pure {result : α} {Result : α → Prop} (h : Result result) :
    Runs (pure result) ts ts Result :=
  fun state hstate => ⟨result, state, rfl, hstate, h⟩

/-- Parsers one after the other. -/
theorem bind {parser : Parser α} {next : α → Parser β} {First : α → Prop} {Result : β → Prop}
    (h : Runs parser ts us First) (hnext : ∀ a, First a → Runs (next a) us vs Result) :
    Runs (parser >>= next) ts vs Result := by
  intro state hstate
  obtain ⟨a, middle, hread, hmiddle, ha⟩ := h state hstate
  obtain ⟨b, last, hread', hlast, hb⟩ := hnext a ha middle hmiddle
  refine ⟨b, last, ?_, hlast, hb⟩
  show (parser state >>= fun found => next found.1 found.2) = _
  rw [hread]
  exact hread'

theorem mono {parser : Parser α} {First Result : α → Prop} (h : Runs parser ts us First)
    (hresult : ∀ a, First a → Result a) : Runs parser ts us Result := by
  intro state hstate
  obtain ⟨a, next, hread, hnext, ha⟩ := h state hstate
  exact ⟨a, next, hread, hnext, hresult a ha⟩

/-- A parser before a parser whose result is known. -/
theorem bind_eq {parser : Parser α} {next : α → Parser β} {a : α} {Result : β → Prop}
    (h : Runs parser ts us (· = a)) (hnext : Runs (next a) us vs Result) :
    Runs (parser >>= next) ts vs Result :=
  h.bind fun _ ha => ha ▸ hnext

end Runs

/-! ## Single tokens -/

theorem runs_token : Runs token (t :: ts) (t :: ts) (· = t) :=
  fun state hstate => ⟨_, state, rfl, hstate, hstate.current⟩

theorem runs_line : Runs line ts ts fun _ => True :=
  fun state hstate => ⟨_, state, rfl, hstate, trivial⟩

theorem runs_newline : Runs newline ts ts fun _ => True :=
  fun state hstate => ⟨_, state, rfl, hstate, trivial⟩

theorem runs_advance : Runs advance (t :: ts) ts fun _ => True := by
  intro state hstate
  obtain ⟨next, hread, hnext⟩ := hstate.advance
  exact ⟨(), next, hread, hnext, trivial⟩

theorem runs_sees (p : Punctuator) :
    Runs (sees p) (t :: ts) (t :: ts) (· = (t == .punctuator p)) :=
  runs_token.bind_eq (.pure rfl)

theorem runs_seesWord (word : String) :
    Runs (seesWord word) (t :: ts) (t :: ts) (· = (t == .name word false)) :=
  runs_token.bind_eq (.pure rfl)

theorem runs_accept (p : Punctuator) : Runs (accept p) (.punctuator p :: ts) ts (· = true) := by
  refine (runs_sees p).bind_eq ?_
  rw [beq_self_eq_true]
  exact runs_advance.bind fun _ _ => .pure rfl

theorem runs_accept_other {p : Punctuator} (h : (t == .punctuator p) = false) :
    Runs (accept p) (t :: ts) (t :: ts) (· = false) := by
  refine (runs_sees p).bind_eq ?_
  rw [h]
  exact .pure rfl

theorem runs_acceptWord_other {word : String} (h : (t == .name word false) = false) :
    Runs (acceptWord word) (t :: ts) (t :: ts) (· = false) := by
  refine (runs_seesWord word).bind_eq ?_
  rw [h]
  exact .pure rfl

theorem runs_expect (p : Punctuator) : Runs (expect p) (.punctuator p :: ts) ts fun _ => True :=
  (runs_accept p).bind_eq (.pure trivial)

theorem runs_endStatement :
    Runs endStatement (.punctuator .semicolon :: ts) ts fun _ => True :=
  (runs_accept .semicolon).bind_eq (.pure trivial)

theorem runs_seesArrow (h : (t == .punctuator .arrow) = false) :
    Runs seesArrow (t :: ts) (t :: ts) (· = false) := by
  refine (runs_sees .arrow).bind_eq ?_
  rw [h]
  exact runs_newline.bind fun _ _ => .pure rfl

/-- What is found where nothing is looked for leaves the parser where it was. -/
theorem runs_attempt (us : List Token) {parser : Parser (Option α)}
    (h : Runs parser ts us (· = none)) : Runs (attempt parser) ts ts (· = none) := by
  intro state hstate
  obtain ⟨found, next, hread, -, rfl⟩ := h state hstate
  refine ⟨none, state, ?_, hstate, rfl⟩
  show (parser state >>= fun found => _) = _
  rw [hread]
  rfl

/-! ## Lists -/

/-- Tokens with commas between them. -/
def commaTokens (runs : List (List Token)) : List Token := [.punctuator .comma].intercalate runs

@[simp] theorem commaTokens_nil : commaTokens [] = [] := rfl

@[simp] theorem commaTokens_singleton (run : List Token) : commaTokens [run] = run := by
  simp [commaTokens]

@[simp] theorem commaTokens_cons_cons (run next : List Token) (runs : List (List Token)) :
    commaTokens (run :: next :: runs) =
      run ++ .punctuator .comma :: commaTokens (next :: runs) := by
  simp [commaTokens, List.intercalate_cons_cons]

/-- Elements with commas between them, up to a closing punctuator. -/
theorem runs_commaSeparated {close : Punctuator} {element : Parser α} {Element : β → α → Prop}
    {write : β → List Token} {items : List β} {bound : Nat} (hbound : items.length < bound)
    (hstart : ∀ item ∈ items, ∃ first rest, write item = first :: rest ∧
      (first == .punctuator close) = false)
    (helement : ∀ item ∈ items, ∀ p, p = .comma ∨ p = close → ∀ rest,
      Runs element (write item ++ .punctuator p :: rest) (.punctuator p :: rest) (Element item))
    (hclose : (Token.punctuator .comma == .punctuator close) = false) (rest : List Token) :
    Runs (commaSeparated close element bound)
      (commaTokens (items.map write) ++ .punctuator close :: rest) rest
      fun found => List.Forall₂ Element items found.1 := by
  induction items generalizing bound with
  | nil =>
      obtain ⟨bound, rfl⟩ := Nat.exists_eq_succ_of_ne_zero (Nat.ne_of_gt hbound)
      exact (runs_accept close).bind_eq (.pure .nil)
  | cons item items ih =>
      obtain ⟨bound, rfl⟩ := Nat.exists_eq_succ_of_ne_zero (Nat.ne_zero_of_lt hbound)
      obtain ⟨first, others, hwrite, hfirst⟩ := hstart item (by simp)
      have hitem := helement item (by simp)
      have htail := ih (Nat.lt_of_succ_lt_succ hbound)
        (fun other hother => hstart other (by simp [hother]))
        (fun other hother => helement other (by simp [hother]))
      have hopen : ∀ after : List Token, Runs (accept close) (write item ++ after)
          (write item ++ after) (· = false) := by
        intro after
        rw [hwrite]
        exact runs_accept_other hfirst
      cases items with
      | nil =>
          rw [List.map_cons, List.map_nil, commaTokens_singleton]
          refine (hopen _).bind_eq ((hitem close (.inr rfl) rest).bind fun value hvalue => ?_)
          exact (runs_accept close).bind_eq (.pure (.cons hvalue .nil))
      | cons next items =>
          rw [List.map_cons, List.map_cons, commaTokens_cons_cons, List.append_assoc,
            List.cons_append, ← List.map_cons]
          refine (hopen _).bind_eq ((hitem .comma (.inl rfl) _).bind fun value hvalue => ?_)
          refine (runs_accept_other hclose).bind_eq ((runs_expect .comma).bind fun _ _ => ?_)
          exact htail.bind fun found hfound => .pure (.cons hvalue hfound)

/-- A parser is repeated until nothing is left. -/
theorem runs_repeatUntil {parser : Parser α} {Element : β → α → Prop} {write : β → List Token}
    {items : List β} {bound : Nat} (hbound : items.length < bound)
    (hstart : ∀ item ∈ items, ∃ first rest, write item = first :: rest ∧
      (first == .finish) = false)
    (helement : ∀ item ∈ items, ∀ rest, Runs parser (write item ++ rest) rest (Element item)) :
    Runs (repeatUntil (do return (← token) == .finish) parser bound)
      (items.flatMap write) [] fun found => List.Forall₂ Element items found := by
  induction items generalizing bound with
  | nil =>
      obtain ⟨bound, rfl⟩ := Nat.exists_eq_succ_of_ne_zero (Nat.ne_of_gt hbound)
      have hstop : Runs (do return (← token) == .finish) [] [] (· = true) := by
        intro state hstate
        refine ⟨_, state, rfl, hstate, ?_⟩
        rw [hstate.current]
        rfl
      exact hstop.bind_eq (.pure .nil)
  | cons item items ih =>
      obtain ⟨bound, rfl⟩ := Nat.exists_eq_succ_of_ne_zero (Nat.ne_zero_of_lt hbound)
      obtain ⟨first, others, hwrite, hfirst⟩ := hstart item (by simp)
      have htail := ih (Nat.lt_of_succ_lt_succ hbound)
        (fun other hother => hstart other (by simp [hother]))
        (fun other hother => helement other (by simp [hother]))
      have hstop : Runs (do return (← token) == .finish) (write item ++ items.flatMap write)
          (write item ++ items.flatMap write) (· = false) := by
        rw [hwrite]
        exact runs_token.bind_eq (.pure hfirst)
      rw [List.flatMap_cons]
      refine hstop.bind_eq ((helement item (by simp) _).bind fun value hvalue => ?_)
      exact htail.bind fun values hvalues => .pure (.cons hvalue hvalues)

end KeysetBundle.Script
