import KeysetBundle.Proofs.Script.StrictLiteral

/-!
# Blocks of a script

A script may choose among blocks by the names that its host defines:

    if (typeof a !== 'undefined') { … } else if (typeof b !== 'undefined') { … } else { … }

`readChoice?` reads the tokens of such a chain.  A block ends with the brace
that closes it: on the way there, every bracket of the three kinds is closed by
one of its own kind (`awaitedBehind`).  `Choice.run` is what a host executes:
the tokens of the statements in the first block whose name is defined.

`SpellsTokens text ts` says that a text is read as some tokens, whatever follows it.
For a text of names and marks the tokens can be computed (`plainTokens?`).

Main results.

- `SpellsTokens.of_plainTokens?`: texts of names and marks.
- `readBlock_of_isBalanced`: a block whose statements are balanced.
-/

namespace KeysetBundle.Script

open KeysetBundle.Template (isNamePart isNameStart)
open KeysetBundle.Text

/-! ## Spelled tokens -/

/-- A text is read as the tokens, whatever follows it. -/
def SpellsTokens (text : String) (ts : List Token) : Prop :=
  ∀ rest, Begins readLooseToken (text.toList ++ rest) ts rest

namespace SpellsTokens

variable {text other : String} {ts us : List Token}

theorem append (h : SpellsTokens text ts) (hother : SpellsTokens other us) :
    SpellsTokens (text ++ other) (ts ++ us) := by
  intro rest
  rw [String.toList_append, List.append_assoc]
  exact (h _).append (hother rest)

theorem tokens_eq (h : SpellsTokens text ts) : tokens text.toList = some ts := by
  have hall := h []
  rw [List.append_nil] at hall
  exact hall.tokens_eq

theorem lineFeed : SpellsTokens "\n" [] := fun rest => Begins.lineFeed rest

theorem quoted (text : String) :
    SpellsTokens (singleQuoted text) [.text (text.toList.map Char.toNat)] := by
  intro rest
  obtain ⟨inner, hinner⟩ := (isQuoted_singleQuoted text).ends
  have hread := (isQuoted_singleQuoted text).token rest
  rw [hinner, List.append_assoc, List.cons_append] at hread ⊢
  refine Begins.of_read (by decide) ?_ (by simp only [List.length_append]; omega)
  rw [read_of_ne_zero readLooseToken (by decide)]
  exact hread

/-- The sign of inequality, with the blank that ends it. -/
theorem notIdentical : SpellsTokens "!== " [.punctuator .notIdentical] := by
  intro rest
  have hname : isIdentifierStart '!'.toNat = false := isIdentifierStart_ascii (by decide)
  have hstart : startsPunctuator '!' := by
    rw [startsPunctuator, hname]
    decide
  have hsign : Begins readLooseToken ('!' :: '=' :: '=' :: ' ' :: rest)
      [.punctuator .notIdentical] (' ' :: rest) :=
    .of_readPunctuator hstart (by simp) rfl (by simp)
  exact hsign.append (.space rest)

end SpellsTokens

/-- The token of a mark between names, if the characters behind it do not extend it. -/
def mark? (c : Char) (behind : List Char) : Option (List Token) :=
  match c with
  | ' ' => some []
  | '(' => some [.punctuator .openParen]
  | ')' => some [.punctuator .closeParen]
  | '{' => some [.punctuator .openBrace]
  | '}' => some [.punctuator .closeBrace]
  | ',' => some [.punctuator .comma]
  | ';' => some [.punctuator .semicolon]
  | '=' => if behind.head? = some ' ' then some [.punctuator .assign] else none
  | '.' => if behind.head?.any isNameStart then some [.punctuator .dot] else none
  | _ => none

/-- The tokens of a text of names and marks.  The characters of the name before it are `word`. -/
def plainTokens? (word : List Char) : List Char → Option (List Token)
  | [] => if word = [] then some [] else none
  | c :: cs =>
    if isNamePart c then plainTokens? (word ++ [c]) cs
    else do
      let marks ← mark? c cs
      let ts ← plainTokens? [] cs
      if word = [] then some (marks ++ ts)
      else if Template.isName word ∧ c ∈ [' ', '(', ')', ',', ';', '.'] then
        some (.name (String.ofList word) false :: (marks ++ ts))
      else none

theorem begins_mark {c : Char} {behind : List Char} {ts : List Token}
    (h : mark? c behind = some ts) (rest : List Char) :
    Begins readLooseToken (c :: (behind ++ rest)) ts (behind ++ rest) := by
  unfold mark? at h
  split at h
  · cases h
    exact .space _
  · cases h
    exact begins_openParen _
  · cases h
    exact begins_closeParen _
  · cases h
    exact begins_openBrace _
  · cases h
    exact begins_closeBrace _
  · cases h
    exact begins_comma _
  · cases h
    exact begins_semicolon _
  · split at h
    · rename_i hblank
      obtain ⟨after, rfl⟩ := List.head?_eq_some_iff.1 hblank
      cases h
      exact begins_punctuator (by simp [usedPunctuators]) (by simp) rfl
    · cases h
  · split at h
    · rename_i hname
      cases behind with
      | nil => cases hname
      | cons d behind =>
          cases h
          exact begins_dot hname _
    · cases h
  · cases h

theorem begins_plainTokens? {word cs : List Char} {ts : List Token}
    (h : plainTokens? word cs = some ts) (rest : List Char) :
    Begins readLooseToken (word ++ (cs ++ rest)) ts rest := by
  fun_induction plainTokens? word cs generalizing ts with
  | case1 =>
      cases h
      exact .refl rest
  | case2 => cases h
  | case3 word c cs hpart ih =>
      have hbegins := ih h
      rwa [List.append_assoc] at hbegins
  | case4 word c cs hpart ih =>
      obtain ⟨marks, hmarks, h⟩ := Option.bind_eq_some_iff.1 h
      obtain ⟨us, hus, h⟩ := Option.bind_eq_some_iff.1 h
      have htail : Begins readLooseToken (c :: (cs ++ rest)) (marks ++ us) rest :=
        (begins_mark hmarks rest).append (ih hus)
      split at h
      · rename_i hword
        cases h
        rw [hword]
        exact htail
      · split at h
        · rename_i hname
          cases h
          have hend : startsWithNamePart (c :: (cs ++ rest)) = false :=
            startsWithNamePart_of_mem (by grind) _
          exact (begins_name hname.1 hend).append htail
        · cases h

/-- The tokens of a text of names and marks can be computed. -/
theorem SpellsTokens.of_plainTokens? {text : String} {ts : List Token}
    (h : plainTokens? [] text.toList = some ts) : SpellsTokens text ts :=
  fun rest => begins_plainTokens? h rest

/-! ## Brackets -/

/-- The bracket that closes an opening one. -/
def closing? : Token → Option Token
  | .punctuator .openBrace => some (.punctuator .closeBrace)
  | .punctuator .openParen => some (.punctuator .closeParen)
  | .punctuator .openBracket => some (.punctuator .closeBracket)
  | _ => none

/-- Whether a token is a closing bracket. -/
def isClosing : Token → Bool
  | .punctuator .closeBrace | .punctuator .closeParen | .punctuator .closeBracket => true
  | _ => false

/-- The closing brackets that are awaited behind a token, the next one first: an opening bracket
adds its own, and a closing one must be the next. -/
def awaitedBehind (awaited : List Token) (t : Token) : Option (List Token) :=
  match closing? t with
  | some close => some (close :: awaited)
  | none =>
    if isClosing t then
      match awaited with
      | [] => none
      | close :: outer => if t = close then some outer else none
    else some awaited

/-- Every bracket is closed by one of its own kind. -/
def IsBalanced (ts : List Token) : Prop := ts.foldlM awaitedBehind [] = some []

instance (ts : List Token) : Decidable (IsBalanced ts) :=
  inferInstanceAs (Decidable (_ = _))

/-- The brackets around some tokens do not matter to them. -/
theorem awaitedBehind_append {awaited after : List Token} {t : Token}
    (h : awaitedBehind awaited t = some after) (outer : List Token) :
    awaitedBehind (awaited ++ outer) t = some (after ++ outer) := by
  unfold awaitedBehind at h ⊢
  cases hclose : closing? t with
  | some close =>
      rw [hclose] at h
      cases h
      rfl
  | none =>
      simp only [hclose] at h ⊢
      split at h
      · rename_i hclosing
        rw [if_pos hclosing]
        cases awaited with
        | nil => cases h
        | cons close inner =>
            simp only [List.cons_append] at h ⊢
            split at h
            · rename_i heq
              cases h
              rw [if_pos heq]
            · cases h
      · rename_i hclosing
        cases h
        rw [if_neg hclosing]

theorem foldlM_awaitedBehind_append {ts awaited after : List Token}
    (h : ts.foldlM awaitedBehind awaited = some after) (outer : List Token) :
    ts.foldlM awaitedBehind (awaited ++ outer) = some (after ++ outer) := by
  induction ts generalizing awaited with
  | nil =>
      cases h
      rfl
  | cons t ts ih =>
      obtain ⟨inner, hinner, h⟩ := Option.bind_eq_some_iff.1 h
      rw [List.foldlM_cons, awaitedBehind_append hinner]
      exact ih h

namespace IsBalanced

variable {ts us : List Token}

theorem append (h : IsBalanced ts) (h' : IsBalanced us) : IsBalanced (ts ++ us) := by
  unfold IsBalanced at *
  rw [List.foldlM_append, h]
  exact h'

/-- A block of balanced statements. -/
theorem braced (h : IsBalanced ts) :
    IsBalanced (.punctuator .openBrace :: (ts ++ [.punctuator .closeBrace])) := by
  have hinside := foldlM_awaitedBehind_append h [Token.punctuator .closeBrace]
  show (ts ++ [Token.punctuator .closeBrace]).foldlM awaitedBehind
    ([] ++ [Token.punctuator .closeBrace]) = some []
  rw [List.foldlM_append, hinside]
  rfl

end IsBalanced

/-! ## Reading blocks -/

/-- Reads up to the closing bracket that is awaited last: what stands before it and what follows. -/
def readBlock (awaited : List Token) : List Token → Option (List Token × List Token)
  | [] => none
  | t :: ts =>
    match awaitedBehind awaited t with
    | none => none
    | some [] => some ([], ts)
    | some (close :: outer) =>
      (readBlock (close :: outer) ts).map fun read => (t :: read.1, read.2)

theorem length_readBlock {awaited ts body rest : List Token}
    (h : readBlock awaited ts = some (body, rest)) : rest.length < ts.length := by
  fun_induction readBlock awaited ts generalizing body with
  | case1 => cases h
  | case2 => cases h
  | case3 =>
      cases h
      exact Nat.lt_succ_self _
  | case4 awaited t ts close outer hbehind ih =>
      obtain ⟨read, hread, heq⟩ := Option.map_eq_some_iff.1 h
      cases heq
      exact Nat.lt_succ_of_lt (ih hread)

theorem readBlock_append {ts awaited after : List Token}
    (h : ts.foldlM awaitedBehind awaited = some after) (close : Token) (rest : List Token) :
    readBlock (awaited ++ [close]) (ts ++ rest) =
      (readBlock (after ++ [close]) rest).map fun read => (ts ++ read.1, read.2) := by
  induction ts generalizing awaited with
  | nil =>
      cases h
      simp
  | cons t ts ih =>
      obtain ⟨inner, hinner, h⟩ := Option.bind_eq_some_iff.1 h
      obtain ⟨first, others, hsome⟩ := List.exists_cons_of_ne_nil (by simp : inner ++ [close] ≠ [])
      rw [List.cons_append, readBlock, awaitedBehind_append hinner, hsome]
      simp only
      rw [← hsome, ih h, Option.map_map]
      rfl

/-- **A block ends with its own brace**, if the brackets in its statements are balanced. -/
theorem readBlock_of_isBalanced {body : List Token} (h : IsBalanced body) (rest : List Token) :
    readBlock [.punctuator .closeBrace] (body ++ .punctuator .closeBrace :: rest) =
      some (body, rest) := by
  have hread := readBlock_append h (.punctuator .closeBrace) (.punctuator .closeBrace :: rest)
  rw [List.nil_append] at hread
  rw [hread]
  simp [readBlock, awaitedBehind, closing?, isClosing]

/-! ## Choices -/

/-- Statements that are chosen by the names that a host defines. -/
inductive Choice
  /-- No statements. -/
  | nothing
  /-- A block that is always executed. -/
  | block (body : List Token)
  /-- A block that is executed if the name is defined, and the choice if it is not. -/
  | test (name : String) (body : List Token) (otherwise : Choice)
  deriving DecidableEq, Repr

/-- The tokens of the statements that are executed. -/
def Choice.run (isDefined : String → Bool) : Choice → List Token
  | .nothing => []
  | .block body => body
  | .test name body otherwise => if isDefined name then body else otherwise.run isDefined

/-- Reads the test whether a name is defined: the name and what follows. -/
def readTest? : List Token → Option (String × List Token)
  | .name "typeof" false :: .name name false :: .punctuator .notIdentical :: .text points :: rest =>
    if ofCodePoints? points = some "undefined" then some (name, rest) else none
  | _ => none

/-- Reads `if`, a test in parentheses and an opening brace. -/
def readOpening? : List Token → Option (String × List Token)
  | .name "if" false :: .punctuator .openParen :: inside =>
    match readTest? inside with
    | some (name, .punctuator .closeParen :: .punctuator .openBrace :: rest) => some (name, rest)
    | _ => none
  | _ => none

theorem length_readTest? {ts rest : List Token} {name : String}
    (h : readTest? ts = some (name, rest)) : rest.length < ts.length := by
  unfold readTest? at h
  grind

theorem length_readOpening? {ts rest : List Token} {name : String}
    (h : readOpening? ts = some (name, rest)) : rest.length < ts.length := by
  unfold readOpening? at h
  split at h
  · split at h
    · rename_i hread
      have := length_readTest? hread
      grind
    · cases h
  · cases h

/-- Reads a block without a condition. -/
def readPlainBlock? : List Token → Option Choice
  | .punctuator .openBrace :: inside =>
    match readBlock [.punctuator .closeBrace] inside with
    | some (body, []) => some (.block body)
    | _ => none
  | _ => none

/-- Reads a chain of conditional blocks, which may end in a block without a condition. -/
def readChoice? (ts : List Token) : Option Choice :=
  match _hopening : readOpening? ts with
  | some (name, inside) =>
    match _hblock : readBlock [.punctuator .closeBrace] inside with
    | some (body, []) => some (.test name body .nothing)
    | some (body, .name "else" false :: rest) => (readChoice? rest).map (.test name body)
    | _ => none
  | none => readPlainBlock? ts
termination_by ts.length
decreasing_by
  have hinside := length_readOpening? _hopening
  have hrest := length_readBlock _hblock
  simp only [List.length_cons] at hrest
  omega

/-- Reads a script that is one choice or has no tokens. -/
def readScript? (ts : List Token) : Option Choice :=
  if ts = [] then some .nothing else readChoice? ts

/-! ## Written choices -/

/-- The tokens of the test whether a name is defined. -/
def testTokens (name : String) : List Token :=
  [.name "typeof" false, .name name false, .punctuator .notIdentical,
    .text ("undefined".toList.map Char.toNat)]

/-- The tokens before the statements of a conditional block. -/
def openingTokens (name : String) : List Token :=
  .name "if" false :: .punctuator .openParen ::
    (testTokens name ++ [.punctuator .closeParen, .punctuator .openBrace])

namespace Choice

/-- The tokens of a choice. -/
def tokens : Choice → List Token
  | .nothing => []
  | .block body => .punctuator .openBrace :: (body ++ [.punctuator .closeBrace])
  | .test name body otherwise =>
    openingTokens name ++ body ++ .punctuator .closeBrace ::
      if otherwise = .nothing then [] else .name "else" false :: otherwise.tokens

/-- The tokens of a choice behind the brace of a block, where it stands for the other case. -/
def elseTokens (choice : Choice) : List Token :=
  if choice = .nothing then [] else .name "else" false :: choice.tokens

theorem tokens_test (name : String) (body : List Token) (otherwise : Choice) :
    (test name body otherwise).tokens =
      openingTokens name ++ body ++ .punctuator .closeBrace :: otherwise.elseTokens := rfl

/-- The brackets in the statements of every block are balanced. -/
def BalancedBlocks : Choice → Prop
  | .nothing => True
  | .block body => IsBalanced body
  | .test _ body otherwise => IsBalanced body ∧ otherwise.BalancedBlocks

theorem tokens_eq_nil {choice : Choice} : choice.tokens = [] ↔ choice = .nothing := by
  cases choice <;> simp [tokens, openingTokens]

end Choice

theorem readTest?_testTokens (name : String) (rest : List Token) :
    readTest? (testTokens name ++ rest) = some (name, rest) := by
  have hvalue : ofCodePoints? ("undefined".toList.map Char.toNat) = some "undefined" :=
    ofCodePoints?_toNat "undefined"
  simp only [readTest?, testTokens, List.cons_append, List.nil_append, hvalue, if_true]

theorem readOpening?_openingTokens (name : String) (rest : List Token) :
    readOpening? (openingTokens name ++ rest) = some (name, rest) := by
  rw [openingTokens, List.cons_append, List.cons_append, List.append_assoc, readOpening?,
    readTest?_testTokens]
  rfl

/-- **A written choice is read back.** -/
theorem readChoice?_tokens {choice : Choice} (hne : choice ≠ .nothing)
    (h : choice.BalancedBlocks) : readChoice? choice.tokens = some choice := by
  induction choice with
  | nothing => exact absurd rfl hne
  | block body =>
      have hopening : readOpening? (Choice.block body).tokens = none := rfl
      rw [readChoice?, hopening]
      simp only [readPlainBlock?, Choice.tokens, readBlock_of_isBalanced h []]
  | test name body otherwise ih =>
      obtain ⟨hbody, hotherwise⟩ := h
      rw [readChoice?, Choice.tokens, List.append_assoc, readOpening?_openingTokens]
      simp only
      by_cases hlast : otherwise = .nothing
      · rw [if_pos hlast, readBlock_of_isBalanced hbody, hlast]
      · rw [if_neg hlast, readBlock_of_isBalanced hbody]
        simp only [ih hlast hotherwise, Option.map_some]

theorem readScript?_tokens {choice : Choice} (h : choice.BalancedBlocks) :
    readScript? choice.tokens = some choice := by
  unfold readScript?
  split
  · rename_i hnil
    rw [Choice.tokens_eq_nil.1 hnil]
  · rename_i hne
    exact readChoice?_tokens (fun hnothing => hne (Choice.tokens_eq_nil.2 hnothing)) h

theorem isBalanced_tokens {choice : Choice} (h : choice.BalancedBlocks) :
    IsBalanced choice.tokens := by
  induction choice with
  | nothing => rfl
  | block body => exact IsBalanced.braced h
  | test name body otherwise ih =>
      have hcondition : IsBalanced (.name "if" false :: .punctuator .openParen ::
          (testTokens name ++ [.punctuator .closeParen])) := rfl
      have helse : IsBalanced otherwise.elseTokens := by
        unfold Choice.elseTokens
        split
        · rfl
        · exact ih h.2
      have hall := (hcondition.append (IsBalanced.braced h.1)).append helse
      simpa [Choice.tokens_test, openingTokens] using hall

end KeysetBundle.Script
