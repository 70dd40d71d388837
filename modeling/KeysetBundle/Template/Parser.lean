import KeysetBundle.Template.Basic
import KeysetBundle.Text.Blank
import KeysetBundle.Text.Alphabetic

/-!
# Reading templates

Outside braces a backslash makes the next character stand for itself, and every other character
but a brace is text. Between a pair of braces stand tokens: quoted texts and words, where a word
goes on to the next blank, brace or quote. All tokens of a substitution are read before its shape
is looked at, so a fault of a token is reported before a fault of the shape.
-/

namespace KeysetBundle.Template

open KeysetBundle.Text (isBlank isAlphabetic)

/-! ## Names and numbers -/

/-- A name may start with an ASCII letter, `_` or `$`. -/
def isNameStart (c : Char) : Bool := c.isAlpha || c == '_' || c == '$'

/-- A name goes on with ASCII letters and digits, `_` and `$`. -/
def isNamePart (c : Char) : Bool := c.isAlphanum || c == '_' || c == '$'

/-- Whether a word is a name. -/
def isName : List Char → Bool
  | [] => false
  | c :: rest => isNameStart c && rest.all isNamePart

/-- One or more ASCII digits. -/
def isDigits (cs : List Char) : Bool := !cs.isEmpty && cs.all Char.isDigit

/-- Digits, then at most one point with digits after it. -/
def isUnsignedNumber (word : List Char) : Bool :=
  let whole := word.takeWhile Char.isDigit
  match word.dropWhile Char.isDigit with
  | [] => isDigits whole
  | '.' :: fraction => isDigits whole && isDigits fraction
  | _ => false

/-- A number is an unsigned one, with at most one `-` before it. -/
def isNumber : List Char → Bool
  | '-' :: word => isUnsignedNumber word
  | word => isUnsignedNumber word

/-- The pieces of a word between its dots. -/
def splitDots : List Char → List (List Char)
  | [] => [[]]
  | c :: rest =>
    if c = '.' then [] :: splitDots rest
    else match splitDots rest with
      | [] => [[c]]
      | piece :: pieces => (c :: piece) :: pieces

/-! ## Tokens of a substitution -/

/-- A token between braces. -/
inductive Token
  /-- A word, with its place. -/
  | word (chars : List Char) (offset : Nat)
  /-- A quoted text. -/
  | text (chars : List Char)
  /-- A number as written. -/
  | number (chars : List Char)
  deriving DecidableEq, Repr, Inhabited

/-- A word goes on until a blank, a brace or a quote. -/
def isWordChar (c : Char) : Bool :=
  !isBlank c && c != '{' && c != '}' && c != '"' && c != '\''

/-- A word that is no number starts with an alphabetic character, `_` or `$`. -/
def isWordStart (c : Char) : Bool := isAlphabetic c || c == '_' || c == '$'

/-- The character for which a backslash and `c` stand in a quoted text. -/
def unescape (c : Char) : Char :=
  if c = 'n' then '\n' else if c = 't' then '\t' else c

/-- Reads a quoted text up to its closing quote: the text, the number of bytes read and what
follows. -/
def readQuoted (quote : Char) : List Char → Option (List Char × Nat × List Char)
  | [] => none
  | ['\\'] => none
  | '\\' :: c :: rest =>
    match readQuoted quote rest with
    | none => none
    | some (text, size, after) => some (unescape c :: text, 1 + c.utf8Size + size, after)
  | c :: rest =>
    if c = quote then some ([], c.utf8Size, rest)
    else
      match readQuoted quote rest with
      | none => none
      | some (text, size, after) => some (c :: text, c.utf8Size + size, after)

theorem length_readQuoted {quote : Char} {cs text after : List Char} {size : Nat}
    (h : readQuoted quote cs = some (text, size, after)) : after.length < cs.length := by
  fun_induction readQuoted quote cs generalizing text size after <;> grind

/-- Reads the tokens of a substitution and its closing brace: the tokens, the place after the
brace and what follows. `opening` is the place of the opening brace. -/
def readTokens (opening offset : Nat) (cs : List Char) :
    Except Error (List Token × Nat × List Char) :=
  match cs with
  | [] => .error ⟨.unclosed, opening⟩
  | c :: rest =>
    if isBlank c then readTokens opening (offset + c.utf8Size) rest
    else if c = '}' then .ok ([], offset + c.utf8Size, rest)
    else if c = '{' then .error ⟨.nested, offset⟩
    else if c = '"' ∨ c = '\'' then
      match _h : readQuoted c rest with
      | none => .error ⟨.unterminatedText, offset⟩
      | some (text, size, after) => do
        let (tokens, next) ← readTokens opening (offset + c.utf8Size + size) after
        .ok (.text text :: tokens, next)
    else
      let word := c :: rest.takeWhile isWordChar
      if c.isDigit ∨ c = '-' then
        if isNumber word then do
          let (tokens, next) ←
            readTokens opening (offset + utf8Length word) (rest.dropWhile isWordChar)
          .ok (.number word :: tokens, next)
        else .error ⟨.invalidNumber (String.ofList word), offset⟩
      else if isWordStart c then do
        let (tokens, next) ←
          readTokens opening (offset + utf8Length word) (rest.dropWhile isWordChar)
        .ok (.word word offset :: tokens, next)
      else .error ⟨.unexpectedChar c, offset⟩
termination_by cs.length
decreasing_by
  all_goals simp only [List.length_cons]
  · omega
  · have := length_readQuoted _h
    omega
  · have := (List.dropWhile_sublist isWordChar (l := rest)).length_le
    omega
  · have := (List.dropWhile_sublist isWordChar (l := rest)).length_le
    omega

/-! ## The shape of a substitution -/

/-- Reads a word as a parameter. -/
def parseParam (word : List Char) (offset : Nat) : Except Error ParamPath :=
  let pieces := splitDots word
  if pieces.all isName then .ok ⟨pieces.map String.ofList⟩
  else .error ⟨.invalidParameter (String.ofList word), offset⟩

/-- Reads a token after the first as an argument. -/
def Token.argument : Token → Except Error Argument
  | .word chars offset => (parseParam chars offset).map .param
  | .text chars => .ok (.text (String.ofList chars))
  | .number chars => .ok (.number (String.ofList chars))

/-- The substitution that the tokens between two braces make up. -/
def Substitution.ofTokens (opening : Nat) : List Token → Except Error Substitution
  | [] => .error ⟨.emptySubstitution, opening⟩
  | [.word word offset] => (parseParam word offset).map .param
  | .word word offset :: tokens =>
    if isName word then do
      let arguments ← tokens.mapM Token.argument
      .ok (.call (String.ofList word) arguments opening)
    else .error ⟨.invalidFunction (String.ofList word), offset⟩
  | _ :: _ => .error ⟨.expectedName, opening⟩

/-! ## Templates -/

/-- A character of text or a substitution. -/
inductive Element
  /-- One character of text. -/
  | char (c : Char)
  /-- A substitution. -/
  | subst (value : Substitution)
  deriving DecidableEq, Repr, Inhabited

theorem length_readTokens {opening offset next : Nat} {cs after : List Char}
    {tokens : List Token} (h : readTokens opening offset cs = .ok (tokens, next, after)) :
    after.length < cs.length := by
  fun_induction readTokens opening offset cs generalizing tokens next after with
  | case1 => cases h
  | case2 offset c rest _ ih => have := ih h; simp only [List.length_cons]; omega
  | case3 offset c rest => cases h; simp only [List.length_cons]; omega
  | case4 => cases h
  | case5 => cases h
  | case6 offset c rest _ _ _ _ text size after' hq ih =>
    have hlt := length_readQuoted hq
    simp only [bind, Except.bind] at h
    split at h
    · cases h
    · rename_i r hr
      obtain ⟨_, _, _⟩ := r
      have := ih hr
      cases h
      simp only [List.length_cons]
      omega
  | case7 =>
    rename_i rest _ _ _ _ _ _ _ ih
    have hle := (List.dropWhile_sublist isWordChar (l := rest)).length_le
    simp only [bind, Except.bind] at h
    split at h
    · cases h
    · rename_i r hr
      obtain ⟨_, _, _⟩ := r
      have := ih hr
      cases h
      simp only [List.length_cons]
      omega
  | case8 => cases h
  | case9 =>
    rename_i rest _ _ _ _ _ _ _ ih
    have hle := (List.dropWhile_sublist isWordChar (l := rest)).length_le
    simp only [bind, Except.bind] at h
    split at h
    · cases h
    · rename_i r hr
      obtain ⟨_, _, _⟩ := r
      have := ih hr
      cases h
      simp only [List.length_cons]
      omega
  | case10 => cases h

/-- Reads a template as characters and substitutions; `offset` is the place of the first
character. -/
def readElements (offset : Nat) (cs : List Char) : Except Error (List Element) :=
  match cs with
  | [] => .ok []
  | ['\\'] => .error ⟨.trailingBackslash, offset⟩
  | '\\' :: c :: rest => do
    let elements ← readElements (offset + 1 + c.utf8Size) rest
    .ok (.char c :: elements)
  | c :: rest =>
    if c = '}' then .error ⟨.strayClose, offset⟩
    else if c = '{' then
      match _h : readTokens offset (offset + c.utf8Size) rest with
      | .error e => .error e
      | .ok (tokens, next, after) => do
        let value ← Substitution.ofTokens offset tokens
        let elements ← readElements next after
        .ok (.subst value :: elements)
    else do
      let elements ← readElements (offset + c.utf8Size) rest
      .ok (.char c :: elements)
termination_by cs.length
decreasing_by
  all_goals simp only [List.length_cons]
  · omega
  · have := length_readTokens _h
    omega
  · omega

/-- The text before the first substitution, and the parts from there on. -/
def gather : List Element → List Char × List Part
  | [] => ([], [])
  | .char c :: rest => (c :: (gather rest).1, (gather rest).2)
  | .subst value :: rest =>
    let (chars, parts) := gather rest
    ([], .subst value :: if chars.isEmpty then parts else .text (String.ofList chars) :: parts)

/-- The parts of a template: neighbouring characters make up one text. -/
def Part.ofElements (elements : List Element) : List Part :=
  let (chars, parts) := gather elements
  if chars.isEmpty then parts else .text (String.ofList chars) :: parts

/-- Reads a template. -/
def parse (template : String) : Except Error (List Part) :=
  (readElements 0 template.toList).map Part.ofElements

end KeysetBundle.Template
