/-!
# Patterns of names

A pattern stands for names: `?` for any character, `*` for any characters, `[..]` for one of some
characters and `[!..]` for one of all others. `**` has to be alone between slashes.

* `matchesName_chars` — a pattern without wildcards matches its own text only.
-/

namespace KeysetBundle.Glob

/-- A range of characters with both ends. -/
structure CharRange where
  /-- The first character. -/
  first : Char
  /-- The last character. -/
  last : Char
  deriving DecidableEq, Repr, Inhabited

/-- Whether a character is in a range. -/
def CharRange.contains (range : CharRange) (c : Char) : Bool :=
  range.first ≤ c && c ≤ range.last

/-- A part of a pattern. -/
inductive Token
  /-- The character itself. -/
  | char (c : Char)
  /-- Any character. -/
  | anyChar
  /-- Any characters. -/
  | anyChars
  /-- Any folders. -/
  | anyFolders
  /-- A character that is in one of the ranges, or in none of them if the class is negated. -/
  | charClass (negated : Bool) (ranges : List CharRange)
  deriving DecidableEq, Repr, Inhabited

/-- What is wrong with a pattern. -/
inductive Fault
  /-- Three stars. -/
  | tooManyStars
  /-- Two stars beside something else than a slash. -/
  | starsNotAlone
  /-- A class without an end. -/
  | unclosedClass
  deriving DecidableEq, Repr, Inhabited

/-- A pattern that cannot be read, and where it goes wrong. -/
structure InvalidPattern where
  /-- The number of characters before the place. -/
  position : Nat
  /-- What is wrong there. -/
  fault : Fault
  deriving DecidableEq, Repr, Inhabited

/-- The words for a fault. -/
def Fault.message : Fault → String
  | .tooManyStars => "wildcards are either regular \x60*\x60 or recursive \x60**\x60"
  | .starsNotAlone => "recursive wildcards must form a single path component"
  | .unclosedClass => "invalid range pattern"

/-- The words for a pattern that cannot be read. -/
def InvalidPattern.message (e : InvalidPattern) : String :=
  "Pattern syntax error near position " ++ toString e.position ++ ": " ++ e.fault.message

/-! ## Reading -/

/-- The ranges of a class: `a-z` is a range, any other character stands for itself. -/
def rangesOf : List Char → List CharRange
  | first :: '-' :: last :: rest => ⟨first, last⟩ :: rangesOf rest
  | c :: rest => ⟨c, c⟩ :: rangesOf rest
  | [] => []

/-- The characters of a class, of which there is at least one, and what stands after its closing
bracket. -/
def classBody : List Char → Option (List Char × List Char)
  | [] => none
  | c :: rest =>
    match rest.dropWhile (· != ']') with
    | [] => none
    | _ :: after => some (c :: rest.takeWhile (· != ']'), after)

/-- A class and what stands after it, read from the character after its opening bracket. -/
def readClass : List Char → Option (Token × List Char)
  | '!' :: rest =>
    (classBody rest).map fun (body, after) => (.charClass true (rangesOf body), after)
  | cs => (classBody cs).map fun (body, after) => (.charClass false (rangesOf body), after)

theorem length_classBody {cs body after : List Char} (h : classBody cs = some (body, after)) :
    after.length < cs.length := by
  cases cs with
  | nil => simp [classBody] at h
  | cons c rest =>
    simp only [classBody] at h
    split at h
    · simp at h
    · rename_i bracket tail heq
      obtain ⟨rfl, rfl⟩ := Prod.mk.inj (Option.some.inj h)
      have := (List.dropWhile_suffix (l := rest) (· != ']')).length_le
      rw [heq] at this
      simp only [List.length_cons] at this ⊢
      omega

theorem length_readClass {cs after : List Char} {token : Token}
    (h : readClass cs = some (token, after)) : after.length < cs.length := by
  unfold readClass at h
  split at h
  · obtain ⟨⟨body, tail⟩, hbody, heq⟩ := Option.map_eq_some_iff.1 h
    obtain ⟨_, rfl⟩ := Prod.mk.inj heq
    have := length_classBody hbody
    simp only [List.length_cons]
    omega
  · obtain ⟨⟨body, tail⟩, hbody, heq⟩ := Option.map_eq_some_iff.1 h
    obtain ⟨_, rfl⟩ := Prod.mk.inj heq
    exact length_classBody hbody

/-- Reads the parts of a pattern. `position` counts the characters before, and `atStart` tells that
a slash or nothing stands before. -/
def readTokens (position : Nat) (atStart : Bool) :
    List Char → Except InvalidPattern (List Token)
  | [] => .ok []
  | '*' :: '*' :: '*' :: _ => .error ⟨position + 2, .tooManyStars⟩
  | ['*', '*'] =>
    if atStart then .ok [.anyFolders] else .error ⟨position - 1, .starsNotAlone⟩
  | '*' :: '*' :: '/' :: rest =>
    if atStart then (readTokens (position + 3) true rest).map (.anyFolders :: ·)
    else .error ⟨position - 1, .starsNotAlone⟩
  | '*' :: '*' :: _ =>
    .error ⟨if atStart then position + 2 else position - 1, .starsNotAlone⟩
  | '*' :: rest => (readTokens (position + 1) false rest).map (.anyChars :: ·)
  | '?' :: rest => (readTokens (position + 1) false rest).map (.anyChar :: ·)
  | '[' :: rest =>
    match h : readClass rest with
    | none => .error ⟨position, .unclosedClass⟩
    | some (token, after) =>
      have := length_readClass h
      (readTokens (position + 1 + (rest.length - after.length)) false after).map (token :: ·)
  | c :: rest => (readTokens (position + 1) (c == '/') rest).map (.char c :: ·)
termination_by cs => cs.length

/-- The parts of a pattern. -/
def tokensOf (text : String) : Except InvalidPattern (List Token) :=
  readTokens 0 true text.toList

/-! ## Matching -/

/-- Whether a part that stands for one character stands for a given one. -/
def Token.accepts (token : Token) (c : Char) : Bool :=
  match token with
  | .char own => own == c
  | .anyChar => true
  | .anyChars => false
  | .anyFolders => false
  | .charClass negated ranges => ranges.any (·.contains c) != negated

/-- Whether a pattern matches a name. -/
def matchesName : List Token → List Char → Bool
  | [], name => name.isEmpty
  | .anyChars :: tokens, [] => matchesName tokens []
  | .anyChars :: tokens, c :: rest =>
    matchesName tokens (c :: rest) || matchesName (.anyChars :: tokens) rest
  | _ :: _, [] => false
  | token :: tokens, c :: rest => token.accepts c && matchesName tokens rest
termination_by tokens name => tokens.length + name.length

/-- The text of a pattern without wildcards. -/
def literal? : List Token → Option (List Char)
  | [] => some []
  | .char c :: tokens => (literal? tokens).map (c :: ·)
  | _ :: _ => none

theorem matchesName_chars (text name : List Char) :
    matchesName (text.map .char) name = (text == name) := by
  induction text generalizing name with
  | nil => cases name <;> simp [matchesName]
  | cons c text ih => cases name <;> simp [matchesName, Token.accepts, ih]

end KeysetBundle.Glob
