import KeysetBundle.Script.Literal
import KeysetBundle.Text.Identifier

/-!
# Reading tokens

`readToken` reads the token at the start of a source without blanks before it. A slash is read as
a punctuator and a closing brace too; where a regular expression or the next piece of a template
may stand, the parser reads the source again with `readRegex` or `readTemplatePiece`.
-/

namespace KeysetBundle.Script

open KeysetBundle.Text (isIdentifierStart isIdentifierPart)

/-- Reads what follows the first character of a name: the characters, whether one of them is
spelled with an escape, and the rest. -/
def readNameRest (cs : List Char) : Option (List Char × Bool × List Char) :=
  match cs with
  | [] => some ([], false, [])
  | c :: rest =>
    if c = '\\' then
      match rest with
      | 'u' :: rest =>
        match _h : readUnicodeEscape rest with
        | none => none
        | some (n, after) =>
          if isIdentifierPart n then
            (readNameRest after).map fun (name, _, last) => (Char.ofNat n :: name, true, last)
          else none
      | _ => none
    else if isIdentifierPart c.toNat then
      (readNameRest rest).map fun (name, escaped, last) => (c :: name, escaped, last)
    else some ([], false, c :: rest)
termination_by cs.length
decreasing_by
  · have := length_readUnicodeEscape _h
    simp only [List.length_cons]
    omega
  · simp only [List.length_cons]
    omega

/-- Reads a name: the text, whether it is spelled with an escape, and the rest. -/
def readName : List Char → Option (String × Bool × List Char)
  | '\\' :: 'u' :: rest => do
    let (n, rest) ← readUnicodeEscape rest
    if isIdentifierStart n then
      let (name, _, rest) ← readNameRest rest
      some (String.ofList (Char.ofNat n :: name), true, rest)
    else none
  | c :: rest =>
    if isIdentifierStart c.toNat then
      (readNameRest rest).map fun (name, escaped, rest) =>
        (String.ofList (c :: name), escaped, rest)
    else none
  | [] => none

/-- Whether what follows a number or a regular expression would extend it. -/
def startsWithNamePart : List Char → Bool
  | c :: _ => isIdentifierPart c.toNat || c == '\\'
  | [] => false

/-- Reads a punctuator, the longest one that fits. A question mark and a point before a digit are
two tokens; the opening of a markup comment is none. -/
def readPunctuator (cs : List Char) : Except Fault (Token × List Char) :=
  match cs with
  | '<' :: '!' :: '-' :: '-' :: _ => .error .unexpectedToken
  | '?' :: '.' :: rest =>
    if startsWithDigit rest then .ok (.punctuator .question, '.' :: rest)
    else .ok (.punctuator .optionalDot, rest)
  | cs =>
    match Punctuator.spellings.find? fun (spelling, _) => spelling.isPrefixOf cs with
    | some (spelling, punctuator) =>
      .ok (.punctuator punctuator, cs.drop spelling.length)
    | none => .error .unexpectedCharacter

/-- Reads the token at the start of the source. -/
def readToken (cs : List Char) : Except Fault (Token × List Char) :=
  match cs with
  | [] => .ok (.finish, [])
  | c :: rest =>
    if isIdentifierStart c.toNat || c = '\\' then
      match readName cs with
      | some (text, escaped, rest) => .ok (.name text escaped, rest)
      | none => .error .invalidName
    else if c = '"' ∨ c = '\'' then
      match readText c rest with
      | some (value, rest) => .ok (.text value, rest)
      | none => .error .invalidText
    else if c = '\x60' then
      match readTemplatePiece rest with
      | some piece => .ok (.templatePiece piece.cooked piece.last, piece.rest)
      | none => .error .unterminated
    else if c.isDigit ∨ (c = '.' ∧ startsWithDigit rest) then
      match readNumber cs with
      | some (token, rest) =>
        if startsWithNamePart rest then .error .invalidNumber else .ok (token, rest)
      | none => .error .invalidNumber
    else if c = '#' then
      match readName rest with
      | some (text, _, rest) => .ok (.privateName text, rest)
      | none => .error .unexpectedCharacter
    else readPunctuator cs

/-- Reads a regular expression with its flags; the source starts with the opening slash. -/
def readRegex : List Char → Except Fault (List Char)
  | '/' :: rest =>
    match skipRegexBody false rest with
    | none => .error .unterminated
    | some rest =>
      let flags := rest.takeWhile fun c => isIdentifierPart c.toNat
      let rest := rest.dropWhile fun c => isIdentifierPart c.toNat
      if areRegexFlags flags ∧ !startsWithNamePart rest then .ok rest
      else .error .invalidRegex
  | _ => .error .unexpectedToken

end KeysetBundle.Script
