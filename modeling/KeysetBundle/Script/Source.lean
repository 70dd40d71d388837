/-!
# Source text of scripts

What stands between the tokens of a script: blanks, line terminators and comments.
-/

namespace KeysetBundle.Script

/-- The characters that end a line of source text. -/
def isLineTerminator (c : Char) : Bool :=
  c == '\n' || c == '\r' || c == '\u2028' || c == '\u2029'

/-- The blanks of a script: tabulators, form feed, the byte order mark and the space separators. -/
def isSpace (c : Char) : Bool :=
  c == ' ' || c == '\t' || c == '\x0b' || c == '\x0c' || c == '\xa0' || c == '\ufeff' ||
    c == '\u1680' || ('\u2000' ≤ c && c ≤ '\u200a') || c == '\u202f' || c == '\u205f' ||
    c == '\u3000'

/-- The number of line breaks: line feeds, carriage returns, and the two together as one. The line
separators of the Unicode standard are not counted. -/
def lineBreaks : List Char → Nat
  | [] => 0
  | '\r' :: '\n' :: rest => lineBreaks rest + 1
  | c :: rest => if c = '\n' ∨ c = '\r' then lineBreaks rest + 1 else lineBreaks rest

/-- Where the reader of blanks and comments stands. -/
inductive Gap
  /-- Between tokens. -/
  | blank
  /-- In a comment that ends with its line. -/
  | lineComment
  /-- In a comment that ends with a star and a slash. -/
  | blockComment
  deriving DecidableEq, Repr, Inhabited

/-- Skips blanks and comments. The flag tells whether a line terminator was among them; a comment
that does not end gives `none`. -/
def skipGap (gap : Gap) (newline : Bool) : List Char → Option (Bool × List Char)
  | [] => if gap = .blockComment then none else some (newline, [])
  | '*' :: '/' :: rest =>
    if gap = .blockComment then skipGap .blank newline rest
    else if gap = .lineComment then skipGap .lineComment newline ('/' :: rest)
    else some (newline, '*' :: '/' :: rest)
  | '/' :: '/' :: rest =>
    if gap = .blank then skipGap .lineComment newline rest
    else skipGap gap newline ('/' :: rest)
  | '/' :: '*' :: rest =>
    if gap = .blank then skipGap .blockComment newline rest
    else skipGap gap newline ('*' :: rest)
  | c :: rest =>
    if isLineTerminator c then
      skipGap (if gap = .lineComment then .blank else gap) true rest
    else if gap ≠ .blank || isSpace c then skipGap gap newline rest
    else some (newline, c :: rest)

/-- Skips what stands before the next token. -/
def skipBlanks (source : List Char) : Option (Bool × List Char) :=
  skipGap .blank false source

/-- The source without a byte order mark at its start and without the interpreter line that may
follow. -/
def withoutPreamble (source : List Char) : List Char :=
  let source := match source with
    | '\ufeff' :: rest => rest
    | _ => source
  match source with
  | '#' :: '!' :: rest => rest.dropWhile fun c => !isLineTerminator c
  | _ => source

end KeysetBundle.Script
