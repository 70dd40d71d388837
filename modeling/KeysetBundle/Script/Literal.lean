import KeysetBundle.Script.Source
import KeysetBundle.Script.Token
import KeysetBundle.Decimal.Digits
import KeysetBundle.Text.Hex

/-!
# Literals of scripts

The readers of texts, templates, numbers and regular expressions. Each reader starts behind the
opening of its literal and gives the value and the rest of the source.
-/

namespace KeysetBundle.Script

open KeysetBundle.Decimal (Binary64 extendValue)
open KeysetBundle.Text (hexDigitValue? hexValue? isHexDigit)

/-! ## Escapes -/

/-- Reads what follows a backslash and `u`: four digits, or digits in braces that name a code
point. -/
def readUnicodeEscape : List Char → Option (Nat × List Char)
  | '{' :: rest =>
    match rest.dropWhile isHexDigit with
    | '}' :: after =>
      match rest.takeWhile isHexDigit with
      | [] => none
      | digits =>
        (hexValue? digits).bind fun n => if n ≤ 0x10ffff then some (n, after) else none
    | _ => none
  | a :: b :: c :: d :: rest => (hexValue? [a, b, c, d]).map (·, rest)
  | _ => none

/-- The character for which a backslash and a letter stand. -/
def letterEscape (c : Char) : Nat :=
  match c with
  | 'n' => 10
  | 't' => 9
  | 'r' => 13
  | 'b' => 8
  | 'f' => 12
  | 'v' => 11
  | c => c.toNat

/-- Whether the source goes on with a decimal digit. -/
def startsWithDigit : List Char → Bool
  | c :: _ => c.isDigit
  | [] => false

/-- Reads what follows a backslash: the code points that the escape stands for. A line terminator
stands for nothing; a digit is an escape only if it is a zero without a digit after it. -/
def readEscape : List Char → Option (List Nat × List Char)
  | [] => none
  | '\r' :: '\n' :: rest => some ([], rest)
  | 'x' :: rest =>
    match rest with
    | a :: b :: after => (hexValue? [a, b]).map ([·], after)
    | _ => none
  | 'u' :: rest => (readUnicodeEscape rest).map fun (n, after) => ([n], after)
  | c :: rest =>
    if isLineTerminator c then some ([], rest)
    else if c.isDigit then
      if c = '0' ∧ !startsWithDigit rest then some ([0], rest) else none
    else some ([letterEscape c], rest)

theorem length_readUnicodeEscape {cs after : List Char} {n : Nat}
    (h : readUnicodeEscape cs = some (n, after)) : after.length < cs.length := by
  unfold readUnicodeEscape at h
  split at h
  · rename_i rest
    have hle := (List.dropWhile_sublist isHexDigit (l := rest)).length_le
    split at h
    · rename_i last heq
      rw [heq] at hle
      split at h
      · cases h
      · simp only [Option.bind_eq_some_iff] at h
        obtain ⟨m, _, hm⟩ := h
        split at hm
        · cases hm
          simp only [List.length_cons] at hle ⊢
          omega
        · cases hm
    · cases h
  · simp only [Option.map_eq_some_iff] at h
    obtain ⟨m, _, hm⟩ := h
    cases hm
    simp only [List.length_cons]
    omega
  · cases h

theorem length_readEscape {cs after : List Char} {value : List Nat}
    (h : readEscape cs = some (value, after)) : after.length < cs.length := by
  unfold readEscape at h
  split at h
  · cases h
  · cases h
    simp only [List.length_cons]
    omega
  · split at h
    · simp only [Option.map_eq_some_iff] at h
      obtain ⟨m, _, hm⟩ := h
      cases hm
      simp only [List.length_cons]
      omega
    · cases h
  · simp only [Option.map_eq_some_iff] at h
    obtain ⟨⟨n, rest⟩, hr, hm⟩ := h
    cases hm
    have := length_readUnicodeEscape hr
    simp only [List.length_cons]
    omega
  · grind

/-! ## Texts -/

/-- Reads a text up to its closing quote. -/
def readText (quote : Char) (cs : List Char) : Option (List Nat × List Char) :=
  match cs with
  | [] => none
  | c :: rest =>
    if c = quote then some ([], rest)
    else if c = '\\' then
      match _h : readEscape rest with
      | none => none
      | some (value, after) =>
        match readText quote after with
        | none => none
        | some (text, last) => some (value ++ text, last)
    else if c = '\n' ∨ c = '\r' then none
    else
      match readText quote rest with
      | none => none
      | some (text, last) => some (c.toNat :: text, last)
termination_by cs.length
decreasing_by
  · have := length_readEscape _h
    simp only [List.length_cons]
    omega
  · simp only [List.length_cons]
    omega

/-! ## Templates -/

/-- A piece of a template: its value unless an escape is invalid, whether the template ends with
it, and what follows. -/
structure TemplatePiece where
  /-- The code points of the piece. -/
  cooked : Option (List Nat)
  /-- Whether the template ends here. -/
  last : Bool
  /-- The source after the piece. -/
  rest : List Char

/-- The piece with more code points before it. -/
def TemplatePiece.after (points : List Nat) (piece : TemplatePiece) : TemplatePiece :=
  { piece with cooked := piece.cooked.map (points ++ ·) }

/-- Reads a piece of a template up to the next substitution or the end of the template. Line
breaks count as line feeds. -/
def readTemplatePiece (cs : List Char) : Option TemplatePiece :=
  match cs with
  | [] => none
  | '\x60' :: rest => some ⟨some [], true, rest⟩
  | '$' :: '{' :: rest => some ⟨some [], false, rest⟩
  | '\r' :: '\n' :: rest => (readTemplatePiece rest).map (·.after [10])
  | '\\' :: rest =>
    match _h : readEscape rest with
    | some (value, after) => (readTemplatePiece after).map (·.after value)
    | none =>
      match rest with
      | [] => none
      | _ :: after => (readTemplatePiece after).map fun piece => { piece with cooked := none }
  | c :: rest =>
    (readTemplatePiece rest).map (·.after [if c = '\r' then 10 else c.toNat])
termination_by cs.length
decreasing_by
  all_goals simp only [List.length_cons]
  · omega
  · have := length_readEscape _h
    omega
  · omega
  · omega

/-! ## Numbers -/

/-- Reads one or more digits; a single `_` may stand between two of them. -/
def readDigits (isDigit : Char → Bool) : List Char → Option (List Char × List Char)
  | [] => none
  | c :: '_' :: rest =>
    if isDigit c then (readDigits isDigit rest).map fun (digits, after) => (c :: digits, after)
    else none
  | c :: rest =>
    if isDigit c then
      match rest with
      | d :: _ =>
        if isDigit d then
          (readDigits isDigit rest).map fun (digits, after) => (c :: digits, after)
        else some ([c], rest)
      | [] => some ([c], [])
    else none

/-- Reads the digits after a point, which may be missing. -/
def readFraction (cs : List Char) : Option (List Char × List Char) :=
  if startsWithDigit cs then readDigits Char.isDigit cs else some ([], cs)

/-- Reads the exponent of a number, which may be missing. -/
def readExponent : List Char → Option (Int × List Char)
  | c :: rest =>
    if c = 'e' ∨ c = 'E' then
      match rest with
      | '-' :: rest =>
        (readDigits Char.isDigit rest).map fun (digits, after) => (-extendValue 0 digits, after)
      | '+' :: rest =>
        (readDigits Char.isDigit rest).map fun (digits, after) => (extendValue 0 digits, after)
      | rest =>
        (readDigits Char.isDigit rest).map fun (digits, after) => (extendValue 0 digits, after)
    else some (0, c :: rest)
  | [] => some (0, [])

/-- The number nearest to a decimal with a fraction and an exponent. -/
def decimalNumber (whole fraction : List Char) (exponent : Int) : Binary64 :=
  let digits := (whole ++ fraction).dropWhile (· == '0')
  .ofDecimal (extendValue 0 digits) digits.length (exponent - fraction.length)

/-- Reads what follows the whole part of a decimal. -/
def readDecimalTail (whole : List Char) : List Char → Option (Token × List Char)
  | 'n' :: rest => some (.bigInteger, rest)
  | cs => do
    let (fraction, cs) ← match cs with
      | '.' :: rest => readFraction rest
      | cs => some ([], cs)
    let (exponent, rest) ← readExponent cs
    some (.number (decimalNumber whole fraction exponent), rest)

/-- The base that a letter after a leading zero names. -/
def baseOf? (c : Char) : Option Nat :=
  if c = 'x' ∨ c = 'X' then some 16
  else if c = 'o' ∨ c = 'O' then some 8
  else if c = 'b' ∨ c = 'B' then some 2
  else none

/-- Reads the digits of a number in another base. -/
def readBased (base : Nat) (cs : List Char) : Option (Token × List Char) := do
  let isDigit (c : Char) : Bool := (hexDigitValue? c).any (· < base)
  let (digits, rest) ← readDigits isDigit cs
  match rest with
  | 'n' :: rest => some (.bigInteger, rest)
  | rest => some (.number (.ofDigits base (digits.filterMap hexDigitValue?)), rest)

/-- Reads a number. A zero that starts a longer sequence of digits is refused. -/
def readNumber : List Char → Option (Token × List Char)
  | '.' :: rest => do
    let (fraction, rest) ← readDigits Char.isDigit rest
    let (exponent, rest) ← readExponent rest
    some (.number (decimalNumber [] fraction exponent), rest)
  | '0' :: rest =>
    match rest with
    | c :: after =>
      match baseOf? c with
      | some base => readBased base after
      | none => if c.isDigit ∨ c = '_' then none else readDecimalTail ['0'] rest
    | [] => readDecimalTail ['0'] []
  | cs => do
    let (whole, rest) ← readDigits Char.isDigit cs
    readDecimalTail whole rest

/-! ## Regular expressions -/

/-- Skips the body of a regular expression and its closing slash. A slash in brackets does not
close; what the body means is not looked at. -/
def skipRegexBody (inBrackets : Bool) : List Char → Option (List Char)
  | [] => none
  | '\\' :: c :: rest => if isLineTerminator c then none else skipRegexBody inBrackets rest
  | c :: rest =>
    if isLineTerminator c then none
    else if c = '/' ∧ !inBrackets then some rest
    else skipRegexBody (if c = '[' then true else if c = ']' then false else inBrackets) rest

/-- Whether letters are flags of a regular expression: each at most once, and not both of the two
modes. -/
def areRegexFlags (flags : List Char) : Bool :=
  flags.all ("dgimsuvy".toList.contains ·) && decide flags.Nodup &&
    !(flags.contains 'u' && flags.contains 'v')

end KeysetBundle.Script
