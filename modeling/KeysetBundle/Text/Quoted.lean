import KeysetBundle.Text.Hex

/-!
# Quoted text

The two ways in which a text is written as a literal of a script: in double quotes, the form that
a data file shares except for the two line separators, and in single quotes.

A character is escaped on its own, so the written form of a text is the concatenation of the
written forms of its characters between two quotes.
-/

namespace KeysetBundle.Text

/-- `\u` and the four digits of a code unit. -/
def unitEscape (n : Nat) : List Char :=
  ['\\', 'u', hexDigit (n / 4096 % 16), hexDigit (n / 256 % 16), hexDigit (n / 16 % 16),
    hexDigit (n % 16)]

/-- A character inside the quotes of a data file: the quote, the backslash and the control
characters are escaped, the control characters by a letter where one exists. -/
def dataEscape (c : Char) : List Char :=
  if c = '"' then ['\\', '"']
  else if c = '\\' then ['\\', '\\']
  else if c = '\x08' then ['\\', 'b']
  else if c = '\t' then ['\\', 't']
  else if c = '\n' then ['\\', 'n']
  else if c = '\x0c' then ['\\', 'f']
  else if c = '\r' then ['\\', 'r']
  else if c.toNat < 32 then unitEscape c.toNat
  else [c]

/-- A character inside double quotes of a script: as in a data file, and the line separators
U+2028 and U+2029 are escaped too. -/
def doubleEscape (c : Char) : List Char :=
  if c = '\u2028' ∨ c = '\u2029' then unitEscape c.toNat else dataEscape c

/-- A character inside single quotes of a script: the quote, the backslash and the four line
terminators are escaped. -/
def singleEscape (c : Char) : List Char :=
  if c = '\\' then ['\\', '\\']
  else if c = '\'' then ['\\', '\'']
  else if c = '\n' then ['\\', 'n']
  else if c = '\r' then ['\\', 'r']
  else if c = '\u2028' ∨ c = '\u2029' then unitEscape c.toNat
  else [c]

/-- The text in double quotes, as a data file writes it. -/
def dataQuoted (text : String) : String :=
  String.ofList ('"' :: text.toList.flatMap dataEscape ++ ['"'])

/-- The text as a double-quoted literal of a script. -/
def doubleQuoted (text : String) : String :=
  String.ofList ('"' :: text.toList.flatMap doubleEscape ++ ['"'])

/-- The text as a single-quoted literal of a script. -/
def singleQuoted (text : String) : String :=
  String.ofList ('\'' :: text.toList.flatMap singleEscape ++ ['\''])

end KeysetBundle.Text
