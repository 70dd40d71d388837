/-!
# Message templates

A template is a text with substitutions in braces: a parameter, or the call of a function with
arguments. This module holds the parts of a template and what can be wrong with one.
-/

namespace KeysetBundle.Template

/-- The number of bytes of a sequence of characters in UTF-8. -/
def utf8Length (cs : List Char) : Nat :=
  (cs.map Char.utf8Size).foldr (· + ·) 0

/-- A parameter, addressed by the names between the dots of `user.name`. -/
structure ParamPath where
  /-- The names, outermost first. -/
  segments : List String
  deriving DecidableEq, Repr, Inhabited

/-- The names joined by dots. -/
def ParamPath.dotted (path : ParamPath) : String :=
  ".".intercalate path.segments

/-- An argument of a call. -/
inductive Argument
  /-- The value of a parameter. -/
  | param (path : ParamPath)
  /-- A quoted text. -/
  | text (value : String)
  /-- A number, kept as it is written. -/
  | number (word : String)
  deriving DecidableEq, Repr, Inhabited

/-- What stands between a pair of braces. -/
inductive Substitution
  /-- The value of a parameter. -/
  | param (path : ParamPath)
  /-- The call of a function; `offset` is the place of the opening brace, in bytes. -/
  | call (function : String) (arguments : List Argument) (offset : Nat)
  deriving DecidableEq, Repr, Inhabited

/-- A part of a template. -/
inductive Part
  /-- Text that stands for itself. -/
  | text (value : String)
  /-- A substitution. -/
  | subst (value : Substitution)
  deriving DecidableEq, Repr, Inhabited

/-! ## Faults -/

/-- What can be wrong with a template. -/
inductive Fault
  /-- The template ends after a backslash. -/
  | trailingBackslash
  /-- A closing brace without an opening one. -/
  | strayClose
  /-- An opening brace without a closing one. -/
  | unclosed
  /-- An opening brace inside a substitution. -/
  | nested
  /-- A quoted text without its closing quote. -/
  | unterminatedText
  /-- A word that starts as a number and is none. -/
  | invalidNumber (word : String)
  /-- A character that starts no token. -/
  | unexpectedChar (c : Char)
  /-- Nothing between the braces. -/
  | emptySubstitution
  /-- The first token is no word. -/
  | expectedName
  /-- A word that should be a parameter and is no dotted path of names. -/
  | invalidParameter (word : String)
  /-- A word that should be a function and is no name. -/
  | invalidFunction (word : String)
  /-- No layer provides the function. -/
  | unknownFunction (name : String)
  /-- The layer that provides the function refuses the call. -/
  | refused (reason : String)
  deriving DecidableEq, Repr, Inhabited

/-- The words for a fault. -/
def Fault.message : Fault → String
  | .trailingBackslash => "Trailing `\\`"
  | .strayClose => "Unexpected `\x7d`"
  | .unclosed => "Unclosed `\x7b`"
  | .nested => "Nested `\x7b`"
  | .unterminatedText => "Unterminated string"
  | .invalidNumber word => "Invalid number `" ++ word ++ "`"
  | .unexpectedChar c => "Unexpected character `" ++ String.singleton c ++ "`"
  | .emptySubstitution => "Empty substitution `\x7b\x7d`"
  | .expectedName => "Expected a parameter or function name"
  | .invalidParameter word => "Invalid parameter name `" ++ word ++ "`"
  | .invalidFunction word => "Invalid function name `" ++ word ++ "`"
  | .unknownFunction name => "Unknown function `" ++ name ++ "`"
  | .refused reason => reason

/-- A fault and its place, counted in bytes from the start of the template. -/
structure Error where
  /-- What is wrong. -/
  fault : Fault
  /-- Where it is. -/
  offset : Nat
  deriving DecidableEq, Repr, Inhabited

/-- The words for an error with its place. -/
def Error.message (e : Error) : String :=
  e.fault.message ++ " (at offset " ++ toString e.offset ++ ")"

end KeysetBundle.Template
