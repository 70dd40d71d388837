import KeysetBundle.Script.Lexer
import KeysetBundle.Script.Node

/-!
# The parser of scripts

A parser holds the current token and the source after it. The grammar is recursive, so its
productions are written over an `Inner` parser for what is nested in them; `Script.Grammar` ties
the knot with a bound on the depth that is computed from the length of the source.
-/

namespace KeysetBundle.Script

/-! ## State -/

/-- The current token of a parser. -/
structure Lexeme where
  /-- The token. -/
  token : Token
  /-- Its line. -/
  line : Nat
  /-- Whether a line terminator stands before it. -/
  newline : Bool
  /-- The source from the token on. -/
  start : List Char
  /-- The source after the token. -/
  rest : List Char

/-- The state of a parser. -/
structure ParserState where
  /-- The current token. -/
  current : Lexeme
  /-- The number of lines of the source. -/
  lastLine : Nat

/-- A parser reads tokens or finds a syntax error. -/
abbrev Parser := StateT ParserState (Except SyntaxError)

/-- The first token of a source of which `source` is the part that is left. -/
def lexeme (lastLine : Nat) (source : List Char) : Except SyntaxError Lexeme :=
  match skipBlanks source with
  | none => .error ⟨lastLine - lineBreaks source, .unterminated⟩
  | some (newline, start) =>
    let line := lastLine - lineBreaks start
    match readToken start with
    | .error fault => .error ⟨line, fault⟩
    | .ok (token, rest) => .ok ⟨token, line, newline, start, rest⟩

/-- Runs a parser on a source. -/
def Parser.run {α : Type} (parser : Parser α) (source : List Char) : Except SyntaxError α := do
  let lastLine := lineBreaks source + 1
  let first ← lexeme lastLine (withoutPreamble source)
  let (value, _) ← StateT.run parser ⟨first, lastLine⟩
  .ok value

/-! ## Tokens -/

/-- Fails at the current token. -/
def fail {α : Type} (fault : Fault) : Parser α := fun state =>
  .error ⟨state.current.line, fault⟩

/-- Fails because the current token does not fit. -/
def unexpected {α : Type} : Parser α := fail .unexpectedToken

/-- The current token. -/
def token : Parser Token := do return (← get).current.token

/-- The line of the current token. -/
def line : Parser Nat := do return (← get).current.line

/-- Whether a line terminator stands before the current token. -/
def newline : Parser Bool := do return (← get).current.newline

/-- Goes on to the next token. -/
def advance : Parser Unit := fun state =>
  match lexeme state.lastLine state.current.rest with
  | .error e => .error e
  | .ok current => .ok ((), { state with current })

/-- Whether the current token is a punctuator. -/
def sees (punctuator : Punctuator) : Parser Bool := do
  return (← token) == .punctuator punctuator

/-- Whether the current token is a word without escapes. -/
def seesWord (word : String) : Parser Bool := do
  return (← token) == .name word false

/-- Reads a punctuator if it is the current token. -/
def accept (punctuator : Punctuator) : Parser Bool := do
  if ← sees punctuator then
    advance
    return true
  return false

/-- Reads a word if it is the current token. -/
def acceptWord (word : String) : Parser Bool := do
  if ← seesWord word then
    advance
    return true
  return false

/-- Reads a punctuator that must stand here. -/
def expect (punctuator : Punctuator) : Parser Unit := do
  if !(← accept punctuator) then unexpected

/-- Reads a word that must stand here. -/
def expectWord (word : String) : Parser Unit := do
  if !(← acceptWord word) then unexpected

/-- Reads the end of a statement: a semicolon, or nothing before a closing brace, at the end of
the source and after a line terminator. -/
def endStatement : Parser Unit := do
  if ← accept .semicolon then return
  if ← sees .closeBrace then return
  if (← token) == .finish then return
  if ← newline then return
  unexpected

/-- The arrow of a function on the line on which its parameters end. -/
def seesArrow : Parser Bool := do
  return (← sees .arrow) && !(← newline)

/-- Runs a parser and goes back to where it started, unless it finds something. -/
def attempt {α : Type} (parser : Parser (Option α)) : Parser (Option α) := do
  let before ← get
  match ← parser with
  | some value => return some value
  | none =>
    set before
    return none

/-! ## Names -/

/-- The words that are no names in the strict code of a module. -/
def reservedWords : List String :=
  ["await", "break", "case", "catch", "class", "const", "continue", "debugger", "default",
    "delete", "do", "else", "enum", "export", "extends", "false", "finally", "for", "function",
    "if", "implements", "import", "in", "instanceof", "interface", "let", "new", "null",
    "package", "private", "protected", "public", "return", "static", "super", "switch", "this",
    "throw", "true", "try", "typeof", "var", "void", "while", "with", "yield"]

/-- Whether a word is reserved. -/
def isReserved (word : String) : Bool := reservedWords.contains word

/-- Reads any name, reserved or not. -/
def anyName : Parser String := do
  match ← token with
  | .name text _ =>
    advance
    return text
  | _ => unexpected

/-- Reads a name that is not reserved. -/
def freeName : Parser String := do
  match ← token with
  | .name text _ =>
    if isReserved text then fail (.reservedWord text)
    advance
    return text
  | _ => unexpected

/-! ## Repetition -/

/-- Repeats a parser until `stop` holds, at most `bound` times. -/
def repeatUntil {α : Type} (stop : Parser Bool) (parser : Parser α) : Nat → Parser (List α)
  | 0 => fail .tooDeep
  | bound + 1 => do
    if ← stop then return []
    let value ← parser
    let values ← repeatUntil stop parser bound
    return value :: values

/-- Reads elements with commas between them up to a closing punctuator; a comma may also stand
before it. The flag tells whether one does. -/
def commaSeparated {α : Type} (close : Punctuator) (element : Parser α) :
    Nat → Parser (List α × Bool)
  | 0 => fail .tooDeep
  | bound + 1 => do
    if ← accept close then return ([], true)
    let value ← element
    if ← accept close then return ([value], false)
    expect .comma
    let (values, comma) ← commaSeparated close element bound
    return (value :: values, comma)

/-! ## What is nested -/

/-- Which operators and words an expression may have. -/
structure Context where
  /-- Whether a generator may yield. -/
  yields : Bool
  /-- Whether a promise may be waited for. -/
  awaits : Bool
  /-- Whether the word `in` is an operator. -/
  hasIn : Bool

/-- The context with `in` as an operator. -/
def Context.withIn (context : Context) : Context := { context with hasIn := true }

/-- The context of the body of a function. -/
def Context.body (async generator : Bool) : Context := ⟨generator, async, true⟩

/-- The context of the parameters of a function. -/
def Context.params : Context := ⟨false, false, true⟩

/-- What an inner parser can be asked for. -/
inductive Goal
  /-- An expression without commas. -/
  | assignment
  /-- An operand with the signs and words before it. -/
  | unary
  /-- An operand with its powers. -/
  | power
  /-- An operand with its members and calls. -/
  | leftHandSide
  /-- The operand of `new`. -/
  | constructed
  /-- A statement that is no declaration. -/
  | statement
  /-- A statement or a declaration. -/
  | item
  deriving DecidableEq, Repr, Inhabited

/-- The parser for what is nested, and a bound on the length of what it reads. -/
structure Inner where
  /-- No list of the source has more elements. -/
  bound : Nat
  /-- Reads what is asked for. -/
  read : Goal → Context → Parser Node

end KeysetBundle.Script
