import KeysetBundle.Decimal.Binary64

/-!
# Tokens of scripts

The tokens of a script and the faults that a script can have.
-/

namespace KeysetBundle.Script

open KeysetBundle.Decimal (Binary64)

/-- The punctuators. -/
inductive Punctuator
  | openBrace | closeBrace | openParen | closeParen | openBracket | closeBracket
  | dot | ellipsis | semicolon | comma | colon | question | optionalDot | arrow
  | less | greater | lessEqual | greaterEqual
  | equal | notEqual | identical | notIdentical
  | plus | minus | star | slash | percent | power | increment | decrement
  | shiftLeft | shiftRight | shiftRightZero | bitAnd | bitOr | bitXor | bang | tilde
  | logicalAnd | logicalOr | coalesce
  | assign | plusAssign | minusAssign | starAssign | slashAssign | percentAssign | powerAssign
  | shiftLeftAssign | shiftRightAssign | shiftRightZeroAssign
  | bitAndAssign | bitOrAssign | bitXorAssign
  | logicalAndAssign | logicalOrAssign | coalesceAssign
  deriving DecidableEq, Repr, Inhabited

namespace Punctuator

/-- The spellings of the punctuators; a longer one stands before its own beginnings. -/
def spellings : List (List Char × Punctuator) :=
  [(">>>=".toList, .shiftRightZeroAssign),
    ("...".toList, .ellipsis), ("===".toList, .identical), ("!==".toList, .notIdentical),
    ("**=".toList, .powerAssign), ("<<=".toList, .shiftLeftAssign),
    (">>=".toList, .shiftRightAssign), (">>>".toList, .shiftRightZero),
    ("&&=".toList, .logicalAndAssign), ("||=".toList, .logicalOrAssign),
    ("??=".toList, .coalesceAssign),
    ("=>".toList, .arrow), ("==".toList, .equal), ("!=".toList, .notEqual),
    ("<=".toList, .lessEqual), (">=".toList, .greaterEqual), ("&&".toList, .logicalAnd),
    ("||".toList, .logicalOr), ("??".toList, .coalesce), ("++".toList, .increment),
    ("--".toList, .decrement), ("+=".toList, .plusAssign), ("-=".toList, .minusAssign),
    ("*=".toList, .starAssign), ("/=".toList, .slashAssign), ("%=".toList, .percentAssign),
    ("&=".toList, .bitAndAssign), ("|=".toList, .bitOrAssign), ("^=".toList, .bitXorAssign),
    ("<<".toList, .shiftLeft), (">>".toList, .shiftRight), ("**".toList, .power),
    ("\x7b".toList, .openBrace), ("\x7d".toList, .closeBrace), ("(".toList, .openParen),
    (")".toList, .closeParen), ("[".toList, .openBracket), ("]".toList, .closeBracket),
    (".".toList, .dot), (";".toList, .semicolon), (",".toList, .comma), (":".toList, .colon),
    ("?".toList, .question), ("<".toList, .less), (">".toList, .greater), ("+".toList, .plus),
    ("-".toList, .minus), ("*".toList, .star), ("/".toList, .slash), ("%".toList, .percent),
    ("&".toList, .bitAnd), ("|".toList, .bitOr), ("^".toList, .bitXor), ("!".toList, .bang),
    ("~".toList, .tilde), ("=".toList, .assign)]

/-- Whether a punctuator assigns the result of an operation. -/
def isCompoundAssign : Punctuator → Bool
  | .plusAssign | .minusAssign | .starAssign | .slashAssign | .percentAssign | .powerAssign
  | .shiftLeftAssign | .shiftRightAssign | .shiftRightZeroAssign
  | .bitAndAssign | .bitOrAssign | .bitXorAssign
  | .logicalAndAssign | .logicalOrAssign | .coalesceAssign => true
  | _ => false

end Punctuator

/-- A token. -/
inductive Token
  /-- A name or a keyword; `escaped` tells whether it is spelled with an escape. -/
  | name (text : String) (escaped : Bool)
  /-- A name after a number sign. -/
  | privateName (text : String)
  /-- A punctuator. -/
  | punctuator (punctuator : Punctuator)
  /-- A quoted text by its code points. -/
  | text (value : List Nat)
  /-- A number. -/
  | number (value : Binary64)
  /-- An integer of any size. -/
  | bigInteger
  /-- A piece of a template; `cooked` is its value unless an escape is invalid, and `last` tells
  whether the template ends with it. -/
  | templatePiece (cooked : Option (List Nat)) (last : Bool)
  /-- A regular expression. -/
  | regex
  /-- The end of the source. -/
  | finish
  deriving DecidableEq, Repr, Inhabited

/-- What can be wrong with a script. -/
inductive Fault
  /-- A character that starts no token. -/
  | unexpectedCharacter
  /-- A comment, text, template or regular expression that does not end. -/
  | unterminated
  /-- A malformed text. -/
  | invalidText
  /-- A malformed number. -/
  | invalidNumber
  /-- A malformed name. -/
  | invalidName
  /-- A malformed regular expression. -/
  | invalidRegex
  /-- A token that does not fit. -/
  | unexpectedToken
  /-- The end of a line where none may stand. -/
  | unexpectedLineBreak
  /-- A word that is no name here. -/
  | reservedWord (word : String)
  /-- A name that is declared twice. -/
  | duplicateName (name : String)
  /-- A name that is used and not declared. -/
  | undeclaredName (name : String)
  /-- A target that cannot be assigned to. -/
  | invalidTarget
  /-- A construct in a place where it has no meaning. -/
  | misplaced (construct : String)
  /-- A nesting that is deeper than the source is long; no script has one. -/
  | tooDeep
  deriving DecidableEq, Repr, Inhabited

/-- The words for a fault. -/
def Fault.message : Fault → String
  | .unexpectedCharacter => "unexpected character"
  | .unterminated => "unterminated token"
  | .invalidText => "malformed text"
  | .invalidNumber => "malformed number"
  | .invalidName => "malformed name"
  | .invalidRegex => "malformed regular expression"
  | .unexpectedToken => "unexpected token"
  | .unexpectedLineBreak => "unexpected end of line"
  | .reservedWord word => "`" ++ word ++ "` is a reserved word"
  | .duplicateName name => "`" ++ name ++ "` is already declared"
  | .undeclaredName name => "`" ++ name ++ "` is not declared"
  | .invalidTarget => "cannot assign to this expression"
  | .misplaced construct => construct ++ " is not allowed here"
  | .tooDeep => "nested too deeply"

/-- A fault and the line on which it is. -/
structure SyntaxError where
  /-- The line, counted from one. -/
  line : Nat
  /-- What is wrong. -/
  fault : Fault
  deriving DecidableEq, Repr, Inhabited

/-- The words for a syntax error. -/
def SyntaxError.message (e : SyntaxError) : String :=
  "line " ++ toString e.line ++ ": " ++ e.fault.message

end KeysetBundle.Script
