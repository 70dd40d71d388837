import KeysetBundle.Script.Operator

/-!
# Statements

The productions for statements and for the declarations inside them.
-/

namespace KeysetBundle.Script

/-! ## Declarations -/

/-- The binding that a word declares. -/
def bindingOf? : Token → Option Binding
  | .name "var" false => some .var
  | .name "let" false => some .letBinding
  | .name "const" false => some .const
  | _ => none

/-- Reads the target of a declarator: a name, or an array or object that is destructured. -/
def bindingTarget (inner : Inner) (context : Context) : Parser Node := do
  match ← token with
  | .punctuator .openBracket => return (← arrayLiteral inner context).toTarget
  | .punctuator .openBrace => return (← objectLiteral inner context).toTarget
  | _ =>
    let start ← line
    return .name start (← freeName)

/-- Whether a target is a name. -/
def isName : Node → Bool
  | .name .. => true
  | _ => false

/-- Reads the value of a declarator. A constant and a destructured value need one. -/
def declaratorRest (inner : Inner) (context : Context) (binding : Binding) (target : Node) :
    Parser Node := do
  if ← accept .assign then
    return .form target.line .declarator [target, ← inner.read .assignment context]
  if binding = .const || !isName target then unexpected
  return .form target.line .declarator [target]

/-- Reads the declarators after the first target. -/
def declarationFrom (inner : Inner) (context : Context) (start : Nat) (binding : Binding)
    (target : Node) : Parser Node := do
  let first ← declaratorRest inner context binding target
  let stop : Parser Bool := do return !(← accept .comma)
  let declarator : Parser Node := do
    declaratorRest inner context binding (← bindingTarget inner context)
  let others ← repeatUntil stop declarator inner.bound
  return .form start (.declaration binding) (first :: others)

/-- Reads a declaration of variables; the word before it is the current token. -/
def declaration (inner : Inner) (context : Context) (binding : Binding) : Parser Node := do
  let start ← line
  advance
  let node ← declarationFrom inner context start binding (← bindingTarget inner context)
  endStatement
  return node

/-- Reads a declared function; the word `function` is the current token. Only the default export
may have no name. -/
def functionDeclaration (inner : Inner) (start : Nat) (async nameless : Bool) : Parser Node := do
  expectWord "function"
  let generator ← accept .star
  let name ←
    if nameless && (← sees .openParen) then pure none else some <$> freeName
  functionRest inner start ⟨.declaration, async, generator, name⟩

/-- Reads a declared class; the word `class` is the current token. -/
def classDeclaration (inner : Inner) (context : Context) (nameless : Bool) : Parser Node := do
  let start ← line
  expectWord "class"
  let unnamed ← pure (nameless && ((← sees .openBrace) || (← seesWord "extends")))
  let name ← if unnamed then pure none else some <$> freeName
  classRest inner context start name

/-- Reads `async` if a function follows on the same line. -/
def acceptAsyncFunction : Parser Bool := do
  let found ← attempt do
    if !(← acceptWord "async") then return none
    if (← seesWord "function") && !(← newline) then return some ()
    return none
  return found.isSome

/-! ## Blocks and branches -/

/-- Reads statements up to a closing brace. -/
def itemsUntilBrace (inner : Inner) (context : Context) : Parser (List Node) :=
  repeatUntil (accept .closeBrace) (inner.read .item context) inner.bound

/-- Reads statements in braces. -/
def block (inner : Inner) (context : Context) : Parser Node := do
  let start ← line
  expect .openBrace
  return .form start .block (← itemsUntilBrace inner context)

/-- Reads an expression in parentheses. -/
def parenthesisedTest (inner : Inner) (context : Context) : Parser Node := do
  expect .openParen
  let test ← expression inner context.withIn
  expect .closeParen
  return test

/-- Reads a conditional statement. -/
def ifStatement (inner : Inner) (context : Context) : Parser Node := do
  let start ← line
  advance
  let test ← parenthesisedTest inner context
  let yes ← inner.read .statement context
  if ← acceptWord "else" then
    return .form start .branch [test, yes, ← inner.read .statement context]
  return .form start .branch [test, yes]

/-- Reads the statements of a case. -/
def caseItems (inner : Inner) (context : Context) : Parser (List Node) := do
  let stop : Parser Bool := do
    return (← seesWord "case") || (← seesWord "default") || (← sees .closeBrace)
  repeatUntil stop (inner.read .item context) inner.bound

/-- Reads a case: a test or the word `default`, and statements. -/
def switchCase (inner : Inner) (context : Context) : Parser (Node × Bool) := do
  let start ← line
  if ← acceptWord "default" then
    expect .colon
    let items ← caseItems inner context
    return (.form start .switchCase (.form start .constant [] :: items), true)
  expectWord "case"
  let test ← expression inner context.withIn
  expect .colon
  return (.form start .switchCase (test :: (← caseItems inner context)), false)

/-- Reads a choice among cases; at most one is the default. -/
def switchStatement (inner : Inner) (context : Context) : Parser Node := do
  let start ← line
  advance
  let value ← parenthesisedTest inner context
  expect .openBrace
  let cases ← repeatUntil (accept .closeBrace) (switchCase inner context) inner.bound
  if 1 < (cases.filter (·.2)).length then fail (.misplaced "a second default")
  return .form start .switchOn (value :: cases.map (·.1))

/-- Reads the handler of a `try`. -/
def handler (inner : Inner) (context : Context) : Parser Node := do
  let start ← line
  expectWord "catch"
  if ← accept .openParen then
    let param ← bindingTarget inner context.withIn
    expect .closeParen
    return .form start .handler [param, ← block inner context]
  return .form start .bareHandler [← block inner context]

/-- Reads statements with a handler, with statements that run in any case, or with both. -/
def tryStatement (inner : Inner) (context : Context) : Parser Node := do
  let start ← line
  advance
  let body ← block inner context
  let handlers ← if ← seesWord "catch" then pure [← handler inner context] else pure []
  let finals ← if ← acceptWord "finally" then pure [← block inner context] else pure []
  if handlers.isEmpty && finals.isEmpty then unexpected
  return .form start .tryBlock (body :: (handlers ++ finals))

/-! ## Loops -/

/-- Reads a loop with its condition before the body. -/
def whileStatement (inner : Inner) (context : Context) : Parser Node := do
  let start ← line
  advance
  let test ← parenthesisedTest inner context
  return .form start .whileLoop [test, ← inner.read .statement context]

/-- Reads a loop with its condition behind the body; a semicolon may follow. -/
def doStatement (inner : Inner) (context : Context) : Parser Node := do
  let start ← line
  advance
  let body ← inner.read .statement context
  expectWord "while"
  let test ← parenthesisedTest inner context
  let _ ← accept .semicolon
  return .form start .doLoop [test, body]

/-- Reads the condition and the step of a loop, each of which may be missing, and its body. The
first semicolon is the current token. -/
def forRest (inner : Inner) (context : Context) (start : Nat) (init : List Node) :
    Parser Node := do
  expect .semicolon
  let test ← if ← sees .semicolon then pure [] else pure [← expression inner context]
  expect .semicolon
  let update ← if ← sees .closeParen then pure [] else pure [← expression inner context]
  expect .closeParen
  return .form start .forLoop (init ++ test ++ update ++ [← inner.read .statement context])

/-- Reads the object of a loop over members and its body; the word before the object is the
current token. -/
def forEachRest (inner : Inner) (context : Context) (start : Nat) (target : Node) :
    Parser Node := do
  let object ←
    if ← acceptWord "of" then inner.read .assignment context
    else do
      expectWord "in"
      expression inner context
  expect .closeParen
  return .form start .forEach [target, object, ← inner.read .statement context]

/-- Whether the current token starts the object of a loop over members. -/
def seesMembers (awaited : Bool) : Parser Bool := do
  if ← seesWord "of" then return true
  if ← seesWord "in" then return !awaited
  return false

/-- Reads the head of a loop that starts with a declaration, and the rest of the loop. -/
def forDeclaration (inner : Inner) (context : Context) (start : Nat) (awaited : Bool)
    (binding : Binding) : Parser Node := do
  let declarationLine ← line
  advance
  let target ← bindingTarget inner context
  if ← seesMembers awaited then
    let head := Node.form declarationLine (.declaration binding)
      [.form target.line .declarator [target]]
    forEachRest inner context start head
  else
    if awaited then unexpected
    let head ←
      declarationFrom inner { context with hasIn := false } declarationLine binding target
    forRest inner context start [head]

/-- Reads the head of a loop that starts with an expression, and the rest of the loop. -/
def forExpression (inner : Inner) (context : Context) (start : Nat) (awaited : Bool) :
    Parser Node := do
  let plainAsync ← pure (!awaited && (← seesWord "async"))
  let head ← expression inner { context with hasIn := false }
  if ← seesMembers awaited then
    if plainAsync && isName head && (← seesWord "of") then unexpected
    forEachRest inner context start head.toTarget
  else
    if awaited then unexpected
    forRest inner context start [head]

/-- Reads a loop with a head in parentheses. -/
def forStatement (inner : Inner) (context : Context) : Parser Node := do
  let start ← line
  advance
  let awaited ← pure (context.awaits && (← acceptWord "await"))
  expect .openParen
  if (← sees .semicolon) && !awaited then forRest inner context start []
  else
    match bindingOf? (← token) with
    | some binding => forDeclaration inner context start awaited binding
    | none => forExpression inner context start awaited

/-! ## Jumps -/

/-- Reads a jump with the label it may have. -/
def jump (form : Option String → Form) : Parser Node := do
  let start ← line
  advance
  let label ←
    match ← token with
    | .name text _ =>
      if (← newline) || isReserved text then pure none
      else
        advance
        pure (some text)
    | _ => pure none
  endStatement
  return .form start (form label) []

/-- Reads the result of a function, which may be missing. -/
def returnStatement (inner : Inner) (context : Context) : Parser Node := do
  let start ← line
  advance
  let stops ← pure ((← newline) || (← sees .semicolon) || (← sees .closeBrace) ||
    (← token) == .finish)
  let value ← if stops then pure [] else pure [← expression inner context]
  endStatement
  return .form start .returnValue value

/-- Reads a thrown value, which stands on the line of the word. -/
def throwStatement (inner : Inner) (context : Context) : Parser Node := do
  let start ← line
  advance
  if ← newline then fail .unexpectedLineBreak
  let value ← expression inner context
  endStatement
  return .form start .statement [value]

/-! ## Statements -/

/-- Reads an expression as a statement. -/
def expressionStatement (inner : Inner) (context : Context) : Parser Node := do
  if ← acceptAsyncFunction then unexpected
  let value ← expression inner context
  endStatement
  return .form value.line .expressionStatement [value]

/-- Reads a label, if one stands here. -/
def label? : Parser (Option String) :=
  attempt do
    match ← token with
    | .name text _ =>
      if isReserved text then return none
      advance
      if ← accept .colon then return some text
      return none
    | _ => return none

/-- Reads a statement that is no declaration. -/
def statement (inner : Inner) (context : Context) : Parser Node := do
  let start ← line
  match ← token with
  | .punctuator .openBrace => block inner context
  | .punctuator .semicolon =>
    advance
    return .form start .statement []
  | .name "var" false => declaration inner context .var
  | .name "if" false => ifStatement inner context
  | .name "for" false => forStatement inner context
  | .name "while" false => whileStatement inner context
  | .name "do" false => doStatement inner context
  | .name "continue" false => jump .continueTo
  | .name "break" false => jump .breakTo
  | .name "return" false => returnStatement inner context
  | .name "switch" false => switchStatement inner context
  | .name "throw" false => throwStatement inner context
  | .name "try" false => tryStatement inner context
  | .name "debugger" false =>
    advance
    endStatement
    return .form start .statement []
  | .name "function" false | .name "class" false => unexpected
  | _ =>
    match ← label? with
    | some label => return .form start (.labelled label) [← inner.read .statement context]
    | none => expressionStatement inner context

/-- Reads a statement or a declaration. -/
def item (inner : Inner) (context : Context) : Parser Node := do
  let start ← line
  match ← token with
  | .name "function" false => functionDeclaration inner start false false
  | .name "class" false => classDeclaration inner context false
  | .name "let" false => declaration inner context .letBinding
  | .name "const" false => declaration inner context .const
  | _ =>
    if ← acceptAsyncFunction then functionDeclaration inner start true false
    else statement inner context

end KeysetBundle.Script
