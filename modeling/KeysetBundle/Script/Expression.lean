import KeysetBundle.Script.Parser

/-!
# Expressions

The productions for expressions. What the left side of an assignment or of an arrow may be is
decided when the operator is seen: the expression read so far is then turned into a target.
-/

namespace KeysetBundle.Script

/-! ## Lists -/

/-- Reads an element of an array or an argument, which may be spread. -/
def spreadable (inner : Inner) (context : Context) : Parser Node := do
  let start ← line
  if ← accept .ellipsis then
    let value ← inner.read .assignment context.withIn
    return .spread start (← sees .comma) value
  inner.read .assignment context.withIn

/-- Reads the arguments of a call; the opening parenthesis is the current token. -/
def arguments (inner : Inner) (context : Context) : Parser (List Node) := do
  expect .openParen
  return (← commaSeparated .closeParen (spreadable inner context) inner.bound).1

/-- Reads the elements of an array; the opening bracket is the current token. -/
def arrayLiteral (inner : Inner) (context : Context) : Parser Node := do
  let start ← line
  expect .openBracket
  let element : Parser Node := do
    if ← sees .comma then return .form (← line) .hole []
    spreadable inner context
  return .form start .array (← commaSeparated .closeBracket element inner.bound).1

/-- Reads expressions separated by commas. -/
def expression (inner : Inner) (context : Context) : Parser Node := do
  let first ← inner.read .assignment context
  if ← sees .comma then
    let stop : Parser Bool := do return !(← accept .comma)
    let others ← repeatUntil stop (inner.read .assignment context) inner.bound
    return .form first.line .operation (first :: others)
  return first

/-! ## Functions -/

/-- Whether parameters are names only. -/
def areSimple (params : List Node) : Bool :=
  params.all fun
    | .name .. => true
    | _ => false

/-- Whether the source goes on with the directive for strict code. -/
def startsWithStrict (source : List Char) : Bool :=
  "'use strict'".toList.isPrefixOf source || "\"use strict\"".toList.isPrefixOf source

/-- Reads statements up to a closing brace. Those at the start that are texts are directives; the
flag tells whether one of them asks for strict code. -/
def bodyItems (inner : Inner) (context : Context) : Bool → Nat → Parser (List Node × Bool)
  | _, 0 => fail .tooDeep
  | directives, bound + 1 => do
    if ← accept .closeBrace then return ([], false)
    let strict := startsWithStrict (← get).current.start
    let item ← inner.read .item context
    let directive := match item with
      | .form _ .expressionStatement [.text ..] => directives
      | _ => false
    let (items, stricter) ← bodyItems inner context directive bound
    return (item :: items, (directive && strict) || stricter)

/-- Reads the body of a function with the given parameters. A directive for strict code needs
parameters that are names only. -/
def functionBody (inner : Inner) (context : Context) (params : List Node) :
    Parser (List Node) := do
  expect .openBrace
  let (items, strict) ← bodyItems inner context true inner.bound
  if strict && !areSimple params then fail (.misplaced "a directive")
  return items

/-- Reads the parameters of a function. -/
def parameters (inner : Inner) : Parser (List Node) := do
  return Node.toElements (← arguments inner .params)

/-- Reads the parameters and the body of a function. -/
def functionRest (inner : Inner) (start : Nat) (head : FunctionHead) : Parser Node := do
  let params ← parameters inner
  let body ← functionBody inner (.body head.async head.generator) params
  return .function start head params body

/-- Reads what follows the parameters of an arrow function; the arrow is the current token. -/
def arrowRest (inner : Inner) (context : Context) (start : Nat) (async : Bool)
    (params : List Node) : Parser Node := do
  expect .arrow
  let head : FunctionHead := ⟨.arrow, async, false, none⟩
  if ← sees .openBrace then
    return .function start head params (← functionBody inner (.body async false) params)
  let bodyLine ← line
  let value ← inner.read .assignment ⟨false, async, context.hasIn⟩
  return .function start head params [.form bodyLine .returnValue [value]]

/-- Reads a function in an expression; the word `function` is the current token. -/
def functionExpression (inner : Inner) (start : Nat) (async : Bool) : Parser Node := do
  expectWord "function"
  let generator ← accept .star
  let name ← if ← sees .openParen then pure none else some <$> freeName
  functionRest inner start ⟨.expression, async, generator, name⟩

/-! ## Properties -/

/-- A key of a property, and the name if it could also stand for itself. -/
structure Key where
  /-- The key. -/
  node : Node
  /-- The name of a key that is a plain name. -/
  plain : Option String

/-- Reads the key of a property. -/
def propertyKey (inner : Inner) (context : Context) : Parser Key := do
  let start ← line
  match ← token with
  | .name text _ =>
    advance
    return ⟨.name start text, some text⟩
  | .text value =>
    advance
    return ⟨.text start value, none⟩
  | .number value =>
    advance
    return ⟨.number start value, none⟩
  | .bigInteger =>
    advance
    return ⟨.form start .bigIntegerKey [], none⟩
  | .punctuator .openBracket =>
    advance
    let value ← inner.read .assignment context.withIn
    expect .closeBracket
    return ⟨.form start .computedKey [value], none⟩
  | _ => unexpected

/-- Whether the current token shows that the word before it was a key and no modifier. -/
def endsKey : Parser Bool := do
  return (← sees .openParen) || (← sees .comma) || (← sees .colon) || (← sees .closeBrace) ||
    (← sees .assign) || (← sees .semicolon)

/-- Reads a word before a key, if the current token is that word and not the key itself. -/
def modifier (word : String) : Parser Bool := do
  let found ← attempt do
    if !(← acceptWord word) then return none
    if ← endsKey then return none
    return some ()
  return found.isSome

/-- Reads the rest of a getter. -/
def getterRest (inner : Inner) (start : Nat) (key : Node) : Parser Node := do
  expect .openParen
  expect .closeParen
  return .accessor start key [] (← functionBody inner (.body false false) [])

/-- Reads the rest of a setter, which has one parameter. -/
def setterRest (inner : Inner) (start : Nat) (key : Node) : Parser Node := do
  expect .openParen
  let param ← inner.read .assignment .params
  expect .closeParen
  let params := Node.toElements [param]
  return .accessor start key params (← functionBody inner (.body false false) params)

/-- Reads the rest of a method. -/
def methodRest (inner : Inner) (role : Role) (async generator : Bool) (key : Node) :
    Parser Node := do
  let function ← functionRest inner (← line) ⟨role, async, generator, none⟩
  return .method key.line key function

/-- Reads the rest of a property that starts with a plain key. -/
def propertyRest (inner : Inner) (context : Context) (key : Key) : Parser Node := do
  if ← sees .openParen then
    methodRest inner .method false false key.node
  else if ← accept .colon then
    return .property key.node.line key.node (← inner.read .assignment context.withIn)
  else
    match key.plain with
    | none => unexpected
    | some name =>
      if isReserved name then fail (.reservedWord name)
      if ← accept .assign then
        let value ← inner.read .assignment context.withIn
        return .form key.node.line (.cover name) [value]
      return .form key.node.line (.shorthand name) []

/-- Reads a property of an object. -/
def property (inner : Inner) (context : Context) : Parser Node := do
  let start ← line
  if ← accept .ellipsis then
    let value ← inner.read .assignment context.withIn
    return .spread start (← sees .comma) value
  if ← accept .star then
    let key ← propertyKey inner context
    methodRest inner .method false true key.node
  else if ← modifier "async" then
    if ← newline then fail .unexpectedLineBreak
    let generator ← accept .star
    let key ← propertyKey inner context
    methodRest inner .method true generator key.node
  else if ← modifier "get" then
    let key ← propertyKey inner context
    getterRest inner start key.node
  else if ← modifier "set" then
    let key ← propertyKey inner context
    setterRest inner start key.node
  else
    propertyRest inner context (← propertyKey inner context)

/-- Reads an object; the opening brace is the current token. -/
def objectLiteral (inner : Inner) (context : Context) : Parser Node := do
  let start ← line
  expect .openBrace
  return .object start (← commaSeparated .closeBrace (property inner context) inner.bound).1

/-! ## Classes -/

/-- Reads the key of a member of a class, which may be a private name. -/
def memberKey (inner : Inner) (context : Context) : Parser Node := do
  match ← token with
  | .privateName name =>
    let start ← line
    advance
    return .form start (.privateName name) []
  | _ => return (← propertyKey inner context).node

/-- Whether a key names the constructor of a class. -/
def namesConstructor : Node → Bool
  | .name _ text => text == "constructor"
  | .text _ value => value == "constructor".toList.map Char.toNat
  | _ => false

/-- Reads the rest of a field; it ends like a statement. -/
def fieldRest (inner : Inner) (start : Nat) (key : Node) : Parser Node := do
  let parts ←
    if ← accept .assign then pure [← inner.read .assignment .params] else pure []
  endStatement
  return .form start .field (key :: parts)

/-- Reads a member of a class that starts with a plain key. -/
def memberRest (inner : Inner) (start : Nat) (isStatic derived : Bool) (key : Node) :
    Parser Node := do
  if ← sees .openParen then
    let role :=
      if isStatic || !namesConstructor key then Role.method
      else if derived then .derivedConstructor
      else .baseConstructor
    methodRest inner role false false key
  else
    fieldRest inner start key

/-- Reads a member of a class after the word `static`, or without it. -/
def classMember (inner : Inner) (context : Context) (isStatic derived : Bool) : Parser Node := do
  let start ← line
  if ← accept .star then
    methodRest inner .method false true (← memberKey inner context)
  else
    let async ← attempt do
      if !(← acceptWord "async") then return none
      if (← endsKey) || (← newline) then return none
      return some ()
    if async.isSome then
      let generator ← accept .star
      methodRest inner .method true generator (← memberKey inner context)
    else
      let kind ← attempt do
        let getter ← seesWord "get"
        let setter ← seesWord "set"
        if !getter && !setter then return none
        advance
        -- A line break may stand after the word, but a star starts a member of its own.
        if (← endsKey) || ((← newline) && (← sees .star)) then return none
        if (← token) == .finish then return none
        return some getter
      match kind with
      | some true => getterRest inner start (← memberKey inner context)
      | some false => setterRest inner start (← memberKey inner context)
      | none => memberRest inner start isStatic derived (← memberKey inner context)

/-- Reads an element of a class body. -/
def classElement (inner : Inner) (context : Context) (derived : Bool) : Parser Node := do
  let start ← line
  let isStatic ← modifier "static"
  if isStatic then
    if ← accept .openBrace then
      let (items, _) ← bodyItems inner ⟨false, false, true⟩ false inner.bound
      return .form start .staticBlock items
    return .form start .staticMember [← classMember inner context true derived]
  classMember inner context false derived

/-- Reads the elements of a class body up to its closing brace. -/
def classElements (inner : Inner) (context : Context) (derived : Bool) :
    Nat → Parser (List Node)
  | 0 => fail .tooDeep
  | bound + 1 => do
    if ← accept .closeBrace then return []
    if ← accept .semicolon then classElements inner context derived bound
    else
      let element ← classElement inner context derived
      let elements ← classElements inner context derived bound
      return element :: elements

/-- Reads the parent and the body of a class. -/
def classRest (inner : Inner) (context : Context) (start : Nat) (name : Option String) :
    Parser Node := do
  let parent ←
    if ← acceptWord "extends" then pure [← inner.read .leftHandSide context] else pure []
  expect .openBrace
  let elements ← classElements inner context (!parent.isEmpty) inner.bound
  return .class start name parent elements

/-- Reads a class in an expression; the word `class` is the current token. -/
def classExpression (inner : Inner) (context : Context) : Parser Node := do
  let start ← line
  expectWord "class"
  let named ← match ← token with
    | .name text _ => pure (text != "extends")
    | _ => pure false
  let name ← if named then some <$> freeName else pure none
  classRest inner context start name

end KeysetBundle.Script
