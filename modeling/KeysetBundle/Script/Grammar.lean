import KeysetBundle.Script.Statement
import KeysetBundle.Text.Surrogates

/-!
# Modules

Imports, exports and the statements between them, and the parser that reads what is nested. Each
level of nesting costs one unit of depth, and a level is entered at most a few times before a
token is read, so a depth of a multiple of the length of the source is never used up.
-/

namespace KeysetBundle.Script

/-! ## Nesting -/

/-- One production over a parser for what is nested in it. -/
def production (inner : Inner) (goal : Goal) (context : Context) : Parser Node :=
  match goal with
  | .assignment => assignment inner context
  | .unary => unary inner context
  | .power => power inner context (unary inner context)
  | .leftHandSide => leftHandSide inner context
  | .constructed => constructed inner context
  | .statement => statement inner context
  | .item => item inner context

/-- The parser of a given depth. -/
def nested : Nat → Goal → Context → Parser Node
  | 0, _, _ => fail .tooDeep
  | depth + 1, goal, context => production ⟨depth, nested depth⟩ goal context

/-- The inner parser of a given depth. -/
def Inner.ofDepth (depth : Nat) : Inner := ⟨depth, nested depth⟩

/-! ## Imports and exports -/

/-- Reads a name by which an export is known: any name, or a text without lone halves. -/
def exportedName : Parser String := do
  match ← token with
  | .text value =>
    match Text.ofCodePoints? value with
    | some text =>
      advance
      return text
    | none => fail .invalidText
  | _ => anyName

/-- Reads the text that names another module. -/
def moduleSource : Parser Unit := do
  match ← token with
  | .text _ => advance
  | _ => unexpected

/-- Reads `from` with the text that names another module. -/
def fromClause : Parser Unit := do
  expectWord "from"
  moduleSource

/-- Reads a name in braces of an import; the name under which it is bound here is not reserved. -/
def importSpecifier : Parser String := do
  match ← token with
  | .text _ =>
    let _ ← exportedName
    expectWord "as"
    freeName
  | _ =>
    let imported ← anyName
    if ← acceptWord "as" then freeName
    else if isReserved imported then fail (.reservedWord imported)
    else return imported

/-- Reads the names in braces of an import, or the one name for the whole module. -/
def importedNames (bound : Nat) : Parser (List String) := do
  if ← accept .star then
    expectWord "as"
    return [← freeName]
  expect .openBrace
  return (← commaSeparated .closeBrace importSpecifier bound).1

/-- Reads an import; the token after the word is the current one. -/
def importRest (bound start : Nat) : Parser Node := do
  match ← token with
  | .text _ =>
    moduleSource
    endStatement
    return .form start (.importNames []) []
  | .name .. =>
    let name ← freeName
    let names ← if ← accept .comma then importedNames bound else pure []
    fromClause
    endStatement
    return .form start (.importNames (name :: names)) []
  | _ =>
    let names ← importedNames bound
    fromClause
    endStatement
    return .form start (.importNames names) []

/-- A name in braces of an export. -/
structure ExportSpecifier where
  /-- The name that is exported. -/
  source : String
  /-- Whether that name could be a binding of this module. -/
  isFree : Bool
  /-- The name under which it is known. -/
  exported : String

/-- Reads a name in braces of an export. -/
def exportSpecifier : Parser ExportSpecifier := do
  let isName ← match ← token with
    | .name .. => pure true
    | _ => pure false
  let source ← exportedName
  let exported ← if ← acceptWord "as" then exportedName else pure source
  return ⟨source, isName && !isReserved source, exported⟩

/-- Reads an export of names in braces. -/
def exportNames (bound start : Nat) : Parser Node := do
  expect .openBrace
  let (specifiers, _) ← commaSeparated .closeBrace exportSpecifier bound
  if ← seesWord "from" then
    fromClause
    endStatement
    return .form start (.exportForeign (specifiers.map (·.exported))) []
  if specifiers.any fun specifier => !specifier.isFree then unexpected
  endStatement
  return .form start
    (.exportLocal (specifiers.map fun specifier => (specifier.source, specifier.exported))) []

/-- Reads an export of all names of another module. -/
def exportAll (start : Nat) : Parser Node := do
  expect .star
  let names ← if ← acceptWord "as" then pure [← exportedName] else pure []
  fromClause
  endStatement
  return .form start (.exportForeign names) []

/-- Reads a default export; the token after the word `default` is the current one. -/
def exportDefault (inner : Inner) (context : Context) (start : Nat) : Parser Node := do
  let valueLine ← line
  if ← seesWord "function" then
    return .form start .exportDefaultDeclaration
      [← functionDeclaration inner valueLine false true]
  if ← seesWord "class" then
    return .form start .exportDefaultDeclaration [← classDeclaration inner context true]
  if ← acceptAsyncFunction then
    return .form start .exportDefaultDeclaration
      [← functionDeclaration inner valueLine true true]
  let value ← inner.read .assignment context
  endStatement
  return .exportDefault start value

/-- Reads an export; the word is the current token. -/
def exportItem (inner : Inner) (context : Context) : Parser Node := do
  let start ← line
  advance
  match ← token with
  | .punctuator .star => exportAll start
  | .punctuator .openBrace => exportNames inner.bound start
  | .name "default" false =>
    advance
    exportDefault inner context start
  | .name "var" false | .name "let" false | .name "const" false | .name "function" false
  | .name "class" false =>
    return .form start .exportDeclaration [← item inner context]
  | _ =>
    if ← acceptAsyncFunction then
      return .form start .exportDeclaration [← functionDeclaration inner start true false]
    unexpected

/-- Reads an import, if one stands here that is no expression. -/
def importItem? (bound : Nat) : Parser (Option Node) :=
  attempt do
    let start ← line
    if !(← acceptWord "import") then return none
    if (← sees .openParen) || (← sees .dot) then return none
    return some (← importRest bound start)

/-- Reads an item at the top of a module. -/
def moduleItem (inner : Inner) : Parser Node := do
  let context : Context := ⟨false, true, true⟩
  if ← seesWord "export" then exportItem inner context
  else
    match ← importItem? inner.bound with
    | some node => return node
    | none => item inner context

/-- Reads the items of a module up to the end of the source. -/
def moduleItems (depth : Nat) : Parser (List Node) :=
  let stop : Parser Bool := do return (← token) == .finish
  repeatUntil stop (moduleItem (.ofDepth depth)) depth

/-- A depth that no source of the given length uses up. -/
def depthFor (length : Nat) : Nat := 16 * (length + 4)

/-- The tree of a script, as far as the grammar decides. -/
def parseItems (source : List Char) : Except SyntaxError (List Node) :=
  (moduleItems (depthFor source.length)).run source

end KeysetBundle.Script
