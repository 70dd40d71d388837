import KeysetBundle.Script.Expression

/-!
# Operands and operators

From the operands up to the assignments. An arrow function may only start an assignment, so the
first operand of an assignment is read apart: it is an arrow function or the start of a longer
expression.
-/

namespace KeysetBundle.Script

/-! ## Operands -/

/-- Reads a regular expression where an operand must stand. -/
def regexLiteral : Parser Node := fun state =>
  match readRegex state.current.start with
  | .error fault => .error ⟨state.current.line, fault⟩
  | .ok rest =>
    match lexeme state.lastLine rest with
    | .error e => .error e
    | .ok current => .ok (.form state.current.line .constant [], { state with current })

/-- Reads the piece of a template after a substitution; the closing brace is the current token. -/
def templateContinuation : Parser (Option (List Nat) × Bool) := fun state =>
  match state.current.token, state.current.start with
  | .punctuator .closeBrace, _ :: rest =>
    match readTemplatePiece rest with
    | none => .error ⟨state.current.line, .unterminated⟩
    | some piece =>
      match lexeme state.lastLine piece.rest with
      | .error e => .error e
      | .ok current => .ok ((piece.cooked, piece.last), { state with current })
  | _, _ => .error ⟨state.current.line, .unexpectedToken⟩

/-- Reads substitutions and pieces up to the end of a template. -/
def templateRest (inner : Inner) (context : Context) :
    Nat → Parser (List (Option (List Nat)) × List Node)
  | 0 => fail .tooDeep
  | bound + 1 => do
    let value ← expression inner context.withIn
    let (piece, last) ← templateContinuation
    if last then return ([piece], [value])
    let (pieces, values) ← templateRest inner context bound
    return (piece :: pieces, value :: values)

/-- Reads a template. Only a template behind a tag may have an invalid escape. -/
def templateLiteral (inner : Inner) (context : Context) (tagged : Bool) : Parser Node := do
  let start ← line
  match ← token with
  | .templatePiece piece last =>
    advance
    let (pieces, values) ←
      if last then pure ([], []) else templateRest inner context inner.bound
    let pieces := piece :: pieces
    if !tagged && pieces.any Option.isNone then fail .invalidText
    return .template start pieces values
  | _ => unexpected

/-- Reads `super` with the member or call that must follow. -/
def superExpression (inner : Inner) (context : Context) (callable : Bool) : Parser Node := do
  let start ← line
  expectWord "super"
  if ← accept .dot then
    return .member start (.form start .superObject []) (← anyName)
  if ← accept .openBracket then
    let key ← expression inner context.withIn
    expect .closeBracket
    return .index start (.form start .superObject []) key
  if callable && (← sees .openParen) then
    return .form start .superCall (← arguments inner context)
  unexpected

/-- Reads an import in an expression: the call of it or the data about the module. -/
def importExpression (inner : Inner) (context : Context) (callable : Bool) : Parser Node := do
  let start ← line
  expectWord "import"
  if ← accept .dot then
    expectWord "meta"
    return .form start .constant []
  if !callable then unexpected
  expect .openParen
  let source ← inner.read .assignment context.withIn
  let options ←
    if (← accept .comma) && !(← sees .closeParen) then
      let value ← inner.read .assignment context.withIn
      let _ ← accept .comma
      pure [value]
    else pure []
  expect .closeParen
  return .form start .operation (source :: options)

/-- Reads `new` with its operand and arguments. -/
def newExpression (inner : Inner) (context : Context) : Parser Node := do
  let start ← line
  expectWord "new"
  if ← accept .dot then
    expectWord "target"
    return .form start .newTarget []
  let callee ← inner.read .constructed context
  let values ← if ← sees .openParen then arguments inner context else pure []
  return .form start .operation (callee :: values)

/-- Reads the elements of a parenthesis, which may turn out to be parameters. The flag tells
whether they can only be parameters. -/
def parenthesised (inner : Inner) (context : Context) : Parser (List Node × Bool) := do
  expect .openParen
  let (items, comma) ← commaSeparated .closeParen (spreadable inner context) inner.bound
  let spreads := items.any fun
    | .spread .. => true
    | _ => false
  return (items, comma || spreads)

/-- The expression in parentheses, from its elements. -/
def parenNode (start : Nat) (items : List Node) : Parser Node :=
  match items with
  | [] => unexpected
  | [item] => return .paren start item
  | first :: _ => return .paren start (.form first.line .operation items)

/-- Reads an operand. `callable` tells whether it may be a call of `super` or `import`. -/
def primary (inner : Inner) (context : Context) (callable : Bool) : Parser Node := do
  let start ← line
  match ← token with
  | .name "this" false | .name "null" false | .name "true" false | .name "false" false =>
    advance
    return .form start .constant []
  | .name "function" false => functionExpression inner start false
  | .name "class" false => classExpression inner context
  | .name "new" false => newExpression inner context
  | .name "super" false => superExpression inner context callable
  | .name "import" false => importExpression inner context callable
  | .name "async" false =>
    advance
    if (← seesWord "function") && !(← newline) then functionExpression inner start true
    else return .name start "async"
  | .name .. => return .name start (← freeName)
  | .privateName text =>
    advance
    return .form start (.privateName text) []
  | .text value =>
    advance
    return .text start value
  | .number value =>
    advance
    return .number start value
  | .bigInteger =>
    advance
    return .form start .constant []
  | .templatePiece .. => templateLiteral inner context false
  | .punctuator .openBracket => arrayLiteral inner context
  | .punctuator .openBrace => objectLiteral inner context
  | .punctuator .openParen =>
    let (items, onlyParams) ← parenthesised inner context
    if onlyParams then unexpected
    parenNode start items
  | .punctuator .slash | .punctuator .slashAssign => regexLiteral
  | _ => unexpected

/-! ## Members and calls -/

/-- Reads a member after a point or after the start of a chain. -/
def memberName (object : Node) : Parser Node := do
  match ← token with
  | .privateName text =>
    advance
    return .form object.line (.privateMember text) [object]
  | _ => return .member object.line object (← anyName)

/-- Reads the members, calls and templates after an operand. `calls` tells whether a call may
follow, and `chained` whether a chain has started. -/
def suffixes (inner : Inner) (context : Context) (calls chained : Bool) (node : Node) :
    Nat → Parser Node
  | 0 => fail .tooDeep
  | bound + 1 => do
    match ← token with
    | .punctuator .dot =>
      advance
      suffixes inner context calls chained (← memberName node) bound
    | .punctuator .optionalDot =>
      if !calls then unexpected
      advance
      match ← token with
      | .punctuator .openParen =>
        let call := Node.form node.line .operation (node :: (← arguments inner context))
        suffixes inner context calls true call bound
      | .punctuator .openBracket =>
        advance
        let key ← expression inner context.withIn
        expect .closeBracket
        suffixes inner context calls true (.index node.line node key) bound
      | _ => suffixes inner context calls true (← memberName node) bound
    | .punctuator .openBracket =>
      advance
      let key ← expression inner context.withIn
      expect .closeBracket
      suffixes inner context calls chained (.index node.line node key) bound
    | .punctuator .openParen =>
      if !calls then return node
      let call := Node.form node.line .operation (node :: (← arguments inner context))
      suffixes inner context calls chained call bound
    | .templatePiece .. =>
      if chained then unexpected
      let template ← templateLiteral inner context true
      suffixes inner context calls chained (.form node.line .operation [node, template]) bound
    | _ => return if chained then .form node.line .chain [node] else node

/-- Reads what follows an operand: members, calls and a change by one. -/
def operandFrom (inner : Inner) (context : Context) (node : Node) : Parser Node := do
  let node ← suffixes inner context true false node inner.bound
  if ((← sees .increment) || (← sees .decrement)) && !(← newline) then
    advance
    return .form node.line .update [node]
  return node

/-- Reads an operand with its members and calls. -/
def leftHandSide (inner : Inner) (context : Context) : Parser Node := do
  suffixes inner context true false (← primary inner context true) inner.bound

/-- Reads the operand of `new` with its members. -/
def constructed (inner : Inner) (context : Context) : Parser Node := do
  suffixes inner context false false (← primary inner context false) inner.bound

/-! ## Signs and powers -/

/-- The construct that a sign or word before an operand makes. -/
def unaryForm (context : Context) : Token → Option Form
  | .punctuator .plus | .punctuator .minus | .punctuator .tilde | .punctuator .bang => some .unary
  | .punctuator .increment | .punctuator .decrement => some .update
  | .name "typeof" false | .name "void" false => some .unary
  | .name "delete" false => some .delete
  | .name "await" false => if context.awaits then some .await else none
  | _ => none

/-- Reads an operand with the signs and words before it. -/
def unary (inner : Inner) (context : Context) : Parser Node := do
  let start ← line
  match unaryForm context (← token) with
  | some kind =>
    advance
    return .form start kind [← inner.read .unary context]
  | none => operandFrom inner context (← primary inner context true)

/-- Whether a node is an operand with a sign or word before it. -/
def isSigned : Node → Bool
  | .form _ kind _ => kind = .unary || kind = .delete || kind = .await
  | _ => false

/-- Reads powers, whose base must not have a sign. -/
def power (inner : Inner) (context : Context) (first : Parser Node) : Parser Node := do
  let base ← first
  if ← sees .power then
    if isSigned base then unexpected
    advance
    let exponent ← inner.read .power context
    return .form base.line .operation [base, exponent]
  return base

/-! ## Binary operators -/

/-- What a binary operator makes of its operands. -/
inductive Combination
  /-- A sum. -/
  | sum
  /-- Another operation. -/
  | operation
  /-- A test for membership. -/
  | membership
  /-- A short circuit on truth. -/
  | logical
  deriving DecidableEq, Repr, Inhabited

/-- The number of levels of binary operators. -/
def binaryLevels : Nat := 10

/-- The level of a binary operator, counted from the one that binds most tightly, and what it
makes. -/
def binaryOperator (context : Context) : Token → Option (Nat × Combination)
  | .punctuator .star | .punctuator .slash | .punctuator .percent => some (1, .operation)
  | .punctuator .plus => some (2, .sum)
  | .punctuator .minus => some (2, .operation)
  | .punctuator .shiftLeft | .punctuator .shiftRight | .punctuator .shiftRightZero =>
    some (3, .operation)
  | .punctuator .less | .punctuator .greater | .punctuator .lessEqual
  | .punctuator .greaterEqual | .name "instanceof" false => some (4, .operation)
  | .name "in" false => if context.hasIn then some (4, .membership) else none
  | .punctuator .equal | .punctuator .notEqual | .punctuator .identical
  | .punctuator .notIdentical => some (5, .operation)
  | .punctuator .bitAnd => some (6, .operation)
  | .punctuator .bitXor => some (7, .operation)
  | .punctuator .bitOr => some (8, .operation)
  | .punctuator .logicalAnd => some (9, .logical)
  | .punctuator .logicalOr => some (10, .logical)
  | _ => none

/-- The node of two operands. -/
def Combination.node (combination : Combination) (left right : Node) : Node :=
  match combination with
  | .sum => .sum left.line left right
  | .operation => .form left.line .operation [left, right]
  | .membership => .form left.line .membership [left, right]
  | .logical => .form left.line .logical [left, right]

/-- Reads the operators of one level and their right operands. -/
def combine (context : Context) (level : Nat) (operand : Parser Node) (left : Node) :
    Nat → Parser Node
  | 0 => fail .tooDeep
  | bound + 1 => do
    match binaryOperator context (← token) with
    | none => return left
    | some (operatorLevel, combination) =>
      if operatorLevel ≠ level then return left
      advance
      let right ← operand
      combine context level operand (combination.node left right) bound

/-- Reads an expression of operators up to a level; `first` reads its first operand. -/
def binary (inner : Inner) (context : Context) : Nat → Parser Node → Parser Node
  | 0, first => power inner context first
  | level + 1, first => do
    let left ← binary inner context level first
    combine context (level + 1) (binary inner context level (unary inner context)) left
      inner.bound

/-- The level of the operators that may stand beside `??`. -/
def coalesceLevel : Nat := 8

/-- Reads a short circuit. The operator `??` does not mix with those on truth. -/
def shortCircuit (inner : Inner) (context : Context) (first : Parser Node) : Parser Node := do
  let left ← binary inner context binaryLevels first
  if ← sees .coalesce then
    match left with
    | .form _ .logical _ => unexpected
    | _ =>
      let stop : Parser Bool := do return !(← accept .coalesce)
      let operand := binary inner context coalesceLevel (unary inner context)
      let others ← repeatUntil stop operand inner.bound
      return .form left.line .coalesce (left :: others)
  return left

/-- Reads a choice between two expressions, or just its condition. -/
def conditional (inner : Inner) (context : Context) (first : Parser Node) : Parser Node := do
  let test ← shortCircuit inner context first
  if ← accept .question then
    let yes ← inner.read .assignment context.withIn
    expect .colon
    let no ← inner.read .assignment context
    return .form test.line .operation [test, yes, no]
  return test

/-! ## Assignments -/

/-- What an assignment starts with. -/
inductive Opening
  /-- An arrow function, which ends there. -/
  | arrow (node : Node)
  /-- An operand that is read already. -/
  | operand (node : Node)
  /-- Anything else. -/
  | other

/-- Reads what follows the word `async` at the start of an assignment. -/
def asyncOpening (inner : Inner) (context : Context) (start : Nat) : Parser Opening := do
  if ← newline then return .operand (.name start "async")
  match ← token with
  | .name "function" false => return .operand (← functionExpression inner start true)
  | .name text _ =>
    if isReserved text then return .operand (.name start "async")
    let param ← attempt do
      let paramLine ← line
      advance
      if ← seesArrow then return some (Node.name paramLine text)
      return none
    match param with
    | some param => return .arrow (← arrowRest inner context start true [param])
    | none => return .operand (.name start "async")
  | .punctuator .openParen =>
    let (items, _) ← parenthesised inner context
    if ← seesArrow then
      return .arrow (← arrowRest inner context start true (Node.toElements items))
    return .operand (.form start .operation (.name start "async" :: items))
  | _ => return .operand (.name start "async")

/-- Reads an arrow function or the operand that stands where one could start. -/
def opening (inner : Inner) (context : Context) : Parser Opening := do
  let start ← line
  match ← token with
  | .punctuator .openParen =>
    let (items, onlyParams) ← parenthesised inner context
    if ← seesArrow then
      return .arrow (← arrowRest inner context start false (Node.toElements items))
    if onlyParams then unexpected
    return .operand (← parenNode start items)
  | .name "async" false =>
    advance
    if ← seesArrow then
      return .arrow (← arrowRest inner context start false [.name start "async"])
    asyncOpening inner context start
  | .name text _ =>
    if isReserved text then return .other
    advance
    let param := Node.name start text
    if ← seesArrow then return .arrow (← arrowRest inner context start false [param])
    return .operand param
  | _ => return .other

/-- Reads `yield` with its operand. -/
def yieldExpression (inner : Inner) (context : Context) : Parser Node := do
  let start ← line
  expectWord "yield"
  if ← newline then return .form start .yield []
  match ← token with
  | .punctuator .star =>
    advance
    return .form start .yield [← inner.read .assignment context]
  | .punctuator .closeParen | .punctuator .closeBracket | .punctuator .closeBrace
  | .punctuator .comma | .punctuator .semicolon | .punctuator .colon | .finish
  | .name "in" false | .name "of" false => return .form start .yield []
  | _ => return .form start .yield [← inner.read .assignment context]

/-- Reads what follows the first operand of an assignment. -/
def assignmentFrom (inner : Inner) (context : Context) (first : Parser Node) : Parser Node := do
  let left ← conditional inner context first
  match ← token with
  | .punctuator .assign =>
    advance
    let value ← inner.read .assignment context
    return .assign left.line left.toTarget value
  | .punctuator punctuator =>
    if punctuator.isCompoundAssign then
      advance
      let value ← inner.read .assignment context
      return .form left.line .compoundAssign [left, value]
    return left
  | _ => return left

/-- Reads an expression without commas. -/
def assignment (inner : Inner) (context : Context) : Parser Node := do
  if context.yields && (← seesWord "yield") then yieldExpression inner context
  else
    match ← opening inner context with
    | .arrow node => return node
    | .operand node => assignmentFrom inner context (operandFrom inner context node)
    | .other => assignmentFrom inner context (unary inner context)

end KeysetBundle.Script
