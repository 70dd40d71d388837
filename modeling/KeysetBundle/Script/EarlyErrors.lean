import KeysetBundle.Script.Scope
import KeysetBundle.Script.Expression

/-!
# Errors that are found before a script runs

Some rules of a script are not rules of its grammar: a name is declared once in its block, a jump
has somewhere to go, a private name belongs to a class around it. They are checked on the tree,
with what is known from the constructs around a node.
-/

namespace KeysetBundle.Script

/-- What is known from the constructs around a node. -/
structure Surroundings where
  /-- Whether a function is there to return from. -/
  returns : Bool
  /-- The labels that a jump can name, each with whether it stands before a loop. -/
  labels : List (String × Bool)
  /-- Whether a loop is there to go on with. -/
  loops : Bool
  /-- Whether a loop or a choice is there to leave. -/
  breaks : Bool
  /-- Whether the parent constructor can be called. -/
  superCalls : Bool
  /-- Whether the parent has members. -/
  superMembers : Bool
  /-- Whether a function is there that can be constructed. -/
  constructs : Bool
  /-- The private names of the classes around. -/
  privates : List String
  /-- Whether the arguments of a function can be referred to. -/
  hasArguments : Bool

namespace Surroundings

/-- Around the items of a module there is nothing. -/
def module : Surroundings := ⟨false, [], false, false, false, false, false, [], true⟩

/-- Inside a function of the given role. -/
def function (around : Surroundings) (role : Role) : Surroundings :=
  match role with
  | .arrow => { around with returns := true, labels := [], loops := false, breaks := false }
  | .declaration | .expression =>
    ⟨true, [], false, false, false, false, true, around.privates, true⟩
  | .method | .baseConstructor =>
    ⟨true, [], false, false, false, true, true, around.privates, true⟩
  | .derivedConstructor =>
    ⟨true, [], false, false, true, true, true, around.privates, true⟩

/-- Inside the value of a field or a static block of a class. -/
def initializer (around : Surroundings) : Surroundings :=
  ⟨false, [], false, false, false, true, true, around.privates, false⟩

/-- Inside a loop. -/
def loop (around : Surroundings) : Surroundings := { around with loops := true, breaks := true }

/-- Inside a choice among cases. -/
def choice (around : Surroundings) : Surroundings := { around with breaks := true }

end Surroundings

/-! ## Parts of the rules -/

/-- Fails at a line. -/
def failAt (line : Nat) (fault : Fault) : Except SyntaxError Unit := .error ⟨line, fault⟩

/-- Fails unless a condition holds. -/
def require (condition : Bool) (line : Nat) (fault : Fault) : Except SyntaxError Unit :=
  if condition then .ok () else .error ⟨line, fault⟩

/-- Fails if there is a name that is declared twice. -/
def refuse (name? : Option String) (line : Nat) : Except SyntaxError Unit :=
  match name? with
  | some name => .error ⟨line, .duplicateName name⟩
  | none => .ok ()

namespace Node

/-- Whether a key is computed. -/
def isComputedKey : Node → Bool
  | .form _ .computedKey _ => true
  | _ => false

/-- Whether a key that is not computed has the given name. -/
def isKey (text : String) : Node → Bool
  | .name _ id => id == text
  | .text _ value => value == text.toList.map Char.toNat
  | _ => false

/-- Whether a property sets the prototype of its object. -/
def setsPrototype : Node → Bool
  | .property _ key _ => key.isKey "__proto__"
  | _ => false

/-- Whether a statement is a loop, perhaps behind labels. -/
def isLoop : Node → Bool
  | .form _ .whileLoop _ | .form _ .doLoop _ | .form _ .forLoop _ | .form _ .forEach _ => true
  | .form _ (.labelled _) [body] => isLoop body
  | _ => false

/-- Whether an expression is a name or a private member, which cannot be removed. -/
def isIrremovable : Node → Bool
  | .name .. => true
  | .form _ (.privateMember _) _ => true
  | .paren _ inner => isIrremovable inner
  | .form _ .chain [inner] =>
    match inner with
    | .form _ (.privateMember _) _ => true
    | _ => false
  | _ => false

mutual

/-- Whether a wait or a yield belongs to the function around the node. -/
def suspends : Node → Bool
  | .form _ .await _ => true
  | .form _ .yield _ => true
  | .form _ _ parts => anySuspends parts
  | .template _ _ values => anySuspends values
  | .paren _ inner => suspends inner
  | .member _ inner _ => suspends inner
  | .index _ inner key => suspends inner || suspends key
  | .sum _ left right => suspends left || suspends right
  | .assign _ target value => suspends target || suspends value
  | .object _ properties => anySuspends properties
  | .property _ key value => suspends key || suspends value
  | .method _ key _ => suspends key
  | .accessor _ key _ _ => suspends key
  | .spread _ _ inner => suspends inner
  | .class _ _ parent members => anySuspends parent || anySuspends members
  | _ => false

/-- Whether a wait or a yield in one of the nodes belongs to the function around them. -/
def anySuspends : List Node → Bool
  | [] => false
  | node :: rest => suspends node || anySuspends rest

end

end Node

/-! ## Classes -/

/-- How a member of a class takes part in a private name. -/
inductive PrivateUse
  /-- It reads the member. -/
  | getter
  /-- It writes the member. -/
  | setter
  /-- It is the member. -/
  | whole
  deriving DecidableEq, Repr, Inhabited

/-- The private name that a member declares, how, and whether for the class itself. -/
def privateUse? (isStatic : Bool) : Node → Option (String × PrivateUse × Bool)
  | .method _ (.form _ (.privateName name) _) _ => some (name, .whole, isStatic)
  | .accessor _ (.form _ (.privateName name) _) params _ =>
    some (name, if params.isEmpty then .getter else .setter, isStatic)
  | .form _ .field (.form _ (.privateName name) _ :: _) => some (name, .whole, isStatic)
  | _ => none

/-- The private names that the members of a class declare. -/
def privateUses (members : List Node) : List (String × PrivateUse × Bool) :=
  members.filterMap fun
    | .form _ .staticMember [member] => privateUse? true member
    | member => privateUse? false member

/-- Whether two members may declare the same private name: one reads and one writes it. -/
def arePartners (a b : PrivateUse × Bool) : Bool :=
  a.2 == b.2 && ((a.1 == .getter && b.1 == .setter) || (a.1 == .setter && b.1 == .getter))

/-- A private name that is declared twice. -/
def privateClash? : List (String × PrivateUse × Bool) → Option String
  | [] => none
  | (name, use) :: rest =>
    match rest.filter (·.1 == name) with
    | [] => privateClash? rest
    | [other] => if arePartners use other.2 then privateClash? rest else some name
    | _ => some name

/-- Whether a member may have its key. -/
def hasValidKey (isStatic : Bool) : Node → Bool
  | .method _ key function =>
    match function with
    | .function _ head _ _ =>
      if isStatic then !key.isKey "prototype"
      else !key.isKey "constructor" || head.role = .baseConstructor ||
        head.role = .derivedConstructor
    | _ => true
  | .accessor _ key _ _ =>
    if isStatic then !key.isKey "prototype" else !key.isKey "constructor"
  | .form _ .field (key :: _) =>
    !key.isKey "constructor" && !(isStatic && key.isKey "prototype")
  | .form _ .staticMember [member] => hasValidKey true member
  | _ => true

/-- Whether a member is the constructor. -/
def isConstructor : Node → Bool
  | .method _ _ (.function _ head _ _) =>
    head.role = .baseConstructor || head.role = .derivedConstructor
  | _ => false

/-- Checks the members of a class among each other. -/
def checkMembers (line : Nat) (members : List Node) : Except SyntaxError Unit := do
  require (members.all (hasValidKey false)) line (.misplaced "a reserved member name")
  require ((members.filter isConstructor).length ≤ 1) line (.duplicateName "constructor")
  let uses := privateUses members
  require (!(uses.map (·.1)).contains "constructor") line (.misplaced "a reserved member name")
  refuse (privateClash? uses) line

/-! ## Functions -/

/-- Checks the parameters of a function and the names of its body. -/
def checkNames (line : Nat) (params body : List Node) : Except SyntaxError Unit := do
  require (params.all Node.isParameter) line .invalidTarget
  require (!Node.anySuspends params) line (.misplaced "a suspension")
  let names := Node.boundNamesOfAll params
  refuse (firstRepeated? names) line
  let scope := Scope.ofBody body
  refuse scope.clash? line
  refuse (firstShared? names scope.block) line

/-- Checks the name of a function or class. -/
def checkOwnName (line : Nat) (name? : Option String) : Except SyntaxError Unit :=
  require (!name?.any isRestricted) line .invalidTarget

/-! ## Statements -/

/-- Whether the first part of a construct has a property. -/
def headIs (test : Node → Bool) : List Node → Bool
  | head :: _ => test head
  | [] => false

/-- The statements of a case. -/
def caseItemsOf : Node → List Node
  | .form _ .switchCase (_ :: items) => items
  | _ => []

/-- Whether the head of a loop over members can be assigned to or is a declaration. -/
def isMemberTarget : Node → Bool
  | .form _ (.declaration _) _ => true
  | node => node.isTarget

/-- A name that the parameter of a handler and the block of the handler both declare. A plain name
may be declared again by `var`. -/
def handlerClash? : List Node → Option String
  | [param, .form _ .block items] =>
    let names := param.boundNames
    let scope := Scope.ofBlock items
    firstRepeated? names <|> firstShared? names scope.block <|>
      (match param with
      | .name .. => none
      | _ => firstShared? names scope.function)
  | _ => none

/-- The names of the block that the head of a loop declares. -/
def headNames : List Node → List String
  | head :: _ => head.blockNames
  | [] => []

/-! ## The tree -/

mutual

/-- Checks a node. -/
def check (around : Surroundings) : Node → Except SyntaxError Unit
  | .name line id => require (around.hasArguments || id != "arguments") line (.reservedWord id)
  | .text .. => .ok ()
  | .number .. => .ok ()
  | .template _ _ values => checkAll around values
  | .paren _ inner => check around inner
  | .member _ object _ => check around object
  | .index _ object key => do
    check around object
    check around key
  | .sum _ left right => do
    check around left
    check around right
  | .assign line target value => do
    require target.isTarget line .invalidTarget
    check around target
    check around value
  | .object line properties => do
    require ((properties.filter Node.setsPrototype).length ≤ 1) line (.duplicateName "__proto__")
    checkAll around properties
  | .property _ key value => do
    if key.isComputedKey then check around key
    check around value
  | .method _ key function => do
    if key.isComputedKey then check around key
    check around function
  | .accessor line key params body => do
    if key.isComputedKey then check around key
    checkNames line params body
    checkAll (around.function .method) params
    checkAll (around.function .method) body
  | .spread _ _ inner => check around inner
  | .exportDefault _ value => check around value
  | .function line head params body => do
    checkOwnName line head.name
    checkNames line params body
    checkAll (around.function head.role) params
    checkAll (around.function head.role) body
  | .class line id parent members => do
    checkOwnName line id
    checkMembers line members
    checkAll around parent
    let names := (privateUses members).map (·.1)
    checkAll { around with privates := names ++ around.privates } members
  | .form line kind parts => checkForm around line kind parts

/-- Checks a construct by its kind. -/
def checkForm (around : Surroundings) (line : Nat) (kind : Form) (parts : List Node) :
    Except SyntaxError Unit :=
  match kind with
  | .cover _ => failAt line (.misplaced "a default value")
  | .privateName _ => failAt line (.misplaced "a private name")
  | .privateMember name => do
    require (around.privates.contains name) line (.undeclaredName name)
    checkAll around parts
  | .membership =>
    match parts with
    | .form _ (.privateName name) _ :: others => do
      require (around.privates.contains name) line (.undeclaredName name)
      checkAll around others
    | parts => checkAll around parts
  | .update | .compoundAssign => do
    require (headIs Node.isPlace parts) line .invalidTarget
    checkAll around parts
  | .delete => do
    require (!headIs Node.isIrremovable parts) line (.misplaced "a removal")
    checkAll around parts
  | .superCall => do
    require around.superCalls line (.misplaced "a call of the parent")
    checkAll around parts
  | .superObject => require around.superMembers line (.misplaced "the parent")
  | .newTarget => require around.constructs line (.misplaced "the constructed function")
  | .block => do
    refuse (Scope.ofBlock parts).clash? line
    checkAll around parts
  | .declarator => do
    require (headIs Node.isBinding parts) line .invalidTarget
    checkAll around parts
  | .whileLoop | .doLoop => checkAll around.loop parts
  | .forLoop => do
    let names := headNames parts
    refuse (firstRepeated? names) line
    refuse (firstShared? names (Node.varNamesOfAll parts)) line
    checkAll around.loop parts
  | .forEach => do
    require (headIs isMemberTarget parts) line .invalidTarget
    let names := headNames parts
    refuse (firstRepeated? names) line
    refuse (firstShared? names (Node.varNamesOfAll parts)) line
    checkAll around.loop parts
  | .switchOn => do
    refuse (Scope.ofBlock (parts.flatMap caseItemsOf)).clash? line
    checkAll around.choice parts
  | .handler => do
    refuse (handlerClash? parts) line
    require (headIs Node.isBinding parts) line .invalidTarget
    checkAll around parts
  | .labelled label => do
    refuse (if (around.labels.map (·.1)).contains label then some label else none) line
    checkAll { around with labels := (label, headIs Node.isLoop parts) :: around.labels } parts
  | .breakTo none => require around.breaks line (.misplaced "a break")
  | .breakTo (some label) =>
    require ((around.labels.map (·.1)).contains label) line (.undeclaredName label)
  | .continueTo none => require around.loops line (.misplaced "a continue")
  | .continueTo (some label) =>
    require (around.loops && around.labels.contains (label, true)) line (.undeclaredName label)
  | .returnValue => do
    require around.returns line (.misplaced "a return")
    checkAll around parts
  | .field =>
    match parts with
    | key :: value => do
      if key.isComputedKey then check around key
      checkAll around.initializer value
    | [] => .ok ()
  | .staticBlock => do
    refuse (Scope.ofBody parts).clash? line
    checkAll around.initializer parts
  | _ => checkAll around parts

/-- Checks nodes from left to right. -/
def checkAll (around : Surroundings) : List Node → Except SyntaxError Unit
  | [] => .ok ()
  | node :: rest => do
    check around node
    checkAll around rest

end

end KeysetBundle.Script
