import KeysetBundle.Script.Node

/-!
# Names and targets

The names that declarations bind, and what may stand on the left of an assignment or in a
declaration. A name declared by `var` belongs to the whole function, so it is collected through
all statements; the other names belong to the block whose items declare them.
-/

namespace KeysetBundle.Script

/-- The first name that occurs a second time. -/
def firstRepeated? : List String → Option String
  | [] => none
  | name :: rest => if rest.contains name then some name else firstRepeated? rest

/-- The first name of one list that is in another. -/
def firstShared? (names others : List String) : Option String :=
  names.find? others.contains

/-- The names that strict code does not bind. -/
def isRestricted (name : String) : Bool := name == "eval" || name == "arguments"

namespace Node

mutual

/-- The names that a target binds. -/
def boundNames : Node → List String
  | .name _ id => [id]
  | .form _ .arrayPattern parts => boundNamesOfAll parts
  | .form _ .objectPattern parts => boundNamesOfAll parts
  | .form _ .rest parts => boundNamesOfAll parts
  | .form _ .default (target :: _) => boundNames target
  | .form _ .declarator (target :: _) => boundNames target
  | .form _ (.declaration _) parts => boundNamesOfAll parts
  | .property _ _ value => boundNames value
  | _ => []

/-- The names that targets bind, from left to right. -/
def boundNamesOfAll : List Node → List String
  | [] => []
  | node :: rest => boundNames node ++ boundNamesOfAll rest

end

mutual

/-- The names that a statement declares for the whole function. -/
def varNames : Node → List String
  | .form _ (.declaration .var) parts => boundNamesOfAll parts
  | .form _ _ parts => varNamesOfAll parts
  | _ => []

/-- The names that statements declare for the whole function. -/
def varNamesOfAll : List Node → List String
  | [] => []
  | node :: rest => varNames node ++ varNamesOfAll rest

end

/-- The name of a declared function. -/
def functionName? : Node → Option String
  | .function _ head _ _ => if head.role = .declaration then head.name else none
  | _ => none

/-- The names that an item declares for its block, functions aside. -/
def blockNames : Node → List String
  | .form _ (.declaration .var) _ => []
  | .form line (.declaration binding) parts => boundNames (.form line (.declaration binding) parts)
  | .class _ id _ _ => id.toList
  | .form _ (.importNames ids) _ => ids
  | _ => []

/-- An item without the export around it. -/
def unexported : Node → Node
  | .form _ .exportDeclaration [item] => item
  | .form _ .exportDefaultDeclaration [item] => item
  | item => item

end Node

/-! ## Scopes -/

/-- The names of a list of items. -/
structure Scope where
  /-- The names that belong to the block. -/
  block : List String
  /-- The names that belong to the function. -/
  function : List String

/-- The names of the items of a block or of the top of a module, where a function belongs to its
block. -/
def Scope.ofBlock (items : List Node) : Scope :=
  let items := items.map Node.unexported
  ⟨items.flatMap fun item => item.functionName?.toList ++ item.blockNames,
    Node.varNamesOfAll items⟩

/-- The names of the items of the body of a function, where a function is like a variable. -/
def Scope.ofBody (items : List Node) : Scope :=
  ⟨items.flatMap Node.blockNames, items.filterMap Node.functionName? ++ Node.varNamesOfAll items⟩

/-- A name of the block that is declared twice. -/
def Scope.clash? (scope : Scope) : Option String :=
  firstRepeated? scope.block <|> firstShared? scope.block scope.function

/-! ## Targets -/

namespace Node

/-- Whether an expression is a place that can be assigned to as a whole. -/
def isPlace : Node → Bool
  | .name _ id => !isRestricted id
  | .member .. => true
  | .index .. => true
  | .form _ (.privateMember _) _ => true
  | .paren _ inner => isPlace inner
  | _ => false

mutual

/-- Whether a node can stand on the left of an assignment. -/
def isTarget : Node → Bool
  | .form _ .arrayPattern parts => areTargets false parts
  | .form _ .objectPattern parts => areTargets true parts
  | node => isPlace node

/-- Whether all elements of an array or properties of an object can be assigned to. -/
def areTargets (properties : Bool) : List Node → Bool
  | [] => true
  | node :: rest => isTargetElement properties node && areTargets properties rest

/-- Whether an element of an array or a property of an object can be assigned to. -/
def isTargetElement (properties : Bool) : Node → Bool
  | .form _ .hole _ => !properties
  | .form _ .rest [target] => if properties then isPlace target else isTarget target
  | .property _ _ (.form _ .default (target :: _)) => properties && isTarget target
  | .property _ _ target => properties && isTarget target
  | .form _ .default (target :: _) => !properties && isTarget target
  | node => !properties && isTarget node

end

mutual

/-- Whether a node can stand in a declaration. -/
def isBinding : Node → Bool
  | .name _ id => !isRestricted id
  | .form _ .arrayPattern parts => areBindings false parts
  | .form _ .objectPattern parts => areBindings true parts
  | _ => false

/-- Whether all elements of an array or properties of an object can stand in a declaration. -/
def areBindings (properties : Bool) : List Node → Bool
  | [] => true
  | node :: rest => isBindingElement properties node && areBindings properties rest

/-- Whether an element of an array or a property of an object can stand in a declaration. -/
def isBindingElement (properties : Bool) : Node → Bool
  | .form _ .hole _ => !properties
  | .form _ .rest [target] =>
    if properties then
      match target with
      | .name _ id => !isRestricted id
      | _ => false
    else isBinding target
  | .property _ _ (.form _ .default (target :: _)) => properties && isBinding target
  | .property _ _ target => properties && isBinding target
  | .form _ .default (target :: _) => !properties && isBinding target
  | node => !properties && isBinding node

end

/-- Whether a node can be a parameter. -/
def isParameter : Node → Bool
  | .form _ .hole _ => false
  | node => isBindingElement false node

end Node

end KeysetBundle.Script
