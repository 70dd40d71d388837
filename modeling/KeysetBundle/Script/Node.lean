import KeysetBundle.Script.Token

/-!
# The tree of a script

A script is read into a tree. The constructs from which exports are made have constructors of
their own; all others are *forms* with a list of parts in the order in which they are evaluated or,
where that is undecided, written. Every node knows the line of its first token.
-/

namespace KeysetBundle.Script

open KeysetBundle.Decimal (Binary64)

/-- What a function is. -/
inductive Role
  /-- A declared function. -/
  | declaration
  /-- A function in an expression. -/
  | expression
  /-- An arrow function. -/
  | arrow
  /-- A method. -/
  | method
  /-- The constructor of a class without a parent. -/
  | baseConstructor
  /-- The constructor of a class with a parent. -/
  | derivedConstructor
  deriving DecidableEq, Repr, Inhabited

/-- What is known of a function before its parameters. -/
structure FunctionHead where
  /-- What the function is. -/
  role : Role
  /-- Whether it is asynchronous. -/
  async : Bool
  /-- Whether it is a generator. -/
  generator : Bool
  /-- Its own name. -/
  name : Option String
  deriving DecidableEq, Repr, Inhabited

/-- How a declaration binds its names. -/
inductive Binding
  /-- In the whole function. -/
  | var
  /-- In the block, and changeable. -/
  | letBinding
  /-- In the block, and constant. -/
  | const
  deriving DecidableEq, Repr, Inhabited

/-- The kinds of constructs without a constructor of their own. -/
inductive Form
  /-- A value without parts that matter. -/
  | constant
  /-- An operation on its parts. -/
  | operation
  /-- A short circuit that takes the second part for a missing first one. -/
  | coalesce
  /-- A short circuit on truth. -/
  | logical
  /-- A sign or word before its operand. -/
  | unary
  /-- The removal of a property. -/
  | delete
  /-- The wait for a promise. -/
  | await
  /-- The yield of a generator. -/
  | yield
  /-- A change of a variable by one. -/
  | update
  /-- An assignment of the result of an operation. -/
  | compoundAssign
  /-- A member of a private name. -/
  | privateMember (name : String)
  /-- A private name on the left of a test for membership. -/
  | privateName (name : String)
  /-- The test for membership. -/
  | membership
  /-- A chain that stops at a missing value. -/
  | chain
  /-- The parent object. -/
  | superObject
  /-- The call of the parent constructor. -/
  | superCall
  /-- The function that was constructed. -/
  | newTarget
  /-- A missing element of an array. -/
  | hole
  /-- An array. -/
  | array
  /-- The target of a destructured array. -/
  | arrayPattern
  /-- The target of a destructured object. -/
  | objectPattern
  /-- A target with a default. -/
  | default
  /-- The target of the remaining elements. -/
  | rest
  /-- A shorthand property with a default, which only a target may have. -/
  | cover (name : String)
  /-- A shorthand property. -/
  | shorthand (name : String)
  /-- A computed name of a property. -/
  | computedKey
  /-- A name of a property written as an integer of any size. -/
  | bigIntegerKey
  /-- Statements in braces. -/
  | block
  /-- A declaration; the parts are declarators. -/
  | declaration (binding : Binding)
  /-- A target, and a value unless it is missing. -/
  | declarator
  /-- A statement without labels or bindings of its own. -/
  | statement
  /-- An expression used as a statement. -/
  | expressionStatement
  /-- A conditional statement. -/
  | branch
  /-- A loop over a condition. -/
  | whileLoop
  /-- A loop whose condition, the first part, is tested after its body. -/
  | doLoop
  /-- A loop with an initialiser; the last part is the body. -/
  | forLoop
  /-- A loop over the members of an object; the parts are target, object and body. -/
  | forEach
  /-- The end of a loop or of a labelled statement. -/
  | breakTo (label : Option String)
  /-- The end of a turn of a loop. -/
  | continueTo (label : Option String)
  /-- The result of a function. -/
  | returnValue
  /-- A statement with a label. -/
  | labelled (label : String)
  /-- A choice among cases; the first part is the value. -/
  | switchOn
  /-- A case; the first part is its test. -/
  | switchCase
  /-- Statements with a handler. -/
  | tryBlock
  /-- The handler of an error; the first part is its parameter. -/
  | handler
  /-- The handler of an error without a parameter. -/
  | bareHandler
  /-- A field of a class; the parts are key and value. -/
  | field
  /-- Statements run when a class is made. -/
  | staticBlock
  /-- A member of a class itself and not of its instances. -/
  | staticMember
  /-- An import that binds names. -/
  | importNames (names : List String)
  /-- An export of names: local ones with the names under which they are known. -/
  | exportLocal (names : List (String × String))
  /-- An export of names of another module. -/
  | exportForeign (names : List String)
  /-- An exported declaration. -/
  | exportDeclaration
  /-- A function or class exported as the default. -/
  | exportDefaultDeclaration
  deriving DecidableEq, Repr, Inhabited

/-- A node of the tree. -/
inductive Node
  /-- A name. -/
  | name (line : Nat) (text : String)
  /-- A quoted text. -/
  | text (line : Nat) (value : List Nat)
  /-- A number. -/
  | number (line : Nat) (value : Binary64)
  /-- A template: the values of its pieces and the substitutions between them. -/
  | template (line : Nat) (pieces : List (Option (List Nat))) (substitutions : List Node)
  /-- An expression in parentheses. -/
  | paren (line : Nat) (inner : Node)
  /-- A member by name. -/
  | member (line : Nat) (object : Node) (key : String)
  /-- A member by value. -/
  | index (line : Nat) (object key : Node)
  /-- A sum. -/
  | sum (line : Nat) (left right : Node)
  /-- An assignment. -/
  | assign (line : Nat) (target value : Node)
  /-- An object. -/
  | object (line : Nat) (properties : List Node)
  /-- A key and a value, in an object or in the target of a destructured object. -/
  | property (line : Nat) (key value : Node)
  /-- A method of an object or class. -/
  | method (line : Nat) (key function : Node)
  /-- A getter, without parameters, or a setter. -/
  | accessor (line : Nat) (key : Node) (params body : List Node)
  /-- Elements or properties of a value put in; the flag tells whether a comma follows. -/
  | spread (line : Nat) (comma : Bool) (inner : Node)
  /-- The default export of an expression. -/
  | exportDefault (line : Nat) (value : Node)
  /-- A function. -/
  | function (line : Nat) (head : FunctionHead) (params body : List Node)
  /-- A class with its parent, if it has one. -/
  | class (line : Nat) (name : Option String) (parent : List Node) (members : List Node)
  /-- Any other construct. -/
  | form (line : Nat) (kind : Form) (parts : List Node)
  deriving Repr, Inhabited

namespace Node

/-- The line of the first token. -/
def line : Node → Nat
  | .name line .. | .text line .. | .number line .. | .template line .. | .paren line ..
  | .member line .. | .index line .. | .sum line .. | .assign line .. | .object line ..
  | .property line .. | .method line .. | .accessor line .. | .spread line ..
  | .exportDefault line .. | .function line .. | .class line .. | .form line .. => line

/-- The expression inside all parentheses around it. -/
def unwrapped : Node → Node
  | .paren _ inner => inner.unwrapped
  | node => node

mutual

/-- The target that an expression stands for on the left of an assignment: arrays and objects
become patterns and assignments in them become defaults. Everything else stays. -/
def toTarget : Node → Node
  | .form line .array parts => .form line .arrayPattern (toElements parts)
  | .object line properties => .form line .objectPattern (toElements properties)
  | .assign line target value => .form line .default [toTarget target, value]
  | node => node

/-- The targets that the elements of an array or the properties of an object stand for. -/
def toElements : List Node → List Node
  | [] => []
  | node :: rest => toElement node :: toElements rest

/-- The target that an element or a property stands for. -/
def toElement : Node → Node
  | .form line .array parts => .form line .arrayPattern (toElements parts)
  | .object line properties => .form line .objectPattern (toElements properties)
  | .assign line target value => .form line .default [toTarget target, value]
  | .spread line false inner => .form line .rest [toTarget inner]
  | .property line key value => .property line key (toTarget value)
  | .form line (.shorthand key) _ => .property line (.name line key) (.name line key)
  | .form line (.cover key) parts =>
    .property line (.name line key) (.form line .default (.name line key :: parts))
  | node => node

end

end Node

end KeysetBundle.Script
