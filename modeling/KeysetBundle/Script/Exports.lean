import KeysetBundle.Script.Module
import KeysetBundle.Script.NumericName
import KeysetBundle.Collection.Basic

/-!
# Exports of scripts

The exports of a script are found without running it. The assignments to the exports that stand
outside functions and classes are listed in the order in which they would run, their values are
evaluated as objects of texts, and the results are put together.

* `assignments` — the assignments of a script.
* `Node.collection`, `Node.keyset`, `Node.value` — the values of expressions.
* `collect` — the exported collection: the first value that cannot be evaluated decides.
-/

namespace KeysetBundle.Script

/-! ## Assignments to the exports -/

/-- What an assignment defines. -/
inductive ExportTarget
  /-- The whole collection. -/
  | whole
  /-- The keyset of a name. -/
  | keyset (name : String)
  deriving DecidableEq, Repr, Inhabited

/-- An assignment to the exports. -/
structure Assignment where
  /-- What it defines. -/
  target : ExportTarget
  /-- The expression of its value. -/
  value : Node
  deriving Repr, Inhabited

namespace Node

/-- The object and the name of a member that is named directly or by a text. -/
def memberParts? : Node → Option (Node × String)
  | .member _ owner key => some (owner, key)
  | .index _ owner (.text _ value) => (Text.ofCodePoints? value).map (owner, ·)
  | _ => none

/-- Whether an expression is the given name. -/
def isNamed (id : String) : Node → Bool
  | .name _ other => other == id
  | _ => false

/-- Whether an expression stands for the exports of the module. -/
def isModuleExports (node : Node) : Bool :=
  match node.memberParts? with
  | some (owner, key) => owner.isNamed "module" && key == "exports"
  | none => false

/-- What an assignment to the expression defines, if it defines an export. -/
def exportTarget? (node : Node) : Option ExportTarget :=
  match node.memberParts? with
  | none => none
  | some (owner, key) =>
    if node.isModuleExports then some .whole
    else if owner.isNamed "exports" || owner.isModuleExports then some (.keyset key)
    else none

mutual

/-- The assignments to the exports in a node, in the order in which they run. Functions and classes
are not entered; the target and the value of an assignment that is found are not searched. -/
def assignments : Node → List Assignment
  | .name .. => []
  | .text .. => []
  | .number .. => []
  | .template _ _ values => assignmentsOfAll values
  | .paren _ inner => assignments inner
  | .member _ owner _ => assignments owner
  | .index _ owner key => assignments owner ++ assignments key
  | .sum _ left right => assignments left ++ assignments right
  | .assign _ target value =>
    match target.exportTarget? with
    | some found => [⟨found, value⟩]
    | none => assignments target ++ assignments value
  | .object _ properties => assignmentsOfAll properties
  | .property _ key value => assignments key ++ assignments value
  | .method _ key _ => assignments key
  | .accessor _ key params body =>
    assignments key ++ assignmentsOfAll params ++ assignmentsOfAll body
  | .spread _ _ inner => assignments inner
  | .exportDefault _ value => [⟨.whole, value⟩]
  | .function .. => []
  | .class .. => []
  | .form _ _ parts => assignmentsOfAll parts

/-- The assignments to the exports in nodes, from left to right. -/
def assignmentsOfAll : List Node → List Assignment
  | [] => []
  | node :: rest => assignments node ++ assignmentsOfAll rest

end

end Node

/-! ## Values -/

/-- Why a value cannot be evaluated. -/
inductive Reason
  /-- The collection is no object. -/
  | notCollection
  /-- The keyset is no object. -/
  | notKeyset
  /-- The template is no text. -/
  | notText
  /-- The text has substitutions. -/
  | substitutions
  /-- The text in backquotes has half of a surrogate pair. -/
  | brokenTemplate
  /-- The text in quotes has half of a surrogate pair. -/
  | brokenText
  /-- The key has half of a surrogate pair. -/
  | brokenKey
  /-- Properties are spread. -/
  | spread
  /-- The property is no key with a value. -/
  | notKeyValue
  /-- The key is computed. -/
  | computedKey
  deriving DecidableEq, Repr, Inhabited

/-- The words for a reason. -/
def Reason.message : Reason → String
  | .notCollection => "expected an object of keysets"
  | .notKeyset => "expected a keyset object"
  | .notText => "expected a string value"
  | .substitutions => "template literals with substitutions are not supported"
  | .brokenTemplate => "invalid template literal"
  | .brokenText => "string is not valid UTF-8"
  | .brokenKey => "property name is not valid UTF-8"
  | .spread => "spread properties are not supported"
  | .notKeyValue => "only `key: value` properties are supported"
  | .computedKey => "computed property names are not supported"

/-- A value that cannot be evaluated. -/
structure Unsupported where
  /-- The line on which it starts. -/
  line : Nat
  /-- Why it cannot be evaluated. -/
  reason : Reason
  deriving DecidableEq, Repr, Inhabited

namespace Node

/-- The text of an expression: quoted texts, templates without substitutions and their sums. -/
def value : Node → Except Unsupported String
  | .paren _ inner => inner.value
  | .text line points =>
    match Text.ofCodePoints? points with
    | some words => .ok words
    | none => .error ⟨line, .brokenText⟩
  | .template line pieces [] =>
    match pieces.head?.join.bind Text.ofCodePoints? with
    | some words => .ok words
    | none => .error ⟨line, .brokenTemplate⟩
  | .template line _ (_ :: _) => .error ⟨line, .substitutions⟩
  | .sum _ left right => do
    let first ← left.value
    let second ← right.value
    .ok (first ++ second)
  | node => .error ⟨node.line, .notText⟩

/-- The properties of an object. -/
def properties (reason : Reason) (node : Node) : Except Unsupported (List Node) :=
  match node.unwrapped with
  | .object _ items => .ok items
  | other => .error ⟨other.line, reason⟩

/-- The name that a key stands for. -/
def keyName : Node → Except Unsupported String
  | .name _ id => .ok id
  | .text line points =>
    match Text.ofCodePoints? points with
    | some words => .ok words
    | none => .error ⟨line, .brokenKey⟩
  | .number _ n => .ok (numericName n)
  | node => .error ⟨node.line, .computedKey⟩

/-- The name and the expression of a property. -/
def keyValue : Node → Except Unsupported (String × Node)
  | .property _ key expression => do
    let id ← key.keyName
    .ok (id, expression)
  | .spread line .. => .error ⟨line, .spread⟩
  | node => .error ⟨node.line, .notKeyValue⟩

/-- The name and the text of a property. -/
def entry (property : Node) : Except Unsupported (String × String) := do
  let (id, expression) ← property.keyValue
  let words ← expression.value
  .ok (id, words)

/-- The keyset of an expression. -/
def keyset (node : Node) : Except Unsupported Keyset := do
  let items ← node.properties .notKeyset
  let entries ← items.mapM entry
  .ok (Keyset.ofList entries)

/-- The name and the keyset of a property. -/
def keysetEntry (property : Node) : Except Unsupported (String × Keyset) := do
  let (id, expression) ← property.keyValue
  let keys ← expression.keyset
  .ok (id, keys)

/-- The collection of an expression. -/
def collection (node : Node) : Except Unsupported Collection := do
  let items ← node.properties .notCollection
  let entries ← items.mapM keysetEntry
  .ok (Dictionary.ofList entries)

end Node

/-! ## The exported collection -/

/-- The collection after one more assignment; there is none before the first. -/
def Assignment.apply (exports : Option Collection) (assignment : Assignment) :
    Except Unsupported (Option Collection) :=
  match assignment.target with
  | .whole => do
    let collection ← assignment.value.collection
    .ok (some collection)
  | .keyset id => do
    let keys ← assignment.value.keyset
    .ok (some ((exports.getD .empty).insert id keys))

/-- The collection that the assignments define one after the other, if there are any. -/
def collect (assignments : List Assignment) : Except Unsupported (Option Collection) :=
  assignments.foldlM Assignment.apply none

/-- The collection that the items of a script export. -/
def exportsOf (items : List Node) : Except Unsupported (Option Collection) :=
  collect (Node.assignmentsOfAll items)

end KeysetBundle.Script
