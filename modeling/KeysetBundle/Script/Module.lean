import KeysetBundle.Script.EarlyErrors
import KeysetBundle.Script.Grammar

/-!
# Whole scripts

A script is read by the grammar and then checked: its own rules for the names at the top, and the
rules that hold everywhere.
-/

namespace KeysetBundle.Script

/-- The names under which an item exports something. -/
def exportedNames : Node → List String
  | .exportDefault .. => ["default"]
  | .form _ .exportDefaultDeclaration _ => ["default"]
  | .form _ (.exportLocal names) _ => names.map (·.2)
  | .form _ (.exportForeign names) _ => names
  | .form _ .exportDeclaration [item] =>
    item.functionName?.toList ++ item.blockNames ++ item.varNames
  | _ => []

/-- The names of its own that an item exports in braces. -/
def exportedBindings : Node → List String
  | .form _ (.exportLocal names) _ => names.map (·.1)
  | _ => []

/-- Checks the items of a module: names are declared once and exported once, and what is exported
is declared. -/
def checkModule (items : List Node) : Except SyntaxError Unit := do
  let scope := Scope.ofBlock items
  refuse scope.clash? 1
  refuse (firstRepeated? (items.flatMap exportedNames)) 1
  let declared := scope.block ++ scope.function
  match (items.flatMap exportedBindings).find? fun name => !declared.contains name with
  | some name => failAt 1 (.undeclaredName name)
  | none => checkAll .module items

theorem checkModule_of_checkAll {items : List Node} (hclash : (Scope.ofBlock items).clash? = none)
    (hexports : firstRepeated? (items.flatMap exportedNames) = none)
    (hdeclared : ((items.flatMap exportedBindings).find? fun name =>
      !((Scope.ofBlock items).block ++ (Scope.ofBlock items).function).contains name) = none)
    (hitems : checkAll .module items = .ok ()) : checkModule items = .ok () := by
  unfold checkModule
  simp only [hclash, hexports, hdeclared]
  exact hitems

/-- Reads a script. -/
def parse (source : String) : Except SyntaxError (List Node) := do
  let items ← parseItems source.toList
  checkModule items
  .ok items

theorem parse_eq_ok {source : String} {items : List Node}
    (hitems : parseItems source.toList = .ok items) (hcheck : checkModule items = .ok ()) :
    parse source = .ok items := by
  unfold parse
  rw [hitems]
  simp only [bind, Except.bind, hcheck]

end KeysetBundle.Script
