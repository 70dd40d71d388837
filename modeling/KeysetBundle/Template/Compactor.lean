import KeysetBundle.Template.Parser
import KeysetBundle.Template.Layer
import KeysetBundle.Text.Quoted

/-!
# Compiling templates

A compactor turns a template into an expression of a script: a template without substitutions
into a text literal, any other into a function of the parameters that concatenates the parts. The
concatenation starts with a text, so that `+` never adds numbers.
-/

namespace KeysetBundle.Template

open KeysetBundle.Text (doubleQuoted)

/-- The layers that resolve calls, the first one first. -/
structure Compactor where
  /-- The layers in order of precedence. -/
  layers : List Layer

namespace Compactor

/-- The compactor with the functions of the runtime class. -/
def localized : Compactor := ⟨[Layer.localization]⟩

/-- The names of the layers. -/
def layerNames (compactor : Compactor) : List String :=
  compactor.layers.map (·.name)

end Compactor

/-- The expression that reads a parameter. -/
def ParamPath.expression (path : ParamPath) : String :=
  "params." ++ path.dotted

/-- The expression of an argument. -/
def Argument.expression : Argument → String
  | .param path => path.expression
  | .text value => doubleQuoted value
  | .number word => word

/-- The texts of the parts, if no part is a substitution. -/
def plainText? : List Part → Option String
  | [] => some ""
  | .text value :: parts => (plainText? parts).map (value ++ ·)
  | .subst _ :: _ => none

namespace Compactor

/-- The answer of the first layer that provides the function. -/
def resolve (compactor : Compactor) (function : String) (arguments : List String) :
    Option (Except String String) :=
  compactor.layers.findSome? fun layer => layer.call function arguments

/-- The expression of a call whose opening brace is at `offset`. -/
def compileCall (compactor : Compactor) (function : String) (arguments : List Argument)
    (offset : Nat) : Except Error String :=
  match compactor.resolve function (arguments.map Argument.expression) with
  | none => .error ⟨.unknownFunction function, offset⟩
  | some (.error reason) => .error ⟨.refused reason, offset⟩
  | some (.ok expression) => .ok expression

/-- The expression of a part. -/
def compilePart (compactor : Compactor) : Part → Except Error String
  | .text value => .ok (doubleQuoted value)
  | .subst (.param path) => .ok path.expression
  | .subst (.call function arguments offset) => compactor.compileCall function arguments offset

/-- The function that concatenates the operands. -/
def functionOf (operands : List String) : String :=
  "function(params) \x7b return " ++ " + ".intercalate operands ++ "; \x7d"

/-- The operand put before the parts: an empty text unless the first part is a text. -/
def leading : List Part → List String
  | .text _ :: _ => []
  | _ => [doubleQuoted ""]

/-- The expression of a template with the given parts. -/
def compileParts (compactor : Compactor) (parts : List Part) : Except Error String :=
  match plainText? parts with
  | some text => .ok (doubleQuoted text)
  | none => do
    let operands ← parts.mapM compactor.compilePart
    .ok (functionOf (leading parts ++ operands))

/-- The expression of a template. -/
def compact (compactor : Compactor) (template : String) : Except Error String := do
  let parts ← parse template
  compactor.compileParts parts

end Compactor

end KeysetBundle.Template
