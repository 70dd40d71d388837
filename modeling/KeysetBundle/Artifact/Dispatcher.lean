import KeysetBundle.Text.Quoted

/-!
# The dispatcher

A bundle publishes its runtime by the first convention that the host offers. The dispatcher is a
chain of conditions, one for each convention; a convention without a condition ends the chain.
-/

namespace KeysetBundle.Artifact

open KeysetBundle.Text (singleQuoted)

/-- A way in which a host takes the runtime. -/
inductive Convention
  /-- A registry of modules with a `define` function. -/
  | registry
  /-- The exports of a module. -/
  | exports
  /-- The global object of a browser. -/
  | global
  /-- A global variable; always available. -/
  | bare
  deriving DecidableEq, Repr, Inhabited

namespace Convention

/-- The conventions in the order in which a bundle tries them. -/
def all : List Convention := [.registry, .exports, .global, .bare]

/-- The name whose presence tells that a host offers the convention. -/
def probeName? : Convention → Option String
  | .registry => some "modules"
  | .exports => some "module"
  | .global => some "window"
  | .bare => none

/-- The condition under which a host offers the convention. -/
def probe? (convention : Convention) : Option String :=
  convention.probeName?.map fun name => "typeof " ++ name ++ " !== 'undefined'"

/-- The statements that publish the runtime. -/
def expose (moduleName : String) : Convention → List String
  | .registry =>
    ["modules.define(" ++ singleQuoted moduleName ++ ", function (provide, i18n) \x7b",
      "    provide(initKeyset(i18n));",
      "\x7d);"]
  | .exports => ["module.exports = function() \x7breturn initKeyset();\x7d;"]
  | .global => ["window.i18n = initKeyset();"]
  | .bare => ["i18n = initKeyset();"]

end Convention

/-- A line inside a block. -/
def indented (line : String) : String := "    " ++ line

/-- The line that opens the block of a convention, after the blocks before it if there are any. -/
def blockOpening (first : Bool) (probe : Option String) : String :=
  match first, probe with
  | true, some condition => "if (" ++ condition ++ ") \x7b"
  | false, some condition => "\x7d else if (" ++ condition ++ ") \x7b"
  | true, none => "\x7b"
  | false, none => "\x7d else \x7b"

/-- The lines of the blocks of the conventions, closed by a last brace. -/
def dispatcherBlocks (moduleName : String) (first : Bool) : List Convention → List String
  | [] => if first then [] else ["\x7d"]
  | convention :: later =>
    let block :=
      blockOpening first convention.probe? :: (convention.expose moduleName).map indented
    match convention.probe? with
    | none => block ++ ["\x7d"]
    | some _ => block ++ dispatcherBlocks moduleName false later

/-- The lines that publish the runtime by the first available convention. -/
def dispatcher (conventions : List Convention) (moduleName : String) : List String :=
  dispatcherBlocks moduleName true conventions

end KeysetBundle.Artifact
