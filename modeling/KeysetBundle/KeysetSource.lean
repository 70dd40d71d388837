import KeysetBundle.Files.Failure
import KeysetBundle.Path.Basic
import KeysetBundle.Script.Exports

/-!
# Keyset files

A keyset file is a script that exports a collection of keysets.
-/

namespace KeysetBundle

/-- Why a keyset file gives no collection. -/
inductive LoadError
  /-- It cannot be read. -/
  | read (path : Path) (failure : Files.Failure)
  /-- It is no script. -/
  | parse (path : Path) (error : Script.SyntaxError)
  /-- It exports nothing. -/
  | noExports (path : Path)
  /-- It exports something that cannot be evaluated. -/
  | unsupported (path : Path) (cause : Script.Unsupported)
  deriving DecidableEq, Repr, Inhabited

/-- The words for a keyset file that gives no collection. -/
def LoadError.message : LoadError → String
  | .read path failure => "Failed to read keyset file " ++ path.text ++ ": " ++ failure.message
  | .parse path error => "Failed to parse keyset file " ++ path.text ++ ": " ++ error.message
  | .noExports path =>
    "Keyset file " ++ path.text ++
      " exports nothing (expected `module.exports = \x7b...\x7d` or `export default \x7b...\x7d`)"
  | .unsupported path cause =>
    path.text ++ ":" ++ toString cause.line ++ ": " ++ cause.reason.message

/-- The collection that the text of a keyset file exports. -/
def Collection.ofSource (source : String) (path : Path) : Except LoadError Collection :=
  match Script.parse source with
  | .error error => .error (.parse path error)
  | .ok items =>
    match Script.exportsOf items with
    | .error cause => .error (.unsupported path cause)
    | .ok none => .error (.noExports path)
    | .ok (some collection) => .ok collection

theorem Collection.ofSource_eq {source : String} {items : List Script.Node}
    (h : Script.parse source = .ok items) (path : Path) :
    Collection.ofSource source path =
      match Script.exportsOf items with
      | .error cause => .error (.unsupported path cause)
      | .ok none => .error (.noExports path)
      | .ok (some collection) => .ok collection := by
  unfold Collection.ofSource
  rw [h]

end KeysetBundle
