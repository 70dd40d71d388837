import KeysetBundle.Artifact.RuntimeClass
import KeysetBundle.Files.Program

/-!
# Where the runtime class comes from

A bundle carries the bundled runtime class or that of a file. The identity of a source tells two
sources apart; it says nothing of what a file holds.
-/

namespace KeysetBundle.Artifact

open Files

/-- Where the runtime class comes from. -/
inductive RuntimeSource
  /-- The bundled class. -/
  | bundled
  /-- The class in a file. -/
  | file (path : Path)
  deriving DecidableEq, Repr, Inhabited

namespace RuntimeSource

/-- The identity of a source. -/
def identity : RuntimeSource → String
  | .bundled => "bundled@" ++ bundledVersion
  | .file path => "file:" ++ path.text

/-- The file of a source, if it has one. -/
def file? : RuntimeSource → Option Path
  | .bundled => none
  | .file path => some path

theorem file?_eq_some {source : RuntimeSource} {path : Path} :
    source.file? = some path ↔ source = .file path := by
  cases source <;> simp [file?]

/-- Reads the class. The bundled class asks for no file. -/
def read : RuntimeSource → Program (Except (Path × Failure) String)
  | .bundled => return .ok bundledClass
  | .file path => do
    match ← readText path with
    | .ok text => return .ok text
    | .error failure => return .error (path, failure)

end RuntimeSource

end KeysetBundle.Artifact
