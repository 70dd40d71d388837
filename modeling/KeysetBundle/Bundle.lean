import KeysetBundle.Artifact.RuntimeSource
import KeysetBundle.Artifact.Basic
import KeysetBundle.KeysetSource
import KeysetBundle.Selection

/-!
# Bundles

A bundle of a language is made from the keyset files of that language: their collections are
merged in order, the templates are compiled, and the text of the bundle is put together with the
runtime class. Each keyset file is dropped from the module cache before it is read, so a bundle
is made from what the files hold now.
-/

namespace KeysetBundle

open Artifact (RuntimeSource)
open Files

/-- A bundle and what went into it. -/
structure Bundle where
  /-- The text. -/
  text : String
  /-- The keyset files in the order of their merge. -/
  sources : List Path
  /-- The number of keysets. -/
  keysetCount : Nat
  /-- The number of keys of all keysets. -/
  keyCount : Nat
  deriving DecidableEq, Repr, Inhabited

namespace Bundle

/-- What a bundle is made from. -/
structure Recipe where
  /-- The language. -/
  language : Language
  /-- The keyset directories in the order of their merge. -/
  dirs : List KeysetDir
  /-- Where the runtime class comes from. -/
  runtime : RuntimeSource
  /-- The name of the runtime in a registry of modules. -/
  moduleName : String
  deriving DecidableEq, Repr, Inhabited

/-- The keyset files that go into the bundle. -/
def Recipe.sources (recipe : Recipe) : List Path := selectFiles recipe.dirs recipe.language

/-- Why there is no bundle. -/
inductive Failure
  /-- A keyset file gives no collection. -/
  | load (cause : LoadError)
  /-- A template cannot be compiled. -/
  | compaction (cause : CompactionError)
  /-- The file of the runtime class cannot be read. -/
  | runtime (path : Path) (cause : Files.Failure)
  /-- The bundle cannot be written. -/
  | write (path : Path) (cause : Files.Failure)
  deriving DecidableEq, Repr

/-- The words for a bundle that there is not. -/
def Failure.message : Failure → String
  | .load cause => cause.message
  | .compaction cause => cause.message
  | .runtime path cause =>
    "Failed to read runtime class file " ++ path.text ++ ": " ++ cause.message
  | .write path cause => "Failed to write " ++ path.text ++ ": " ++ cause.message

/-! ## Keyset files -/

/-- Loads a keyset file as it is now. -/
def loadFile (path : Path) : Program (Except LoadError Collection) := do
  dropModule path
  match ← readModule path with
  | .error failure => return .error (.read path failure)
  | .ok source => return Collection.ofSource source path

/-- Loads keyset files in order, up to the first one that gives no collection. -/
def loadFiles : List Path → Program (Except LoadError (List Collection))
  | [] => return .ok []
  | path :: paths => do
    match ← loadFile path with
    | .error cause => return .error cause
    | .ok collection =>
      match ← loadFiles paths with
      | .error cause => return .error cause
      | .ok collections => return .ok (collection :: collections)

/-! ## Making a bundle -/

/-- The bundle of some collections. -/
def ofCollections (compactor : Template.Compactor) (recipe : Recipe) (classSource : String)
    (collections : List Collection) : Except CompactionError Bundle := do
  let merged := Collection.merge collections
  let keysets ← merged.compile compactor
  return {
    text := Artifact.generate recipe.language classSource keysets recipe.moduleName
    sources := recipe.sources
    keysetCount := keysets.length
    keyCount := merged.keyCount }

/-- Makes a bundle. A keyset file that gives no collection counts before a runtime class that
cannot be read, and that before a template that cannot be compiled. -/
def make (compactor : Template.Compactor) (recipe : Recipe) : Program (Except Failure Bundle) := do
  let classSource ← recipe.runtime.read
  match ← loadFiles recipe.sources, classSource with
  | .error cause, _ => return .error (.load cause)
  | .ok _, .error (path, cause) => return .error (.runtime path cause)
  | .ok collections, .ok classSource =>
    match ofCollections compactor recipe classSource collections with
    | .error cause => return .error (.compaction cause)
    | .ok bundle => return .ok bundle

end Bundle

end KeysetBundle
