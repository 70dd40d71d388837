import KeysetBundle.Collection.Basic
import KeysetBundle.Template.Compactor

/-!
# Compiled keysets

A keyset whose templates have become expressions of a script.
-/

namespace KeysetBundle

/-- A keyset with expressions instead of templates. -/
structure CompiledKeyset where
  /-- The name of the keyset. -/
  name : String
  /-- Keys with expressions, in property order. -/
  entries : List (String × String)
  deriving DecidableEq, Repr, Inhabited

/-- A template that could not be compiled, and where it stands. -/
structure CompactionError where
  /-- The name of the keyset. -/
  keyset : String
  /-- The key of the template. -/
  key : String
  /-- What is wrong with the template. -/
  cause : Template.Error
  deriving DecidableEq, Repr, Inhabited

/-- The words for a template that could not be compiled. -/
def CompactionError.message (e : CompactionError) : String :=
  "Failed to compact " ++ e.keyset ++ "." ++ e.key ++ ": " ++ e.cause.message

namespace Keyset

/-- The expressions of a keyset, or the first template that cannot be compiled. -/
def compile (compactor : Template.Compactor) (name : String) (keyset : Keyset) :
    Except CompactionError CompiledKeyset := do
  let entries ← keyset.toList.mapM fun (key, template) =>
    match compactor.compact template with
    | .ok expression => .ok (key, expression)
    | .error cause => .error ⟨name, key, cause⟩
  .ok ⟨name, entries⟩

end Keyset

/-- The keysets of a collection with expressions, by name. -/
def Collection.compile (compactor : Template.Compactor) (collection : Collection) :
    Except CompactionError (List CompiledKeyset) :=
  collection.toList.mapM fun (name, keyset) => keyset.compile compactor name

end KeysetBundle
