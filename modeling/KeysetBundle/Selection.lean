import KeysetBundle.Language
import KeysetBundle.Path.Basic

/-!
# Keyset directories and the selection of files

A keyset directory holds one file for each language. The files of a language are those with its
file name, in the order of the directories.
-/

namespace KeysetBundle

/-- A file in a keyset directory. -/
structure KeysetFile where
  /-- The name of the file. -/
  name : String
  /-- The path of the file. -/
  path : Path
  deriving DecidableEq, Repr, Inhabited

/-- A keyset directory with its files. -/
structure KeysetDir where
  /-- The path of the directory. -/
  path : Path
  /-- The files, by name. -/
  files : List KeysetFile
  deriving DecidableEq, Repr, Inhabited

/-- The directory at `path` with the files of the given names. -/
def KeysetDir.ofNames (path : Path) (names : List String) : KeysetDir :=
  ⟨path, names.map fun name => ⟨name, path.joinText name⟩⟩

/-- The files of a language in the order of the directories. -/
def selectFiles (dirs : List KeysetDir) (language : Language) : List Path :=
  ((dirs.flatMap (·.files)).filter (·.name == language.keysetFileName)).map (·.path)

end KeysetBundle
