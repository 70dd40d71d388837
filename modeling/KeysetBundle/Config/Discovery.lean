import KeysetBundle.Config.Record
import KeysetBundle.Text.Diagnostic

/-!
# The configuration of a directory

A directory is configured by the file in it or in the nearest directory above that has one. The
search ends at the root of a repository: what is above it does not count.
-/

namespace KeysetBundle.Config

open Files

/-- The name of configuration files. -/
def fileName : String := ".langjsrc.json"

/-- The name that marks the root of a repository. -/
def repositoryMark : String := ".git"

/-- Searches a directory and at most `bound` directories above it. -/
def findFrom : Nat → Path → Program (Option Path)
  | bound, dir => do
    let file := dir.joinText fileName
    if ← pathExists file then return some file
    else if ← pathExists (dir.joinText repositoryMark) then return none
    else
      match bound, dir.parent? with
      | bound + 1, some parent => findFrom bound parent
      | _, _ => return none

/-- The configuration file of a directory. -/
def find (dir : Path) : Program (Option Path) := findFrom dir.components.length dir

/-- A configuration and whether it comes from a file. -/
structure Loaded where
  /-- The configuration. -/
  config : Config
  /-- Whether it comes from a file. -/
  fromFile : Bool
  deriving DecidableEq, Repr

/-- Why a directory has no configuration. -/
inductive LoadFailure
  /-- The file cannot be read. -/
  | unreadable (failure : Failure)
  /-- The file holds no configuration. -/
  | malformed (path : Path)
  /-- The configuration cannot be used. -/
  | unusable (fault : Fault)
  deriving DecidableEq, Repr

/-- The words for a directory without a configuration. -/
def LoadFailure.message : LoadFailure → String
  | .unreadable failure => failure.message
  | .malformed path => "Failed to parse config file: " ++ Text.diagnosticQuoted path.text
  | .unusable fault => fault.message

/-- Reads a configuration file. -/
def readFile (file : Path) : Program (Except LoadFailure Config) := do
  match ← readText file with
  | .error failure => return .error (.unreadable failure)
  | .ok text =>
    match ofText? text with
    | none => return .error (.malformed file)
    | some config =>
      match config.check with
      | .error fault => return .error (.unusable fault)
      | .ok () => return .ok config

/-- The configuration of a directory; that with all defaults if there is no file. -/
def load (dir : Path) : Program (Except LoadFailure Loaded) := do
  match ← find dir with
  | none => return .ok ⟨default, false⟩
  | some file =>
    match ← readFile file with
    | .error failure => return .error failure
    | .ok config => return .ok ⟨config, true⟩

end KeysetBundle.Config
