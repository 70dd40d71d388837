import KeysetBundle.Artifact.Basic
import KeysetBundle.Artifact.RuntimeSource
import KeysetBundle.Scan
import KeysetBundle.TargetName

/-!
# Configurations

A configuration says which keyset files a project has, for which languages bundles are built, and
where. Each setting has a default, so the empty configuration is one too.

`Config.check` finds the first setting that is not sensible; a build uses checked configurations
only.
-/

namespace KeysetBundle

open Artifact (RuntimeSource)
open Files

/-- The settings of a project. -/
structure Config where
  /-- The levels in which keyset directories are searched. -/
  levels : List String := ["blocks"]
  /-- The end of the names of keyset directories. -/
  dirSuffix : String := ".i18n"
  /-- The tags of the languages. -/
  langs : List String := ["en"]
  /-- The file of the runtime class; without it the bundled class is used. -/
  runtimeFile : Option String := none
  /-- The template for the names of the bundles. -/
  target : String := TargetName.default
  /-- The directory of the bundles. -/
  outputDir : String := "./"
  /-- The base name of the bundles; without it that of the directory is used. -/
  base : Option String := none
  /-- The name of the runtime in a registry of modules. -/
  moduleName : String := Artifact.defaultModuleName
  deriving DecidableEq, Repr

namespace Config

/-- The configuration with all defaults. -/
def default : Config := {}

instance : Inhabited Config := ⟨default⟩

/-- Why a configuration cannot be used. -/
inductive Fault
  /-- A level cannot be read as a pattern. -/
  | invalidLevel (level : String) (cause : Glob.InvalidPattern)
  /-- The suffix of keyset directories is empty. -/
  | emptySuffix
  /-- There are no languages. -/
  | noLanguages
  /-- A tag is not well formed. -/
  | invalidLanguage (cause : Language.InvalidTag)
  /-- There are several languages and one name for all bundles. -/
  | languageNotInTarget (target : String)
  deriving DecidableEq, Repr

/-- The words for a fault. -/
def Fault.message : Fault → String
  | .invalidLevel level _ => "Invalid glob pattern in 'levels': \"" ++ level ++ "\""
  | .emptySuffix => "'dirSuffix' must not be empty"
  | .noLanguages => "'langs' must list at least one language"
  | .invalidLanguage cause => "Invalid entry in 'langs': " ++ cause.message
  | .languageNotInTarget target =>
    "'target' must contain \x7blang\x7d when building several languages: \"" ++ target ++ "\""

/-- The words for what lies behind a fault, if there is more to say. -/
def Fault.detail? : Fault → Option String
  | .invalidLevel _ cause => some cause.message
  | _ => none

/-! ## Languages -/

/-- The languages of some tags in their order, each once. -/
def languagesOf (tags : List String) : Except Language.InvalidTag (List Language) :=
  tags.foldlM (fun languages tag =>
    (Language.parse tag).map fun language =>
      if language ∈ languages then languages else languages ++ [language]) []

/-- The languages for which bundles are built. -/
def languages (config : Config) : Except Fault (List Language) :=
  match languagesOf config.langs with
  | .ok languages => .ok languages
  | .error cause => .error (.invalidLanguage cause)

/-! ## Checks -/

/-- Finds the first level that is a pattern and cannot be read. -/
def checkLevels : List String → Except Fault Unit
  | [] => .ok ()
  | level :: levels =>
    if Level.isPattern level then
      match Glob.tokensOf level with
      | .ok _ => checkLevels levels
      | .error cause => .error (.invalidLevel level cause)
    else checkLevels levels

/-- Finds the first fault of a configuration. -/
def check (config : Config) : Except Fault Unit := do
  checkLevels config.levels
  if config.dirSuffix.isEmpty then throw .emptySuffix
  if config.langs.isEmpty then throw .noLanguages
  let languages ← config.languages
  if 1 < languages.length ∧ !TargetName.hasLanguage config.target then
    throw (.languageNotInTarget config.target)

/-! ## Paths -/

/-- Where the runtime class comes from, for the project at `root`. -/
def runtime (config : Config) (root : Path) : RuntimeSource :=
  match config.runtimeFile with
  | some file => .file (Path.resolve root file)
  | none => .bundled

/-- The directory of the bundles, for the project at `root`. -/
def outputPath (config : Config) (root : Path) : Path := Path.resolve root config.outputDir

/-- The base name that is used for a directory without a name. -/
def fallbackBase : String := "bundle"

/-- The base name of the bundles: the name of their directory unless the configuration has one.
For a directory that is not there the name is that of its path. -/
def baseName (config : Config) (root : Path) : Program String := do
  match config.base with
  | some base => return base
  | none =>
    let canonical : Except Failure Path ← Program.request (.canonicalize (config.outputPath root))
    let dir := match canonical with
      | .ok dir => dir
      | .error _ => config.outputPath root
    return dir.fileName?.getD fallbackBase

end Config

end KeysetBundle
