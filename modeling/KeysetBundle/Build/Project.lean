import KeysetBundle.Build.Target
import KeysetBundle.CommandLine.Basic

/-!
# Building a project

A project is built target by target, one for each language of its configuration. Options of the
command line go before settings of the configuration; paths among them are seen from the working
directory. A target that cannot be built does not stop the others, and the ledger is written only
if it has changed.
-/

namespace KeysetBundle.Build

open CommandLine (BuildOptions)
open Files
open Freshness
open Report (BuildSummary Outcome TargetResult)

/-- Why a project cannot be built at all. -/
inductive Failure
  /-- The root of the project is not there. -/
  | noRoot (path : Path) (cause : Files.Failure)
  /-- There is no configuration. -/
  | noConfig (cause : Config.LoadFailure)
  /-- The configuration with the options cannot be used. -/
  | unusable (fault : Config.Fault)
  /-- The ledger cannot be written. -/
  | ledger (cause : Ledger.SaveFailure)
  deriving DecidableEq, Repr

/-- The words for a project that cannot be built. -/
def Failure.message : Failure → String
  | .noRoot path cause =>
    "Project root does not exist: " ++ path.text ++ ": " ++ cause.message
  | .noConfig cause => cause.message
  | .unusable fault => fault.message
  | .ledger cause => cause.message

/-- What a build has come to. -/
structure Result where
  /-- The levels without folders. -/
  warnings : List Level.Warning
  /-- What the build has done. -/
  summary : Except Failure BuildSummary

/-! ## Settings -/

/-- The configuration with the options in place of its settings. -/
def override (config : Config) (options : BuildOptions) (current : Path) : Config :=
  { config with
    langs := if options.langs.isEmpty then config.langs else options.langs
    levels := if options.levels.isEmpty then config.levels else options.levels
    runtimeFile := match options.runtimeFile with
      | some file => some (current.joinText file).text
      | none => config.runtimeFile
    target := options.target.getD config.target
    outputDir := match options.outputDir with
      | some dir => (current.joinText dir).text
      | none => config.outputDir }

/-- A project with its settings. -/
structure Project where
  /-- The root. -/
  root : Path
  /-- The configuration with the options. -/
  config : Config
  /-- The languages of the configuration. -/
  languages : List Language
  /-- Whether the configuration comes from a file. -/
  configFromFile : Bool
  deriving DecidableEq

/-- Finds the root of the project. -/
def findRoot (options : BuildOptions) (current : Path) : Program (Except Failure Path) := do
  let root := match options.root with
    | some root => current.joinText root
    | none => current
  let canonical : Except Files.Failure Path ← Program.request (.canonicalize root)
  match canonical with
  | .ok root => return .ok root
  | .error cause => return .error (.noRoot root cause)

/-- The project of a configuration, if it can be used. -/
def Project.ofConfig (root : Path) (config : Config) (fromFile : Bool) : Except Failure Project :=
  match config.check, config.languages with
  | .error fault, _ => .error (.unusable fault)
  | .ok (), .error fault => .error (.unusable fault)
  | .ok (), .ok languages => .ok ⟨root, config, languages, fromFile⟩

/-- Finds the project and its settings. -/
def Project.find (options : BuildOptions) : Program (Except Failure Project) := do
  let current : Path ← Program.request .workingDirectory
  match ← findRoot options current with
  | .error failure => return .error failure
  | .ok root =>
    match ← Config.load root with
    | .error cause => return .error (.noConfig cause)
    | .ok loaded =>
      return Project.ofConfig root (override loaded.config options current) loaded.fromFile

/-! ## Building -/

namespace Project

/-- The targets of a project, for the given base name. -/
def targets (project : Project) (base : String) : List Target :=
  project.languages.map fun language =>
    ⟨language, (project.config.outputPath project.root).joinText
      (TargetName.resolve project.config.target base language.tag)⟩

/-- The file of the ledger. -/
def ledgerFile (project : Project) : Path :=
  (project.config.outputPath project.root).joinText Ledger.fileName

/-- What the targets of a project share. -/
def context (project : Project) (dirs : List KeysetDir) (force : Bool) : Context where
  root := project.root
  dirs := dirs
  runtime := project.config.runtime project.root
  moduleName := project.config.moduleName
  compactor := .localized
  force := force

/-- The ledger with the new records of some targets. -/
def recordAll (ledger : Ledger) (built : List (Target × Outcome × Option Record)) : Ledger :=
  built.foldl (fun ledger (target, _, record) =>
    match record with
    | some record => ledger.set target.path record
    | none => ledger) ledger

/-- Writes the ledger with the new records, if there are any. -/
def saveLedger (project : Project) (ledger : Ledger)
    (built : List (Target × Outcome × Option Record)) :
    Program (Except Ledger.SaveFailure Unit) :=
  if built.any fun (_, _, record) => record.isSome then
    (recordAll ledger built).save project.ledgerFile
  else return .ok ()

/-- What a build reports of its targets. -/
def results (context : Context) (built : List (Target × Outcome × Option Record)) :
    List TargetResult :=
  built.map fun (target, outcome, _) => ⟨target.language, context.shown target.path, outcome⟩

/-- Builds the targets of a project with the given keyset directories. -/
def buildTargets (project : Project) (dirs : List KeysetDir) (force : Bool) :
    Program (Except Failure BuildSummary) := do
  let base ← project.config.baseName project.root
  let ledger ← Ledger.load project.ledgerFile
  let context := project.context dirs force
  let built ← (project.targets base).mapM fun target => do
    return (target, ← context.buildTarget target (ledger.get? target.path))
  match ← project.saveLedger ledger built with
  | .error cause => return .error (.ledger cause)
  | .ok () =>
    let moduleCount : Nat ← Program.request .cachedModuleCount
    return .ok {
      targets := results context built
      dirCount := dirs.length
      skippedCount := 0
      configFromFile := project.configFromFile
      moduleCount := moduleCount
      layers := context.compactor.layerNames }

/-- Builds a project. -/
def build (project : Project) (force : Bool) : Program Result := do
  let scan ← Scan.ofLevels project.root project.config.levels project.config.dirSuffix
  return ⟨scan.warnings, ← project.buildTargets scan.dirs force⟩

end Project

/-- Builds the project that the options name. -/
def run (options : BuildOptions) : Program Result := do
  match ← Project.find options with
  | .error failure => return ⟨[], .error failure⟩
  | .ok project => project.build options.force

end KeysetBundle.Build
