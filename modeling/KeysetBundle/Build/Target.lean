import KeysetBundle.Bundle
import KeysetBundle.Freshness.Ledger
import KeysetBundle.Report.Basic

/-!
# Building a target

A target is the bundle of one language at one path. It is left as it is if it is there and its
record says that nothing that goes into it has changed; otherwise it is made and written, and a
new record is taken.
-/

namespace KeysetBundle.Build

open Artifact (RuntimeSource)
open Files
open Freshness
open Report (Outcome)

/-- What all targets of a build share. -/
structure Context where
  /-- The root of the project. -/
  root : Path
  /-- The keyset directories. -/
  dirs : List KeysetDir
  /-- Where the runtime class comes from. -/
  runtime : RuntimeSource
  /-- The name of the runtime in a registry of modules. -/
  moduleName : String
  /-- The layers for templates. -/
  compactor : Template.Compactor
  /-- Whether targets are built that are up to date. -/
  force : Bool

/-- The bundle of one language at one path. -/
structure Target where
  /-- The language. -/
  language : Language
  /-- The path. -/
  path : Path
  deriving DecidableEq, Repr, Inhabited

namespace Context

/-- What the bundle of a language is made from. -/
def recipe (context : Context) (language : Language) : Bundle.Recipe :=
  ⟨language, context.dirs, context.runtime, context.moduleName⟩

/-- The path as it is shown: from the root of the project if it is below. -/
def shown (context : Context) (path : Path) : String :=
  ((path.relativeTo? context.root).getD path).text

/-! ## Records -/

/-- The name of the setting for the source of the runtime class. -/
def runtimeName : String := "runtime"

/-- The name of the setting for the name of the runtime. -/
def moduleNameName : String := "module-name"

/-- The name of the file of the runtime class. -/
def runtimeFileName : String := "i18n-file"

/-- The name of the list of the keyset files. -/
def sourcesName : String := "keysets"

/-- Whether a record says that the file of the runtime class is the same. -/
def hasRuntimeFile (context : Context) (record : Record) : Program Bool :=
  match context.runtime.file? with
  | some file => record.hasFile runtimeFileName file
  | none => return true

/-- Whether a record says that nothing has changed that goes into a target. -/
def isFresh (context : Context) (target : Target) (record : Record) : Program Bool := do
  if record.hasSetting runtimeName context.runtime.identity ∧
      record.hasSetting moduleNameName context.moduleName then
    if ← context.hasRuntimeFile record then
      record.hasFileList sourcesName (context.recipe target.language).sources
    else return false
  else return false

/-- The record with the file of the runtime class. -/
def addRuntimeFile (context : Context) (record : Record) : Program (Except Failure Record) :=
  match context.runtime.file? with
  | some file => record.addFile runtimeFileName file
  | none => return .ok record

/-- Takes the record of what goes into a bundle. -/
def takeRecord (context : Context) (sources : List Path) : Program (Option Record) := do
  let settings := (Record.empty.addSetting runtimeName context.runtime.identity).addSetting
    moduleNameName context.moduleName
  match ← context.addRuntimeFile settings with
  | .error _ => return none
  | .ok record => return (← record.addFileList sourcesName sources).toOption

/-! ## Building -/

/-- Makes the bundle of a target and writes it. -/
def makeAndWrite (context : Context) (target : Target) :
    Program (Except Bundle.Failure Bundle) := do
  match ← Bundle.make context.compactor (context.recipe target.language) with
  | .error failure => return .error failure
  | .ok bundle =>
    match ← writeWhole target.path bundle.text with
    | .error failure => return .error (.write target.path failure)
    | .ok () => return .ok bundle

/-- Whether a target is there and, by its record, up to date. -/
def isUpToDate (context : Context) (target : Target) (record : Option Record) : Program Bool := do
  if context.force then return false
  else if ← pathExists target.path then
    match record with
    | some record => context.isFresh target record
    | none => return false
  else return false

/-- Builds a target unless it is up to date; gives what has become of it and its new record. -/
def buildTarget (context : Context) (target : Target) (record : Option Record) :
    Program (Outcome × Option Record) := do
  if ← context.isUpToDate target record then return (.upToDate, none)
  else
    match ← context.makeAndWrite target with
    | .error failure => return (.failed failure.message, none)
    | .ok bundle =>
      let record ← context.takeRecord bundle.sources
      return (.built bundle.keysetCount bundle.keyCount (bundle.sources.map context.shown), record)

end Context

end KeysetBundle.Build
