import KeysetBundle.Build.Project

/-!
# Running commands

A command gives texts for the two output channels and a status. A build with targets that could
not be built, or a configuration file that is there already, is a failure; a command that cannot
run at all is an error.
-/

namespace KeysetBundle.CommandLine

open Files

/-- Why a command cannot run at all. -/
inductive Failure
  /-- The project cannot be built. -/
  | build (cause : Build.Failure)
  /-- The configuration file cannot be written. -/
  | init (cause : Files.Failure)
  deriving DecidableEq, Repr

/-- The words for a command that cannot run. -/
def Failure.message : Failure → String
  | .build cause => cause.message
  | .init cause => cause.message

/-- The words for what lies behind a failure, if there is more to say. -/
def Failure.detail? : Failure → Option String
  | .build (.unusable fault) => fault.detail?
  | .build (.noConfig (.unusable fault)) => fault.detail?
  | _ => none

/-- How a command ends. -/
inductive Status
  /-- All is done. -/
  | success
  /-- Some of it could not be done. -/
  | failure
  /-- Nothing could be done. -/
  | error (cause : Failure)
  deriving DecidableEq, Repr

/-- The exit code of a status. -/
def Status.exitCode : Status → Nat
  | .success => 0
  | .failure => 1
  | .error _ => 2

/-- What a command writes, and how it ends. -/
structure Output where
  /-- The text for standard output. -/
  stdout : String
  /-- The text for standard error. -/
  stderr : String
  /-- The status. -/
  status : Status
  deriving DecidableEq, Repr

/-! ## Builds -/

/-- The lines of warnings about levels, which are details. -/
def levelLines (verbose color : Bool) (warnings : List Level.Warning) : List String :=
  if verbose then warnings.map (Report.levelWarning color) else []

/-- The output of a build. -/
def buildOutput (verbose color : Bool) (result : Build.Result) : Output :=
  let lines := levelLines verbose color result.warnings
  match result.summary with
  | .error cause => ⟨"", Report.textOf lines, .error (.build cause)⟩
  | .ok summary =>
    { stdout := Report.textOf (Report.buildLines verbose color summary)
      stderr := Report.textOf (lines ++ Report.warningLines verbose color summary)
      status := if summary.failures.isEmpty then .success else .failure }

/-! ## Configuration files -/

/-- Writes the default configuration to the working directory unless it has a configuration
file. The answer is whether the file was written. -/
def writeConfig : Program (Except Files.Failure Bool) := do
  let path : Path := ⟨Config.fileName⟩
  if ← pathExists path then return .ok false
  else
    let written : Except Files.Failure Unit ←
      Program.request (.writeText path Config.default.render)
    return written.map fun _ => true

/-- The output of writing a configuration file. -/
def initOutput (color : Bool) : Except Files.Failure Bool → Output
  | .error cause => ⟨"", "", .error (.init cause)⟩
  | .ok true => ⟨Report.textOf [Report.createdLine color Config.fileName], "", .success⟩
  | .ok false => ⟨"", Report.textOf [Report.existsLine Config.fileName], .failure⟩

/-! ## Commands -/

/-- Runs a command. -/
def run (color : Bool) : Command → Program Output
  | .build options => return buildOutput options.verbose color (← Build.run options)
  | .init => return initOutput color (← writeConfig)

end KeysetBundle.CommandLine
