import KeysetBundle.Config.Discovery
import KeysetBundle.Report.Style
import KeysetBundle.Text.Width

/-!
# Reports

What a command tells about its work: a line for each target, with the keyset files that went into
it if details are wanted, and warnings apart from them.
-/

namespace KeysetBundle.Report

/-- What has become of a target. -/
inductive Outcome
  /-- It was built. -/
  | built (keysetCount keyCount : Nat) (sources : List String)
  /-- It was up to date. -/
  | upToDate
  /-- It could not be built. -/
  | failed (message : String)
  deriving DecidableEq, Repr, Inhabited

/-- Whether a target could not be built. -/
def Outcome.isFailed : Outcome → Bool
  | .failed _ => true
  | _ => false

/-- A target and what has become of it. -/
structure TargetResult where
  /-- The language. -/
  language : Language
  /-- The path under which the target is shown. -/
  path : String
  /-- What has become of it. -/
  outcome : Outcome
  deriving DecidableEq, Repr, Inhabited

/-- What a build has done. -/
structure BuildSummary where
  /-- The targets in the order of their languages. -/
  targets : List TargetResult
  /-- The number of keyset directories. -/
  dirCount : Nat
  /-- The number of paths that could not be read. -/
  skippedCount : Nat
  /-- Whether the configuration comes from a file. -/
  configFromFile : Bool
  /-- The number of modules in the module cache. -/
  moduleCount : Nat
  /-- The names of the layers. -/
  layers : List String
  deriving DecidableEq, Repr, Inhabited

/-- The targets that could not be built. -/
def BuildSummary.failures (summary : BuildSummary) : List TargetResult :=
  summary.targets.filter (·.outcome.isFailed)

/-! ## Marks and words -/

/-- The mark of success. -/
def successMark : String := "✓"

/-- The mark of failure. -/
def failureMark : String := "✘"

/-- The mark of a target that was left as it is. -/
def skippedMark : String := "-"

/-- The word that goes with a number. -/
def counted (n : Nat) (one many : String) : String :=
  toString n ++ " " ++ if n = 1 then one else many

/-- The start of a warning. -/
def warningMark (color : Bool) : String := paint color .boldYellow "warning:"

/-- The line of a warning about a level. -/
def levelWarning (color : Bool) (warning : Level.Warning) : String :=
  warningMark color ++ " " ++ warning.message

/-- The text with spaces before it, so that it has at least `columns` characters. -/
def padLeft (columns : Nat) (text : String) : String :=
  String.ofList (List.replicate (columns - text.length) ' ') ++ text

/-! ## Targets -/

/-- The line of a label and a text beside it. -/
def sourceLine (color : Bool) (columns : Nat) (label text : String) : String :=
  "  " ++ padLeft columns label ++ " " ++ paint color .blue "|" ++ " " ++ text

/-- The lines of the keyset files that went into the bundle of a language. -/
def sourceLines (color : Bool) (columns : Nat) (language : Language) : List String → List String
  | [] => [sourceLine color columns language.tag (paint color .dimmed "(no keyset files)")]
  | source :: sources =>
    sourceLine color columns language.tag source :: sources.map (sourceLine color columns "")

/-- The lines of a target. -/
def targetLines (verbose color : Bool) (columns : Nat) (target : TargetResult) : List String :=
  match target.outcome with
  | .built keysetCount keyCount sources =>
    (paint color .green successMark ++ " " ++ paint color .green ("Built " ++ target.path) ++
      " (" ++ counted keysetCount "keyset" "keysets" ++ ", " ++ counted keyCount "key" "keys" ++
      ")") :: if verbose then sourceLines color columns target.language sources else []
  | .upToDate =>
    [paint color .dimmed skippedMark ++ " " ++
      paint color .dimmed ("Up to date " ++ target.path)]
  | .failed message =>
    [paint color .red failureMark ++ " " ++ paint color .bold target.path ++ ": " ++ message]

/-! ## Builds -/

/-- The number of columns of the widest tag. -/
def tagColumns (targets : List TargetResult) : Nat :=
  (targets.map fun target => Text.width target.language.tag).foldl max 0

/-- The line before the targets. -/
def headLine (color : Bool) (summary : BuildSummary) : String :=
  paint color .bold "Found" ++ " " ++ toString summary.dirCount ++ " keyset " ++
    (if summary.dirCount = 1 then "directory" else "directories") ++ " (config: " ++
    (if summary.configFromFile then Config.fileName else "defaults") ++ ", layers: " ++
    ", ".intercalate summary.layers ++ ")"

/-- The lines after the targets. -/
def tailLines (verbose color : Bool) (summary : BuildSummary) : List String :=
  match summary.failures with
  | [] =>
    if verbose then
      [paint color .bold "Done" ++ " " ++ toString summary.moduleCount ++ " keyset " ++
        (if summary.moduleCount = 1 then "module" else "modules") ++ " read"]
    else []
  | failures =>
    ["", paint color .red failureMark ++ " " ++ toString failures.length ++ " of " ++
      counted summary.targets.length "target" "targets" ++ " failed"]

/-- The lines of a report on a build. -/
def buildLines (verbose color : Bool) (summary : BuildSummary) : List String :=
  (if verbose then [headLine color summary] else []) ++
    summary.targets.flatMap (targetLines verbose color (tagColumns summary.targets)) ++
    tailLines verbose color summary

/-- The lines of the warnings of a build. -/
def warningLines (verbose color : Bool) (summary : BuildSummary) : List String :=
  (if summary.dirCount = 0 then
    [warningMark color ++ " no keyset directories found in the configured levels"] else []) ++
  (if 0 < summary.skippedCount ∧ !verbose then
    [warningMark color ++ " " ++ toString summary.skippedCount ++
      " path(s) could not be read (use " ++ paint color .cyan "-v" ++ " for details)"] else [])

/-- The line of a configuration file that was written. -/
def createdLine (color : Bool) (path : String) : String :=
  paint color .green successMark ++ " " ++ paint color .green ("Created " ++ path)

/-- The line of a configuration file that was there already. -/
def existsLine (path : String) : String := "Error: " ++ path ++ " already exists"

/-- The text of some lines, each with a line feed at its end. -/
def textOf (lines : List String) : String := String.join (lines.map (· ++ "\n"))

end KeysetBundle.Report
