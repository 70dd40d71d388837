import KeysetBundle.CommandLine.Parser
import KeysetBundle.CommandLine.Run
import KeysetBundle.Files.Disk

/-!
# The program

Reads the command line, runs the command on the disk, and writes its output.
-/

namespace KeysetBundle

/-- What the program says of itself. -/
def helpText : String :=
  "Compiles keyset files into one localization bundle per language\n\n" ++
  "Commands:\n" ++
  "  build  Merge keyset files and write a bundle for each language\n" ++
  "  init   Write a configuration file with all defaults\n" ++
  "  help   Show this text\n\n" ++
  "Options of build:\n" ++
  "  --root <DIR>        Project root (default: working directory)\n" ++
  "  --lang <TAG>        Language to build, may be repeated\n" ++
  "  --level <DIR>       Level directory or pattern, may be repeated\n" ++
  "  --i18n-file <PATH>  File of the runtime class\n" ++
  "  --target <TPL>      Template for bundle names\n" ++
  "  --output-dir <DIR>  Directory of the bundles\n" ++
  "  --force             Build bundles that are up to date\n" ++
  "  -v, --verbose       Report details\n"

/-- Whether a variable of the environment is set to something else than zero. -/
def isOn (value : Option String) : Bool := value.any (· != "0")

/-- Whether output is coloured. It can be forced, and it can be forbidden; otherwise a terminal
has colours unless they are switched off. -/
def hasColor (force forbid enabled : Option String) (isTerminal : Bool) : Bool :=
  if isOn force then true
  else if forbid.isSome then false
  else isTerminal && (enabled.isNone || isOn enabled)

/-- Runs a command and writes its output; gives the exit code. -/
def execute (command : CommandLine.Command) : IO UInt32 := do
  let stdout ← IO.getStdout
  let stderr ← IO.getStderr
  let color := hasColor (← IO.getEnv "CLICOLOR_FORCE") (← IO.getEnv "NO_COLOR")
    (← IO.getEnv "CLICOLOR") (← stdout.isTty)
  let modules ← IO.mkRef Files.ModuleCache.empty
  let output ← Files.Disk.run modules (CommandLine.run color command)
  stdout.putStr output.stdout
  stderr.putStr output.stderr
  match output.status with
  | .error cause =>
    let detail := match cause.detail? with
      | some detail => ": " ++ detail
      | none => ""
    stderr.putStrLn ("Error: " ++ cause.message ++ detail)
  | _ => pure ()
  return UInt32.ofNat output.status.exitCode

/-- Says why a command line cannot be followed; gives the exit code. -/
def refuse (refusal : CommandLine.Refusal) : IO UInt32 := do
  match refusal with
  | .help => (← IO.getStdout).putStr helpText
  | .version => (← IO.getStdout).putStrLn Artifact.bundledVersion
  | refusal => (← IO.getStderr).putStrLn ("error: " ++ refusal.message)
  return UInt32.ofNat refusal.exitCode

end KeysetBundle

/-- The program. -/
def main (arguments : List String) : IO UInt32 := do
  match KeysetBundle.CommandLine.read arguments with
  | .error refusal => KeysetBundle.refuse refusal
  | .ok none =>
    (← IO.getStdout).putStr KeysetBundle.helpText
    return 0
  | .ok (some command) => KeysetBundle.execute command
