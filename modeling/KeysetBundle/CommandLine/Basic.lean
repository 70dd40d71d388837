/-!
# Commands

What a command line asks for: a build with options that override the configuration, or a new
configuration file. A command line may also ask for help, or not be understood.
-/

namespace KeysetBundle.CommandLine

/-- The options of a build. -/
structure BuildOptions where
  /-- The root of the project; the working directory without it. -/
  root : Option String := none
  /-- The tags of the languages. -/
  langs : List String := []
  /-- The levels. -/
  levels : List String := []
  /-- The file of the runtime class. -/
  runtimeFile : Option String := none
  /-- The template for the names of the bundles. -/
  target : Option String := none
  /-- The directory of the bundles. -/
  outputDir : Option String := none
  /-- Whether bundles are built that are up to date. -/
  force : Bool := false
  /-- Whether the report has details. -/
  verbose : Bool := false
  deriving DecidableEq, Repr, Inhabited

/-- What a command line asks for. -/
inductive Command
  /-- Build the bundles. -/
  | build (options : BuildOptions)
  /-- Write a configuration file. -/
  | init
  deriving DecidableEq, Repr, Inhabited

/-- Whether a command reports details. -/
def Command.verbose : Command → Bool
  | .build options => options.verbose
  | .init => false

/-- Why a command line asks for nothing that can be done. -/
inductive Refusal
  /-- It asks for help. -/
  | help
  /-- It asks for the version. -/
  | version
  /-- An argument stands where none is expected, or is no known option. -/
  | unknownArgument (argument : String)
  /-- There is no command of the name. -/
  | unknownCommand (name : String)
  /-- An option has no value, or an empty one where a path is needed. -/
  | missingValue (option : String)
  /-- A flag has a value. -/
  | valueForFlag (flag : String)
  /-- An option that may be given once is given twice. -/
  | repeated (option : String)
  deriving DecidableEq, Repr, Inhabited

/-- Whether a refusal is what the user has asked for. -/
def Refusal.isRequested : Refusal → Bool
  | .help => true
  | .version => true
  | _ => false

/-- The exit code for a refusal. -/
def Refusal.exitCode (refusal : Refusal) : Nat := if refusal.isRequested then 0 else 2

/-- The words for a refusal that the user has not asked for. -/
def Refusal.message : Refusal → String
  | .help => "help requested"
  | .version => "version requested"
  | .unknownArgument argument => "unexpected argument '" ++ argument ++ "' found"
  | .unknownCommand name => "unrecognized subcommand '" ++ name ++ "'"
  | .missingValue option => "a value is required for '" ++ option ++ "' but none was supplied"
  | .valueForFlag flag => "unexpected value for '" ++ flag ++ "' found; no more were expected"
  | .repeated option => "the argument '" ++ option ++ "' cannot be used multiple times"

end KeysetBundle.CommandLine
