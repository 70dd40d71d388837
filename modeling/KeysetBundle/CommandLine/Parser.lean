import KeysetBundle.CommandLine.Basic

/-!
# Reading command lines

A command line is read from left to right. An option takes its value after an equals sign or from
the next argument, which must not look like an option itself. Whether an option has its value is
settled when the next option is met or the command line ends; an argument that is not known is
refused before that.
-/

namespace KeysetBundle.CommandLine

/-! ## Arguments -/

/-- How an argument looks. -/
inductive Argument
  /-- Two hyphens alone. -/
  | separator
  /-- A name after two hyphens, and what stands after an equals sign. -/
  | long (name : String) (value : Option String)
  /-- Letters after one hyphen. -/
  | short (letters : List Char)
  /-- Anything else, a hyphen alone included. -/
  | plain (text : String)
  deriving DecidableEq, Repr, Inhabited

/-- How a long option looks after its hyphens. -/
def longArgument (text : List Char) : Argument :=
  .long (String.ofList (text.takeWhile (· != '='))) <|
    match text.dropWhile (· != '=') with
    | _ :: value => some (String.ofList value)
    | [] => none

/-- How an argument looks. -/
def Argument.ofText (text : String) : Argument :=
  match text.toList with
  | ['-', '-'] => .separator
  | '-' :: '-' :: rest => longArgument rest
  | ['-'] => .plain text
  | '-' :: letters => .short letters
  | _ => .plain text

/-! ## Options of a build -/

/-- The options that take a value. -/
inductive ValueOption
  /-- The root of the project. -/
  | root
  /-- A language. -/
  | lang
  /-- A level. -/
  | level
  /-- The file of the runtime class. -/
  | runtimeFile
  /-- The template for the names of the bundles. -/
  | target
  /-- The directory of the bundles. -/
  | outputDir
  deriving DecidableEq, Repr, Inhabited

/-- The name of an option. -/
def ValueOption.name : ValueOption → String
  | .root => "root"
  | .lang => "lang"
  | .level => "level"
  | .runtimeFile => "i18n-file"
  | .target => "target"
  | .outputDir => "output-dir"

/-- All options that take a value. -/
def ValueOption.all : List ValueOption := [.root, .lang, .level, .runtimeFile, .target, .outputDir]

/-- The option of a name. -/
def ValueOption.ofName? (name : String) : Option ValueOption :=
  ValueOption.all.find? (·.name == name)

/-- The flags, which take no value. -/
inductive Flag
  /-- Build all bundles. -/
  | force
  /-- Report details. -/
  | verbose
  /-- Show help. -/
  | help
  deriving DecidableEq, Repr, Inhabited

/-- The name of a flag. -/
def Flag.name : Flag → String
  | .force => "force"
  | .verbose => "verbose"
  | .help => "help"

/-- The flag of a name. -/
def Flag.ofName? (name : String) : Option Flag :=
  [Flag.force, .verbose, .help].find? (·.name == name)

/-- The flag of a letter. -/
def Flag.ofLetter? (letter : Char) : Option Flag :=
  if letter = 'v' then some .verbose else if letter = 'h' then some .help else none

/-- Sets an option that may be given once. -/
def setOnce (option : ValueOption) (old : Option String) (value : String) :
    Except Refusal (Option String) :=
  if old.isSome then .error (.repeated option.name) else .ok (some value)

/-- Sets a path, which may be given once and must not be empty. -/
def setPath (option : ValueOption) (old : Option String) (value : String) :
    Except Refusal (Option String) := do
  let new ← setOnce option old value
  if value.isEmpty then .error (.missingValue option.name) else .ok new

/-- The options with a value for one of them. -/
def BuildOptions.give (options : BuildOptions) (option : ValueOption) (value : String) :
    Except Refusal BuildOptions :=
  match option with
  | .root => return { options with root := ← setPath option options.root value }
  | .lang => return { options with langs := options.langs ++ [value] }
  | .level => return { options with levels := options.levels ++ [value] }
  | .runtimeFile =>
    return { options with runtimeFile := ← setPath option options.runtimeFile value }
  | .target => return { options with target := ← setOnce option options.target value }
  | .outputDir => return { options with outputDir := ← setPath option options.outputDir value }

/-- The options with a flag. -/
def BuildOptions.raise (options : BuildOptions) (flag : Flag) : Except Refusal BuildOptions :=
  match flag with
  | .force =>
    if options.force then .error (.repeated flag.name) else .ok { options with force := true }
  | .verbose =>
    if options.verbose then .error (.repeated flag.name) else .ok { options with verbose := true }
  | .help => .error .help

/-! ## Builds -/

/-- An option whose value is not settled. -/
structure Pending where
  /-- The option. -/
  option : ValueOption
  /-- The value, if it has been met. -/
  value : Option String
  deriving DecidableEq, Repr, Inhabited

/-- The options that have been read, and the last one if its value is not settled. -/
structure BuildReading where
  /-- The options that are settled. -/
  options : BuildOptions
  /-- The option that is not. -/
  pending : Option Pending
  deriving DecidableEq, Repr, Inhabited

namespace BuildReading

/-- Settles the last option. -/
def settle (reading : BuildReading) : Except Refusal BuildOptions :=
  match reading.pending with
  | none => .ok reading.options
  | some ⟨option, none⟩ => .error (.missingValue option.name)
  | some ⟨option, some value⟩ => reading.options.give option value

/-- Reads a flag. -/
def readFlag (reading : BuildReading) (flag : Flag) : Except Refusal BuildReading := do
  let options ← reading.settle
  return ⟨← options.raise flag, none⟩

/-- Reads an option that takes a value. -/
def readOption (reading : BuildReading) (option : ValueOption) (value : Option String) :
    Except Refusal BuildReading := do
  let options ← reading.settle
  match value with
  | some value => return ⟨← options.give option value, none⟩
  | none => return ⟨options, some ⟨option, none⟩⟩

/-- Reads the letters after one hyphen. -/
def readLetters (reading : BuildReading) (text : String) :
    List Char → Except Refusal BuildReading
  | [] => .ok reading
  | letter :: letters =>
    match Flag.ofLetter? letter with
    | none => .error (.unknownArgument text)
    | some flag =>
      match reading.readFlag flag with
      | .error refusal => .error refusal
      | .ok reading => readLetters reading text letters

/-- Reads one argument that is not the separator. -/
def read (reading : BuildReading) (text : String) : Except Refusal BuildReading :=
  match Argument.ofText text with
  | .separator => .ok reading
  | .short letters => reading.readLetters text letters
  | .long name value =>
    match ValueOption.ofName? name with
    | some option => reading.readOption option value
    | none =>
      match Flag.ofName? name, value with
      | none, _ => .error (.unknownArgument text)
      | some flag, none => reading.readFlag flag
      | some flag, some _ => .error (.valueForFlag flag.name)
  | .plain text =>
    match reading.pending with
    | some ⟨option, none⟩ => .ok { reading with pending := some ⟨option, some text⟩ }
    | _ => .error (.unknownArgument text)

/-- Reads arguments up to the separator, behind which there must be none. -/
def readAll (reading : BuildReading) : List String → Except Refusal BuildReading
  | [] => .ok reading
  | text :: texts =>
    match Argument.ofText text, texts with
    | .separator, [] => .ok reading
    | .separator, extra :: _ => .error (.unknownArgument extra)
    | _, texts =>
      match reading.read text with
      | .error refusal => .error refusal
      | .ok reading => readAll reading texts

end BuildReading

/-- Reads the arguments of a build. -/
def readBuild (arguments : List String) : Except Refusal BuildOptions := do
  let reading ← BuildReading.readAll ⟨{}, none⟩ arguments
  reading.settle

/-! ## Other commands -/

/-- Reads the arguments of a command that has only the flag for help. -/
def readBare : List String → Except Refusal Unit
  | [] => .ok ()
  | text :: texts =>
    match Argument.ofText text, texts with
    | .separator, [] => .ok ()
    | .separator, extra :: _ => .error (.unknownArgument extra)
    | .long "help" none, _ => .error .help
    | .long "help" (some _), _ => .error (.valueForFlag "help")
    | .short ('h' :: _), _ => .error .help
    | _, _ => .error (.unknownArgument text)

/-- The names of the commands. -/
def commandNames : List String := ["build", "init", "help"]

/-- What the arguments after `help` ask for. -/
def readHelp : List String → Refusal
  | [] => .help
  | name :: names =>
    if commandNames.contains name then
      match names with
      | [] => .help
      | extra :: _ => .unknownCommand extra
    else .unknownCommand name

/-- What an argument asks for that stands where a command is expected. -/
def readNoCommand (text : String) : Refusal :=
  match Argument.ofText text with
  | .long "help" none => .help
  | .long "help" (some _) => .valueForFlag "help"
  | .long "version" none => .version
  | .long "version" (some _) => .valueForFlag "version"
  | .short ('h' :: _) => .help
  | .short ('V' :: _) => .version
  | .plain text => .unknownCommand text
  | _ => .unknownArgument text

/-- Reads a command line; an empty one asks for nothing. -/
def read : List String → Except Refusal (Option Command)
  | [] => .ok none
  | "build" :: arguments => (readBuild arguments).map fun options => some (.build options)
  | "init" :: arguments => (readBare arguments).map fun _ => some .init
  | "help" :: arguments => .error (readHelp arguments)
  | ["--"] => .ok none
  | "--" :: text :: _ =>
    if commandNames.contains text then .error (.unknownArgument text)
    else .error (.unknownCommand text)
  | text :: _ => .error (readNoCommand text)

end KeysetBundle.CommandLine
