import KeysetBundle.Files.World

/-!
# The disk

Answers the requests of programs with the files of the system. Nothing is decided here: a request
is one call, or one walk through a folder.
-/

namespace KeysetBundle.Files.Disk

/-- The words of the system with the number under which it reports a failure. -/
def numbered (words : String) (code : UInt32) : Failure :=
  .other (words ++ " (os error " ++ toString code ++ ")")

/-- The failure that the system reports. -/
def failureOf : IO.Error → Failure
  | .noFileOrDirectory .. => .notFound
  | .alreadyExists .. => .alreadyExists
  | .resourceBusy .. => .busy
  | .inappropriateType _ 20 _ => .notDirectory
  | .inappropriateType _ 21 _ => .isDirectory
  | .inappropriateType _ code words => numbered words code
  | .permissionDenied _ code words => numbered words code
  | .resourceExhausted _ code words => numbered words code
  | .invalidArgument _ code words => numbered words code
  | .otherError code words => numbered words code
  | error => .other (toString error)

/-- What comes of an action that may fail. -/
def attempt {α : Type} (action : IO α) : IO (Except Failure α) := do
  try
    return .ok (← action)
  catch error =>
    return .error (failureOf error)

/-- A time in milliseconds. -/
def milliseconds (time : IO.FS.SystemTime) : Int :=
  time.sec * 1000 + (time.nsec.toNat / 1000000 : Nat)

/-- What the system knows of an entry, if it is a folder or a file. -/
def statOf? (data : IO.FS.Metadata) : Option Stat :=
  match data.type with
  | .dir => some .folder
  | .file => some (.file data.byteSize.toNat (milliseconds data.modified))
  | _ => none

/-- All entries below a folder, links left out, in the order of a listing. -/
partial def below (folder : String) : IO (List (Location × Stat)) := do
  let entries := (← (← IO.FS.realPath folder).readDir).toList
  let parts ← (entries.mergeSort fun a b => a.fileName ≤ b.fileName).mapM fun entry => do
    match statOf? (← entry.path.symlinkMetadata) with
    | none => return []
    | some .folder =>
      let rest ← below entry.path.toString
      return ([entry.fileName], Stat.folder) ::
        rest.map fun (names, stat) => (entry.fileName :: names, stat)
    | some stat => return [([entry.fileName], stat)]
  return parts.flatten

/-- Answers a request. -/
def answer (modules : IO.Ref ModuleCache) : (request : Request) → IO request.Answer
  | .stat path => attempt do
    let data ← (← IO.FS.realPath path.text).metadata
    return (statOf? data).getD (.file data.byteSize.toNat (milliseconds data.modified))
  | .readText path => do
    match ← attempt (IO.FS.readBinFile path.text) with
    | .error failure => return .error failure
    | .ok bytes =>
      match String.fromUTF8? bytes with
      | some text => return .ok text
      | none => return .error .invalidText
  | .listing path => do
    match ← attempt (below path.text) with
    | .ok entries => return entries
    | .error _ => return []
  | .writeText path text => attempt (IO.FS.writeFile path.text text)
  | .createFolders path => attempt (IO.FS.createDirAll path.text)
  | .rename source target => attempt (IO.FS.rename source.text target.text)
  | .removeFile path => attempt (IO.FS.removeFile path.text)
  | .canonicalize path => attempt do return ⟨(← IO.FS.realPath path.text).toString⟩
  | .workingDirectory => do return ⟨(← IO.currentDir).toString⟩
  | .cachedModule path => do return (← modules.get).get? path
  | .cacheModule path text => modules.modify (·.put path text)
  | .dropModule path => modules.modify (·.drop path)
  | .cachedModuleCount => do return (← modules.get).size

/-- Runs a program on the disk. -/
def run {α : Type} (modules : IO.Ref ModuleCache) : Program α → IO α
  | .done result => return result
  | .ask request next => do run modules (next (← answer modules request))

end KeysetBundle.Files.Disk
