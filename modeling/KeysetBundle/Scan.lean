import KeysetBundle.Glob.Expansion
import KeysetBundle.Selection

/-!
# Levels

A level is a folder that is searched for keyset directories, or a pattern of such folders. The
keyset directories of a project are those of its levels in their order; in a level they stand in
the order of their paths, a directory before what is in it.
-/

namespace KeysetBundle

open Files

namespace Level

/-- A level with a `*` or a `?` is a pattern. -/
def isPattern (level : String) : Bool := level.toList.any fun c => c = '*' || c = '?'

/-- Why a level has no folders. -/
inductive Warning
  /-- There is no folder at the path. -/
  | missing (path : Path)
  /-- The level cannot be read as a pattern. -/
  | invalidPattern (level : String) (cause : Glob.InvalidPattern)
  deriving DecidableEq, Repr, Inhabited

/-- The words for a level without folders. -/
def Warning.headline : Warning → String
  | .missing path => "Level does not exist: " ++ path.text
  | .invalidPattern level _ => "Invalid glob pattern '" ++ level ++ "'"

/-- The words for a level without folders and for what lies behind it. -/
def Warning.message (warning : Warning) : String :=
  match warning with
  | .missing _ => warning.headline
  | .invalidPattern _ cause => warning.headline ++ ": " ++ cause.message

/-- The folders of a level below `base`. -/
def folders (base : Path) (level : String) : Program (Except Warning (List Path)) := do
  let path := base.joinText level
  if isPattern level then
    match Glob.PathPattern.ofText path.text with
    | .error cause => return .error (.invalidPattern level cause)
    | .ok pattern => return .ok (← pattern.folders)
  else if ← isFolder path then return .ok [path]
  else return .error (.missing path)

end Level

/-! ## Keyset directories -/

namespace KeysetDir

/-- A name is that of a keyset directory if it ends in the suffix and has more before it. -/
def isName (suffix name : String) : Bool :=
  suffix.utf8ByteSize < name.utf8ByteSize && name.endsWith suffix

/-- Whether names lead from `level` to something with the name of a keyset directory; without
names it is the name of the level itself that counts. -/
def isAt (suffix : String) (level : Path) (names : Location) : Bool :=
  match names.getLast? with
  | some name => isName suffix name
  | none => level.fileName?.any (isName suffix)

/-- The names of the files of a listing that are directly in the folder to which names lead. -/
def fileNamesIn (listing : List (Location × Stat)) (names : Location) : List String :=
  listing.filterMap fun (other, stat) =>
    match FileTree.below? names other with
    | some [name] => if stat.isFolder then none else some name
    | _ => none

/-- The keyset directories of a level with the given listing. -/
def ofListing (suffix : String) (level : Path) (listing : List (Location × Stat)) :
    List KeysetDir :=
  let folders := [] :: (listing.filter (·.2.isFolder)).map (·.1)
  (folders.filter (isAt suffix level)).map fun names =>
    ofNames (names.foldl Path.joinText level) (fileNamesIn listing names)

end KeysetDir

/-- What a scan of levels has found. -/
structure Scan where
  /-- The keyset directories. -/
  dirs : List KeysetDir
  /-- The levels without folders. -/
  warnings : List Level.Warning
  deriving DecidableEq, Repr, Inhabited

namespace Scan

/-- The scan that has found nothing. -/
def empty : Scan := ⟨[], []⟩

/-- What both scans have found. -/
def append (scan other : Scan) : Scan :=
  ⟨scan.dirs ++ other.dirs, scan.warnings ++ other.warnings⟩

instance : Append Scan := ⟨append⟩

/-- The keyset directories of a folder. -/
def ofFolder (suffix : String) (folder : Path) : Program (List KeysetDir) := do
  let listing : List (Location × Stat) ← Program.request (.listing folder)
  return KeysetDir.ofListing suffix folder listing

/-- Scans one level. -/
def ofLevel (base : Path) (suffix level : String) : Program Scan := do
  match ← Level.folders base level with
  | .error warning => return ⟨[], [warning]⟩
  | .ok folders => return ⟨(← folders.mapM (ofFolder suffix)).flatten, []⟩

/-- Scans the levels of a project. -/
def ofLevels (base : Path) (levels : List String) (suffix : String) : Program Scan := do
  return (← levels.mapM (ofLevel base suffix)).foldl append empty

end Scan

end KeysetBundle
