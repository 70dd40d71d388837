import KeysetBundle.Files.Failure
import KeysetBundle.Path.Basic

/-!
# Trees of files

A tree of files and folders is a finite map from locations to entries. A location is the list of
names from the root; the root is a folder that is always there. The operations follow paths the
way a file system without links does: every folder on the way has to be there, an empty piece or a
`.` stays where it is, and a `..` goes up.
-/

namespace KeysetBundle.Files

/-- The names from the root to a file or folder. -/
abbrev Location := List String

/-- A file or a folder. -/
inductive Entry
  /-- A folder. -/
  | folder
  /-- A file with its bytes and its time of modification, in milliseconds. -/
  | file (bytes : ByteArray) (mtime : Int)
  deriving Inhabited

/-- A tree of files and folders. -/
structure FileTree where
  /-- The entries below the root. -/
  entries : List (Location × Entry)
  /-- Each location has one entry. -/
  nodup : (entries.map (·.1)).Nodup

/-- What is known of an entry without reading it. -/
inductive Stat
  /-- It is a folder. -/
  | folder
  /-- It is a file of the given size and time of modification. -/
  | file (size : Nat) (mtime : Int)
  deriving DecidableEq, Repr, Inhabited

/-- Whether an entry is a folder. -/
def Stat.isFolder : Stat → Bool
  | .folder => true
  | .file .. => false

/-- What is known of an entry. -/
def Entry.stat : Entry → Stat
  | .folder => .folder
  | .file bytes mtime => .file bytes.size mtime

namespace FileTree

/-- The tree of the root alone. -/
def empty : FileTree := ⟨[], List.nodup_nil⟩

instance : Inhabited FileTree := ⟨empty⟩

/-- The entry at a location. -/
def get? (tree : FileTree) (location : Location) : Option Entry :=
  if location = [] then some .folder else tree.entries.lookup location

/-- The tree without the entries that a test picks. -/
def without (tree : FileTree) (test : Location → Bool) : FileTree :=
  ⟨tree.entries.filter fun entry => !test entry.1,
    ((List.filter_sublist (p := fun entry => !test entry.1)).map _).nodup tree.nodup⟩

/-- The tree without the entry at a location. -/
def erase (tree : FileTree) (location : Location) : FileTree := tree.without (· == location)

/-- The tree without the entry at a location and all entries below it. -/
def eraseAll (tree : FileTree) (location : Location) : FileTree :=
  tree.without location.isPrefixOf

/-- The tree with an entry at a location. -/
def set (tree : FileTree) (location : Location) (entry : Entry) : FileTree :=
  let others := tree.erase location
  ⟨(location, entry) :: others.entries, by
    refine List.nodup_cons.2 ⟨?_, others.nodup⟩
    simp [others, erase, without]⟩

/-- Whether a folder is at a location. -/
def isFolder (tree : FileTree) (location : Location) : Bool :=
  match tree.get? location with
  | some .folder => true
  | _ => false

/-! ## Paths -/

/-- Goes from a location along one piece of a path; the location has to be a folder. -/
def step (tree : FileTree) (location : Location) (piece : String) : Except Failure Location :=
  match tree.get? location with
  | none => .error .notFound
  | some (.file ..) => .error .notDirectory
  | some .folder =>
    if Path.isIdle piece then .ok location
    else if piece = ".." then .ok location.dropLast
    else .ok (location ++ [piece])

/-- The location to which a path leads from the current one. Whether something is there is not
asked. -/
def locate (tree : FileTree) (current : Location) (path : Path) : Except Failure Location :=
  match path.text.toList with
  | [] => .error .notFound
  | '/' :: rest => (Path.piecesOf rest).foldlM tree.step []
  | text => (Path.piecesOf text).foldlM tree.step current

/-- The location of what a path names. -/
def resolve (tree : FileTree) (current : Location) (path : Path) :
    Except Failure (Location × Entry) :=
  match tree.locate current path with
  | .error failure => .error failure
  | .ok location =>
    match tree.get? location with
    | none => .error .notFound
    | some entry => .ok (location, entry)

/-- How the last piece of a path names an entry. -/
inductive LastPiece
  /-- By a name, with or without a slash after it. -/
  | name (text : String) (slash : Bool)
  /-- By a `.` or a `..`, or as the root: it is a folder that is there. -/
  | relative
  deriving DecidableEq, Repr, Inhabited

/-- Where something new can be put. -/
structure Destination where
  /-- The folder that is to hold it; it is there. -/
  folder : Location
  /-- How it is named. -/
  last : LastPiece

/-- The last of the pieces of a path; those that are empty at the end are slashes. -/
def lastPiece (pieces : List String) : LastPiece :=
  match pieces.reverse.dropWhile (· == "") with
  | [] => .relative
  | piece :: _ =>
    if piece = "." ∨ piece = ".." then .relative
    else .name piece (pieces.getLast? == some "")

/-- The pieces before the last one that is not empty. -/
def leadingPieces (pieces : List String) : List String :=
  (pieces.reverse.dropWhile (· == "")).reverse.dropLast

/-- The destination of a path: all folders on the way to its last piece are there. -/
def destination (tree : FileTree) (current : Location) (path : Path) :
    Except Failure Destination :=
  let (start, text) := match path.text.toList with
    | '/' :: rest => ([], rest)
    | text => (current, text)
  if path.text.isEmpty then .error .notFound
  else
    let pieces := Path.piecesOf text
    match (leadingPieces pieces ++ ["."]).foldlM tree.step start with
    | .error failure => .error failure
    | .ok folder => .ok ⟨folder, lastPiece pieces⟩

/-- The absolute path of a location. -/
def pathOf (location : Location) : Path := ⟨"/" ++ "/".intercalate location⟩

/-! ## Operations -/

/-- What is known of what a path names. -/
def stat (tree : FileTree) (current : Location) (path : Path) : Except Failure Stat :=
  (tree.resolve current path).map fun (_, entry) => entry.stat

/-- The text of a file. -/
def readText (tree : FileTree) (current : Location) (path : Path) : Except Failure String :=
  match tree.resolve current path with
  | .error failure => .error failure
  | .ok (_, .folder) => .error .isDirectory
  | .ok (_, .file bytes _) =>
    match String.fromUTF8? bytes with
    | some text => .ok text
    | none => .error .invalidText

/-- The location at which a path would have a file written, whether one is there or not. -/
def writable (tree : FileTree) (current : Location) (path : Path) : Except Failure Location :=
  match tree.destination current path with
  | .error failure => .error failure
  | .ok ⟨folder, .name text false⟩ =>
    if tree.isFolder (folder ++ [text]) then .error .isDirectory else .ok (folder ++ [text])
  | .ok _ => .error .isDirectory

/-- The tree with a file at a path. -/
def write (tree : FileTree) (current : Location) (path : Path) (bytes : ByteArray)
    (mtime : Int) : Except Failure FileTree :=
  (tree.writable current path).map fun location => tree.set location (.file bytes mtime)

/-- The tree with another time of modification for a file. -/
def touch (tree : FileTree) (current : Location) (path : Path) (mtime : Int) :
    Except Failure FileTree :=
  match tree.resolve current path with
  | .error failure => .error failure
  | .ok (_, .folder) => .error .isDirectory
  | .ok (location, .file bytes _) => .ok (tree.set location (.file bytes mtime))

/-- The tree with a new folder at a path. -/
def makeFolder (tree : FileTree) (current : Location) (path : Path) : Except Failure FileTree :=
  match tree.destination current path with
  | .error failure => .error failure
  | .ok ⟨_, .relative⟩ => .error .alreadyExists
  | .ok ⟨folder, .name text _⟩ =>
    match tree.get? (folder ++ [text]) with
    | some _ => .error .alreadyExists
    | none => .ok (tree.set (folder ++ [text]) .folder)

/-- Whether a path leads to a folder. -/
def leadsToFolder (tree : FileTree) (current : Location) (path : Path) : Bool :=
  match tree.stat current path with
  | .ok stat => stat.isFolder
  | .error _ => false

/-- Makes a folder at a path and at all paths above it, as far as they are missing. Folders that
were made stay when a later one cannot be made. The bound is on the number of components. -/
def makeFolders (current : Location) : Nat → FileTree → Path → Except Failure Unit × FileTree
  | 0, tree, _ => (.error .notFound, tree)
  | bound + 1, tree, path =>
    if path.text = "" then (.ok (), tree)
    else
      match tree.makeFolder current path with
      | .ok tree => (.ok (), tree)
      | .error .notFound =>
        match path.parent? with
        | none => (.error (.other "failed to create whole tree"), tree)
        | some parent =>
          match makeFolders current bound tree parent with
          | (.error failure, tree) => (.error failure, tree)
          | (.ok (), tree) =>
            match tree.makeFolder current path with
            | .ok tree => (.ok (), tree)
            | .error failure =>
              (if tree.leadsToFolder current path then .ok () else .error failure, tree)
      | .error failure =>
        (if tree.leadsToFolder current path then .ok () else .error failure, tree)

/-- Makes a folder at a path and at all paths above it. -/
def createFolders (tree : FileTree) (current : Location) (path : Path) :
    Except Failure Unit × FileTree :=
  makeFolders current (path.components.length + 1) tree path

/-- The tree with a file moved from one path to another, over a file that is there. -/
def rename (tree : FileTree) (current : Location) (source target : Path) :
    Except Failure FileTree :=
  match tree.resolve current source, tree.destination current target with
  | .error failure, _ => .error failure
  | _, .error failure => .error failure
  | _, .ok ⟨_, .relative⟩ => .error .busy
  | .ok (_, .folder), _ => .error .isDirectory
  | _, .ok ⟨_, .name _ true⟩ => .error .notDirectory
  | .ok (sourceLocation, entry), .ok ⟨folder, .name text false⟩ =>
    let location := folder ++ [text]
    if tree.isFolder location then .error .isDirectory
    else .ok ((tree.erase sourceLocation).set location entry)

/-- The tree without a file. -/
def removeFile (tree : FileTree) (current : Location) (path : Path) : Except Failure FileTree :=
  match tree.resolve current path with
  | .error failure => .error failure
  | .ok (_, .folder) => .error .isDirectory
  | .ok (location, _) => .ok (tree.erase location)

/-- The tree without a file, or without a folder and all that is in it. -/
def removeAll (tree : FileTree) (current : Location) (path : Path) : Except Failure FileTree :=
  match tree.resolve current path with
  | .error failure => .error failure
  | .ok (location, _) => .ok (tree.eraseAll location)

/-- The path of what a path names, from the root and without detours. -/
def canonicalize (tree : FileTree) (current : Location) (path : Path) : Except Failure Path :=
  (tree.resolve current path).map fun (location, _) => pathOf location

/-! ## Listings -/

/-- The names from one location down to another, if that is below it. -/
def below? : Location → Location → Option Location
  | [], location => some location
  | _ :: _, [] => none
  | name :: names, other :: others => if name = other then below? names others else none

/-- The order of a listing: by the names from the top, a folder before what is in it. -/
def listedBefore : Location → Location → Bool
  | [], _ => true
  | _ :: _, [] => false
  | name :: names, other :: others =>
    if name < other then true else if other < name then false else listedBefore names others

/-- All entries below a location, each with the names that lead to it. -/
def below (tree : FileTree) (location : Location) : List (Location × Entry) :=
  (tree.entries.filterMap fun (other, entry) =>
    match below? location other with
    | some (name :: names) => some (name :: names, entry)
    | _ => none).mergeSort fun a b => listedBefore a.1 b.1

/-- All entries below what a path names; nothing for what is no folder. -/
def listing (tree : FileTree) (current : Location) (path : Path) : List (Location × Stat) :=
  match tree.resolve current path with
  | .ok (location, .folder) => (tree.below location).map fun (names, entry) => (names, entry.stat)
  | _ => []

end FileTree

end KeysetBundle.Files
