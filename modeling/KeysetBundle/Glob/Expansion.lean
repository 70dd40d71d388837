import KeysetBundle.Files.Program
import KeysetBundle.Glob.Pattern

/-!
# Folders that match a pattern

A pattern of paths is read piece by piece. A piece without wildcards is joined to the path as it
is and has to be there; a piece with wildcards is matched against the names in a folder; `**`
stands for all folders below. Matches come in the order of their names, a folder before what is
in it, and a folder that matches in several ways comes several times.
-/

namespace KeysetBundle.Glob

open Files

/-- A piece of a pattern between two slashes. -/
inductive Piece
  /-- A text without wildcards. -/
  | text (value : String)
  /-- A name with wildcards. -/
  | wild (tokens : List Token)
  /-- Any folders. -/
  | anyFolders
  deriving DecidableEq, Repr, Inhabited

/-- A pattern of paths. -/
structure PathPattern where
  /-- Where the search starts: at the root or in the working directory. -/
  start : Path
  /-- The pieces after the start. -/
  pieces : List Piece
  deriving DecidableEq, Repr, Inhabited

/-- The piece that the parts of a pattern make up. -/
def Piece.ofTokens (tokens : List Token) : Piece :=
  match literal? tokens with
  | some literal => .text (String.ofList literal)
  | none => if tokens = [.anyFolders] then .anyFolders else .wild tokens

/-- The pattern of names that a piece is. -/
def Piece.tokens : Piece → List Token
  | .text value => value.toList.map .char
  | .wild tokens => tokens
  | .anyFolders => [.anyFolders]

/-- The pieces with one `**` in place of several that follow each other. -/
def collapse : List Piece → List Piece
  | [] => []
  | piece :: rest =>
    match collapse rest with
    | [] => [piece]
    | next :: others =>
      if piece = .anyFolders ∧ next = .anyFolders then next :: others else piece :: next :: others

/-- The texts between the slashes; nothing follows the last slash. -/
def segments (text : List Char) : List String :=
  let pieces := Path.piecesOf text
  if pieces.getLast? = some "" then pieces.dropLast else pieces

/-- Reads a pattern of paths. The pattern is checked as a whole before its pieces are. -/
def PathPattern.ofText (text : String) : Except InvalidPattern PathPattern := do
  let _ ← tokensOf text
  let (start, rest) := match text.toList with
    | '/' :: rest => ("/", rest)
    | rest => (".", rest)
  let pieces ← (segments rest).mapM fun segment => (tokensOf segment).map Piece.ofTokens
  return ⟨⟨start⟩, collapse pieces⟩

/-! ## Search -/

/-- The path of a name in a folder; the name alone in the working directory. -/
def child (folder : Path) (name : String) : Path :=
  if folder.text = "." then ⟨name⟩ else folder.joinText name

/-- The path that names lead to from a folder. -/
def descend (folder : Path) (names : Location) : Path := names.foldl child folder

/-- Whether a piece is one of the names that every folder has for itself and the one above. -/
def isRelative (piece : String) : Bool := piece == "." || piece == ".."

/-- The relative names that a pattern matches; it has to start with a point. -/
def relativeMatches (tokens : List Token) : List String :=
  if tokens.head? = some (.char '.') then
    ["..", "."].filter fun name => matchesName tokens name.toList
  else []

/-- The names in a folder that a pattern matches, in order. -/
def childMatches (tokens : List Token) (listing : List (Location × Stat)) : List String :=
  listing.filterMap fun (names, _) =>
    match names with
    | [name] => if matchesName tokens name.toList then some name else none
    | _ => none

/-- The names that lead to all folders of a listing. -/
def foldersOf (listing : List (Location × Stat)) : List Location :=
  (listing.filter (·.2.isFolder)).map (·.1)

/-- The names that lead to the entries of a listing whose own name a pattern matches. -/
def deepMatches (tokens : List Token) (listing : List (Location × Stat)) : List Location :=
  (listing.map (·.1)).filter fun names => names.getLast?.any fun name =>
    matchesName tokens name.toList

/-- Runs a program for each element and puts the results together. -/
def gather {α β : Type} (items : List α) (program : α → Program (List β)) : Program (List β) := do
  return (← items.mapM program).flatten

/-- The paths that match the pieces, seen from a path. -/
def search : List Piece → Path → Program (List Path)
  | [], path => return [path]
  | .text value :: rest, path => do
    let next := child path value
    if ← (if isRelative value then isFolder path else pathExists next) then search rest next
    else return []
  | .wild tokens :: rest, path => do
    if ← isFolder path then
      let listing : List (Location × Stat) ← Program.request (.listing path)
      gather ((relativeMatches tokens).map path.joinText ++
        (childMatches tokens listing).map (child path)) (search rest)
    else return []
  | [.anyFolders], path => do
    let listing : List (Location × Stat) ← Program.request (.listing path)
    return (foldersOf listing).map (descend path)
  | .anyFolders :: next :: rest, path => do
    let listing : List (Location × Stat) ← Program.request (.listing path)
    gather ((deepMatches next.tokens listing).map (descend path)) (search rest)

/-- The folders that match a pattern. -/
def PathPattern.folders (pattern : PathPattern) : Program (List Path) := do
  (← search pattern.pieces pattern.start).filterM isFolder

end KeysetBundle.Glob
