/-!
# Paths

A path keeps the text in which it is spelled. Its components are what the text means: an empty
piece and a `.` after the start name no component, so several spellings may have the same
components. Two paths are *the same* if their components agree.

* `join` puts a path after another one; an absolute path replaces what stands before it.
* `parent?`, `fileName?`, `withFileName` and `relativeTo?` work on the last and first components
  and keep the spelling of the rest.
-/

namespace KeysetBundle

/-- A path as it is spelled. -/
structure Path where
  /-- The spelling. -/
  text : String
  deriving DecidableEq, Repr, Inhabited

namespace Path

/-! ## Pieces of a spelling -/

/-- The pieces between the slashes; there is one more of them than slashes. -/
def splitSlashes : List Char → List (List Char)
  | [] => [[]]
  | c :: rest =>
    if c = '/' then [] :: splitSlashes rest
    else match splitSlashes rest with
      | [] => [[c]]
      | piece :: pieces => (c :: piece) :: pieces

/-- The pieces of a text between its slashes. -/
def piecesOf (text : List Char) : List String :=
  (splitSlashes text).map String.ofList

/-- The text whose pieces are the given ones. -/
def joinPieces (pieces : List String) : String :=
  "/".intercalate pieces

/-- An empty piece or a `.` names no component. -/
def isIdle (piece : String) : Bool := piece == "" || piece == "."

/-- What a spelling starts with before its pieces. -/
inductive Lead
  /-- A slash: the path is absolute. -/
  | root
  /-- A `.` as the first piece. -/
  | current
  /-- Neither. -/
  | none
  deriving DecidableEq, Repr, Inhabited

/-- The spelling of a lead. -/
def Lead.text : Lead → String
  | .root => "/"
  | .current => "."
  | .none => ""

/-- The lead of a spelling and the pieces after it. -/
def decompose (path : Path) : Lead × List String :=
  match path.text.toList with
  | '/' :: rest => (.root, piecesOf rest)
  | ['.'] => (.current, [""])
  | '.' :: '/' :: rest => (.current, piecesOf ('/' :: rest))
  | text => (.none, piecesOf text)

/-- The pieces without the idle ones at the end. -/
def trimRight (pieces : List String) : List String :=
  (pieces.reverse.dropWhile isIdle).reverse

/-- The pieces without the idle ones at the start. -/
def trimLeft (pieces : List String) : List String := pieces.dropWhile isIdle

/-! ## Components -/

/-- What a piece of a path means. -/
inductive Component
  /-- The root directory, at the start of an absolute path. -/
  | root
  /-- The current directory, written as the first piece. -/
  | current
  /-- The directory above. -/
  | parent
  /-- A name in a directory. -/
  | name (text : String)
  deriving DecidableEq, Repr, Inhabited

/-- The component that a lead stands for. -/
def Lead.component? : Lead → Option Component
  | .root => some .root
  | .current => some .current
  | .none => Option.none

/-- The component that a piece after the lead stands for. -/
def pieceComponent? (piece : String) : Option Component :=
  if isIdle piece then none
  else if piece == ".." then some .parent
  else some (.name piece)

/-- The components of a path. -/
def components (path : Path) : List Component :=
  let (lead, pieces) := path.decompose
  lead.component?.toList ++ pieces.filterMap pieceComponent?

/-- Two paths are the same if they have the same components. -/
def same (p q : Path) : Bool := p.components == q.components

/-- A path is absolute if it starts at the root. -/
def isAbsolute (path : Path) : Bool := path.text.startsWith "/"

/-! ## Operations -/

/-- The path of `other` as seen from `path`. -/
def join (path other : Path) : Path :=
  if other.isAbsolute then other
  else if path.text.isEmpty || path.text.endsWith "/" then ⟨path.text ++ other.text⟩
  else ⟨path.text ++ "/" ++ other.text⟩

/-- The path of a text as seen from `path`. -/
def joinText (path : Path) (other : String) : Path := path.join ⟨other⟩

/-- The path without its last component. -/
def parent? (path : Path) : Option Path :=
  let (lead, pieces) := path.decompose
  match trimRight pieces with
  | [] =>
    match lead with
    | .current => some ⟨""⟩
    | _ => none
  | trimmed => some ⟨lead.text ++ joinPieces (trimRight trimmed.dropLast)⟩

/-- The last component, if it is a name. -/
def fileName? (path : Path) : Option String :=
  match path.components.getLast? with
  | some (.name text) => some text
  | _ => none

/-- The path with another last name; a path that does not end in a name gets the name added. -/
def withFileName (path : Path) (name : String) : Path :=
  match path.fileName? with
  | some _ => ((path.parent?).getD path).joinText name
  | none => path.joinText name

/-- The pieces that are left after `n` components. -/
def dropComponents : Nat → List String → List String
  | 0, pieces => pieces
  | n + 1, pieces =>
    match pieces with
    | [] => []
    | piece :: rest => if isIdle piece then dropComponents (n + 1) rest else dropComponents n rest

/-- The path as seen from `base`, if the components of `base` come first. -/
def relativeTo? (path base : Path) : Option Path :=
  let baseComponents := base.components
  if baseComponents.isPrefixOf path.components then
    let (lead, pieces) := path.decompose
    match baseComponents.length, lead with
    | 0, _ => some ⟨lead.text ++ joinPieces (trimRight pieces)⟩
    | n + 1, .none => some ⟨joinPieces (trimLeft (trimRight (dropComponents (n + 1) pieces)))⟩
    | n + 1, _ => some ⟨joinPieces (trimLeft (trimRight (dropComponents n pieces)))⟩
  else none

/-- A path of the configuration as seen from `root`; a `.` at its start is dropped. -/
def resolve (root : Path) (text : String) : Path :=
  let path : Path := ⟨text⟩
  if path.isAbsolute then path else root.join ((path.relativeTo? ⟨"."⟩).getD path)

end Path

end KeysetBundle
