import KeysetBundle.Files.World
import KeysetBundle.Proofs.Files.Place
import KeysetBundle.Proofs.Files.Program

/-!
# Writing a file as a whole

A file is written to a neighbour that is then moved over it.  If that succeeds
the file holds the text and nothing else.  Everywhere else, and everywhere if
it fails, three things can happen to a location (`SideEffect`): nothing, a
missing folder on the way to the file is made, or the neighbour is gone.

Main result.

- `run_writeWhole`: what writing a file does to the tree of a world.
-/

namespace KeysetBundle.Files

/-- Texts are stored as their bytes. -/
theorem fromUTF8?_toUTF8 (text : String) : String.fromUTF8? text.toUTF8 = some text := by
  unfold String.fromUTF8?
  split
  · rfl
  · rename_i hvalid
    exact absurd text.isValidUTF8 hvalid

/-! ## Neighbours -/

/-- The file that is written before it is moved over the file at a path. -/
def neighbour (path : Path) : Path := path.withFileName ((path.fileName?).getD "" ++ ".tmp")

theorem isName_neighbour (path : Path) :
    Path.IsName ((path.fileName?).getD "" ++ ".tmp") := by
  have hending : '/' ∉ (".tmp" : String).toList ∧ 2 < (".tmp" : String).toList.length := by decide
  refine Path.isName_append ?_ hending.1 hending.2
  cases hname : path.fileName? with
  | none => decide
  | some name => exact (Path.isName_of_fileName? hname).noSlash

theorem isAbsolute_neighbour {path : Path} (h : path.isAbsolute) : (neighbour path).isAbsolute :=
  (Path.steps_withFileName h (isName_neighbour path)).1

/-- The neighbour of a file stands beside it, under a name of its own. -/
theorem place_neighbour {path : Path} (h : path.isAbsolute) :
    place (neighbour path) =
      ((if path.fileName?.isSome then path.steps.dropLast else path.steps).foldl walk []) ++
        [(path.fileName?).getD "" ++ ".tmp"] := by
  obtain ⟨habsolute, hsteps⟩ := Path.steps_withFileName h (isName_neighbour path)
  rw [neighbour, place_eq habsolute, hsteps, List.foldl_append]
  rfl

/-! ## Side effects -/

/-- What writing a file at a path may do to what is at another location. -/
inductive SideEffect (path : Path) (location : Location) : Option Entry → Option Entry → Prop
  /-- Nothing. -/
  | same (entry : Option Entry) : SideEffect path location entry entry
  /-- A folder on the way to the file is made. -/
  | made (h : OnWay path location) : SideEffect path location none (some .folder)
  /-- The neighbour of the file is gone. -/
  | removed {bytes : ByteArray} {mtime : Int} (h : location = place (neighbour path)) :
    SideEffect path location (some (.file bytes mtime)) none

/-- Folders stay. -/
theorem SideEffect.folder {path : Path} {location : Location} {after : Option Entry}
    (h : SideEffect path location (some .folder) after) : after = some .folder := by
  cases h
  rfl

/-- What is at a location afterwards is what was there, a folder or nothing. -/
theorem SideEffect.file {path : Path} {location : Location} {before : Option Entry}
    {bytes : ByteArray} {mtime : Int}
    (h : SideEffect path location before (some (.file bytes mtime))) :
    before = some (.file bytes mtime) := by
  cases h
  rfl

theorem SideEffect.of_grown {path : Path} {tree after : FileTree}
    (h : tree.Grown (OnWay path) after) (location : Location) :
    SideEffect path location (tree.get? location) (after.get? location) := by
  rcases h location with heq | ⟨hnone, hfolder, hway⟩
  · rw [heq]
    exact .same _
  · rw [hnone, hfolder]
    exact .made hway

theorem SideEffect.after_grown {path : Path} {tree between : FileTree} {location : Location}
    {last : Option Entry} (h : tree.Grown (OnWay path) between)
    (h' : SideEffect path location (between.get? location) last) :
    SideEffect path location (tree.get? location) last := by
  rcases h location with heq | ⟨hnone, hfolder, hway⟩
  · rw [← heq]
    exact h'
  · rw [hfolder] at h'
    rw [hnone, h'.folder]
    exact .made hway

/-! ## Runs -/

/-- Asks for a folder and all folders above it. -/
def createFolders (path : Path) : Program (Except Failure Unit) :=
  Program.request (.createFolders path)

/-- Asks for a text in a file. -/
def writeText (path : Path) (text : String) : Program (Except Failure Unit) :=
  Program.request (.writeText path text)

/-- Asks for a file to be moved. -/
def rename (source target : Path) : Program (Except Failure Unit) :=
  Program.request (.rename source target)

/-- Asks for a file to be removed. -/
def removeFile (path : Path) : Program (Except Failure Unit) :=
  Program.request (.removeFile path)

theorem run_writeText (world : World) (path : Path) (text : String) :
    world.run (writeText path text) =
      match world.tree.write world.current path text.toUTF8 world.clock with
      | .ok tree => (.ok (), { world with tree, clock := world.clock + 1 })
      | .error failure => (.error failure, world) := rfl

theorem run_rename (world : World) (source target : Path) :
    world.run (rename source target) =
      world.change (world.tree.rename world.current source target) := rfl

theorem run_removeFile (world : World) (path : Path) :
    world.run (removeFile path) =
      world.change (world.tree.removeFile world.current path) := rfl

/-- Makes the folders on the way to a file. -/
def makeWay (path : Path) : Program (Except Failure Unit) :=
  match path.parent? with
  | some parent => if parent.text.isEmpty then pure (.ok ()) else createFolders parent
  | none => pure (.ok ())

theorem run_makeWay (world : World) {path : Path} (h : path.isAbsolute) :
    ∃ tree, (world.run (makeWay path)).2 = { world with tree } ∧
      world.tree.Grown (OnWay path) tree := by
  unfold makeWay
  split
  · rename_i parent hparent
    split
    · exact ⟨world.tree, rfl, .refl _ _⟩
    · refine ⟨(world.tree.createFolders world.current parent).2, rfl, ?_⟩
      have hmade := FileTree.createFolders_made world.tree world.current
        (Path.steps_parent h hparent).1
      exact hmade.mono fun location hlocation => onWay_of_parent h hparent hlocation
  · exact ⟨world.tree, rfl, .refl _ _⟩

/-- Writes the neighbour of a file and moves it over the file. -/
def replaceFile (path : Path) (text : String) : Program (Except Failure Unit) := do
  match ← writeText (neighbour path) text with
  | .error failure => return .error failure
  | .ok () =>
    match ← rename (neighbour path) path with
    | .ok () => return .ok ()
    | .error failure =>
      let _ ← removeFile (neighbour path)
      return .error failure

/-- The neighbour is written and moved over the file, or removed if it cannot be moved. -/
theorem run_replaceFile_eq (world : World) (path : Path) (text : String) :
    world.run (replaceFile path text) =
      match world.tree.write world.current (neighbour path) text.toUTF8 world.clock with
      | .error failure => (.error failure, world)
      | .ok written =>
        let between : World := { world with tree := written, clock := world.clock + 1 }
        match written.rename world.current (neighbour path) path with
        | .ok after => (.ok (), { between with tree := after })
        | .error failure =>
          (.error failure, (between.change (written.removeFile world.current (neighbour path))).2) := by
  unfold replaceFile
  rw [World.run_bind, run_writeText]
  cases world.tree.write world.current (neighbour path) text.toUTF8 world.clock with
  | error failure => rfl
  | ok written =>
      dsimp only
      rw [World.run_bind, run_rename]
      dsimp only
      cases written.rename world.current (neighbour path) path with
      | ok after => rfl
      | error failure =>
          dsimp only [World.change]
          rw [World.run_bind, run_removeFile]
          rfl

theorem writeWhole_eq (path : Path) (text : String) :
    writeWhole path text = (makeWay path >>= fun made =>
      match made with
      | .error failure => pure (.error failure)
      | .ok () => replaceFile path text) := by
  unfold writeWhole makeWay
  cases path.parent? with
  | none => rfl
  | some parent =>
      dsimp only
      by_cases hempty : parent.text.isEmpty
      · rw [if_pos hempty, if_pos hempty]
        rfl
      · rw [if_neg hempty, if_neg hempty]
        rfl

/-- What has become of a tree in which a file was written. -/
structure Written (path : Path) (text : String) (result : Except Failure Unit)
    (tree after : FileTree) : Prop where
  /-- The file holds the text. -/
  held : result = .ok () → ∃ mtime, after.get? (place path) = some (.file text.toUTF8 mtime)
  /-- There was no folder in its place. -/
  notFolder : result = .ok () → tree.get? (place path) ≠ some .folder
  /-- The file is not on the way to itself. -/
  notOnWay : result = .ok () → ¬OnWay path (place path)
  /-- The way to the file can be gone. -/
  leads : result = .ok () → after.Leads path
  /-- What has happened to another location, or to any if the file could not be written. -/
  elsewhere : ∀ location, (result = .ok () → location ≠ place path) →
    SideEffect path location (tree.get? location) (after.get? location)

/-- What a neighbour leaves behind that was written and is gone again. -/
theorem SideEffect.of_gone {tree : FileTree} {path : Path} {bytes : ByteArray} {mtime : Int}
    (hne : place (neighbour path) ≠ [])
    (hfolder : tree.get? (place (neighbour path)) ≠ some .folder) (location : Location) :
    SideEffect path location (tree.get? location)
      (((tree.set (place (neighbour path)) (.file bytes mtime)).erase
        (place (neighbour path))).get? location) := by
  rw [FileTree.get?_erase _ hne]
  by_cases hspare : location = place (neighbour path)
  · rw [if_pos hspare, hspare]
    cases hbefore : tree.get? (place (neighbour path)) with
    | none => exact .same none
    | some entry =>
        cases entry with
        | folder => exact absurd hbefore hfolder
        | file bytes mtime => exact .removed rfl
  · rw [if_neg hspare, FileTree.get?_set _ hne, if_neg hspare]
    exact .same _

/-- A file that was written can be removed. -/
theorem FileTree.removeFile_set {tree : FileTree} {current : Location} {path : Path}
    {bytes : ByteArray} {mtime : Int} (h : path.isAbsolute) (hne : place path ≠ [])
    (hfolder : tree.get? (place path) ≠ some .folder) (hleads : tree.Leads path) :
    (tree.set (place path) (.file bytes mtime)).removeFile current path =
      .ok ((tree.set (place path) (.file bytes mtime)).erase (place path)) := by
  have hresolve : (tree.set (place path) (.file bytes mtime)).resolve current path =
      .ok (place path, .file bytes mtime) := by
    refine (resolve_eq_ok h).2 ⟨hleads.mono fun _ => get?_set_folder hne hfolder, rfl, ?_⟩
    rw [get?_set _ hne, if_pos rfl]
  exact removeFile_iff.2 ⟨place path, bytes, mtime, hresolve, rfl⟩

/-- Moving the neighbour over the file completes the writing. -/
theorem Written.of_rename {tree after : FileTree} {current : Location} {path : Path} {text : String}
    {mtime : Int} (h : path.isAbsolute) (hne : place (neighbour path) ≠ [])
    (hfolder : tree.get? (place (neighbour path)) ≠ some .folder)
    (hrename : (tree.set (place (neighbour path)) (.file text.toUTF8 mtime)).rename current
      (neighbour path) path = .ok after) :
    Written path text (.ok ()) tree after := by
  obtain ⟨bytes, mtime, hentry, -, hplace, hnotFolder, rfl, hleads, hway⟩ :=
    FileTree.rename_eq_ok (isAbsolute_neighbour h) h hrename
  rw [FileTree.get?_set _ hne, if_pos rfl] at hentry
  cases hentry
  constructor
  · intro _
    exact ⟨mtime, by rw [FileTree.get?_set _ hplace, if_pos rfl]⟩
  · intro _ hbefore
    exact hnotFolder (FileTree.get?_set_folder hne hfolder hbefore)
  · intro _ hown
    exact hnotFolder (hway _ hown)
  · intro _
    refine hleads.mono fun location hlocation => ?_
    have hmoved : location ≠ place (neighbour path) := by
      rintro rfl
      rw [FileTree.get?_set _ hne, if_pos rfl] at hlocation
      cases hlocation
    have hother : location ≠ place path := by
      rintro rfl
      exact hnotFolder hlocation
    rw [FileTree.get?_set _ hplace, if_neg hother, FileTree.get?_erase _ hne, if_neg hmoved,
      hlocation]
  · intro location hlocation
    rw [FileTree.get?_set _ hplace, if_neg (hlocation rfl)]
    exact .of_gone hne hfolder location

theorem run_replaceFile (world : World) {path : Path} (h : path.isAbsolute) (text : String) :
    ∃ tree clock, (world.run (replaceFile path text)).2 = { world with tree, clock } ∧
      Written path text (world.run (replaceFile path text)).1 world.tree tree := by
  have hneighbour := isAbsolute_neighbour h
  rw [run_replaceFile_eq]
  cases hwrite : world.tree.write world.current (neighbour path) text.toUTF8 world.clock with
  | error failure =>
      exact ⟨world.tree, world.clock, rfl, nofun, nofun, nofun, nofun, fun location _ => .same _⟩
  | ok tree =>
      obtain ⟨hne, rfl, hfolder, hleads, -⟩ := FileTree.write_eq_ok hneighbour hwrite
      dsimp only
      cases hrename :
          (world.tree.set (place (neighbour path)) (.file text.toUTF8 world.clock)).rename
            world.current (neighbour path) path with
      | ok after => exact ⟨_, _, rfl, .of_rename h hne hfolder hrename⟩
      | error failure =>
          -- the neighbour cannot be moved, but it can be removed
          rw [FileTree.removeFile_set hneighbour hne hfolder hleads]
          exact ⟨_, _, rfl, nofun, nofun, nofun, nofun,
            fun location _ => .of_gone hne hfolder location⟩

/-- **What writing a file does.**  The working directory and the modules stay. -/
theorem run_writeWhole (world : World) {path : Path} (h : path.isAbsolute) (text : String) :
    ∃ tree clock, (world.run (writeWhole path text)).2 = { world with tree, clock } ∧
      Written path text (world.run (writeWhole path text)).1 world.tree tree := by
  obtain ⟨between, hbetween, hgrown⟩ := run_makeWay world h
  rw [writeWhole_eq, World.run_bind, hbetween]
  cases (world.run (makeWay path)).1 with
  | error failure =>
      exact ⟨between, world.clock, rfl, nofun, nofun, nofun, nofun,
        fun location _ => .of_grown hgrown location⟩
  | ok made =>
      obtain ⟨tree, clock, hrun, hwritten⟩ :=
        run_replaceFile { world with tree := between } h text
      refine ⟨tree, clock, hrun, hwritten.held, ?_, hwritten.notOnWay, hwritten.leads, ?_⟩
      · intro hok hbefore
        have hstays := hgrown (place path)
        rw [hbefore] at hstays
        rcases hstays with heq | ⟨hnone, -, -⟩
        · exact hwritten.notFolder hok heq
        · cases hnone
      · intro location hlocation
        exact .after_grown hgrown (hwritten.elsewhere location hlocation)

end KeysetBundle.Files
