import KeysetBundle.Proofs.Files.Replacing

/-!
# Files are written as a whole or not at all

Whatever the tree and the path, relative ones included, a file that is written
has the whole text or is as it was.  Its neighbour is gone afterwards, unless
it could not even be written, and no other file is changed.  Here a path leads
to where a tree locates it from the working directory, so that nothing has to be
known of its spelling.

Main result.

- `atomic_writeWhole`: what writing a file does to the files of any world.
-/

namespace KeysetBundle.Files

open KeysetBundle.Path (Component pieceComponent? piecesOf stepsOf)

/-! ## Trees with the same files -/

/-- Two trees have the same files, apart from some locations. -/
def SameFiles (apart : Location → Prop) (tree after : FileTree) : Prop :=
  ∀ location, ¬apart location → ∀ bytes mtime,
    after.get? location = some (.file bytes mtime) ↔ tree.get? location = some (.file bytes mtime)

namespace SameFiles

variable {apart more : Location → Prop} {first second third : FileTree}

theorem refl (apart : Location → Prop) (tree : FileTree) : SameFiles apart tree tree :=
  fun _ _ _ _ => Iff.rfl

theorem trans (h : SameFiles apart first second) (h' : SameFiles apart second third) :
    SameFiles apart first third :=
  fun location hapart bytes mtime =>
    (h' location hapart bytes mtime).trans (h location hapart bytes mtime)

theorem mono (h : SameFiles apart first second) (hmore : ∀ location, apart location → more location) :
    SameFiles more first second :=
  fun location hapart => h location fun hlocation => hapart (hmore location hlocation)

theorem of_grown {way : Location → Prop} (h : first.Grown way second) :
    SameFiles apart first second := by
  intro location _ bytes mtime
  rcases h location with heq | ⟨hnone, hfolder, -⟩
  · rw [heq]
  · rw [hnone, hfolder]
    exact ⟨nofun, nofun⟩

theorem set (tree : FileTree) {location : Location} (hne : location ≠ []) (entry : Entry)
    (hapart : apart location) : SameFiles apart tree (tree.set location entry) := by
  intro other hother bytes mtime
  have hdiffer : other ≠ location := by
    rintro rfl
    exact hother hapart
  rw [FileTree.get?_set _ hne, if_neg hdiffer]

theorem erase (tree : FileTree) {location : Location} (hne : location ≠ [])
    (hapart : apart location) : SameFiles apart tree (tree.erase location) := by
  intro other hother bytes mtime
  have hdiffer : other ≠ location := by
    rintro rfl
    exact hother hapart
  rw [FileTree.get?_erase _ hne, if_neg hdiffer]

end SameFiles

/-! ## Paths from a working directory -/

/-- Where the way along a path starts, and its pieces. -/
def origin (current : Location) (path : Path) : Location × List String :=
  if path.isAbsolute then ([], piecesOf path.body) else (current, piecesOf path.text.toList)

theorem not_slash_of_relative {path : Path} (h : ¬path.isAbsolute) (rest : List Char) :
    path.text.toList ≠ '/' :: rest :=
  fun htext => h (Path.isAbsolute_of_text rest htext)

theorem components_origin (current : Location) (path : Path) :
    ∃ lead : Path.Lead, path.components = lead.component?.toList ++ stepsOf (origin current path).2 := by
  unfold origin
  by_cases h : path.isAbsolute
  · rw [if_pos h, Path.components_of_isAbsolute h]
    exact ⟨.root, rfl⟩
  · rw [if_neg h]
    unfold Path.components Path.decompose
    split
    · rename_i lead pieces hsplit
      split at hsplit
      · rename_i rest htext
        exact absurd htext (not_slash_of_relative h rest)
      · rename_i htext
        cases hsplit
        rw [htext]
        exact ⟨.current, rfl⟩
      · rename_i rest htext
        cases hsplit
        rw [htext]
        have hslash := Path.piecesOf_append_slash [] rest
        have hpoint := Path.piecesOf_append_slash ['.'] rest
        refine ⟨.current, ?_⟩
        show .current :: stepsOf (piecesOf ([] ++ '/' :: rest)) =
          .current :: stepsOf (piecesOf (['.'] ++ '/' :: rest))
        rw [hslash, hpoint, Path.stepsOf_append, Path.stepsOf_append]
        rfl
      · cases hsplit
        exact ⟨.none, rfl⟩

namespace FileTree

variable {tree other : FileTree} {current folder : Location} {path : Path} {name : String}

theorem locate_eq (tree : FileTree) (current : Location) (h : path.text ≠ "") :
    tree.locate current path =
      (origin current path).2.foldlM tree.step (origin current path).1 := by
  unfold origin
  by_cases habsolute : path.isAbsolute
  · rw [if_pos habsolute, locate_of_isAbsolute tree current habsolute]
  · rw [if_neg habsolute]
    unfold locate
    split
    · rename_i htext
      exact absurd (String.toList_eq_nil_iff.1 htext) h
    · rename_i rest htext
      exact absurd htext (not_slash_of_relative habsolute rest)
    · rfl

theorem destination_eq (tree : FileTree) (current : Location) (h : path.text ≠ "") :
    tree.destination current path =
      match (leadingPieces (origin current path).2 ++ ["."]).foldlM tree.step
        (origin current path).1 with
      | .error failure => .error failure
      | .ok folder => .ok ⟨folder, lastPiece (origin current path).2⟩ := by
  unfold origin
  by_cases habsolute : path.isAbsolute
  · rw [if_pos habsolute]
    exact destination_of_isAbsolute tree current habsolute
  · have hempty : path.text.isEmpty = false := by
      rw [← Bool.not_eq_true, String.isEmpty_iff]
      exact h
    rw [if_neg habsolute]
    unfold destination
    split
    · rename_i start text hstart
      split at hstart
      · rename_i rest htext
        exact absurd htext (not_slash_of_relative habsolute rest)
      · cases hstart
        rw [hempty]
        rfl

theorem text_ne_of_destination {destination : Destination}
    (h : tree.destination current path = .ok destination) : path.text ≠ "" := by
  intro hempty
  unfold FileTree.destination at h
  simp only [String.isEmpty_iff.2 hempty, if_true] at h
  cases h

/-- A destination is in the folder to which the leading pieces lead. -/
theorem lead_of_destination {last : LastPiece}
    (h : tree.destination current path = .ok ⟨folder, last⟩) :
    (leadingPieces (origin current path).2).foldlM tree.step (origin current path).1 = .ok folder ∧
      tree.get? folder = some .folder ∧ lastPiece (origin current path).2 = last := by
  rw [destination_eq tree current (text_ne_of_destination h)] at h
  split at h
  · cases h
  · rename_i hwalk
    cases h
    obtain ⟨hlead, hfolder⟩ := walk_point.1 hwalk
    exact ⟨hlead, hfolder, rfl⟩

/-- A path that has a destination with a name leads there and has this name as its last. -/
theorem locate_of_destination {slash : Bool}
    (h : tree.destination current path = .ok ⟨folder, .name name slash⟩) :
    path.fileName? = some name ∧
      (slash = false → tree.locate current path = .ok (folder ++ [name])) := by
  obtain ⟨hlead, hfolder, hlast⟩ := lead_of_destination h
  constructor
  · obtain ⟨lead, hcomponents⟩ := components_origin current path
    rw [stepsOf_of_lastPiece hlast, ← List.append_assoc] at hcomponents
    rw [Path.fileName?, hcomponents, List.getLast?_concat]
  · rintro rfl
    rw [locate_eq tree current (text_ne_of_destination h), pieces_of_lastPiece hlast]
    exact walk_concat.2 ⟨folder, hlead, step_of_name hfolder (lastPiece_eq_name hlast).1⟩

theorem text_ne_of_locate {location : Location} (h : tree.locate current path = .ok location) :
    path.text ≠ "" := by
  intro hempty
  unfold locate at h
  rw [hempty] at h
  cases h

/-- A path leads to the same place in every tree that has the folders. -/
theorem locate_mono {location : Location}
    (hkeep : ∀ location, tree.get? location = some .folder → other.get? location = some .folder)
    (h : tree.locate current path = .ok location) : other.locate current path = .ok location := by
  have htext := text_ne_of_locate h
  rw [locate_eq _ _ htext] at h ⊢
  exact walk_mono hkeep h

theorem stat_of_gone {location : Location} (h : tree.locate current path = .ok location)
    (hnone : tree.get? location = none) : tree.stat current path = .error .notFound := by
  unfold stat resolve
  rw [h]
  simp only [hnone]
  rfl

/-- Making folders leaves the files as they are. -/
theorem grown_makeFolders (current : Location) (bound : Nat) (tree : FileTree) (path : Path) :
    Grown (fun _ => True) tree (makeFolders current bound tree path).2 := by
  refine makeFolders_keeps (fun _ => True) (fun _ _ => trivial) ?_ bound trivial (.refl _ tree)
  intro before after other _ hmake hgrown
  obtain ⟨folder, name, slash, -, hnone, rfl⟩ := makeFolder_iff.1 hmake
  exact hgrown.trans (.of_set ne_nil_of_append hnone trivial)

end FileTree

/-! ## The neighbour of any path -/

/-- A name that is joined to a path is its last piece. -/
theorem exists_pieces_joinText (current : Location) (path : Path) {name : String}
    (h : Path.IsName name) : ∃ front, (origin current (path.joinText name)).2 = front ++ [name] := by
  have hone := Path.piecesOf_of_not_mem h.noSlash
  have hslash : ("/" : String).toList = ['/'] := by decide
  -- whatever stands before the name ends in a slash, if it is not empty
  have hjoined : ∀ text : String, text = "" ∨ (∃ front, text.toList = front ++ ['/']) →
      ∃ front, (origin current ⟨text ++ name⟩).2 = front ++ [name] := by
    intro text htext
    unfold origin
    rcases htext with rfl | ⟨front, hfront⟩
    · rw [String.empty_append, if_neg h.not_isAbsolute]
      exact ⟨[], hone⟩
    · have hchars : (text ++ name).toList = front ++ '/' :: name.toList := by
        rw [String.toList_append, hfront, List.append_assoc]
        rfl
      split
      · rename_i habsolute
        have hbody := Path.text_eq habsolute
        dsimp only at hbody ⊢
        rw [hchars] at hbody
        cases front with
        | nil =>
            rw [← (List.cons.inj hbody).2]
            exact ⟨[], hone⟩
        | cons c front =>
            rw [← (List.cons.inj hbody).2]
            refine ⟨piecesOf front, ?_⟩
            show piecesOf (front ++ '/' :: name.toList) = _
            rw [Path.piecesOf_append_slash, hone]
      · dsimp only
        rw [hchars, Path.piecesOf_append_slash, hone]
        exact ⟨_, rfl⟩
  unfold Path.joinText Path.join
  rw [if_neg h.not_isAbsolute]
  split
  · rename_i hend
    rw [Bool.or_eq_true] at hend
    refine hjoined path.text ?_
    rcases hend with hempty | hend
    · exact .inl (String.isEmpty_iff.1 hempty)
    · rw [String.endsWith_eq_endsWith_toSlice, String.Slice.endsWith_string_iff,
        String.copy_toSlice, hslash] at hend
      obtain ⟨front, hfront⟩ := hend
      exact .inr ⟨front, hfront.symm⟩
  · refine hjoined (path.text ++ "/") (.inr ⟨path.text.toList, ?_⟩)
    rw [String.toList_append, hslash]

theorem exists_pieces_neighbour (current : Location) (path : Path) :
    ∃ front, (origin current (neighbour path)).2 =
      front ++ [(path.fileName?).getD "" ++ ".tmp"] := by
  have hname := isName_neighbour path
  unfold neighbour Path.withFileName
  split
  · exact exists_pieces_joinText current _ hname
  · exact exists_pieces_joinText current _ hname

/-! ## Writing -/

/-- What has become of the files of a world when a file was to be written. -/
structure Atomic (path : Path) (text : String) (before : World) (result : Except Failure Unit)
    (after : World) : Prop where
  /-- The working directory is the same. -/
  current : after.current = before.current
  /-- The file has the text. -/
  held : result = .ok () → after.tree.readText after.current path = .ok text
  /-- Its neighbour is gone. -/
  gone : result = .ok () → after.tree.stat after.current (neighbour path) = .error .notFound
  /-- All other files are as they were. -/
  replaced : result = .ok () →
    SameFiles (fun location => after.tree.locate after.current path = .ok location ∨
      after.tree.locate after.current (neighbour path) = .ok location) before.tree after.tree
  /-- If the file could not be written, all files but its neighbour are as they were. -/
  kept : ∀ failure, result = .error failure →
    SameFiles (fun location => after.tree.locate after.current (neighbour path) = .ok location)
      before.tree after.tree
  /-- If only the neighbour could not be moved, it is gone. -/
  removed : ∀ failure, result = .error failure → (before.run (makeWay path)).1 = .ok () →
    ((before.run (makeWay path)).2.run (writeText (neighbour path) text)).1 = .ok () →
    after.tree.stat after.current (neighbour path) = .error .notFound

open FileTree

variable {world : World} {path : Path} {text : String}

/-- The tree in which a file was put at one location and then moved to another one. -/
def moved (tree : FileTree) (spare location : Location) (entry : Entry) : FileTree :=
  ((tree.set spare entry).erase spare).set location entry

theorem get?_moved (tree : FileTree) {spare location : Location} (hspare : spare ≠ [])
    (hlocation : location ≠ []) (entry : Entry) (other : Location) :
    (moved tree spare location entry).get? other =
      if other = location then some entry
      else if other = spare then none else tree.get? other := by
  rw [moved, get?_set _ hlocation, get?_erase _ hspare, get?_set _ hspare]
  split
  · rfl
  · split <;> rfl

/-- Folders stay where a file is put and moved in the place of no folders. -/
theorem get?_moved_folder {tree : FileTree} {spare location other : Location} {entry : Entry}
    (hspare : spare ≠ []) (hlocation : location ≠ []) (hfree : tree.get? spare ≠ some .folder)
    (hfree' : tree.get? location ≠ some .folder) (hother : tree.get? other = some .folder) :
    (moved tree spare location entry).get? other = some .folder := by
  have hne : other ≠ location := by
    rintro rfl
    exact hfree' hother
  have hne' : other ≠ spare := by
    rintro rfl
    exact hfree hother
  rw [get?_moved tree hspare hlocation, if_neg hne, if_neg hne', hother]

/-- A file is written where its path leads, and no folder was there. -/
theorem exists_destination_of_write {tree after : FileTree} {current : Location}
    {bytes : ByteArray} {mtime : Int} (h : tree.write current path bytes mtime = .ok after) :
    ∃ folder name, after = tree.set (folder ++ [name]) (.file bytes mtime) ∧
      tree.destination current path = .ok ⟨folder, .name name false⟩ ∧
      tree.get? (folder ++ [name]) ≠ some .folder ∧
      tree.locate current path = .ok (folder ++ [name]) := by
  obtain ⟨folder, name, hdestination, hfolder, hafter⟩ := write_iff.1 h
  exact ⟨folder, name, hafter, hdestination, hfolder, (locate_of_destination hdestination).2 rfl⟩

/-- Where the neighbour is written. -/
theorem write_eq_set {tree after : FileTree} {current : Location} {bytes : ByteArray}
    {mtime : Int} (h : tree.write current (neighbour path) bytes mtime = .ok after) :
    ∃ spare, after = tree.set spare (.file bytes mtime) ∧
      spare.getLast? = some ((path.fileName?).getD "" ++ ".tmp") ∧
      tree.get? spare ≠ some .folder ∧ tree.locate current (neighbour path) = .ok spare := by
  obtain ⟨folder, name, hafter, hdestination, hfolder, hlocate⟩ := exists_destination_of_write h
  have hname : name = (path.fileName?).getD "" ++ ".tmp" := by
    obtain ⟨front, hpieces⟩ := exists_pieces_neighbour current path
    have hcomponent := name_of_component (isName_neighbour path).component
    have hlast := (lastPiece_concat front hcomponent.1).2
    obtain ⟨-, -, hlast'⟩ := lead_of_destination hdestination
    rw [hpieces, hlast, if_neg hcomponent.2] at hlast'
    injection hlast' with htext
    exact htext.symm
  rw [← hname]
  exact ⟨folder ++ [name], hafter, List.getLast?_concat, hfolder, hlocate⟩

/-- Where a file is moved. -/
theorem rename_eq_set {tree after : FileTree} {current spare : Location} {source : Path}
    {entry : Entry} (hsource : tree.resolve current source = .ok (spare, entry))
    (h : tree.rename current source path = .ok after) :
    ∃ location name, after = (tree.erase spare).set location entry ∧
      location.getLast? = some name ∧ path.fileName? = some name ∧
      tree.get? location ≠ some .folder ∧ tree.locate current path = .ok location := by
  obtain ⟨_, bytes, mtime, folder, name, hresolve, hdestination, hfolder, hafter⟩ :=
    rename_iff.1 h
  rw [hsource] at hresolve
  cases hresolve
  obtain ⟨hname, hlocate⟩ := locate_of_destination hdestination
  exact ⟨folder ++ [name], name, hafter, List.getLast?_concat, hname, hfolder, hlocate rfl⟩

/-- A neighbour that was written is found where it was. -/
theorem resolve_set {tree : FileTree} {current location : Location} (entry : Entry)
    (hne : location ≠ []) (hfolder : tree.get? location ≠ some .folder)
    (hlocate : tree.locate current path = .ok location) :
    (tree.set location entry).resolve current path = .ok (location, entry) := by
  refine resolve_iff.2 ⟨locate_mono (fun _ => get?_set_folder hne hfolder) hlocate, ?_⟩
  rw [get?_set _ hne, if_pos rfl]

theorem ne_of_tmp {spare location : Location} {name : String}
    (hspare : spare.getLast? = some (name ++ ".tmp")) (hlocation : location.getLast? = some name) :
    spare ≠ location := by
  rintro rfl
  rw [hlocation] at hspare
  have hlength := congrArg (fun text => text.toList.length) (Option.some.inj hspare)
  have htmp : (".tmp" : String).toList.length = 4 := by decide
  simp only [String.toList_append, List.length_append, htmp] at hlength
  omega

theorem run_makeWay_grown (world : World) (path : Path) :
    ∃ tree, (world.run (makeWay path)).2 = { world with tree } ∧
      world.tree.Grown (fun _ => True) tree := by
  unfold makeWay
  split
  · rename_i parent _
    split
    · exact ⟨world.tree, rfl, .refl _ _⟩
    · refine ⟨(world.tree.createFolders world.current parent).2, rfl, ?_⟩
      exact grown_makeFolders world.current _ world.tree parent
  · exact ⟨world.tree, rfl, .refl _ _⟩

/-- What is there when the neighbour was moved over the file. -/
theorem files_of_rename {tree after : FileTree} {current spare : Location} {entry : Entry}
    (hname : spare.getLast? = some ((path.fileName?).getD "" ++ ".tmp"))
    (hfree : tree.get? spare ≠ some .folder)
    (hlocate : tree.locate current (neighbour path) = .ok spare)
    (h : (tree.set spare entry).rename current (neighbour path) path = .ok after)
    (hentry : entry ≠ .folder) :
    ∃ location, after.locate current path = .ok location ∧ after.get? location = some entry ∧
      after.locate current (neighbour path) = .ok spare ∧ after.get? spare = none ∧
      SameFiles (fun other => other = location ∨ other = spare) tree after := by
  have hspare : spare ≠ [] := by
    rintro rfl
    cases hname
  obtain ⟨location, name, hafter, hlast, hown, hfree', hplace⟩ :=
    rename_eq_set (resolve_set _ hspare hfree hlocate) h
  have hmoved : after = moved tree spare location entry := hafter
  subst hmoved
  have hlocation : location ≠ [] := by
    rintro rfl
    cases hlast
  rw [hown, Option.getD_some] at hname
  have hdiffer := ne_of_tmp hname hlast
  rw [get?_set _ hspare, if_neg hdiffer.symm] at hfree'
  have hkeep : ∀ other, tree.get? other = some .folder →
      (moved tree spare location entry).get? other = some .folder :=
    fun other => get?_moved_folder hspare hlocation hfree hfree'
  have hkeep' : ∀ other, (tree.set spare entry).get? other = some .folder →
      (moved tree spare location entry).get? other = some .folder := by
    intro other hother
    refine hkeep other ?_
    rw [get?_set _ hspare] at hother
    split at hother
    · exact absurd (Option.some.inj hother) hentry
    · exact hother
  refine ⟨location, locate_mono hkeep' hplace, ?_, locate_mono hkeep hlocate, ?_, ?_⟩
  · rw [get?_moved tree hspare hlocation, if_pos rfl]
  · rw [get?_moved tree hspare hlocation, if_neg hdiffer, if_pos rfl]
  · exact ((SameFiles.set tree hspare entry (.inr rfl)).trans
      (.erase _ hspare (.inr rfl))).trans (.set _ hlocation entry (.inl rfl))

/-- A file that was put where its path leads can be removed. -/
theorem removeFile_of_locate {tree : FileTree} {current location : Location} {bytes : ByteArray}
    {mtime : Int} (hne : location ≠ []) (hfree : tree.get? location ≠ some .folder)
    (hlocate : tree.locate current path = .ok location) :
    (tree.set location (.file bytes mtime)).removeFile current path =
      .ok ((tree.set location (.file bytes mtime)).erase location) :=
  removeFile_iff.2
    ⟨location, bytes, mtime, resolve_set (.file bytes mtime) hne hfree hlocate, rfl⟩

/-- What is there when the neighbour was removed again. -/
theorem files_of_removal {tree : FileTree} {current spare : Location} (entry : Entry)
    (hspare : spare ≠ []) (hfree : tree.get? spare ≠ some .folder)
    (hlocate : tree.locate current (neighbour path) = .ok spare) :
    ((tree.set spare entry).erase spare).locate current (neighbour path) = .ok spare ∧
      ((tree.set spare entry).erase spare).get? spare = none ∧
      SameFiles (· = spare) tree ((tree.set spare entry).erase spare) := by
  refine ⟨locate_mono (fun other hother => ?_) hlocate, ?_, ?_⟩
  · have hne : other ≠ spare := by
      rintro rfl
      exact hfree hother
    rw [get?_erase _ hspare, if_neg hne, get?_set _ hspare, if_neg hne, hother]
  · rw [get?_erase _ hspare, if_pos rfl]
  · have hset : SameFiles (· = spare) tree (tree.set spare entry) := .set tree hspare entry rfl
    exact hset.trans (.erase _ hspare rfl)

/-- **Writing a file as a whole.**  It has the text or is as it was. -/
theorem atomic_writeWhole (world : World) (path : Path) (text : String) :
    Atomic path text world (world.run (writeWhole path text)).1
      (world.run (writeWhole path text)).2 := by
  obtain ⟨tree, hmade, hgrown⟩ := run_makeWay_grown world path
  have hway : ∀ {apart}, SameFiles apart world.tree tree := .of_grown hgrown
  rw [run_writeWhole_of_makeWay]
  rcases hrun : world.run (makeWay path) with ⟨made, between⟩
  rw [hrun] at hmade
  dsimp only at hmade
  subst hmade
  cases made with
  | error failure =>
      refine ⟨rfl, nofun, nofun, nofun, fun _ _ => hway, fun _ _ hok => ?_⟩
      rw [hrun] at hok
      cases hok
  | ok made =>
      dsimp only
      rw [run_replaceFile_eq]
      dsimp only
      cases hwrite : tree.write world.current (neighbour path) text.toUTF8 world.clock with
      | error failure =>
          refine ⟨rfl, nofun, nofun, nofun, fun _ _ => hway, fun _ _ _ hok => ?_⟩
          rw [hrun, run_writeText] at hok
          dsimp only at hok
          rw [hwrite] at hok
          cases hok
      | ok written =>
          obtain ⟨spare, rfl, hname, hfree, hlocate⟩ := write_eq_set hwrite
          dsimp only
          cases hrename : (tree.set spare (.file text.toUTF8 world.clock)).rename world.current
              (neighbour path) path with
          | ok after =>
              obtain ⟨location, hplace, hentry, hbeside, hgone, hsame⟩ :=
                files_of_rename hname hfree hlocate hrename nofun
              refine ⟨rfl, fun _ => ?_, fun _ => stat_of_gone hbeside hgone, fun _ => ?_, nofun,
                nofun⟩
              · exact readText_iff.2 ⟨location, text.toUTF8, world.clock,
                  resolve_iff.2 ⟨hplace, hentry⟩, fromUTF8?_toUTF8 text⟩
              · refine hway.trans (hsame.mono fun other hother => ?_)
                rcases hother with rfl | rfl
                · exact .inl hplace
                · exact .inr hbeside
          | error failure =>
              have hspare : spare ≠ [] := by
                rintro rfl
                cases hname
              obtain ⟨hbeside, hgone, hsame⟩ :=
                files_of_removal (.file text.toUTF8 world.clock) hspare hfree hlocate
              dsimp only
              rw [removeFile_of_locate hspare hfree hlocate]
              refine ⟨rfl, nofun, nofun, nofun, fun _ _ => ?_,
                fun _ _ _ _ => stat_of_gone hbeside hgone⟩
              exact hway.trans (hsame.mono fun other hother => hother ▸ hbeside)

end KeysetBundle.Files
