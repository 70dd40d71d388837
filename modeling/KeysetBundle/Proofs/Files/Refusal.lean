import KeysetBundle.Proofs.Files.Replacing

/-!
# Files that cannot be written

A file cannot be written if another file is in its way, if its neighbour is a
folder, or if nothing can be moved to its path.  An attempt may still make
folders on the way, and may remove an old neighbour; but after it there is
nothing left to be done, so that every further attempt fails and changes
nothing.

Main results.

- `refuses_of_error`: why a file cannot be written is still true after the attempt.
- `run_writeWhole_refused`: another attempt fails and leaves the tree as it is.
-/

namespace KeysetBundle.Files

open FileTree

variable {tree other : FileTree} {world : World} {path : Path}

theorem FileTree.kindAt_eq_file {location : Location} :
    tree.kindAt location = some false ↔
      ∃ bytes mtime, tree.get? location = some (.file bytes mtime) := by
  unfold kindAt
  constructor
  · intro h
    obtain ⟨entry, hentry, hkind⟩ := Option.map_eq_some_iff.1 h
    cases entry with
    | folder => cases hkind
    | file bytes mtime => exact ⟨bytes, mtime, hentry⟩
  · rintro ⟨bytes, mtime, hentry⟩
    rw [hentry]
    rfl

/-- Why a file cannot be written, seen on the tree after an attempt. -/
inductive Refuses (tree : FileTree) (path : Path) : Prop
  /-- A file is in the way. -/
  | blocked {n : Nat} (hn : n < path.steps.length) (h : tree.BlockedAt path n)
  /-- The neighbour is a folder. -/
  | spare (hopen : tree.OpenTo path path.steps.length)
    (h : tree.get? (place (neighbour path)) = some .folder)
  /-- There is no neighbour, and one could not be moved. -/
  | fixed (hopen : tree.OpenTo path path.steps.length)
    (hnone : tree.get? (place (neighbour path)) = none)
    (h : ¬(Plain path ∧ tree.get? (place path) ≠ some .folder))

/-! ## The first attempt -/

/-- A path does not name its own neighbour. -/
theorem place_neighbour_ne_self (h : path.isAbsolute) : place (neighbour path) ≠ place path := by
  rw [place_neighbour h, place_eq h]
  intro heq
  cases hname : path.fileName? with
  | none =>
      have hlength := congrArg List.length heq
      rw [hname, if_neg (by decide)] at hlength
      simp at hlength
  | some name =>
      have hsteps := Path.fileName?_eq_some h hname
      rw [hname, Option.isSome_some, if_pos rfl, hsteps, List.dropLast_concat, List.foldl_append]
        at heq
      have hlast := (List.cons.inj (List.append_cancel_left heq)).1
      have hlength := congrArg (fun text => text.toList.length) hlast
      have htmp : (".tmp" : String).toList.length = 4 := by decide
      rw [Option.getD_some, String.toList_append, List.length_append, htmp] at hlength
      omega

theorem get?_spared_place (habsolute : path.isAbsolute) (text : String) :
    (spared world path text).get? (place path) = world.tree.get? (place path) := by
  rw [spared, get?_set _ (place_neighbour_ne_nil habsolute),
    if_neg (place_neighbour_ne_self habsolute).symm]

/-- A neighbour that was written cannot be moved just if nothing can be moved to the path. -/
theorem rename_spared (habsolute : path.isAbsolute) (text : String)
    (hopen : world.tree.OpenTo path path.steps.length)
    (hfree : world.tree.get? (place (neighbour path)) ≠ some .folder) :
    (∃ failure, (spared world path text).rename world.current (neighbour path) path =
      .error failure) ↔ ¬(Plain path ∧ world.tree.get? (place path) ≠ some .folder) := by
  have hmoved := exists_rename habsolute (resolve_spared text habsolute hopen hfree)
    (fun h => nomatch h) (openTo_spared text habsolute hopen hfree)
  rw [get?_spared_place habsolute] at hmoved
  rw [← hmoved]
  cases (spared world path text).rename world.current (neighbour path) path with
  | error failure => exact ⟨fun _ => nofun, fun _ => ⟨failure, rfl⟩⟩
  | ok after => exact ⟨nofun, fun h => absurd ⟨after, rfl⟩ h⟩

/-- The tree after a neighbour was written and removed again. -/
theorem get?_removed (habsolute : path.isAbsolute) (text : String) (location : Location) :
    ((spared world path text).erase (place (neighbour path))).get? location =
      if location = place (neighbour path) then none else world.tree.get? location := by
  have hne := place_neighbour_ne_nil habsolute
  rw [get?_erase _ hne, spared, get?_set _ hne]
  split <;> rfl

/-- Replacing a file along an open way fails for a reason that stays. -/
theorem refuses_replaceFile {text : String} {failure : Failure} (habsolute : path.isAbsolute)
    (hopen : world.tree.OpenTo path path.steps.length)
    (h : (world.run (replaceFile path text)).1 = .error failure) :
    Refuses (world.run (replaceFile path text)).2.tree path := by
  by_cases hfolder : world.tree.get? (place (neighbour path)) = some .folder
  · rw [run_replaceFile_folder habsolute hopen hfolder]
    exact .spare hopen hfolder
  · rw [run_replaceFile_free habsolute hopen hfolder] at h ⊢
    cases hrename : (spared world path text).rename world.current (neighbour path) path with
    | ok after =>
        rw [hrename] at h
        cases h
    | error cause =>
        have hfixed := (rename_spared habsolute text hopen hfolder).1 ⟨cause, hrename⟩
        refine .fixed (fun m hm => ?_) ?_ ?_
        · rw [get?_removed habsolute, if_neg]
          · exact hopen m hm
          · exact fun hstop => hfolder (hstop ▸ hopen m hm)
        · rw [get?_removed habsolute, if_pos rfl]
        · rw [get?_removed habsolute, if_neg (place_neighbour_ne_self habsolute).symm]
          exact hfixed

/-- **Why a file cannot be written is still true after the attempt.** -/
theorem refuses_of_error {text : String} {failure : Failure} (habsolute : path.isAbsolute)
    (h : (world.run (writeWhole path text)).1 = .error failure) :
    Refuses (world.run (writeWhole path text)).2.tree path := by
  obtain ⟨hmade, hblocked⟩ := made_makeWay world habsolute
  rw [run_writeWhole_of_makeWay] at h ⊢
  generalize world.run (makeWay path) = reply at h hmade hblocked ⊢
  obtain ⟨made, after⟩ := reply
  cases made with
  | error cause =>
      obtain ⟨n, hn, hfile⟩ := hblocked cause rfl
      exact .blocked hn hfile
  | ok made => exact refuses_replaceFile habsolute (hmade rfl) h

/-! ## Every further attempt -/

/-- Worlds that have the same at every location. -/
structure Alike (world other : World) : Prop where
  /-- The working directory. -/
  current : world.current = other.current
  /-- The entries. -/
  tree : ∀ location, world.tree.get? location = other.tree.get? location

namespace Alike

variable {other : World}

theorem refl (world : World) : Alike world world := ⟨rfl, fun _ => rfl⟩

theorem trans {third : World} (h : Alike world other) (h' : Alike other third) :
    Alike world third :=
  ⟨h.current.trans h'.current, fun location => (h.tree location).trans (h'.tree location)⟩

theorem resolve (h : Alike world other) (path : Path) :
    world.tree.resolve world.current path = other.tree.resolve other.current path := by
  have hstep : world.tree.step = other.tree.step := by
    funext location piece
    unfold FileTree.step
    rw [h.tree location]
  have hlocate : world.tree.locate world.current path = other.tree.locate other.current path := by
    unfold FileTree.locate
    rw [hstep, h.current]
  unfold FileTree.resolve
  simp only [hlocate, h.tree]

theorem stat (h : Alike world other) (path : Path) :
    world.tree.stat world.current path = other.tree.stat other.current path := by
  unfold FileTree.stat
  rw [h.resolve path]

theorem readText (h : Alike world other) (path : Path) :
    world.tree.readText world.current path = other.tree.readText other.current path := by
  unfold FileTree.readText
  rw [h.resolve path]

end Alike

/-- **Another attempt fails** and leaves the tree as it is. -/
theorem run_writeWhole_refused (habsolute : path.isAbsolute) (h : Refuses world.tree path)
    (text : String) :
    ∃ failure, (world.run (writeWhole path text)).1 = .error failure ∧
      Alike (world.run (writeWhole path text)).2 world := by
  cases h with
  | blocked hn h =>
      rw [run_writeWhole_of_makeWay, run_makeWay_blocked world habsolute hn h]
      exact ⟨_, rfl, .refl _⟩
  | spare hopen h =>
      rw [run_writeWhole_open habsolute hopen, run_replaceFile_folder habsolute hopen h]
      exact ⟨_, rfl, .refl _⟩
  | fixed hopen hnone h =>
      have hfree : world.tree.get? (place (neighbour path)) ≠ some .folder := by
        rw [hnone]
        nofun
      obtain ⟨failure, hrename⟩ := (rename_spared habsolute text hopen hfree).2 h
      rw [run_writeWhole_open habsolute hopen, run_replaceFile_free habsolute hopen hfree, hrename]
      refine ⟨_, rfl, rfl, fun location => ?_⟩
      dsimp only
      rw [get?_removed habsolute]
      split
      · rename_i hlocation
        rw [hlocation, hnone]
      · rfl

/-- The reason stays where folders stay, files in the way stay files, and no file comes to the
place of the neighbour. -/
theorem Refuses.mono (h : Refuses tree path)
    (hfolder : ∀ location, tree.get? location = some .folder → other.get? location = some .folder)
    (hway : ∀ location, OnWay path location → tree.kindAt location = some false →
      other.kindAt location = some false)
    (hspare : tree.kindAt (place (neighbour path)) ≠ some false →
      other.kindAt (place (neighbour path)) ≠ some false) : Refuses other path := by
  cases h with
  | @blocked n hn h =>
      refine .blocked hn ⟨h.isOpen.of_folder hfolder, ?_⟩
      exact kindAt_eq_file.1 (hway _ ⟨n, hn, rfl⟩ (kindAt_eq_file.2 h.isFile))
  | spare hopen h => exact .spare (hopen.of_folder hfolder) (hfolder _ h)
  | fixed hopen hnone h =>
      have hfixed : ¬(Plain path ∧ other.get? (place path) ≠ some .folder) :=
        fun ⟨hplain, hplace⟩ => h ⟨hplain, fun hthere => hplace (hfolder _ hthere)⟩
      have hnot : other.kindAt (place (neighbour path)) ≠ some false := by
        apply hspare
        rw [kindAt, hnone]
        nofun
      cases hthere : other.get? (place (neighbour path)) with
      | none => exact .fixed (hopen.of_folder hfolder) hthere hfixed
      | some entry =>
          cases entry with
          | folder => exact .spare (hopen.of_folder hfolder) hthere
          | file bytes mtime => exact absurd (kindAt_eq_file.2 ⟨bytes, mtime, hthere⟩) hnot

end KeysetBundle.Files
