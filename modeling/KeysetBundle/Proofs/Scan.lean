import KeysetBundle.Proofs.Files.Looking
import KeysetBundle.Scan

/-!
# Scans only look

A scan of levels leaves the world as it is.  Below an absolute base all paths
that it finds are absolute, and each keyset file is named by its directory.

Main result.

- `looks_ofLevels`: what a scan does and finds.
-/

namespace KeysetBundle

open Files
open Files.Program

/-! ## Patterns -/

namespace Glob

theorem isAbsolute_child {folder : Path} (name : String) (h : folder.isAbsolute) :
    (child folder name).isAbsolute := by
  unfold child
  split
  · rename_i hpoint
    have htext := Path.text_eq h
    have hchars : ("." : String).toList = ['.'] := by decide
    rw [hpoint, hchars] at htext
    exact absurd (List.cons.inj htext).1 (by decide)
  · exact Path.isAbsolute_joinText name h

theorem isAbsolute_descend {folder : Path} (names : Location) (h : folder.isAbsolute) :
    (descend folder names).isAbsolute := by
  unfold descend
  induction names generalizing folder with
  | nil => exact h
  | cons name names ih => exact ih (isAbsolute_child name h)

theorem looks_gather {α β : Type} {post : β → Prop} {items : List α}
    {program : α → Program (List β)}
    (h : ∀ a ∈ items, (program a).Looks fun found => ∀ b ∈ found, post b) :
    (gather items program).Looks fun found => ∀ b ∈ found, post b := by
  unfold gather
  refine looks_bind (looks_mapM h) fun lists hlists => looks_pure ?_
  intro b hb
  obtain ⟨list, hlist, hmem⟩ := List.mem_flatten.1 hb
  exact hlists list hlist b hmem

/-- A search below absolute paths finds absolute paths.  The recursion is that of the search. -/
theorem looks_search : ∀ (pieces : List Piece) {path : Path}, path.isAbsolute →
    (search pieces path).Looks fun found => ∀ p ∈ found, p.isAbsolute
  | [], path, h => by
      rw [search]
      exact looks_pure fun p hp => List.mem_singleton.1 hp ▸ h
  | .text value :: rest, path, h => by
      rw [search]
      have htest : (if isRelative value then isFolder path
          else pathExists (child path value)).Looks fun _ => True := by
        split
        · exact looks_isFolder path
        · exact looks_pathExists _
      refine looks_bind htest fun yes _ => ?_
      cases yes with
      | false => exact looks_pure fun p hp => nomatch hp
      | true => exact looks_search rest (isAbsolute_child value h)
  | .wild tokens :: rest, path, h => by
      rw [search]
      refine looks_bind (looks_isFolder path) fun yes _ => ?_
      cases yes with
      | false => exact looks_pure fun p hp => nomatch hp
      | true =>
          refine looks_bind (looks_request rfl) fun listing _ => ?_
          apply looks_gather
          intro p hp
          apply looks_search rest
          rcases List.mem_append.1 hp with hp | hp
          · obtain ⟨name, -, rfl⟩ := List.mem_map.1 hp
            exact Path.isAbsolute_joinText name h
          · obtain ⟨name, -, rfl⟩ := List.mem_map.1 hp
            exact isAbsolute_child name h
  | [.anyFolders], path, h => by
      rw [search]
      refine looks_bind (looks_request rfl) fun listing _ => looks_pure ?_
      intro p hp
      obtain ⟨names, -, rfl⟩ := List.mem_map.1 hp
      exact isAbsolute_descend names h
  | .anyFolders :: next :: rest, path, h => by
      rw [search]
      refine looks_bind (looks_request rfl) fun listing _ => ?_
      apply looks_gather
      intro p hp
      obtain ⟨names, -, rfl⟩ := List.mem_map.1 hp
      exact looks_search rest (isAbsolute_descend names h)

theorem isAbsolute_start {path : Path} {pattern : PathPattern} (h : path.isAbsolute)
    (hpattern : PathPattern.ofText path.text = .ok pattern) : pattern.start.isAbsolute := by
  unfold PathPattern.ofText at hpattern
  rw [Path.text_eq h] at hpattern
  obtain ⟨-, -, hrest⟩ := bind_eq_ok.1 hpattern
  obtain ⟨pieces, -, hpieces⟩ := bind_eq_ok.1 hrest
  cases hpieces
  have hroot : (Path.mk "/").isAbsolute := Path.isAbsolute_of_text [] (by decide)
  exact hroot

theorem looks_folders {pattern : PathPattern} (h : pattern.start.isAbsolute) :
    pattern.folders.Looks fun found => ∀ p ∈ found, p.isAbsolute :=
  looks_bind (looks_search pattern.pieces h) fun _ hfound =>
    looks_filterM (fun p _ => looks_isFolder p) hfound

end Glob

/-! ## Levels -/

theorem Level.looks_folders {base : Path} (level : String) (h : base.isAbsolute) :
    (Level.folders base level).Looks fun found =>
      ∀ paths, found = .ok paths → ∀ p ∈ paths, p.isAbsolute := by
  have hpath := Path.isAbsolute_joinText level h
  unfold Level.folders
  dsimp only
  split
  · split
    · exact looks_pure nofun
    · rename_i pattern hpattern
      refine looks_bind (Glob.looks_folders (Glob.isAbsolute_start hpath hpattern)) ?_
      intro found hfound
      apply looks_pure
      intro paths hpaths
      cases hpaths
      exact hfound
  · refine looks_bind (looks_isFolder _) fun yes _ => ?_
    cases yes with
    | false => exact looks_pure nofun
    | true =>
        apply looks_pure
        intro paths hpaths
        cases hpaths
        intro p hp
        rw [List.mem_singleton.1 hp]
        exact hpath

/-! ## Keyset directories -/

/-- A directory as a scan finds it: at an absolute path, with files that are named by it. -/
structure KeysetDir.IsScanned (dir : KeysetDir) : Prop where
  /-- The path is absolute. -/
  isAbsolute : dir.path.isAbsolute
  /-- The files are those of the directory. -/
  file : ∀ file ∈ dir.files, file.path = dir.path.joinText file.name

theorem KeysetDir.isScanned_ofListing {suffix : String} {level : Path}
    {listing : List (Location × Stat)} (h : level.isAbsolute) :
    ∀ dir ∈ ofListing suffix level listing, dir.IsScanned := by
  intro dir hdir
  obtain ⟨names, -, rfl⟩ := List.mem_map.1 hdir
  constructor
  · show (names.foldl Path.joinText level).isAbsolute
    clear hdir
    induction names generalizing level with
    | nil => exact h
    | cons name names ih => exact ih (Path.isAbsolute_joinText name h)
  · intro file hfile
    obtain ⟨name, -, rfl⟩ := List.mem_map.1 hfile
    rfl

namespace Scan

theorem looks_ofFolder (suffix : String) {folder : Path} (h : folder.isAbsolute) :
    (ofFolder suffix folder).Looks fun dirs => ∀ dir ∈ dirs, dir.IsScanned :=
  looks_bind (looks_request rfl) fun _ _ => looks_pure (KeysetDir.isScanned_ofListing h)

theorem looks_ofLevel {base : Path} (suffix level : String) (h : base.isAbsolute) :
    (ofLevel base suffix level).Looks fun scan => ∀ dir ∈ scan.dirs, dir.IsScanned := by
  unfold ofLevel
  refine looks_bind (Level.looks_folders level h) fun found hfound => ?_
  cases found with
  | error warning => exact looks_pure fun dir hdir => nomatch hdir
  | ok folders =>
      refine looks_bind (looks_mapM fun folder hfolder =>
        looks_ofFolder suffix (hfound folders rfl folder hfolder)) fun dirs hdirs => ?_
      apply looks_pure
      intro dir hdir
      obtain ⟨some, hsome, hmem⟩ := List.mem_flatten.1 hdir
      exact hdirs some hsome dir hmem

/-- What all directories of some scans have in common. -/
theorem forall_foldl {P : KeysetDir → Prop} {scans : List Scan} {scan : Scan}
    (h : ∀ other ∈ scans, ∀ dir ∈ other.dirs, P dir) (hscan : ∀ dir ∈ scan.dirs, P dir) :
    ∀ dir ∈ (scans.foldl append scan).dirs, P dir := by
  induction scans generalizing scan with
  | nil => exact hscan
  | cons next scans ih =>
      refine ih (fun other hother => h other (by simp [hother])) fun dir hdir => ?_
      rcases List.mem_append.1 hdir with hdir | hdir
      · exact hscan dir hdir
      · exact h next (by simp) dir hdir

/-- **What a scan finds.**  It asks questions only. -/
theorem looks_ofLevels {base : Path} (levels : List String) (suffix : String)
    (h : base.isAbsolute) :
    (ofLevels base levels suffix).Looks fun scan => ∀ dir ∈ scan.dirs, dir.IsScanned :=
  looks_bind (looks_mapM fun level _ => looks_ofLevel suffix level h) fun _ hscans =>
    looks_pure (forall_foldl hscans fun _ hdir => nomatch hdir)

end Scan

end KeysetBundle
