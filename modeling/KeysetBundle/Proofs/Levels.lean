import Mathlib.Data.List.Forall2
import KeysetBundle.Proofs.Files.Joining
import KeysetBundle.Proofs.KeysetFiles
import KeysetBundle.Proofs.Text.ByteOrder

/-!
# What a scan of levels finds

For each level that leads to a folder a scan finds the keyset directories at
the folder and below it, each once.  They stand in the order of the names that
lead to them, which is an order of the names one by one and not of the paths as
texts: a directory stands before what is in it, and `a/b` before `a-b`.  The
files of a keyset directory are those that are directly in it, by name.

What is below a level counts by the name that it has in the tree.  The level
itself counts by the name in which its path ends, so that it does not count if
the path ends in `..` (`not_gives_all_up`).

Main result.

- `gives_ofLevels`: what a scan of levels that are no patterns finds in a world.
-/

namespace KeysetBundle

open Files

/-! ## Names of keyset directories -/

namespace KeysetDir

/-- The last of the names ends in the suffix and has more before it. -/
def HasName (suffix : String) (location : Location) : Prop :=
  ∃ stem, stem ≠ "" ∧ location.getLast? = some (stem ++ suffix)

theorem isName_iff {suffix name : String} :
    isName suffix name ↔ ∃ stem, stem ≠ "" ∧ name = stem ++ suffix := by
  unfold isName
  rw [Bool.and_eq_true, decide_eq_true_eq, String.endsWith_eq_endsWith_toSlice,
    String.Slice.endsWith_string_iff, String.copy_toSlice]
  constructor
  · rintro ⟨hsize, front, hfront⟩
    have hname : name = String.ofList front ++ suffix := by
      rw [← String.toList_inj, String.toList_append, String.toList_ofList, hfront]
    refine ⟨String.ofList front, ?_, hname⟩
    intro hempty
    rw [hname, hempty, String.empty_append] at hsize
    exact Nat.lt_irrefl _ hsize
  · rintro ⟨stem, hstem, rfl⟩
    have hsize : stem.utf8ByteSize ≠ 0 := mt String.utf8ByteSize_eq_zero_iff.1 hstem
    rw [String.utf8ByteSize_append, String.toList_append]
    exact ⟨by omega, stem.toList, rfl⟩

/-- Below a level the last name counts, and for the level itself the name in which its path ends. -/
theorem isAt_iff {tree : FileTree} {current location names : Location} {suffix : String}
    {level : Path} (h : tree.locate current level = .ok location) :
    isAt suffix level names ↔
      HasName suffix (location ++ names) ∧ (names = [] → level.fileName?.isSome) := by
  unfold isAt HasName
  cases hlast : names.getLast? with
  | some name =>
      have hne : names ≠ [] := by
        rintro rfl
        nomatch hlast
      have hsame : (location ++ names).getLast? = some name := by
        rw [List.getLast?_append, hlast]
        rfl
      rw [hsame, isName_iff]
      simp only [Option.some.injEq, hne, false_implies, and_true]
  | none =>
      have hnil : names = [] := List.getLast?_eq_none_iff.1 hlast
      subst hnil
      rw [List.append_nil]
      cases hname : level.fileName? with
      | none => simp
      | some name =>
          rw [FileTree.getLast?_of_locate h hname, Option.any_some, isName_iff]
          simp

end KeysetDir

/-! ## Order -/

theorem lt_of_before {names : Location} {name other : String}
    (h : Before (names ++ [name]) (names ++ [other])) : name < other := by
  induction names with
  | nil => exact (Before.cons_iff.1 h).resolve_right fun h => Before.irrefl _ h.2
  | cons first names ih =>
      exact ih ((Before.cons_iff.1 h).resolve_left (String.lt_irrefl first)).2

/-- Names that are compared as texts are compared by their bytes. -/
theorem lex_bytes_of_before {names others : Location} (h : Before names others) :
    List.Lex (fun a b => Text.bytes a < Text.bytes b) names others := by
  unfold Before at h
  induction h with
  | nil => exact .nil
  | rel hlt => exact .rel (Text.bytes_lt_of_lt hlt)
  | cons _ ih => exact .cons ih

/-! ## Ways down -/

/-- In a sound tree the names of a folder lead to it. -/
theorem locate_foldl_joinText {tree : FileTree} (hsound : tree.Sound)
    {current location names : Location} {level : Path}
    (h : tree.locate current level = .ok location)
    (hfolder : tree.get? (location ++ names) = some .folder) :
    tree.locate current (names.foldl Path.joinText level) = .ok (location ++ names) := by
  induction names generalizing location level with
  | nil =>
      rw [List.append_nil]
      exact h
  | cons name names ih =>
      have hsplit : location ++ name :: names = location ++ [name] ++ names := by simp
      rw [hsplit] at hfolder ⊢
      have hnext : tree.get? (location ++ [name]) = some .folder := by
        by_cases hnil : names = []
        · rw [hnil, List.append_nil] at hfolder
          exact hfolder
        · exact hsound.folder_of_append hnil (by rw [hfolder]; nofun)
      have hthere : tree.get? (location ++ [name]) ≠ none := by rw [hnext]; nofun
      exact ih (FileTree.locate_joinText h (hsound.parent location name hthere)
        (hsound.isName location name hthere)) hfolder

/-! ## The listing of a level -/

/-- The name that a listing has for a file directly in a folder. -/
theorem eq_of_fileNameIn {names : Location} {item : Location × Stat} {name : String}
    (h : (match FileTree.below? names item.1 with
      | some [name] => if item.2.isFolder then none else some name
      | _ => none) = some name) : item.1 = names ++ [name] ∧ item.2.isFolder = false := by
  split at h
  · rename_i found hbelow
    split at h
    · cases h
    · rename_i hfile
      cases h
      exact ⟨FileTree.below?_eq_some.1 hbelow, Bool.eq_false_iff.2 hfile⟩
  · cases h

/-- The folders of a listing, and the one that is listed itself. -/
def KeysetDir.foldersIn (listing : List (Location × Stat)) : List Location :=
  [] :: (listing.filter (·.2.isFolder)).map (·.1)

theorem KeysetDir.ofListing_eq (suffix : String) (level : Path)
    (listing : List (Location × Stat)) :
    ofListing suffix level listing = ((foldersIn listing).filter (isAt suffix level)).map fun names =>
      ofNames (names.foldl Path.joinText level) (fileNamesIn listing names) := rfl

section Listed

variable {tree : FileTree} {current location : Location} {level : Path}
  (hlevel : tree.resolve current level = .ok (location, .folder))

include hlevel

theorem mem_fileNamesIn {names : Location} {name : String} :
    name ∈ KeysetDir.fileNamesIn (tree.listing current level) names ↔
      ∃ bytes mtime, tree.get? (location ++ names ++ [name]) = some (.file bytes mtime) := by
  unfold KeysetDir.fileNamesIn
  rw [List.mem_filterMap, List.append_assoc]
  constructor
  · rintro ⟨item, hmem, hname⟩
    obtain ⟨hitem, hfile⟩ := eq_of_fileNameIn hname
    obtain ⟨-, hget⟩ := (FileTree.mem_listing hlevel).1 hmem
    rw [hitem] at hget
    obtain ⟨entry, hentry, hstat⟩ := Option.map_eq_some_iff.1 hget
    rw [← hstat] at hfile
    cases entry with
    | folder => nomatch hfile
    | file bytes mtime => exact ⟨bytes, mtime, hentry⟩
  · rintro ⟨bytes, mtime, hget⟩
    have hlisted : (names ++ [name], .file bytes.size mtime) ∈ tree.listing current level := by
      rw [FileTree.mem_listing hlevel, hget]
      exact ⟨by simp, rfl⟩
    refine ⟨_, hlisted, ?_⟩
    dsimp only
    rw [FileTree.below?_eq_some.2 rfl]
    rfl

theorem pairwise_fileNamesIn (names : Location) :
    (KeysetDir.fileNamesIn (tree.listing current level) names).Pairwise (· < ·) := by
  unfold KeysetDir.fileNamesIn
  rw [List.pairwise_filterMap]
  refine (FileTree.pairwise_listing hlevel).imp fun {a b} hlt name hname other hother => ?_
  rw [(eq_of_fileNameIn hname).1, (eq_of_fileNameIn hother).1] at hlt
  exact lt_of_before hlt

theorem mem_foldersIn {names : Location} :
    names ∈ KeysetDir.foldersIn (tree.listing current level) ↔
      tree.get? (location ++ names) = some .folder := by
  have hlocation : tree.get? location = some .folder := (FileTree.resolve_iff.1 hlevel).2
  rw [KeysetDir.foldersIn, List.mem_cons, List.mem_map]
  constructor
  · rintro (rfl | ⟨⟨other, stat⟩, hmem, rfl⟩)
    · rw [List.append_nil, hlocation]
    · obtain ⟨hlisted, hfolder⟩ := List.mem_filter.1 hmem
      obtain ⟨entry, hentry, rfl⟩ :=
        Option.map_eq_some_iff.1 ((FileTree.mem_listing hlevel).1 hlisted).2
      cases entry with
      | folder => exact hentry
      | file bytes mtime => nomatch hfolder
  · intro hget
    by_cases hne : names = []
    · exact .inl hne
    · have hlisted : (names, .folder) ∈ tree.listing current level := by
        rw [FileTree.mem_listing hlevel, hget]
        exact ⟨hne, rfl⟩
      exact .inr ⟨(names, .folder), List.mem_filter.2 ⟨hlisted, rfl⟩, rfl⟩

theorem pairwise_foldersIn :
    (KeysetDir.foldersIn (tree.listing current level)).Pairwise Before := by
  rw [KeysetDir.foldersIn, List.pairwise_cons, List.pairwise_map]
  refine ⟨fun names hnames => ?_, (FileTree.pairwise_listing hlevel).sublist List.filter_sublist⟩
  obtain ⟨⟨other, stat⟩, hmem, rfl⟩ := List.mem_map.1 hnames
  exact Before.nil_left ((FileTree.mem_listing hlevel).1 (List.mem_filter.1 hmem).1).1

end Listed

/-! ## What is found -/

/-- A keyset directory as it is at a location: its path leads there, and it has the files that are
directly in it, in the order of the bytes of their names. -/
structure KeysetDir.Shows (dir : KeysetDir) (world : World) (location : Location) : Prop where
  /-- The path leads to the folder. -/
  leads : world.tree.resolve world.current dir.path = .ok (location, .folder)
  /-- The names of the files ascend strictly. -/
  ascending : (dir.files.map KeysetFile.name).Pairwise fun a b => Text.bytes a < Text.bytes b
  /-- They are the names of the files in the folder. -/
  files : ∀ name, name ∈ dir.files.map KeysetFile.name ↔
    ∃ bytes mtime, world.tree.get? (location ++ [name]) = some (.file bytes mtime)
  /-- The path of a file is that of the directory with the name of the file. -/
  paths : ∀ file ∈ dir.files, file.path = dir.path.joinText file.name

/-- The directories that a level gives: one for each folder at the level or below it that counts,
in the order of the names that lead to it from the level. They are compared name by name and by
their bytes, and a folder stands before what is in it. A level that leads to no folder gives
nothing. -/
def Level.Gives (world : World) (level : Path) (counts : Location → Location → Prop)
    (dirs : List KeysetDir) : Prop :=
  match world.tree.resolve world.current level with
  | .ok (location, .folder) => ∃ below : List Location,
      below.Pairwise (List.Lex fun a b => Text.bytes a < Text.bytes b) ∧
      (∀ names, names ∈ below ↔
        world.tree.get? (location ++ names) = some .folder ∧ counts location names) ∧
      List.Forall₂ (fun names dir => dir.path = names.foldl Path.joinText level ∧
        dir.Shows world (location ++ names)) below dirs
  | _ => dirs = []

/-- The directories that levels below `base` give, one level after the other. -/
def Scan.Gives (world : World) (base : Path) (levels : List String)
    (counts : Path → Location → Location → Prop) (dirs : List KeysetDir) : Prop :=
  ∃ found : List (List KeysetDir), dirs = found.flatten ∧
    List.Forall₂ (fun level => Level.Gives world (base.joinText level)
      (counts (base.joinText level))) levels found

/-! ## Scans -/

/-- What is known of each result is known of all of them. -/
theorem Files.Program.finds_mapM_map {α β γ : Type} {world : World} {f : α → Program β}
    {g : β → γ} {h : α → γ} {items : List α}
    (hf : ∀ a ∈ items, (f a).Finds world fun b => g b = h a) :
    (items.mapM f).Finds world fun results => results.map g = items.map h := by
  induction items with
  | nil =>
      rw [List.mapM_nil]
      exact finds_pure rfl
  | cons item items ih =>
      rw [List.mapM_cons]
      refine finds_bind (hf item (by simp)) fun b hb => ?_
      refine finds_bind (ih fun a ha => hf a (by simp [ha])) fun bs hbs => finds_pure ?_
      rw [List.map_cons, List.map_cons, hb, hbs]

theorem KeysetDir.shows_ofNames {world : World} (hsound : world.tree.Sound) {level : Path}
    {location names : Location}
    (hlevel : world.tree.resolve world.current level = .ok (location, .folder))
    (hfolder : world.tree.get? (location ++ names) = some .folder) :
    (ofNames (names.foldl Path.joinText level)
      (fileNamesIn (world.tree.listing world.current level) names)).Shows world
        (location ++ names) := by
  have hnames : ((ofNames (names.foldl Path.joinText level)
      (fileNamesIn (world.tree.listing world.current level) names)).files.map KeysetFile.name) =
        fileNamesIn (world.tree.listing world.current level) names := by
    unfold ofNames
    rw [List.map_map]
    exact List.map_id _
  have hlocate := locate_foldl_joinText hsound (FileTree.resolve_iff.1 hlevel).1 hfolder
  refine ⟨FileTree.resolve_iff.2 ⟨hlocate, hfolder⟩, ?_, fun name => ?_, ?_⟩
  · rw [hnames]
    exact (pairwise_fileNamesIn hlevel names).imp Text.bytes_lt_of_lt
  · rw [hnames]
    exact mem_fileNamesIn hlevel
  · intro file hfile
    obtain ⟨name, -, rfl⟩ := List.mem_map.1 hfile
    rfl

/-- What counts for a scan: a name with more than the suffix, and for the level itself also that its
path ends in a name. -/
def KeysetDir.Counts (suffix : String) (level : Path) (location names : Location) : Prop :=
  HasName suffix (location ++ names) ∧ (names = [] → level.fileName?.isSome)

/-- The keyset directories of a level in a world. -/
def Level.dirsIn (world : World) (suffix : String) (level : Path) : List KeysetDir :=
  match world.tree.resolve world.current level with
  | .ok (_, .folder) => KeysetDir.ofListing suffix level (world.tree.listing world.current level)
  | _ => []

/-- The keyset directories of a level are all that count. -/
theorem Level.gives_dirsIn {world : World} (hsound : world.tree.Sound) (suffix : String)
    (level : Path) : Gives world level (KeysetDir.Counts suffix level)
      (dirsIn world suffix level) := by
  unfold Gives dirsIn
  split
  · rename_i location hlevel
    have hlocate := (FileTree.resolve_iff.1 hlevel).1
    rw [KeysetDir.ofListing_eq]
    refine ⟨(KeysetDir.foldersIn (world.tree.listing world.current level)).filter
      (KeysetDir.isAt suffix level), ?_, fun names => ?_, ?_⟩
    · exact ((pairwise_foldersIn hlevel).sublist List.filter_sublist).imp lex_bytes_of_before
    · rw [List.mem_filter, mem_foldersIn hlevel, KeysetDir.isAt_iff hlocate]
      rfl
    · refine List.forall₂_map_right_iff.2 (List.forall₂_same.2 fun names hnames => ⟨rfl, ?_⟩)
      exact KeysetDir.shows_ofNames hsound hlevel
        ((mem_foldersIn hlevel).1 (List.mem_filter.1 hnames).1)
  · rename_i hnone
    split
    · rename_i location hlevel
      exact absurd hlevel (hnone location)
    · rfl

namespace Scan

open Files.Program

variable (world : World) (base : Path) (suffix : String)

/-- Whether a path leads to a folder is asked of the tree. -/
theorem finds_isFolder (path : Path) : (isFolder path).Finds world fun yes : Bool =>
    yes = true ↔ ∃ location, world.tree.resolve world.current path = .ok (location, .folder) := by
  have hrun : world.run (isFolder path) =
      ((world.tree.stat world.current path).toOption.any Stat.isFolder, world) := rfl
  refine ⟨congrArg Prod.snd hrun, ?_⟩
  rw [hrun, FileTree.stat]
  cases world.tree.resolve world.current path with
  | error failure => exact iff_of_false nofun nofun
  | ok found =>
      obtain ⟨location, entry⟩ := found
      cases entry with
      | folder => exact iff_of_true rfl ⟨location, rfl⟩
      | file bytes mtime => exact iff_of_false nofun nofun

/-- A level that is no pattern is its only folder, if it leads to one. -/
theorem finds_folders {level : String} (hliteral : Level.isPattern level = false) :
    (Level.folders base level).Finds world fun found =>
      found = .ok [base.joinText level] ∧
          (∃ location, world.tree.resolve world.current (base.joinText level) =
            .ok (location, .folder)) ∨
        found = .error (.missing (base.joinText level)) ∧
          ¬∃ location, world.tree.resolve world.current (base.joinText level) =
            .ok (location, .folder) := by
  unfold Level.folders
  rw [hliteral]
  refine finds_bind (finds_isFolder world (base.joinText level)) fun yes hyes => ?_
  cases yes with
  | true => exact finds_pure (.inl ⟨rfl, hyes.1 rfl⟩)
  | false => exact finds_pure (.inr ⟨rfl, fun hthere => nomatch hyes.2 hthere⟩)

/-- A level that is no pattern is searched if it leads to a folder. -/
theorem finds_ofLiteral {level : String} (hliteral : Level.isPattern level = false) :
    (ofLevel base suffix level).Finds world fun scan =>
      scan.dirs = Level.dirsIn world suffix (base.joinText level) := by
  unfold ofLevel
  refine finds_bind (finds_folders world base hliteral) fun found hfound => ?_
  rcases hfound with ⟨rfl, location, hlevel⟩ | ⟨rfl, hnone⟩
  · refine ⟨rfl, ?_⟩
    unfold Level.dirsIn
    rw [hlevel]
    exact List.append_nil _
  · refine finds_pure ?_
    unfold Level.dirsIn
    split
    · rename_i location hlevel
      exact absurd ⟨location, hlevel⟩ hnone
    · rfl

theorem dirs_foldl (scans : List Scan) (scan : Scan) :
    (scans.foldl append scan).dirs = scan.dirs ++ (scans.map dirs).flatten := by
  induction scans generalizing scan with
  | nil => simp
  | cons next scans ih =>
      rw [List.foldl_cons, ih, List.map_cons, List.flatten_cons, ← List.append_assoc]
      rfl

/-- Levels that are no patterns are searched one after the other. -/
theorem finds_ofLiterals {levels : List String}
    (hliteral : ∀ level ∈ levels, Level.isPattern level = false) :
    (ofLevels base levels suffix).Finds world fun scan =>
      scan.dirs = (levels.map fun level =>
        Level.dirsIn world suffix (base.joinText level)).flatten := by
  have hscans := finds_mapM_map (g := dirs) fun level hlevel =>
    finds_ofLiteral world base suffix (hliteral level hlevel)
  refine finds_bind hscans fun scans hmap => finds_pure ?_
  rw [dirs_foldl, hmap]
  rfl

/-- **What a scan of levels finds.**  In a sound tree, levels that are no patterns give, one after
the other, all folders at them and below them whose names end in the suffix and have more before
it, each once for each level and in the order of the names from the level; only a level whose path
does not end in a name does not count itself.  Each has the files that are directly in it, by name.
A scan leaves the world as it is. -/
theorem gives_ofLevels {levels : List String}
    (hsound : world.tree.Sound) (hliteral : ∀ level ∈ levels, Level.isPattern level = false) :
    (world.run (ofLevels base levels suffix)).2 = world ∧
      Gives world base levels (KeysetDir.Counts suffix)
        (world.run (ofLevels base levels suffix)).1.dirs := by
  have hfinds := finds_ofLiterals world base suffix hliteral
  refine ⟨hfinds.stays, _, hfinds.result, ?_⟩
  exact List.forall₂_map_right_iff.2
    (List.forall₂_same.2 fun level _ => Level.gives_dirsIn hsound suffix _)

/-- Two nested folders in `/w`, of which the outer one has the name of a keyset directory. -/
def nestedWorld : World where
  tree := ⟨[(["w"], .folder), (["w", "a.i18n"], .folder), (["w", "a.i18n", "b"], .folder),
    (["w", "a.i18n", "en.js"], .file .empty 0)], by decide⟩
  current := []
  clock := 0
  modules := .empty

theorem sound_nestedWorld : nestedWorld.tree.Sound := FileTree.sound_iff.2 (by decide)

theorem gives_ofLevels_nested : nestedWorld.tree.Sound ∧
    (∀ level ∈ ["a.i18n", "missing"], Level.isPattern level = false) ∧
    Gives nestedWorld ⟨"/w"⟩ ["a.i18n", "missing"] (KeysetDir.Counts ".i18n")
      (nestedWorld.run (ofLevels ⟨"/w"⟩ ["a.i18n", "missing"] ".i18n")).1.dirs := by
  have hliteral : ∀ level ∈ ["a.i18n", "missing"], Level.isPattern level = false := by decide
  exact ⟨sound_nestedWorld, hliteral,
    (gives_ofLevels nestedWorld ⟨"/w"⟩ ".i18n" sound_nestedWorld hliteral).2⟩

theorem resolve_up : nestedWorld.tree.resolve [] (Path.joinText ⟨"/w"⟩ "a.i18n/b/..") =
    .ok (["w", "a.i18n"], .folder) := by
  have hpath : Path.joinText ⟨"/w"⟩ "a.i18n/b/.." = ⟨"/w/a.i18n/b/.."⟩ := by decide +kernel
  rw [hpath]
  rfl

theorem dirsIn_up : Level.dirsIn nestedWorld ".i18n" (Path.joinText ⟨"/w"⟩ "a.i18n/b/..") = [] := by
  have hlevel := resolve_up
  unfold Level.dirsIn
  rw [show nestedWorld.current = [] from rfl, hlevel]
  dsimp only
  rw [KeysetDir.ofListing_eq, List.map_eq_nil_iff, List.filter_eq_nil_iff]
  intro names hnames
  have hmem := (FileTree.mem_entries (by simp)).2 ((mem_foldersIn hlevel).1 hnames)
  have hfolders : names = [] ∨ names = ["b"] := by simpa [nestedWorld] using hmem
  -- the path ends in no name, and the name of the folder in it is too short
  rcases hfolders with rfl | rfl
  · decide +kernel
  · decide +kernel

/-- A scan of the path `a.i18n/b/..` does not find the folder `a.i18n` to which it leads. -/
theorem not_gives_all_up : nestedWorld.tree.Sound ∧ Level.isPattern "a.i18n/b/.." = false ∧
    ¬Gives nestedWorld ⟨"/w"⟩ ["a.i18n/b/.."]
      (fun _ location names => KeysetDir.HasName ".i18n" (location ++ names))
      (nestedWorld.run (ofLevels ⟨"/w"⟩ ["a.i18n/b/.."] ".i18n")).1.dirs := by
  refine ⟨sound_nestedWorld, by decide, ?_⟩
  rw [(finds_ofLiterals nestedWorld ⟨"/w"⟩ ".i18n" (by decide)).result, List.map_singleton,
    dirsIn_up]
  rintro ⟨found, hflatten, hfound⟩
  obtain ⟨dirs, rest, hgives, hrest, rfl⟩ := List.forall₂_cons_left_iff.1 hfound
  unfold Level.Gives at hgives
  rw [show nestedWorld.current = [] from rfl, resolve_up] at hgives
  obtain ⟨below, -, hbelow, hall⟩ := hgives
  have hmem : [] ∈ below := (hbelow []).2 ⟨rfl, "a", by decide, rfl⟩
  have hempty : dirs = [] := (List.append_eq_nil_iff.1 hflatten.symm).1
  rw [hempty, List.forall₂_nil_right_iff] at hall
  rw [hall] at hmem
  cases hmem

end Scan

end KeysetBundle
