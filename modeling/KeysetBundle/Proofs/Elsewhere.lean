import KeysetBundle.Config.Basic
import KeysetBundle.Proofs.Glob.Behind
import KeysetBundle.Proofs.Levels

/-!
# Scans from another place

A scan of the same levels finds the same below two folders with the same in
them, wherever they are (`Scan.sameBelow_ofLevels`).  For levels that are no
patterns this holds of all folders.

A pattern is joined to the path of the folder and read together with it, and so
the path must not have characters that stand for others (`Glob.IsPlain`).  A
pattern must also not leave the folder, which it can do although none of its
components is `..`: `.*` and `.?` match the folder above (`Glob.staysBelow`).  In
both cases two scans may differ.  The check of a configuration reads a pattern as
a whole, and so it may accept one of which no scan can read the pieces
(`Scan.not_sameBelow`).

Main result.

- `Scan.sameBelow_ofLevels`: scans of two folders with the same in them.
-/

namespace KeysetBundle

open Files
open Files.Program
open KeysetBundle.Path (Component piecesOf stepsOf)

/-! ## Keyset directories of two folders -/

section Scans

variable {site other : Site} {path path' : Path}

/-- Keyset directories at the same place below two sites, with the same files. -/
structure KeysetDir.SameBelow (site other : Site) (dir dir' : KeysetDir) : Prop where
  /-- The paths lead to the same names, with the same components behind those of the bases. -/
  alongside : ∃ names steps, Glob.Alongside site other names steps dir.path dir'.path
  /-- The files have the same names. -/
  names : dir'.files.map KeysetFile.name = dir.files.map KeysetFile.name
  /-- The files of the first one are named by it. -/
  file : ∀ file ∈ dir.files, file.path = dir.path.joinText file.name
  /-- The files of the second one are named by it. -/
  file' : ∀ file ∈ dir'.files, file.path = dir'.path.joinText file.name

theorem KeysetDir.isAt_eq (h : Glob.ToFolder site other path path') (suffix : String) :
    isAt suffix path' = isAt suffix path := by
  obtain ⟨names, steps, halong, hne, hfolder⟩ := h
  funext names
  unfold isAt
  rw [Path.fileName?_eq halong.second.way halong.first.way hne halong.isStep]

theorem KeysetDir.sameBelow_ofNames {fileNames : List String}
    (h : ∃ names steps, Glob.Alongside site other names steps path path') :
    SameBelow site other (ofNames path fileNames) (ofNames path' fileNames) := by
  refine ⟨h, ?_, ?_, ?_⟩
  · unfold ofNames
    rw [List.map_map, List.map_map]
    rfl
  · intro file hfile
    obtain ⟨name, -, rfl⟩ := List.mem_map.1 hfile
    rfl
  · intro file hfile
    obtain ⟨name, -, rfl⟩ := List.mem_map.1 hfile
    rfl

namespace Scan

/-- The same keyset directories are in folders at the same place. -/
theorem agrees_ofFolder (hsame : site.Same other) (suffix : String)
    (h : Glob.ToFolder site other path path') :
    (ofFolder suffix path).Agrees site.world other.world
      (List.Forall₂ (KeysetDir.SameBelow site other)) (ofFolder suffix path') := by
  obtain ⟨front, steps, halong, hne, hfolder⟩ := id h
  refine agrees_bind (halong.agrees_listing hsame) ?_
  rintro listing _ ⟨rfl, hlisting⟩
  apply agrees_pure
  rw [KeysetDir.ofListing_eq, KeysetDir.ofListing_eq, KeysetDir.isAt_eq h]
  refine Glob.forall₂_map_same fun names hnames => ?_
  have hthere : site.get? (front ++ names) ≠ none := by
    rcases List.mem_cons.1 (List.mem_filter.1 hnames).1 with rfl | hbelow
    · rw [List.append_nil, hfolder]
      nofun
    · obtain ⟨item, hitem, rfl⟩ := List.mem_map.1 hbelow
      exact (hlisting item (List.mem_filter.1 hitem).1).2
  exact KeysetDir.sameBelow_ofNames ⟨_, _, halong.foldl Site.At.joinName hsame hthere⟩

/-! ## Levels of two folders -/

/-- A warning about a level that cannot be read as a pattern is about one of the levels, which
cannot be read alone either. -/
def IsTrue (levels : List String) (warning : Level.Warning) : Prop :=
  ∀ level cause, warning = .invalidPattern level cause →
    level ∈ levels ∧ Level.isPattern level = true ∧
      ∃ fault, Glob.PathPattern.ofText level = .error fault

/-- The folders of a level, or a reason why there are none, for both. -/
def SameFolders (site other : Site) (level : String) :
    Except Level.Warning (List Path) → Except Level.Warning (List Path) → Prop
  | .ok paths, .ok paths' => List.Forall₂ (Glob.ToFolder site other) paths paths'
  | .error warning, .error warning' => IsTrue [level] warning ∧ IsTrue [level] warning'
  | _, _ => False

theorem isTrue_missing (levels : List String) (path : Path) : IsTrue levels (.missing path) :=
  nofun

/-- A level that is no pattern leads to the same folder. -/
theorem agrees_literal (hsame : site.Same other) {level : String} (h : Level.IsBelow level)
    (hliteral : Level.isPattern level = false) :
    (Level.folders site.base level).Agrees site.world other.world (SameFolders site other level)
      (Level.folders other.base level) := by
  unfold Level.folders
  rw [hliteral]
  dsimp only
  rw [if_neg Bool.false_ne_true, if_neg Bool.false_ne_true]
  rcases hsame.walk h.not_up [] with ⟨names, hwalk, hwalk'⟩ | ⟨failure, hwalk, hwalk'⟩
  · have hfirst := site.at_base.joinText h.relative hwalk
    have hsecond := other.at_base.joinText h.relative hwalk'
    have halong : Glob.Alongside site other names ([] ++ stepsOf (piecesOf level.toList))
        (site.base.joinText level) (other.base.joinText level) :=
      ⟨hfirst, hsecond, fun _ => Path.isStep_of_mem⟩
    refine agrees_bind (halong.agrees_isFolder hsame) ?_
    rintro yes _ ⟨rfl, hyes⟩
    cases yes with
    | false => exact agrees_pure ⟨isTrue_missing _ _, isTrue_missing _ _⟩
    | true =>
        exact agrees_pure (.cons ⟨names, _, halong, h.stepsOf_ne_nil, hyes rfl⟩ .nil)
  · have hnowhere : ∀ {place : Site} {failure : Failure},
        (piecesOf level.toList).foldlM place.world.tree.step (place.location ++ []) =
          .error failure →
        place.world.run (isFolder (place.base.joinText level)) = (false, place.world) := by
      intro place failure hwalk
      apply run_isFolder_of_error
      rw [FileTree.locate_joinText_of_relative place.at_base.locate h.relative]
      exact hwalk
    have htest := agrees_of_run (hnowhere hwalk) (hnowhere hwalk')
      (R := fun yes yes' => yes = false ∧ yes' = false) ⟨rfl, rfl⟩
    refine agrees_bind htest ?_
    rintro yes yes' ⟨rfl, rfl⟩
    exact agrees_pure ⟨isTrue_missing _ _, isTrue_missing _ _⟩

/-- A pattern that stays below finds the same folders behind both bases. -/
theorem agrees_pattern (hsame : site.Same other) {level : String} (h : Level.IsBelow level)
    (hpattern : Level.isPattern level = true) (hplain : Glob.IsPlain site.base)
    (hplain' : Glob.IsPlain other.base) (hstays : Level.staysBelow level = true) :
    (Level.folders site.base level).Agrees site.world other.world (SameFolders site other level)
      (Level.folders other.base level) := by
  have hread := Glob.ofText_joinText (FileTree.text_ne_of_locate site.at_base.locate)
    hplain.plain h.relative
  have hread' := Glob.ofText_joinText (FileTree.text_ne_of_locate other.at_base.locate)
    hplain'.plain h.relative
  unfold Level.folders
  rw [hpattern]
  dsimp only
  rw [if_pos rfl, if_pos rfl]
  unfold Level.staysBelow at hstays
  cases hlevel : Glob.PathPattern.ofText level with
  | error cause =>
      rw [hlevel] at hread hread'
      obtain ⟨fault, hfault⟩ := toOption_eq_none.1 hread
      obtain ⟨fault', hfault'⟩ := toOption_eq_none.1 hread'
      rw [hfault, hfault']
      have htrue : ∀ fault, IsTrue [level] (.invalidPattern level fault) := by
        intro fault other reason heq
        cases heq
        exact ⟨List.mem_singleton_self level, hpattern, cause, hlevel⟩
      exact agrees_pure ⟨htrue fault, htrue fault'⟩
  | ok pattern =>
      rw [hlevel] at hread hread' hstays
      rw [toOption_eq_some.1 hread, toOption_eq_some.1 hread']
      refine agrees_bind (Glob.agrees_folders hsame hplain hplain' (h.tidy hlevel)
        (h.startsDown hlevel) hstays) ?_
      exact fun found found' hfound => agrees_pure hfound

/-! ## Scans of two folders -/

/-- Scans that have found the same below two folders, with true warnings. -/
structure SameBelow (site other : Site) (levels : List String) (scan scan' : Scan) : Prop where
  /-- The keyset directories are the same, in the same order. -/
  dirs : List.Forall₂ (KeysetDir.SameBelow site other) scan.dirs scan'.dirs
  /-- The warnings are true. -/
  warnings : ∀ warning ∈ scan.warnings ++ scan'.warnings, IsTrue levels warning

theorem SameBelow.mono {levels more : List String} {scan scan' : Scan}
    (h : SameBelow site other levels scan scan') (hmore : levels ⊆ more) :
    SameBelow site other more scan scan' := by
  refine ⟨h.dirs, fun warning hwarning level cause heq => ?_⟩
  obtain ⟨hlevel, htrue⟩ := h.warnings warning hwarning level cause heq
  exact ⟨hmore hlevel, htrue⟩

theorem SameBelow.append {levels : List String} {scan scan' next next' : Scan}
    (h : SameBelow site other levels scan scan') (hnext : SameBelow site other levels next next') :
    SameBelow site other levels (scan.append next) (scan'.append next') := by
  refine ⟨List.rel_append h.dirs hnext.dirs, fun warning hwarning => ?_⟩
  rcases List.mem_append.1 hwarning with hfirst | hsecond
  · rcases List.mem_append.1 hfirst with hwarning | hwarning
    · exact h.warnings warning (List.mem_append_left _ hwarning)
    · exact hnext.warnings warning (List.mem_append_left _ hwarning)
  · rcases List.mem_append.1 hsecond with hwarning | hwarning
    · exact h.warnings warning (List.mem_append_right _ hwarning)
    · exact hnext.warnings warning (List.mem_append_right _ hwarning)

theorem SameBelow.foldl {levels : List String} {scans scans' : List Scan} {scan scan' : Scan}
    (h : SameBelow site other levels scan scan')
    (hscans : List.Forall₂ (SameBelow site other levels) scans scans') :
    SameBelow site other levels (scans.foldl Scan.append scan)
      (scans'.foldl Scan.append scan') := by
  induction hscans generalizing scan scan' with
  | nil => exact h
  | cons hnext _ ih => exact ih (h.append hnext)

theorem agrees_ofLevel (hsame : site.Same other) (suffix : String) {level : String}
    (hfolders : (Level.folders site.base level).Agrees site.world other.world
      (SameFolders site other level) (Level.folders other.base level)) :
    (ofLevel site.base suffix level).Agrees site.world other.world (SameBelow site other [level])
      (ofLevel other.base suffix level) := by
  unfold ofLevel
  refine agrees_bind hfolders fun found found' hfound => ?_
  cases found with
  | error warning =>
      cases found' with
      | error warning' =>
          refine agrees_pure ⟨.nil, fun cause hcause => ?_⟩
          rcases List.mem_append.1 hcause with hcause | hcause
          · exact List.mem_singleton.1 hcause ▸ hfound.1
          · exact List.mem_singleton.1 hcause ▸ hfound.2
      | ok paths' => exact hfound.elim
  | ok paths =>
      cases found' with
      | error warning' => exact hfound.elim
      | ok paths' =>
          have hdirs := agrees_mapM hfound fun _ _ => agrees_ofFolder hsame suffix
          refine agrees_bind hdirs fun dirs dirs' h => agrees_pure ⟨List.rel_flatten h, nofun⟩

/-- Levels below a base whose patterns stay below it, and a base that they take literally. -/
structure Stay (levels : List String) (base : Path) : Prop where
  /-- The levels are relative and have no `.` and no `..`. -/
  isBelow : ∀ level ∈ levels, Level.IsBelow level
  /-- A pattern among them stays below. -/
  staysBelow : ∀ level ∈ levels, Level.isPattern level = true → Level.staysBelow level = true
  /-- If there is one, then the base is taken literally. -/
  isPlain : ∀ level ∈ levels, Level.isPattern level = true → Glob.IsPlain base

theorem agrees_ofLevels (hsame : site.Same other) {levels : List String} (suffix : String)
    (h : Stay levels site.base) (h' : Stay levels other.base) :
    (ofLevels site.base levels suffix).Agrees site.world other.world (SameBelow site other levels)
      (ofLevels other.base levels suffix) := by
  have hlevel : ∀ level level', level = level' ∧ level ∈ levels →
      (ofLevel site.base suffix level).Agrees site.world other.world (SameBelow site other levels)
        (ofLevel other.base suffix level') := by
    rintro level _ ⟨rfl, hmem⟩
    have hbelow := h.isBelow level hmem
    have hfolders : (Level.folders site.base level).Agrees site.world other.world
        (SameFolders site other level) (Level.folders other.base level) := by
      cases hpattern : Level.isPattern level with
      | false => exact agrees_literal hsame hbelow hpattern
      | true =>
          exact agrees_pattern hsame hbelow hpattern (h.isPlain level hmem hpattern)
            (h'.isPlain level hmem hpattern) (h.staysBelow level hmem hpattern)
    exact (agrees_ofLevel hsame suffix hfolders).mono fun _ _ hscan =>
      hscan.mono fun _ heq => List.mem_singleton.1 heq ▸ hmem
  have hlevels : List.Forall₂ (fun level level' => level = level' ∧ level ∈ levels) levels levels :=
    List.forall₂_same.2 fun level hmem => ⟨rfl, hmem⟩
  refine agrees_bind (agrees_mapM hlevels hlevel) fun scans scans' hscans => agrees_pure ?_
  exact SameBelow.foldl ⟨.nil, nofun⟩ hscans

theorem exists_tokensOf_of_checkLevels {levels : List String}
    (h : Config.checkLevels levels = .ok ()) {level : String} (hlevel : level ∈ levels)
    (hpattern : Level.isPattern level = true) : ∃ tokens, Glob.tokensOf level = .ok tokens := by
  induction levels with
  | nil => cases hlevel
  | cons first levels ih =>
      rw [Config.checkLevels] at h
      split at h
      · split at h
        · rename_i tokens htokens
          rcases List.mem_cons.1 hlevel with rfl | hrest
          · exact ⟨tokens, htokens⟩
          · exact ih h hrest
        · cases h
      · rename_i hliteral
        rcases List.mem_cons.1 hlevel with rfl | hrest
        · exact absurd hpattern hliteral
        · exact ih h hrest

/-- **Scans of two folders with the same in them** find the same keyset directories with the same
files, at the same paths below the folders and in the same order.  A level that the check of a
configuration accepts, and of which each piece can be read, is never reported as no pattern. -/
theorem sameBelow_ofLevels {site other : Site} (hsame : site.Same other) {levels : List String}
    (suffix : String) (h : Stay levels site.base) (h' : Stay levels other.base) :
    List.Forall₂ (KeysetDir.SameBelow site other)
        (site.world.run (ofLevels site.base levels suffix)).1.dirs
        (other.world.run (ofLevels other.base levels suffix)).1.dirs ∧
      (Config.checkLevels levels = .ok () → ∀ level ∈ levels,
        (∀ segment ∈ Glob.segmentsOf ⟨level⟩, ∃ tokens, Glob.tokensOf segment = .ok tokens) →
        ∀ cause, .invalidPattern level cause ∉
          (site.world.run (ofLevels site.base levels suffix)).1.warnings ++
            (other.world.run (ofLevels other.base levels suffix)).1.warnings) := by
  have hscans := (agrees_ofLevels hsame suffix h h').result
  refine ⟨hscans.dirs, fun hcheck level hlevel hpieces cause hwarning => ?_⟩
  obtain ⟨-, hpattern, fault, hfault⟩ := hscans.warnings _ hwarning level cause rfl
  obtain ⟨tokens, htokens⟩ := exists_tokensOf_of_checkLevels hcheck hlevel hpattern
  obtain ⟨pattern, hread⟩ := Glob.exists_ofText htokens hpieces
  rw [hread] at hfault
  cases hfault

/-- A world with folders only. -/
def folderWorld (folders : List Location)
    (h : ((folders.map fun folder => (folder, Entry.folder)).map Prod.fst).Nodup) : World where
  tree := ⟨folders.map fun folder => (folder, Entry.folder), h⟩
  current := []
  clock := 0
  modules := .empty

/-- The folder `/x`, with a keyset directory. -/
def plainSite : Site where
  world := folderWorld [["x"], ["x", "u.i18n"]] (by decide)
  base := ⟨"/x"⟩
  location := ["x"]
  sound := FileTree.sound_iff.2 (by decide)
  leads := rfl

/-- The folder `/y/!]`, with the same in it. -/
def deeperSite : Site where
  world := folderWorld [["y"], ["y", "!]"], ["y", "!]", "u.i18n"]] (by decide)
  base := ⟨"/y/!]"⟩
  location := ["y", "!]"]
  sound := FileTree.sound_iff.2 (by decide)
  leads := rfl

theorem same_deeperSite : plainSite.Same deeperSite := by
  intro names
  simp [Site.get?, FileTree.get?, plainSite, deeperSite, folderWorld, List.lookup_cons]

theorem sameBelow_ofLevels_deeper : plainSite.Same deeperSite ∧
    Stay ["*", "u.i18n"] plainSite.base ∧ Stay ["*", "u.i18n"] deeperSite.base ∧
    List.Forall₂ (KeysetDir.SameBelow plainSite deeperSite)
      (plainSite.world.run (ofLevels plainSite.base ["*", "u.i18n"] ".i18n")).1.dirs
      (deeperSite.world.run (ofLevels deeperSite.base ["*", "u.i18n"] ".i18n")).1.dirs ∧
    ∀ cause, .invalidPattern "*" cause ∉
      (plainSite.world.run (ofLevels plainSite.base ["*", "u.i18n"] ".i18n")).1.warnings ++
        (deeperSite.world.run (ofLevels deeperSite.base ["*", "u.i18n"] ".i18n")).1.warnings := by
  have hplain : Stay ["*", "u.i18n"] plainSite.base :=
    ⟨by decide +kernel, by decide +kernel, by decide +kernel⟩
  have hdeeper : Stay ["*", "u.i18n"] deeperSite.base :=
    ⟨by decide +kernel, by decide +kernel, by decide +kernel⟩
  have hpieces : ∀ segment ∈ Glob.segmentsOf ⟨"*"⟩, ∃ tokens,
      Glob.tokensOf segment = .ok tokens := by
    intro segment hsegment
    have hsegments : Glob.segmentsOf ⟨"*"⟩ = ["*"] := by decide +kernel
    rw [hsegments, List.mem_singleton] at hsegment
    exact ⟨[.anyChars], by rw [hsegment]; decide +kernel⟩
  obtain ⟨hdirs, hwarnings⟩ := sameBelow_ofLevels same_deeperSite ".i18n" hplain hdeeper
  exact ⟨same_deeperSite, hplain, hdeeper, hdirs,
    hwarnings (by decide +kernel) "*" List.mem_cons_self hpieces⟩

/-- The folder `/a[b`, with the same in it. -/
def bracketSite : Site where
  world := folderWorld [["a[b"], ["a[b", "u.i18n"]] (by decide)
  base := ⟨"/a[b"⟩
  location := ["a[b"]
  sound := FileTree.sound_iff.2 (by decide)
  leads := rfl

/-- The folder `/x` with the same in it, and a keyset directory beside it. -/
def besideSite : Site where
  world := folderWorld [["x"], ["x", "u.i18n"], ["v.i18n"]] (by decide)
  base := ⟨"/x"⟩
  location := ["x"]
  sound := FileTree.sound_iff.2 (by decide)
  leads := rfl

/-- Three levels that the check of a configuration accepts.  The first one finds nothing in a
folder with a bracket in its name, the second one finds what is beside the folder, and the last one
is reported as no pattern. -/
theorem not_sameBelow :
    (plainSite.Same bracketSite ∧ Level.IsBelow "*" ∧ Config.checkLevels ["*"] = .ok () ∧
      ¬List.Forall₂ (KeysetDir.SameBelow plainSite bracketSite)
        (plainSite.world.run (ofLevels plainSite.base ["*"] ".i18n")).1.dirs
        (bracketSite.world.run (ofLevels bracketSite.base ["*"] ".i18n")).1.dirs) ∧
    (plainSite.Same besideSite ∧ Level.IsBelow ".?/v.i18n" ∧
      Config.checkLevels [".?/v.i18n"] = .ok () ∧
      ¬List.Forall₂ (KeysetDir.SameBelow plainSite besideSite)
        (plainSite.world.run (ofLevels plainSite.base [".?/v.i18n"] ".i18n")).1.dirs
        (besideSite.world.run (ofLevels besideSite.base [".?/v.i18n"] ".i18n")).1.dirs) ∧
    (Level.IsBelow "[a/b]*" ∧ Config.checkLevels ["[a/b]*"] = .ok () ∧
      ∃ cause, .invalidPattern "[a/b]*" cause ∈
        (plainSite.world.run (ofLevels plainSite.base ["[a/b]*"] ".i18n")).1.warnings) := by
  have hbracket : plainSite.Same bracketSite := by
    intro names
    simp [Site.get?, FileTree.get?, plainSite, bracketSite, folderWorld, List.lookup_cons]
  have hbeside : plainSite.Same besideSite := by
    intro names
    simp [Site.get?, FileTree.get?, plainSite, besideSite, folderWorld, List.lookup_cons]
  have hstar : (plainSite.world.run (ofLevels plainSite.base ["*"] ".i18n")).1.dirs.length = 1 := by
    decide +kernel
  have hnone : (bracketSite.world.run
      (ofLevels bracketSite.base ["*"] ".i18n")).1.dirs.length = 0 := by decide +kernel
  have habove : (plainSite.world.run
      (ofLevels plainSite.base [".?/v.i18n"] ".i18n")).1.dirs.length = 0 := by decide +kernel
  have hfound : (besideSite.world.run
      (ofLevels besideSite.base [".?/v.i18n"] ".i18n")).1.dirs.length = 1 := by decide +kernel
  refine ⟨⟨hbracket, by decide +kernel, by decide +kernel, fun h => ?_⟩,
    ⟨hbeside, by decide +kernel, by decide +kernel, fun h => ?_⟩,
    by decide +kernel, by decide +kernel, ⟨0, .unclosedClass⟩, by decide +kernel⟩
  · have hlength := h.length_eq
    rw [hstar, hnone] at hlength
    cases hlength
  · have hlength := h.length_eq
    rw [habove, hfound] at hlength
    cases hlength

end Scan

end Scans

end KeysetBundle
