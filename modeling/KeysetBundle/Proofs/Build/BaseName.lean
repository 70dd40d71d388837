import KeysetBundle.Proofs.Build.Recording
import KeysetBundle.Proofs.Files.Joining
import KeysetBundle.Proofs.Files.Replacing

/-!
# The base name before and after a build

Without a setting for it, the base name of the targets is that of the folder
for the artifacts.  While the folder is not there, the name is taken from the
spelling of its path.  The two are the same if the path ends in a name.  A path
that ends in `..` does not say the name of its folder, so the base name is the
fallback first, and another one as soon as the folder is there.

Main results.

- `FileTree.fileName?_pathOf_of_locate`: the name in a spelling is that of the folder.
- `Config.baseIn_eq_iff`: when the base name is the same in two worlds.
- `FileTree.leadsToFolder_of_createFolders`: folders that have been made are there.
- `baseName_stays`: when a build and the next one have the same targets.
-/

namespace KeysetBundle

open CommandLine (BuildOptions)
open Files
open KeysetBundle.Path (pieceComponent? piecesOf stepsOf)

/-! ## Names of locations -/

namespace Files.FileTree

variable {tree after : FileTree} {current location : Location} {path : Path} {name : String}

/-- The path of a location ends in the last of its names. -/
theorem fileName?_pathOf (folder : Location) (h : Path.IsName name) :
    (pathOf (folder ++ [name])).fileName? = some name := by
  have habsolute := isAbsolute_pathOf (folder ++ [name])
  have hslash : ("/" : String).toList = ['/'] := by decide
  have hbody : (pathOf (folder ++ [name])).body = ("/".intercalate (folder ++ [name])).toList := by
    refine Path.body_of_text ?_
    rw [pathOf, String.toList_append, hslash]
    rfl
  obtain ⟨front, hpieces⟩ : ∃ front, piecesOf ("/".intercalate (folder ++ [name])).toList =
      front ++ [name] := by
    have hone := Path.piecesOf_of_not_mem h.noSlash
    by_cases hfolder : folder = []
    · subst hfolder
      exact ⟨[], by simpa using hone⟩
    · rw [String.intercalate_append_of_ne_nil hfolder (by simp), String.intercalate_singleton,
        String.toList_append, String.toList_append, hslash, List.append_assoc,
        List.singleton_append, Path.piecesOf_append_slash, hone]
      exact ⟨_, rfl⟩
  have hlast : stepsOf [name] = [.name name] := by
    rw [stepsOf, List.filterMap_cons, List.filterMap_nil, h.component]
  rw [Path.fileName?, Path.components_of_isAbsolute habsolute, Path.steps, hbody, hpieces,
    Path.stepsOf_append, hlast, ← List.cons_append, List.getLast?_concat]

/-- **The name in which a path ends is that of the location to which it leads.** -/
theorem fileName?_pathOf_of_locate (h : tree.locate current path = .ok location)
    (hname : path.fileName? = some name) : (pathOf location).fileName? = some name := by
  obtain ⟨front, rfl⟩ := List.getLast?_eq_some_iff.1 (getLast?_of_locate h hname)
  exact fileName?_pathOf front (Path.isName_of_fileName? hname)

/-- A path that leads to an entry and does not end in a name leads to a folder. -/
theorem isFolder_of_fileName?_none (h : path.isAbsolute) (hname : path.fileName? = none)
    (hleads : tree.Leads path) : tree.get? (place path) = some .folder := by
  rcases steps_of_no_fileName h hname with hnil | ⟨steps, hsteps⟩
  · rw [place_eq h, hnil]
    exact get?_nil tree
  · exact get?_place_of_parent h hsteps (openTo_of_leads hleads)

/-- A folder that has been made is there. -/
theorem leadsToFolder_of_makeFolder (h : path.isAbsolute)
    (hmake : tree.makeFolder current path = .ok after) : after.leadsToFolder current path := by
  have hopen : tree.OpenTo path path.steps.length := by
    obtain ⟨folder, text, slash, hdestination, -, -⟩ := makeFolder_iff.1 hmake
    exact openTo_iff_onWay.2 (destination_eq_ok h hdestination).2.2
  obtain ⟨hne, hnone, rfl⟩ := makeFolder_eq_ok h hmake
  refine (leadsToFolder_iff h).2 (leads_of_openTo h (openTo_succ h ?_ ?_))
  · exact hopen.of_folder fun location hfolder =>
      get?_set_folder hne (by rw [hnone]; nofun) hfolder
  · rw [get?_set _ hne, if_pos rfl]

theorem leadsToFolder_of_makeLast (h : path.isAbsolute)
    (hmake : makeLast current tree path = (.ok (), after)) : after.leadsToFolder current path := by
  unfold makeLast at hmake
  split at hmake
  · rename_i hmade
    cases hmake
    exact leadsToFolder_of_makeFolder h hmade
  · obtain ⟨hok, rfl⟩ := Prod.mk.inj hmake
    by_cases hfolder : tree.leadsToFolder current path
    · exact hfolder
    · rw [if_neg hfolder] at hok
      cases hok

/-- **Folders that have been made are there**, whatever the path ends in. -/
theorem leadsToFolder_of_createFolders (h : path.isAbsolute)
    (hmake : tree.createFolders current path = (.ok (), after)) :
    after.leadsToFolder current path := by
  have htext := Path.text_ne_empty h
  rw [createFolders, makeFolders, if_neg htext] at hmake
  split at hmake
  · rename_i hmade
    cases hmake
    exact leadsToFolder_of_makeFolder h hmade
  · split at hmake
    · cases hmake
    · split at hmake
      · cases hmake
      · -- the folder above it has been made before
        exact leadsToFolder_of_makeLast h hmake
  · rename_i herror
    have hlast : makeLast current tree path = (.ok (), after) := by
      rw [makeLast, herror]
      exact hmake
    exact leadsToFolder_of_makeLast h hlast

end Files.FileTree

/-! ## The base name in a world -/

namespace Config

open FileTree (pathOf)

variable {config : Config} {root : Path} {world now : World} {location : Location}

/-- The base name of the targets in a world. -/
def baseIn (config : Config) (root : Path) (world : World) : String :=
  (world.run (config.baseName root)).1

theorem baseIn_of_base {base : String} (h : config.base = some base) (root : Path)
    (world : World) : config.baseIn root world = base := by
  unfold baseIn baseName
  rw [h]
  rfl

/-- Without a setting the base name is that of the folder, or of its path if nothing is there. -/
theorem baseIn_of_none (h : config.base = none) (root : Path) (world : World) :
    config.baseIn root world =
      (((world.tree.canonicalize world.current (config.outputPath root)).toOption.getD
        (config.outputPath root)).fileName?).getD fallbackBase := by
  unfold baseIn baseName
  rw [h]
  refine (congrArg Prod.fst (Program.run_request_bind World.answer _ _ world)).trans ?_
  have hanswer : (World.answer (.canonicalize (config.outputPath root)) world).1 =
      world.tree.canonicalize world.current (config.outputPath root) := rfl
  rw [hanswer]
  cases world.tree.canonicalize world.current (config.outputPath root) with
  | ok dir => rfl
  | error failure => rfl

theorem baseIn_of_resolve {entry : Entry} (h : config.base = none)
    (hresolve : world.tree.resolve world.current (config.outputPath root) =
      .ok (location, entry)) :
    config.baseIn root world = (pathOf location).fileName?.getD fallbackBase := by
  rw [baseIn_of_none h, FileTree.canonicalize, hresolve]
  rfl

theorem baseIn_of_missing {failure : Failure} (h : config.base = none)
    (hresolve : world.tree.resolve world.current (config.outputPath root) = .error failure) :
    config.baseIn root world = (config.outputPath root).fileName?.getD fallbackBase := by
  rw [baseIn_of_none h, FileTree.canonicalize, hresolve]
  rfl

/-- A path that ends in a name has this base name in every world. -/
theorem baseIn_of_fileName? {name : String} (h : config.base = none)
    (hname : (config.outputPath root).fileName? = some name) (world : World) :
    config.baseIn root world = name := by
  cases hresolve : world.tree.resolve world.current (config.outputPath root) with
  | ok found =>
      rw [baseIn_of_resolve h hresolve,
        FileTree.fileName?_pathOf_of_locate (FileTree.resolve_iff.1 hresolve).1 hname,
        Option.getD_some]
  | error failure => rw [baseIn_of_missing h hresolve, hname, Option.getD_some]

/-- What settles the base name before the folder at a location is there: a setting, a name at the
end of its path, an entry at the path, or the fallback as the name of the folder. -/
def BaseSettled (config : Config) (root : Path) (world : World) (location : Location) : Prop :=
  config.base.isSome ∨ (config.outputPath root).fileName?.isSome ∨
    (world.tree.resolve world.current (config.outputPath root)).isOk ∨
    (pathOf location).fileName?.getD fallbackBase = fallbackBase

instance (config : Config) (root : Path) (world : World) (location : Location) :
    Decidable (config.BaseSettled root world location) :=
  inferInstanceAs (Decidable (_ ∨ _))

/-- **When the base name is the same** before and after the folder at its path is made, in two
worlds of which the second has all folders of the first one. -/
theorem baseIn_eq_iff {entry : Entry} (hcurrent : now.current = world.current)
    (hkeep : ∀ place, world.tree.get? place = some .folder → now.tree.get? place = some .folder)
    (hmade : now.tree.resolve now.current (config.outputPath root) = .ok (location, entry)) :
    config.baseIn root now = config.baseIn root world ↔
      config.BaseSettled root world location := by
  unfold BaseSettled
  cases hbase : config.base with
  | some base => simp only [baseIn_of_base hbase, Option.isSome_some, true_or]
  | none =>
      cases hname : (config.outputPath root).fileName? with
      | some name =>
          simp only [baseIn_of_fileName? hbase hname, Option.isSome_some, true_or, or_true]
      | none =>
          rw [baseIn_of_resolve hbase hmade]
          cases hresolve : world.tree.resolve world.current (config.outputPath root) with
          | error failure =>
              rw [baseIn_of_missing hbase hresolve, hname]
              simp [Except.isOk, Except.toBool]
          | ok found =>
              rw [baseIn_of_resolve hbase hresolve]
              have hplace := FileTree.locate_mono hkeep (FileTree.resolve_iff.1 hresolve).1
              rw [← hcurrent, (FileTree.resolve_iff.1 hmade).1] at hplace
              injection hplace with hplace
              simp [Except.isOk, Except.toBool, hplace]

/-- The base name is the same as long as nothing is there. -/
theorem baseIn_eq_of_missing (habsolute : (config.outputPath root).isAbsolute)
    (hkeep : ∀ place, world.tree.get? place = some .folder → now.tree.get? place = some .folder)
    (hmissing : ¬(now.tree.resolve now.current (config.outputPath root)).isOk) :
    config.baseIn root now = config.baseIn root world := by
  cases hbase : config.base with
  | some base => rw [baseIn_of_base hbase, baseIn_of_base hbase]
  | none =>
      cases hname : (config.outputPath root).fileName? with
      | some name => rw [baseIn_of_fileName? hbase hname, baseIn_of_fileName? hbase hname]
      | none =>
          cases hnow : now.tree.resolve now.current (config.outputPath root) with
          | ok found =>
              rw [hnow] at hmissing
              exact absurd rfl hmissing
          | error failure =>
              cases hresolve : world.tree.resolve world.current (config.outputPath root) with
              | error failure => rw [baseIn_of_missing hbase hnow, baseIn_of_missing hbase hresolve]
              | ok found =>
                  -- what is there before is a folder, and stays
                  obtain ⟨hleads, -, -⟩ := (FileTree.resolve_eq_ok habsolute).1 hresolve
                  have hfolder := FileTree.isFolder_of_fileName?_none habsolute hname hleads
                  rw [(FileTree.resolve_eq_ok habsolute).2
                    ⟨hleads.mono hkeep, rfl, hkeep _ hfolder⟩] at hnow
                  cases hnow

/-- **A base name that is settled stays**, whether or not the folder is made. -/
theorem baseIn_eq_of_settled (habsolute : (config.outputPath root).isAbsolute)
    (hcurrent : now.current = world.current)
    (hkeep : ∀ place, world.tree.get? place = some .folder → now.tree.get? place = some .folder)
    (h : config.BaseSettled root world (place (config.outputPath root))) :
    config.baseIn root now = config.baseIn root world := by
  by_cases hmissing : (now.tree.resolve now.current (config.outputPath root)).isOk
  · cases hresolve : now.tree.resolve now.current (config.outputPath root) with
    | ok found =>
        obtain ⟨location, entry⟩ := found
        obtain ⟨-, rfl, -⟩ := (FileTree.resolve_eq_ok habsolute).1 hresolve
        exact (baseIn_eq_iff hcurrent hkeep hresolve).2 h
    | error failure =>
        rw [hresolve] at hmissing
        cases hmissing
  · exact baseIn_eq_of_missing habsolute hkeep hmissing

end Config

namespace Build

variable {project : Project} {world : World} {options : BuildOptions}

/-! ## Builds one after another -/

/-- The path of the folder for the artifacts leads to it. -/
theorem Project.HasOutput.resolve {tree : FileTree} (h : project.HasOutput tree)
    (habsolute : (project.config.outputPath project.root).isAbsolute) (current : Location) :
    tree.resolve current (project.config.outputPath project.root) =
      .ok (place (project.config.outputPath project.root), .folder) :=
  (FileTree.resolve_eq_ok habsolute).2 ⟨h.leads, rfl, FileTree.isFolder_iff.1 h.isFolder⟩

theorem Project.baseIn_config (project : Project) (world : World) :
    project.baseIn world = project.config.baseIn project.root world := rfl

/-- What is left of a world by a build: the working directory and all folders. -/
theorem folders_of_run (hfound : projectIn world options = .ok project) :
    (world.run (run options)).2.current = world.current ∧
      ∀ location, world.tree.get? location = some .folder →
        (world.run (run options)).2.tree.get? location = some .folder := by
  have husable := Project.usable_of_projectIn hfound
  rw [run_of_projectIn hfound]
  refine ⟨current_savedIn husable, fun location hfolder => ?_⟩
  exact Project.folder_savedIn husable.isAbsolute_ledgerFile
    (Project.folder_takeTurns husable rfl (fun _ htarget => htarget) hfolder)

/-- **When targets keep their names.**  The base name after the folder for the artifacts is made,
alone or by a build, is the one before exactly if it was settled before.  In that case a build and
the next one have the same targets, whether or not the folder is made. -/
theorem baseName_stays (world : World) :
    (∀ (config : Config) (root : Path) (now : World) (location : Location) (entry : Entry),
      now.current = world.current →
      (∀ place, world.tree.get? place = some .folder → now.tree.get? place = some .folder) →
      now.tree.resolve now.current (config.outputPath root) = .ok (location, entry) →
      (config.baseIn root now = config.baseIn root world ↔
        config.BaseSettled root world location)) ∧
    (∀ (config : Config) (root : Path) (after : FileTree),
      (config.outputPath root).isAbsolute →
      world.tree.createFolders world.current (config.outputPath root) = (.ok (), after) →
      (config.baseIn root { world with tree := after } = config.baseIn root world ↔
        config.BaseSettled root world (place (config.outputPath root)))) ∧
    ∀ (options : BuildOptions) (project : Project), projectIn world options = .ok project →
      (project.config.BaseSettled project.root world
          (place (project.config.outputPath project.root)) →
        project.targetsIn (world.run (run options)).2 = project.targetsIn world) ∧
      (project.HasOutput (world.run (run options)).2.tree →
        (project.baseIn (world.run (run options)).2 = project.baseIn world ↔
          project.config.BaseSettled project.root world
            (place (project.config.outputPath project.root)))) := by
  refine ⟨?_, ?_, ?_⟩
  · intro config root now location entry hcurrent hkeep hmade
    exact Config.baseIn_eq_iff hcurrent hkeep hmade
  · intro config root after hpath hmade
    have hfolder : after.leadsToFolder world.current (config.outputPath root) :=
      FileTree.leadsToFolder_of_createFolders hpath hmade
    obtain ⟨hleads, hthere⟩ := (FileTree.leadsToFolder_iff hpath).1 hfolder
    have hgrown := FileTree.createFolders_made world.tree world.current hpath
    rw [hmade] at hgrown
    refine Config.baseIn_eq_iff rfl (fun location hkept => ?_)
      ((FileTree.resolve_eq_ok hpath).2 ⟨hleads, rfl, hthere⟩)
    rcases hgrown location with hsame | ⟨hnone, -, -⟩
    · exact hsame.trans hkept
    · rw [hkept] at hnone
      cases hnone
  · intro options project hfound
    have hpath := (Project.usable_of_projectIn hfound).isAbsolute_outputPath
    obtain ⟨hcurrent, hkeep⟩ := folders_of_run hfound
    rw [Project.baseIn_config, Project.baseIn_config]
    refine ⟨fun hsettled => ?_, fun hout => ?_⟩
    · rw [Project.targetsIn, Project.targetsIn, Project.baseIn_config, Project.baseIn_config,
        Config.baseIn_eq_of_settled hpath hcurrent hkeep hsettled]
    · exact Config.baseIn_eq_iff hcurrent hkeep (hout.resolve hpath _)

/-! ## Folders of two spellings -/

/-- A world without a configuration, with a runtime class. -/
def bareWorld : World where
  tree := FileTree.empty.set ["r.js"] (.file "f".toUTF8 0)
  current := []
  clock := 1
  modules := .empty

/-- The options of a build into a folder. -/
def folderOptions (outputDir : String) : BuildOptions :=
  { (default : BuildOptions) with outputDir := some outputDir, runtimeFile := some "r.js" }

/-- The project of such a build. -/
def folderProject (outputDir : String) : Project where
  root := ⟨"/"⟩
  config := { runtimeFile := some "/r.js", outputDir := outputDir }
  languages := [.named "en"]
  configFromFile := false

/-- What the making of its folder gives. -/
def folderMade (outputDir : String) : Except Files.Failure Unit × FileTree :=
  bareWorld.tree.createFolders bareWorld.current
    ((folderProject outputDir).config.outputPath (folderProject outputDir).root)

/-- The world with this folder. -/
def folderReady (outputDir : String) : World :=
  { bareWorld with tree := (folderMade outputDir).2 }

theorem createFolders_folderReady {outputDir : String} (h : (folderMade outputDir).1 = .ok ()) :
    bareWorld.tree.createFolders bareWorld.current
        ((folderProject outputDir).config.outputPath (folderProject outputDir).root) =
      (.ok (), (folderReady outputDir).tree) :=
  Prod.ext h rfl

/-- A spelling that goes up on its way and ends in the name of its folder. -/
def namedFolder : String := "/deep/../out/"

/-- A spelling that ends behind a folder in its own one. -/
def unnamedFolder : String := "/out/m/.."

theorem evaluated_named :
    projectIn bareWorld (folderOptions namedFolder) = .ok (folderProject namedFolder) ∧
    ((folderProject namedFolder).config.outputPath (folderProject namedFolder).root).isAbsolute ∧
    (folderMade namedFolder).1 = .ok () ∧
    ¬(folderProject namedFolder).HasOutput bareWorld.tree ∧
    (folderProject namedFolder).HasOutput
      (bareWorld.run (run (folderOptions namedFolder))).2.tree ∧
    (folderProject namedFolder).config.BaseSettled (folderProject namedFolder).root bareWorld
      (place ((folderProject namedFolder).config.outputPath (folderProject namedFolder).root)) := by
  refine ⟨?_, ?_, ?_, ?_, ?_, ?_⟩ <;> decide +kernel

/-- The folder is not there at first, and the targets keep their names when it is. -/
theorem baseName_stays_named :
    ¬(folderProject namedFolder).HasOutput bareWorld.tree ∧
      (folderProject namedFolder).baseIn (folderReady namedFolder) =
        (folderProject namedFolder).baseIn bareWorld ∧
      (folderProject namedFolder).targetsIn
          (bareWorld.run (run (folderOptions namedFolder))).2 =
        (folderProject namedFolder).targetsIn bareWorld ∧
      (folderProject namedFolder).baseIn (bareWorld.run (run (folderOptions namedFolder))).2 =
        (folderProject namedFolder).baseIn bareWorld := by
  obtain ⟨hfound, habsolute, hmade, hmissing, hout, hsettled⟩ := evaluated_named
  obtain ⟨hworlds, hfolders, hbuilds⟩ := baseName_stays bareWorld
  obtain ⟨hcurrent, hkeep⟩ := folders_of_run hfound
  exact ⟨hmissing,
    (hfolders _ _ _ habsolute (createFolders_folderReady hmade)).2 hsettled,
    (hbuilds _ _ hfound).1 hsettled,
    (hworlds _ _ _ _ _ hcurrent hkeep (hout.resolve habsolute _)).2 hsettled⟩

theorem evaluated_unnamed :
    projectIn bareWorld (folderOptions unnamedFolder) = .ok (folderProject unnamedFolder) ∧
    bareWorld.tree.leadsToFolder bareWorld.current (folderProject unnamedFolder).root ∧
    (folderMade unnamedFolder).1 = .ok () ∧
    (folderProject unnamedFolder).baseIn bareWorld = "bundle" ∧
    (folderProject unnamedFolder).baseIn (folderReady unnamedFolder) = "out" ∧
    (folderProject unnamedFolder).targetsIn
        (bareWorld.run (run (folderOptions unnamedFolder))).2 ≠
      (folderProject unnamedFolder).targetsIn bareWorld := by
  refine ⟨?_, ?_, ?_, ?_, ?_, ?_⟩ <;> decide +kernel

/-- A path that ends in `..` does not say the name of its folder: the first build has targets with
the fallback in their names, and the second one has others. -/
theorem not_baseName_stays :
    (¬∀ (config : Config) (root : Path) (world : World) (after : FileTree),
      world.tree.leadsToFolder world.current root →
      world.tree.createFolders world.current (config.outputPath root) = (.ok (), after) →
      config.baseIn root { world with tree := after } = config.baseIn root world) ∧
    ¬∀ (world : World) (options : BuildOptions) (project : Project),
      projectIn world options = .ok project →
      project.targetsIn (world.run (run options)).2 = project.targetsIn world := by
  obtain ⟨hfound, hroot, hmade, hbefore, hready, htargets⟩ := evaluated_unnamed
  constructor
  · intro h
    have hsame : (folderProject unnamedFolder).baseIn (folderReady unnamedFolder) =
        (folderProject unnamedFolder).baseIn bareWorld :=
      h _ _ _ _ hroot (createFolders_folderReady hmade)
    rw [hbefore, hready] at hsame
    exact absurd hsame (by decide)
  · exact fun h => htargets (h _ _ _ hfound)

end Build

end KeysetBundle
