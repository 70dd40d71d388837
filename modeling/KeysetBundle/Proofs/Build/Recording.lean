import KeysetBundle.CommandLine.Run
import KeysetBundle.Proofs.Build.Aftermath

/-!
# Recording what was built

The folder for the artifacts is made on the way to an artifact only.  A target
whose name is relative has its path through that folder, so the folder is there
once such a target is built, whatever the name is, and the ledger can be written
unless a folder is in its place.  An absolute name leads past the folder, and
nothing else makes it.

Main results.

- `FileTree.leads_of_leads_joinText`: whatever is below a folder leads over it.
- `Project.savedIn_eq_ok_iff`: when the ledger can be written.
- `built_is_recorded`: the builds that can record what they have built.
-/

namespace KeysetBundle

open CommandLine (BuildOptions)
open Files
open Freshness
open KeysetBundle.Path (piecesOf)
open Report (Outcome)

namespace Files.FileTree

variable {tree : FileTree} {folder : Path} {name : String}

/-- **The way to a relative name leads over the folder**, even if the name is empty or goes up. -/
theorem leads_of_leads_joinText (h : folder.isAbsolute) (hname : ¬(Path.mk name).isAbsolute)
    (hleads : tree.Leads (folder.joinText name)) :
    tree.Leads folder ∧ tree.get? (place folder) = some .folder := by
  rcases Path.body_joinText h hname with ⟨hempty, -⟩ | ⟨front, hfront, hbody⟩
  · have hroot : (piecesOf folder.body).foldlM tree.step [] = .ok [] := by
      rw [hempty]
      rfl
    have hfolder := leads_of_walk h hroot
    rw [Leads, hroot] at hfolder
    injection hfolder with hplace
    exact ⟨leads_of_walk h hroot, hplace ▸ get?_nil tree⟩
  · obtain ⟨first, others, hpieces⟩ : ∃ first others, piecesOf name.toList = first :: others :=
      List.exists_cons_of_ne_nil (by simp [piecesOf, Path.splitSlashes_ne_nil])
    rw [Leads, hbody, Path.piecesOf_append_slash, hpieces, List.foldlM_append] at hleads
    obtain ⟨location, hwalk, hrest⟩ := bind_eq_ok.1 hleads
    rw [List.foldlM_cons] at hrest
    obtain ⟨next, hstep, -⟩ := bind_eq_ok.1 hrest
    -- the first piece of the name is looked up in the folder
    have hopen : tree.get? location = some .folder := (step_eq_ok hstep).1
    have hstay : tree.step location "" = .ok location := by
      unfold step
      rw [hopen]
      rfl
    have hfolder : (piecesOf folder.body).foldlM tree.step [] = .ok location := by
      rcases hfront with hsame | hslash
      · rw [hsame]
        exact hwalk
      · have hnil : piecesOf [] = [""] := rfl
        rw [hslash, Path.piecesOf_append_slash, hnil, List.foldlM_append, hwalk]
        show (tree.step location "" >>= _) = _
        rw [hstay]
        rfl
    have hplace := leads_of_walk h hfolder
    rw [Leads, hfolder] at hplace
    injection hplace with hplace
    exact ⟨leads_of_walk h hfolder, hplace ▸ hopen⟩

end Files.FileTree

namespace Build

open Context (Ending)

variable {context : Context} {project : Project} {base : String} {world : World} {force : Bool}
  {target : Target} {tree : FileTree} {old record : Option Record} {outcome : Outcome}

/-! ## The folder for the artifacts -/

namespace Project

/-- The name of a target is relative to the folder for the artifacts. -/
def HasRelativeName (project : Project) (base : String) (target : Target) : Prop :=
  ¬(Path.mk (TargetName.resolve project.config.target base target.language.tag)).isAbsolute

instance (project : Project) (base : String) (target : Target) :
    Decidable (project.HasRelativeName base target) :=
  inferInstanceAs (Decidable (¬_))

/-- The folder is there exactly if the way to the ledger can be gone. -/
theorem hasOutput_iff (husable : project.Usable) :
    project.HasOutput tree ↔ tree.Leads project.ledgerFile := by
  constructor
  · exact fun h => h.leads_ledgerFile husable
  · intro hleads
    obtain ⟨hway, hfolder⟩ := FileTree.leads_of_leads_joinText husable.isAbsolute_outputPath
      isName_fileName.not_isAbsolute hleads
    exact ⟨hway, FileTree.isFolder_iff.2 hfolder⟩

/-- A target with a relative name is not built without the folder. -/
theorem hasOutput_of_ending (husable : project.Usable) (htarget : target ∈ project.targets base)
    (hname : project.HasRelativeName base target)
    (hending : Ending context target old world (outcome, record) tree)
    (hbuilt : isBuilt outcome) : project.HasOutput tree := by
  cases hending with
  | upToDate => cases hbuilt
  | failed => cases hbuilt
  | built hbundle hwritten =>
      have hleads := hwritten.leads rfl
      rw [(language_of_mem_targets htarget).2] at hleads
      obtain ⟨hway, hfolder⟩ := FileTree.leads_of_leads_joinText husable.isAbsolute_outputPath
        hname hleads
      exact ⟨hway, FileTree.isFolder_iff.2 hfolder⟩

/-- **The folder is there after the turns** if it was there before them, or if a target with a
relative name is built in one of them. -/
theorem hasOutput_turnsIn (husable : project.Usable) {turn : Turn}
    (hturn : turn ∈ (project.turnsIn world force).1) (hbuilt : isBuilt turn.2.1)
    (hway : project.HasOutput world.tree ∨
      project.HasRelativeName (project.baseIn world) turn.1) :
    project.HasOutput (project.turnsIn world force).2.tree := by
  rcases hway with hout | hname
  · exact hout.mono fun _ => folder_takeTurns husable rfl fun _ htarget => htarget
  · obtain ⟨front, back, hsplit, hown⟩ := exists_split hturn
    obtain ⟨-, hending⟩ := ending_turnAfter husable hsplit force
    have hown : turn.2 = (project.turnAfter world force front turn.1).1 := hown
    rw [hown] at hbuilt
    rw [turnsIn_of_split hsplit, worldAfter_cons]
    have hout := hasOutput_of_ending husable (target_of_split hsplit) hname hending hbuilt
    exact hout.mono fun _ => folder_takeTurns husable rfl fun other hother =>
      mem_of_split hsplit (by simp [hother])

/-! ## Writing the ledger -/

/-- **When the ledger can be written**: if there are no new records, or else if the folder for the
artifacts is there and no folder is in place of the ledger. -/
theorem savedIn_eq_ok_iff (husable : project.Usable) :
    (project.savedIn world force).1 = .ok () ↔
      (∀ turn ∈ (project.turnsIn world force).1, turn.2.2 = none) ∨
        project.HasOutput (project.turnsIn world force).2.tree ∧
          (project.turnsIn world force).2.tree.get? (place project.ledgerFile) ≠ some .folder := by
  constructor
  · intro hsaved
    have hclosing : Closing _ _ _ _ (project.savedIn world force) :=
      closing husable.isAbsolute_ledgerFile
    generalize project.savedIn world force = reply at hclosing hsaved
    cases hclosing with
    | idle hnone => exact .inl hnone
    | refused cause => cases hsaved
    | written hnew hne hfolder hleads => exact .inr ⟨(hasOutput_iff husable).2 hleads, hfolder⟩
  · rintro (hnone | ⟨hout, hfolder⟩)
    · rw [savedIn_of_no_records hnone]
    · exact isSaved husable ((hasOutput_iff husable).1 hout) hfolder

end Project

/-! ## Builds with a report -/

/-- A build succeeds and reports on every target, and its status is that of success unless a target
has failed. -/
def Reports (world : World) (options : BuildOptions) (project : Project) : Prop :=
  ∃ summary, (world.run (run options)).1.summary = .ok summary ∧
    summary.targets = Project.results (project.contextIn world options.force)
      (project.turnsIn world options.force).1 ∧
    summary.targets.map (·.language) = project.languages ∧
    ∀ verbose color, summary.failures = [] →
      (CommandLine.buildOutput verbose color (world.run (run options)).1).status = .success

/-- The turns are those of the languages, in their order. -/
theorem languages_turnsIn (world : World) (project : Project) (force : Bool) :
    (project.turnsIn world force).1.map (·.1.language) = project.languages := by
  have hturns := congrArg (List.map (·.language)) (map_takeTurns (project.contextIn world force)
    (loadedIn world project.ledgerFile) (project.targetsIn world) world)
  rw [List.map_map] at hturns
  refine hturns.trans ?_
  unfold Project.targetsIn Project.targets
  rw [List.map_map]
  exact List.map_id _

theorem reports_of_savedIn {options : BuildOptions} (hfound : projectIn world options = .ok project)
    (hsaved : (project.savedIn world options.force).1 = .ok ()) :
    Reports world options project := by
  have hok : (project.summaryIn world options.force).isOk := by
    unfold Project.summaryIn
    split
    · rename_i heq
      rw [heq] at hsaved
      cases hsaved
    · rfl
  have hrun : (world.run (run options)).1.summary = project.summaryIn world options.force := by
    rw [run_of_projectIn hfound]
  rw [← hrun] at hok
  obtain ⟨summary, hsummary, htargets⟩ := exists_summary hfound hok
  refine ⟨summary, hsummary, htargets, ?_, fun verbose color hfailures => ?_⟩
  · rw [htargets, Project.results, List.map_map]
    exact languages_turnsIn world project options.force
  · simp only [CommandLine.buildOutput, hsummary, hfailures, List.isEmpty_nil, if_true]

/-- A build has a summary exactly if the ledger could be written. -/
theorem isOk_summary_iff {options : BuildOptions} (hfound : projectIn world options = .ok project) :
    (world.run (run options)).1.summary.isOk ↔
      (project.savedIn world options.force).1 = .ok () := by
  constructor
  · intro hok
    rw [run_of_projectIn hfound] at hok
    dsimp only at hok
    unfold Project.summaryIn at hok
    split at hok
    · cases hok
    · rename_i heq
      rw [heq]
  · intro hsaved
    obtain ⟨summary, hsummary, -⟩ := reports_of_savedIn hfound hsaved
    rw [hsummary]
    rfl

/-- **A build that has built a target can record it**: if the name of the target is relative, or if
the folder for the artifacts was there before, then that folder is there when the ledger is
written, and the build reports on every target unless a folder is in place of the ledger.  For any
names, a build fails in the end exactly if there are new records and the folder is missing, or
another one is in place of the ledger. -/
theorem built_is_recorded {options : BuildOptions}
    (hfound : projectIn world options = .ok project) :
    (∀ turn ∈ (project.turnsIn world options.force).1, isBuilt turn.2.1 →
      (project.HasOutput world.tree ∨ project.HasRelativeName (project.baseIn world) turn.1) →
      project.HasOutput (project.turnsIn world options.force).2.tree ∧
        ((project.turnsIn world options.force).2.tree.get? (place project.ledgerFile) ≠
            some .folder → Reports world options project)) ∧
    ((world.run (run options)).1.summary.isOk ↔
      (∀ turn ∈ (project.turnsIn world options.force).1, turn.2.2 = none) ∨
        project.HasOutput (project.turnsIn world options.force).2.tree ∧
          (project.turnsIn world options.force).2.tree.get? (place project.ledgerFile) ≠
            some .folder) := by
  have husable := Project.usable_of_projectIn hfound
  have hsaves : (project.savedIn world options.force).1 = .ok () ↔ _ :=
    Project.savedIn_eq_ok_iff husable
  constructor
  · intro turn hturn hbuilt hway
    have hout := Project.hasOutput_turnsIn husable hturn hbuilt hway
    exact ⟨hout, fun hfolder => reports_of_savedIn hfound (hsaves.2 (.inr ⟨hout, hfolder⟩))⟩
  · exact (isOk_summary_iff hfound).trans hsaves

/-! ## A folder that is missing at first -/

/-- The options of a build into a folder that is not there. -/
def outsideOptions (target : String) : BuildOptions :=
  { pairOptions with target := some target, outputDir := some "out" }

/-- The project of such a build. -/
def outsideProject (target : String) : Project where
  root := ⟨"/"⟩
  config := { pairProject.config with target := target, outputDir := "/out" }
  languages := pairProject.languages
  configFromFile := true

/-- The template of names that go up from the folder. -/
def upTemplate : String := "../x.\x7blang\x7d.js"

/-- The template of absolute names. -/
def absoluteTemplate : String := "/x.\x7blang\x7d.js"

theorem evaluated_up :
    projectIn (worldWith "a") (outsideOptions upTemplate) = .ok (outsideProject upTemplate) ∧
    ¬(outsideProject upTemplate).HasOutput (worldWith "a").tree ∧
    (∃ turn ∈ ((outsideProject upTemplate).turnsIn (worldWith "a") false).1, isBuilt turn.2.1 ∧
      (outsideProject upTemplate).HasRelativeName "a" turn.1) ∧
    ¬((outsideProject upTemplate).turnsIn (worldWith "a") false).2.tree.isFolder
      (place (outsideProject upTemplate).ledgerFile) := by
  refine ⟨?_, ?_, ?_, ?_⟩ <;> decide +kernel

/-- A name that goes up from the folder leads through it all the same. -/
theorem built_is_recorded_up :
    ¬(outsideProject upTemplate).HasOutput (worldWith "a").tree ∧
      (outsideProject upTemplate).HasOutput
        ((outsideProject upTemplate).turnsIn (worldWith "a") false).2.tree ∧
      Reports (worldWith "a") (outsideOptions upTemplate) (outsideProject upTemplate) := by
  obtain ⟨hfound, hmissing, ⟨turn, hturn, hbuilt, hname⟩, hfree⟩ := evaluated_up
  have hbase : (outsideProject upTemplate).baseIn (worldWith "a") = "a" := by decide +kernel
  obtain ⟨hout, hreports⟩ := (built_is_recorded hfound).1 turn hturn hbuilt
    (.inr (hbase ▸ hname))
  exact ⟨hmissing, hout, hreports (mt FileTree.isFolder_iff.2 hfree)⟩

theorem evaluated_absolute :
    projectIn (worldWith "a") (outsideOptions absoluteTemplate) =
      .ok (outsideProject absoluteTemplate) ∧
    (∃ turn ∈ ((outsideProject absoluteTemplate).turnsIn (worldWith "a") false).1,
      isBuilt turn.2.1) ∧
    ¬(outsideProject absoluteTemplate).HasOutput
      ((outsideProject absoluteTemplate).turnsIn (worldWith "a") false).2.tree ∧
    ¬((outsideProject absoluteTemplate).turnsIn (worldWith "a") false).2.tree.isFolder
      (place (outsideProject absoluteTemplate).ledgerFile) ∧
    ((worldWith "a").run (run (outsideOptions absoluteTemplate))).1.summary.toOption.isNone ∧
    (((worldWith "a").run (run (outsideOptions absoluteTemplate))).2.tree.get?
      ["x.en.js"]).isSome := by
  refine ⟨?_, ?_, ?_, ?_, ?_, ?_⟩ <;> decide +kernel

/-- With absolute names the artifacts are written and the build fails behind them: nothing has made
the folder in which the ledger is to lie. -/
theorem not_built_is_recorded :
    (¬∀ (world : World) (options : BuildOptions) (project : Project),
      projectIn world options = .ok project →
      (∃ turn ∈ (project.turnsIn world options.force).1, isBuilt turn.2.1) →
      project.HasOutput (project.turnsIn world options.force).2.tree) ∧
    ¬∀ (world : World) (options : BuildOptions) (project : Project),
      projectIn world options = .ok project →
      (∃ turn ∈ (project.turnsIn world options.force).1, isBuilt turn.2.1) →
      (project.turnsIn world options.force).2.tree.get? (place project.ledgerFile) ≠
          some .folder →
      Reports world options project := by
  obtain ⟨hfound, hbuilt, hmissing, hfree, hfailed, -⟩ := evaluated_absolute
  constructor
  · exact fun h => hmissing (h _ _ _ hfound hbuilt)
  · intro h
    obtain ⟨summary, hsummary, -⟩ := h _ _ _ hfound hbuilt (mt FileTree.isFolder_iff.2 hfree)
    rw [hsummary] at hfailed
    cases hfailed

end Build

end KeysetBundle
