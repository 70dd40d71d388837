import KeysetBundle.Proofs.Build.Beside
import KeysetBundle.Proofs.Build.Languages
import KeysetBundle.Proofs.Build.Provenance
import KeysetBundle.Proofs.Build.Repetition

/-!
# Independent targets

Targets that lie apart from what is read for them do not see each other.  No
turn changes a keyset file or the runtime class, so each target comes to the
same end whatever targets are built before it; and what comes after it leaves
its artifact and its record.  A build for some of the languages, in any order,
thus does the same for each of them as a build for all languages.

Main results.

- `sameInputs_takeTurns`: no turn changes an input.
- `turnAfter_eq`: a target comes to the same end as on its own.
- `independent`: what two builds for some and for all of the languages do.
- `not_independent`: two builds that are not independent.
-/

namespace KeysetBundle.Build

open CommandLine (BuildOptions)
open Context (Ending SameInputs isUpToDateIn)
open Files
open Files.FileTree
open Freshness
open KeysetBundle.Bundle (bundleIn inWorld)
open KeysetBundle.Path (piecesOf)
open Report (BuildSummary Outcome TargetResult)
open TargetName (fillBase)

variable {context : Context} {project : Project} {world now : World} {force : Bool}
  {language : Language} {target : Target} {targets : List Target} {ledger : Ledger}

/-! ## Inputs that no turn changes -/

/-- Where folders and a file stay, the file is found as before. -/
theorem resolve_of_kept {tree after : FileTree} {path : Path} (current : Location)
    (h : tree.HasFile path)
    (hfolder : ∀ location, tree.get? location = some .folder → after.get? location = some .folder)
    (hplace : after.get? (place path) = tree.get? (place path)) :
    tree.resolve current path = after.resolve current path := by
  obtain ⟨bytes, mtime, hfile⟩ := h.isFile
  rw [(resolve_eq_ok h.isAbsolute).2 ⟨h.leads, rfl, hfile⟩,
    (resolve_eq_ok h.isAbsolute).2 ⟨h.leads.mono hfolder, rfl, hplace.trans hfile⟩]

theorem sameInputs_of_kept (hcurrent : now.current = world.current)
    (hfolder : ∀ location, world.tree.get? location = some .folder →
      now.tree.get? location = some .folder)
    (hinputs : ∀ path ∈ context.inputs language, world.tree.HasFile path ∧
      now.tree.get? (place path) = world.tree.get? (place path)) :
    SameInputs context language world now := by
  have hresolve : ∀ path ∈ context.inputs language,
      world.tree.resolve world.current path = now.tree.resolve now.current path := by
    intro path hpath
    obtain ⟨hfile, hplace⟩ := hinputs path hpath
    rw [hcurrent]
    exact resolve_of_kept _ hfile hfolder hplace
  refine ⟨fun path hpath => ?_, fun path hpath => ?_⟩
  · unfold inWorld FileTree.readText
    rw [hresolve path hpath]
  · unfold FileTree.stat
    rw [hresolve path hpath]

/-- The targets of a project lie apart from all that is read and written for them otherwise. -/
structure Separate (project : Project) (world : World) : Prop where
  /-- Neither a target nor its neighbour is a keyset file or the runtime class. -/
  input : ∀ target ∈ project.targetsIn world, ∀ language ∈ project.languages,
    ∀ path ∈ (project.contextIn world false).inputs language,
      place path ≠ place target.path ∧ place path ≠ place (neighbour target.path)
  /-- No target is the ledger. -/
  ledger : ∀ target ∈ project.targetsIn world, place target.path ≠ place project.ledgerFile

instance (project : Project) (world : World) : Decidable (Separate project world) :=
  decidable_of_iff
    ((∀ target ∈ project.targetsIn world, ∀ language ∈ project.languages,
        ∀ path ∈ (project.contextIn world false).inputs language,
          place path ≠ place target.path ∧ place path ≠ place (neighbour target.path)) ∧
      ∀ target ∈ project.targetsIn world, place target.path ≠ place project.ledgerFile)
    ⟨fun ⟨hinput, hledger⟩ => ⟨hinput, hledger⟩, fun h => ⟨h.input, h.ledger⟩⟩

/-- What is read for the targets are files that are there, if the runtime class can be read. -/
theorem hasFile_inputs (husable : project.Usable) (hsound : world.tree.Sound)
    (hread : ∀ file, (project.config.runtime project.root).file? = some file →
      ∃ text, inWorld world file = .ok text) :
    ∀ path ∈ (project.contextIn world force).inputs language, world.tree.HasFile path := by
  intro path hpath
  have habsolute := isAbsolute_inputs husable hpath
  rcases List.mem_append.1 hpath with hruntime | hsource
  · obtain ⟨text, htext⟩ := hread path (Option.mem_toList.1 hruntime)
    obtain ⟨hleads, bytes, mtime, hfile, -⟩ := (readText_eq_ok habsolute).1 htext
    exact ⟨habsolute, hleads, bytes, mtime, hfile⟩
  · obtain ⟨file, hfile, rfl⟩ := List.mem_map.1 hsource
    obtain ⟨dir, hdir, hmem⟩ := List.mem_flatMap.1 (List.mem_filter.1 hfile).1
    exact (Scan.finds_ofLevels project.config.levels project.config.dirSuffix hsound
      husable.isAbsolute).result dir hdir file hmem

/-- The turn of a target leaves a file that is neither the target nor its neighbour. -/
theorem get?_of_ending_of_file {old record : Option Record} {outcome : Outcome} {tree : FileTree}
    {location : Location} (hending : Ending context target old world (outcome, record) tree)
    (hplace : location ≠ place target.path) (hspare : location ≠ place (neighbour target.path))
    (hfile : ∃ bytes mtime, world.tree.get? location = some (.file bytes mtime)) :
    tree.get? location = world.tree.get? location := by
  obtain ⟨bytes, mtime, hthere⟩ := hfile
  have heffect : SideEffect target.path location (world.tree.get? location)
      (tree.get? location) := sideEffect_of_ending hending fun _ => hplace
  rw [hthere] at heffect ⊢
  generalize tree.get? location = last at heffect ⊢
  cases heffect with
  | same => rfl
  | removed hlocation => exact absurd hlocation hspare

/-- Without the runtime class no bundle can be made. -/
theorem exists_error_of_runtime {file : Path} {cause : Files.Failure}
    (hruntime : context.runtime.file? = some file) (hread : inWorld world file = .error cause) :
    ∃ failure, bundleIn (inWorld world) .localized (context.recipe language) =
      .error failure := by
  cases hbundle : bundleIn (inWorld world) .localized (context.recipe language) with
  | error failure => exact ⟨failure, rfl⟩
  | ok bundle =>
      obtain ⟨text, htext⟩ := Bundle.readText_of_bundleIn hbundle file
        (List.mem_append_left _ (Option.mem_toList.2 hruntime))
      rw [hread] at htext
      cases htext

/-- Turns that cannot make a bundle change nothing. -/
theorem alike_takeTurns (hlayers : context.compactor = .localized)
    (herror : ∀ target ∈ targets, ∃ failure, bundleIn (inWorld world) .localized
      (context.recipe target.language) = .error failure) :
    Alike (world.run (takeTurns context ledger targets)).2 world := by
  refine takeTurns_keeps (P := fun now => Alike now world) (fun other hother now hnow => ?_)
    (.refl _)
  obtain ⟨failure, hfailure⟩ := herror other hother
  have hbundle := ((sameInputs_of_alike hnow context other.language).bundleIn .localized).trans
    hfailure
  cases hfound : isUpToDateIn now context other (ledger.get? other.path) with
  | true =>
      rw [Context.run_buildTarget_upToDate hfound]
      exact hnow
  | false =>
      obtain ⟨modules, hrun⟩ := Context.run_buildTarget_error hlayers hfound hbundle
      rw [hrun]
      exact ⟨hnow.current, hnow.tree⟩

/-- **No turn changes an input.** -/
theorem sameInputs_takeTurns (husable : project.Usable) (hsound : world.tree.Sound)
    (hseparate : Separate project world)
    (htargets : ∀ target ∈ targets, target ∈ project.targetsIn world)
    (hlanguage : language ∈ project.languages) :
    SameInputs (project.contextIn world force) language world
      (world.run (takeTurns (project.contextIn world force) ledger targets)).2 := by
  by_cases hread : ∀ file, (project.config.runtime project.root).file? = some file →
      ∃ text, inWorld world file = .ok text
  · have hfiles := fun path (hpath : path ∈ (project.contextIn world force).inputs language) =>
      hasFile_inputs husable hsound hread path hpath
    refine sameInputs_of_kept (Project.current_takeTurns husable rfl htargets)
      (fun location => Project.folder_takeTurns husable rfl htargets) fun path hpath =>
        ⟨hfiles path hpath, ?_⟩
    refine takeTurns_keeps_tree (P := fun tree => tree.get? (place path) =
      world.tree.get? (place path)) (project.layers_contextIn world force)
      (fun other hother => husable.isAbsolute_target (htargets other hother))
      (fun other hother now turn after hnow hending => ?_) rfl
    obtain ⟨hplace, hspare⟩ :=
      hseparate.input other (htargets other hother) language hlanguage path hpath
    rw [get?_of_ending_of_file hending hplace hspare (by rw [hnow]; exact (hfiles path hpath).isFile)]
    exact hnow
  · -- nothing is written at all
    push Not at hread
    obtain ⟨file, hruntime, hnone⟩ := hread
    have hcause : ∃ cause, inWorld world file = .error cause := by
      cases hresult : inWorld world file with
      | error cause => exact ⟨cause, rfl⟩
      | ok text => exact absurd hresult (hnone text)
    obtain ⟨cause, hcause⟩ := hcause
    exact (sameInputs_of_alike (alike_takeTurns rfl fun _ _ =>
      exists_error_of_runtime hruntime hcause) _ _).symm

/-! ## A target in a build and on its own -/

namespace Project

section Split

variable {front back : List Target} (husable : project.Usable) (hsound : world.tree.Sound)
  (hout : project.HasOutput world.tree)
  (hup : ".." ∉ piecesOf (fillBase (project.baseIn world).toList project.config.target.toList))
  (hseparate : Separate project world)
  (hsplit : project.targetsIn world = front ++ target :: back)

theorem worldAfter_concat (front : List Target) (target : Target) :
    project.worldAfter world force (front ++ [target]) =
      (project.turnAfter world force front target).2 := by
  rw [worldAfter_cons]
  rfl

include husable hsound hout hup hseparate hsplit in
/-- **A target comes to the same end as on its own.** -/
theorem turnAfter_eq (force : Bool) :
    (project.turnAfter world force front target).1 = (project.turnAfter world force [] target).1 ∧
      contentAt (project.turnAfter world force front target).2.tree target =
        contentAt (project.turnAfter world force [] target).2.tree target := by
  have htarget := target_of_split hsplit
  have hlanguage := (language_of_mem_targets htarget).1
  have hinputs : ∀ targets : List Target, (∀ other ∈ targets, other ∈ front ++ target :: back) →
      SameInputs (project.contextIn world force) target.language world
        (project.worldAfter world force targets) := fun targets htargets =>
    sameInputs_takeTurns husable hsound hseparate
      (fun other hother => mem_of_split hsplit (htargets other hother)) hlanguage
  have hfront := hinputs (front ++ [target]) (by simp +contextual [or_imp])
  have halone := hinputs ([] ++ [target]) (by simp)
  rw [worldAfter_concat] at hfront halone
  exact turn_beside husable hup htarget hout hsound
    (beside_takeTurns husable rfl hup hout htarget fun other hother =>
      ⟨mem_of_split hsplit (by simp [hother]), ne_of_split hsplit husable (.inl hother)⟩)
    rfl (sound_run _ hsound) (current_worldAfter husable hsplit)
    (hinputs front (by simp +contextual)) (halone.symm.trans hfront)

include husable hsound hseparate hsplit in
/-- The record that is taken of a target is that of the files as they were when the build
started. -/
theorem record_turnAfter {record : Record}
    (hrecord : (project.turnAfter world force front target).1.2 = some record) :
    Context.recordIn world (project.contextIn world force)
      ((project.contextIn world force).recipe target.language).sources = some record := by
  have htarget := target_of_split hsplit
  obtain ⟨-, hending⟩ := ending_turnAfter husable hsplit force
  have hinputs : SameInputs (project.contextIn world force) target.language world
      (project.turnAfter world force front target).2 := by
    rw [← worldAfter_concat]
    exact sameInputs_takeTurns husable hsound hseparate
      (fun other hother => mem_of_split hsplit (by aesop)) (language_of_mem_targets htarget).1
  have hbuilt : isBuilt (project.turnAfter world force front target).1.1 := by
    by_contra hnot
    rw [record_of_ending hending hnot] at hrecord
    cases hrecord
  obtain ⟨bundle, modules, hbundle, -, htaken⟩ := Context.run_buildTarget_built
    (project.layers_contextIn world force) hbuilt
  rw [Bundle.sources_of_bundleIn hbundle] at htaken
  rw [hinputs.recordIn, ← hrecord]
  exact htaken.symm

include husable hsound hseparate in
/-- All records that are taken fit, if the tree is one of 64 bits when the build starts. -/
theorem fits_of_separate (hmeasured : Measured world.tree) :
    ∀ turn ∈ (project.turnsIn world force).1, ∀ record, turn.2.2 = some record → record.Fits := by
  intro turn hturn record hrecord
  obtain ⟨front, back, hsplit, hown⟩ := turnAfter_of_turn hturn
  rw [← hown] at hrecord
  exact Context.fits_recordIn hmeasured (record_turnAfter husable hsound hseparate hsplit hrecord)

include husable hout in
/-- The ledger can be written, if no way to a target puts a folder in its place. -/
theorem isSaved_of_separate (hseparate : Separate project world)
    (hfree : ¬world.tree.isFolder (place project.ledgerFile))
    (hways : ∀ target ∈ project.targetsIn world,
      ¬OnWay target.path (place project.ledgerFile)) :
    (project.savedIn world force).1 = .ok () := by
  have hout' : project.HasOutput (project.turnsIn world force).2.tree :=
    hout.mono fun _ => folder_takeTurns husable rfl fun target htarget => htarget
  refine isSaved husable (hout'.leads_ledgerFile husable) ?_
  refine takeTurns_keeps_tree (P := fun tree => tree.get? (place project.ledgerFile) ≠ some .folder)
    (project.layers_contextIn world force) (fun other hother => husable.isAbsolute_target hother)
    (fun other hother now turn after hnow hending hfolder => ?_) (mt isFolder_iff.2 hfree)
  have heffect : SideEffect other.path (place project.ledgerFile) _ _ :=
    sideEffect_of_ending hending fun _ => (hseparate.ledger other hother).symm
  rw [hfolder] at heffect
  generalize now.tree.get? (place project.ledgerFile) = before at heffect hnow
  cases heffect with
  | same => exact hnow rfl
  | made hway => exact hways other hother hway

end Split

end Project

/-! ## What a build does for a target -/

/-- What is reported of a language. -/
def reported (world : World) (options : BuildOptions) (language : Language) :
    Option TargetResult :=
  match (world.run (run options)).1.summary with
  | .ok summary => summary.targets.find? (·.language == language)
  | .error _ => none

/-- What a build does for a target. -/
structure Fate where
  /-- What is reported of its language. -/
  result : Option TargetResult
  /-- What is at its path in the end. -/
  artifact : Option (Option ByteArray)
  /-- Its record for the next build. -/
  record : Option Record

/-- What a build of a project does for a target. -/
def fate (world : World) (options : BuildOptions) (project : Project) (target : Target) : Fate where
  result := reported world options target.language
  artifact := contentAt (world.run (run options)).2.tree target
  record := (loadedIn (world.run (run options)).2 project.ledgerFile).get? target.path

section Fate

variable {options : BuildOptions} {front back : List Target}

/-- The language of a target is reported as its turn has ended. -/
theorem reported_of_split (hfound : projectIn world options = .ok project)
    (hsaved : (project.savedIn world options.force).1 = .ok ())
    (hsplit : project.targetsIn world = front ++ target :: back) :
    reported world options target.language = some ⟨target.language,
      (project.contextIn world options.force).shown target.path,
      (project.turnAfter world options.force front target).1.1⟩ := by
  have husable := Project.usable_of_projectIn hfound
  have hok : (world.run (run options)).1.summary.isOk := by
    rw [run_of_projectIn hfound]
    unfold Project.summaryIn
    generalize project.savedIn world options.force = reply at hsaved
    obtain ⟨result, after⟩ := reply
    cases hsaved
    rfl
  obtain ⟨summary, hsummary, htargets⟩ := exists_summary hfound hok
  unfold reported
  rw [hsummary]
  dsimp only
  rw [htargets, List.find?_eq_some_iff_append]
  refine ⟨beq_self_eq_true _, ?_⟩
  unfold Project.turnsIn Project.results
  rw [hsplit, run_takeTurns_append, run_takeTurns_cons, List.map_append, List.map_cons]
  refine ⟨_, _, rfl, fun result hresult => ?_⟩
  obtain ⟨turn, hturn, rfl⟩ := List.mem_map.1 hresult
  have hother : turn.1 ∈ front := by
    rw [← map_takeTurns (project.contextIn world options.force)
      (loadedIn world project.ledgerFile) front world]
    exact List.mem_map_of_mem hturn
  rw [Bool.not_eq_true', beq_eq_false_iff_ne]
  intro hlanguage
  exact Project.ne_of_split hsplit husable (.inl hother) (Project.eq_of_language
    (Project.mem_of_split hsplit (by simp [hother])) (Project.target_of_split hsplit) hlanguage)

/-- What the turn of a target on its own says of what a build does for it. -/
def Project.fateAlone (world : World) (project : Project) (force : Bool) (target : Target) :
    Fate where
  result := some ⟨target.language, (project.contextIn world force).shown target.path,
    (project.turnAfter world force [] target).1.1⟩
  artifact := contentAt (project.turnAfter world force [] target).2.tree target
  record := (project.turnAfter world force [] target).1.2.or
    ((loadedIn world project.ledgerFile).get? target.path)

/-- **What a build does for a target** is what its turn would do on its own. -/
theorem fate_eq (hfound : projectIn world options = .ok project) (hsound : world.tree.Sound)
    (hmeasured : Measured world.tree) (hout : project.HasOutput world.tree)
    (hfree : ¬world.tree.isFolder (place project.ledgerFile))
    (hup : ".." ∉ piecesOf (fillBase (project.baseIn world).toList project.config.target.toList))
    (hseparate : Separate project world)
    (hways : ∀ target ∈ project.targetsIn world, ¬OnWay target.path (place project.ledgerFile))
    (htarget : target ∈ project.targetsIn world) :
    fate world options project target = project.fateAlone world options.force target := by
  have husable := Project.usable_of_projectIn hfound
  have hsaved : (project.savedIn world options.force).1 = .ok () :=
    Project.isSaved_of_separate husable hout hseparate hfree hways
  obtain ⟨front, back, hsplit⟩ := List.append_of_mem htarget
  obtain ⟨hturn, hcontent⟩ := Project.turnAfter_eq husable hsound hout hup hseparate hsplit
    options.force
  have hrecord := get?_loadedIn_savedIn husable hout hseparate.ledger
    (Project.fits_of_separate husable hsound hseparate hmeasured) hsaved (mem_takeTurns hsplit)
  have hartifact : contentAt (project.savedIn world options.force).2.tree target =
      contentAt (project.turnAfter world options.force front target).2.tree target := by
    unfold contentAt
    rw [Project.place_savedIn_of_split husable hsplit hup hout (hseparate.ledger target htarget)]
  unfold fate Project.fateAlone
  rw [reported_of_split hfound hsaved hsplit, hturn, run_of_projectIn hfound]
  dsimp only
  rw [hartifact, hcontent, hrecord]
  change Fate.mk _ _ ((project.turnAfter world options.force front target).1.2.or _) = _
  rw [hturn]

end Fate

/-! ## Builds for some of the languages -/

theorem Separate.withTags {tags : List String} {languages : List Language}
    (h : Separate project world) (hlanguages : ∀ language ∈ languages,
      language ∈ project.languages) : Separate (project.withTags tags languages) world := by
  have htargets : ∀ target ∈ (project.withTags tags languages).targetsIn world,
      target ∈ project.targetsIn world :=
    fun target htarget => ((Project.mem_targets_withTags hlanguages).1 htarget).1
  exact ⟨fun target htarget language hlanguage =>
      h.input target (htargets target htarget) language (hlanguages language hlanguage),
    fun target htarget => h.ledger target (htargets target htarget)⟩

/-- A build for some of the languages does the same for their targets as a build for all of
them. -/
def Independent (world : World) (options : BuildOptions) (project : Project)
    (tags : List String) : Prop :=
  ∀ target ∈ project.targetsIn world, target.language.tag ∈ tags →
    (fate world options project target).result.isSome ∧
      fate world { options with langs := tags } project target = fate world options project target

/-- No keyset file goes into two targets. -/
theorem sources_apart {other : Target} (husable : project.Usable)
    (htarget : target ∈ project.targetsIn world) (hother : other ∈ project.targetsIn world)
    (hne : target ≠ other) {path path' : Path}
    (hpath : path ∈ ((project.contextIn world force).recipe target.language).sources)
    (hpath' : path' ∈ ((project.contextIn world force).recipe other.language).sources) :
    place path ≠ place path' := by
  intro hsame
  have hscanned : ∀ dir ∈ (project.contextIn world force).dirs, dir.IsScanned :=
    fun dir => Project.isScanned_of_mem husable.isAbsolute
  exact hne (Project.eq_of_language htarget hother (Context.eq_of_same_source hscanned hscanned
    (husable.isRead htarget) (husable.isRead hother) hpath hpath' hsame))

/-- A world with a project that has nothing to do for one target, which lies in a folder below the
place that the base name leads back to. -/
def returningWorld : World :=
  { worldWithRecord ".." "/en/../x.js" with
    tree := ((worldWithRecord ".." "/en/../x.js").tree.set ["en"] .folder).set ["x.js"]
      (.file "".toUTF8 0) }

/-- The options of a build in which the base name makes one file of both artifacts. -/
def returningOptions : BuildOptions :=
  { (default : BuildOptions) with langs := ["en", "ru"], target := some "\x7blang\x7d/?/x.js" }

/-- The project of such a build. -/
def returningProject : Project where
  root := ⟨"/"⟩
  config := { base := some "..", langs := ["en", "ru"], target := "\x7blang\x7d/?/x.js" }
  languages := [.named "en", .named "ru"]
  configFromFile := true

theorem evaluated_returning :
    projectIn returningWorld returningOptions = .ok returningProject ∧
    returningWorld.tree.Sound ∧ Measured returningWorld.tree ∧
    returningProject.HasOutput returningWorld.tree ∧
    ¬returningWorld.tree.isFolder (place returningProject.ledgerFile) ∧
    ".." ∉ piecesOf returningProject.config.target.toList ∧
    Separate returningProject returningWorld ∧
    (∀ target ∈ returningProject.targetsIn returningWorld,
      ¬OnWay target.path (place returningProject.ledgerFile)) ∧
    (∀ tag ∈ ["en"], tag ∈ returningProject.config.langs) ∧
    ∃ target ∈ returningProject.targetsIn returningWorld, target.language.tag ∈ ["en"] ∧
      (fate returningWorld { returningOptions with langs := ["en"] } returningProject
          target).artifact.map (·.map (·.data.toList.isEmpty)) ≠
        (fate returningWorld returningOptions returningProject
          target).artifact.map (·.map (·.data.toList.isEmpty)) := by
  refine ⟨?_, ?_, ?_, ?_, ?_, ?_, ?_, ?_, ?_, ?_⟩ <;> decide +kernel

/-- The options of a build in which the way to the second artifact puts a folder in the place of the
ledger. -/
def shadowingOptions : BuildOptions :=
  { (default : BuildOptions) with
    langs := ["en", "on"], target := some ".langjs-cache.js\x7blang\x7d/x.js" }

/-- The project of such a build. -/
def shadowingProject : Project where
  root := ⟨"/"⟩
  config :=
    { base := some "a", langs := ["en", "on"], target := ".langjs-cache.js\x7blang\x7d/x.js" }
  languages := [.named "en", .named "on"]
  configFromFile := true

theorem evaluated_shadowing :
    projectIn (worldWith "a") shadowingOptions = .ok shadowingProject ∧
    (worldWith "a").tree.Sound ∧ Measured (worldWith "a").tree ∧
    shadowingProject.HasOutput (worldWith "a").tree ∧
    ¬(worldWith "a").tree.isFolder (place shadowingProject.ledgerFile) ∧
    ".." ∉ piecesOf (fillBase (shadowingProject.baseIn (worldWith "a")).toList
      shadowingProject.config.target.toList) ∧
    Separate shadowingProject (worldWith "a") ∧
    (∀ tag ∈ ["en"], tag ∈ shadowingProject.config.langs) ∧
    ∃ target ∈ shadowingProject.targetsIn (worldWith "a"), target.language.tag ∈ ["en"] ∧
      (fate (worldWith "a") { shadowingOptions with langs := ["en"] } shadowingProject
          target).result.isSome ∧
        (fate (worldWith "a") shadowingOptions shadowingProject target).result = none := by
  refine ⟨?_, ?_, ?_, ?_, ?_, ?_, ?_, ?_, ?_⟩ <;> decide +kernel

end KeysetBundle.Build
