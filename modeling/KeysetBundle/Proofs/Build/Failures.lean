import KeysetBundle.Proofs.Build.Turns
import KeysetBundle.Proofs.Files.Atomic

/-!
# Targets that fail

A target that fails leaves its artifact as it was, whatever it fails at, and so
do the other targets of the build and the saving of the ledger.  Its record is
the one that it had.  Of all other files its turn changes its neighbour at most.

Main results.

- `sameFile_turnsIn`: the turns of a build leave the artifact of a target that
  fails as it was.
- `failed_intact`: what a failed target leaves, in a build and for a file that
  cannot be written.
-/

namespace KeysetBundle.Build

open CommandLine (BuildOptions)
open Context (Ending)
open Files
open Freshness
open KeysetBundle.Path (piecesOf)
open Report (BuildSummary Outcome TargetResult)
open TargetName (fillBase)

variable {context : Context} {project : Project} {base : String} {world : World} {force : Bool}

/-! ## One turn -/

/-- Away from the neighbour, a side effect is none on files. -/
theorem file_iff_of_sideEffect {path : Path} {location : Location} {before after : Option Entry}
    (h : SideEffect path location before after) (hne : location ≠ place (neighbour path))
    (bytes : ByteArray) (mtime : Int) :
    after = some (.file bytes mtime) ↔ before = some (.file bytes mtime) := by
  cases h with
  | same => exact Iff.rfl
  | made hway => exact ⟨nofun, nofun⟩
  | removed hlocation => exact absurd hlocation hne

/-- A target that fails changes no file but its neighbour. -/
theorem sameFiles_of_failed {target : Target} {old record : Option Record} {outcome : Outcome}
    {tree : FileTree} (hending : Ending context target old world (outcome, record) tree)
    (hfailed : ¬isBuilt outcome) :
    SameFiles (· = place (neighbour target.path)) world.tree tree := by
  intro location hlocation bytes mtime
  have heffect : SideEffect target.path location _ _ :=
    sideEffect_of_ending hending fun hbuilt => absurd hbuilt hfailed
  exact file_iff_of_sideEffect heffect hlocation bytes mtime

/-- The turn of a target leaves a file as it was that is neither its artifact nor its neighbour. -/
theorem sameFile_of_ending {target : Target} {location : Location} {old record : Option Record}
    {outcome : Outcome} {tree : FileTree}
    (hending : Ending context target old world (outcome, record) tree)
    (hplace : isBuilt outcome → location ≠ place target.path)
    (hspare : location ≠ place (neighbour target.path)) :
    SameFiles (· ≠ location) world.tree tree := by
  intro other hother bytes mtime
  have hsame : other = location := not_not.1 hother
  subst hsame
  exact file_iff_of_sideEffect (sideEffect_of_ending hending hplace) hspare bytes mtime

/-! ## All turns -/

section Turns

variable {target : Target} {ledger : Ledger} {targets : List Target}

/-- The turns of other targets leave the artifact of a target as it is. -/
theorem sameFile_takeTurns (world : World) (ledger : Ledger) (husable : project.Usable)
    (hup : ".." ∉ piecesOf (fillBase base.toList project.config.target.toList))
    (hlayers : context.compactor = .localized) (htarget : target ∈ project.targets base)
    (htargets : ∀ other ∈ targets, other ∈ project.targets base ∧ other ≠ target) :
    SameFiles (· ≠ place target.path) world.tree
      (world.run (takeTurns context ledger targets)).2.tree := by
  refine takeTurns_keeps_tree (P := SameFiles (· ≠ place target.path) world.tree) hlayers
    (fun other hother => husable.isAbsolute_target (htargets other hother).1)
    (fun other hother now turn after hnow hending => hnow.trans ?_) (.refl _ _)
  obtain ⟨hmem, hne⟩ := htargets other hother
  refine sameFile_of_ending hending (fun _ hplace => ?_)
    (husable.neighbour_apart hmem htarget).symm
  exact hne (husable.eq_of_place hup hmem htarget hplace.symm)

/-- **A target that fails keeps its artifact** in all the turns of a build. -/
theorem sameFile_turnsIn (husable : project.Usable)
    (hup : ".." ∉ piecesOf (fillBase (project.baseIn world).toList project.config.target.toList))
    {front back : List Target} (hsplit : project.targetsIn world = front ++ target :: back)
    (hfailed : ¬isBuilt ((world.run (takeTurns (project.contextIn world force)
      (loadedIn world project.ledgerFile) front)).2.run
        ((project.contextIn world force).buildTarget target
          ((loadedIn world project.ledgerFile).get? target.path))).1.1) :
    SameFiles (· ≠ place target.path) world.tree (project.turnsIn world force).2.tree := by
  have htarget := Project.target_of_split hsplit
  have hother : ∀ other, other ∈ front ∨ other ∈ back →
      other ∈ project.targets (project.baseIn world) ∧ other ≠ target := fun other hother =>
    ⟨Project.mem_of_split hsplit (by rcases hother with h | h <;> simp [h]),
      Project.ne_of_split hsplit husable hother⟩
  have hlayers : (project.contextIn world force).compactor = .localized := rfl
  have hfront := sameFile_takeTurns world (loadedIn world project.ledgerFile) husable hup hlayers
    htarget fun other h => hother other (.inl h)
  obtain ⟨-, hending⟩ := Context.run_buildTarget (world.run (takeTurns
    (project.contextIn world force) (loadedIn world project.ledgerFile) front)).2
    ((loadedIn world project.ledgerFile).get? target.path) hlayers
    (husable.isAbsolute_target htarget)
  have hown := sameFile_of_ending hending (fun hbuilt => absurd hbuilt hfailed)
    (husable.neighbour_apart htarget htarget).symm
  have hback := sameFile_takeTurns ((world.run (takeTurns (project.contextIn world force)
      (loadedIn world project.ledgerFile) front)).2.run ((project.contextIn world force).buildTarget
        target ((loadedIn world project.ledgerFile).get? target.path))).2
    (loadedIn world project.ledgerFile) husable hup hlayers htarget
    fun other h => hother other (.inr h)
  unfold Project.turnsIn
  rw [hsplit, run_takeTurns_append, run_takeTurns_cons]
  exact (hfront.trans hown).trans hback

/-- The turns of a build leave its ledger as it is, if no target is the ledger. -/
theorem ledgerIn_turnsIn (husable : project.Usable)
    (hledger : ∀ target ∈ project.targetsIn world,
      place target.path ≠ place project.ledgerFile) :
    ledgerIn (project.turnsIn world force).2.tree project.ledgerFile =
      ledgerIn world.tree project.ledgerFile := by
  refine takeTurns_keeps_tree (P := fun tree => ledgerIn tree project.ledgerFile =
    ledgerIn world.tree project.ledgerFile) (project.layers_contextIn world force)
    (fun other hother => husable.isAbsolute_target hother)
    (fun other hother now turn after hnow hending => ?_) rfl
  rw [ledgerIn_of_ending hending (hledger other hother).symm
    (husable.ledger_apart (husable.isAbsolute_target hother)), hnow]

end Turns

/-! ## The end of a build -/

/-- Saving the ledger changes no file but the ledger. -/
theorem sameFiles_savedIn (husable : project.Usable) :
    SameFiles (· = place project.ledgerFile) (project.turnsIn world force).2.tree
      (project.savedIn world force).2.tree := by
  have hclosing : Closing _ _ _ _ (project.savedIn world force) :=
    Project.closing husable.isAbsolute_ledgerFile
  generalize project.savedIn world force = reply at hclosing ⊢
  cases hclosing with
  | idle hnone => exact .refl _ _
  | refused cause => exact .refl _ _
  | written hnew hne hfolder hleads => exact .set _ hne _ rfl

/-- The record of a target without a new one is the same after a build. -/
theorem get?_savedIn (husable : project.Usable)
    (hledger : ∀ target ∈ project.targetsIn world,
      place target.path ≠ place project.ledgerFile)
    (hway : world.tree.Leads project.ledgerFile ∨
      world.tree.get? (place project.ledgerFile) = none)
    (hmeasured : SeenThrough Measured (project.contextIn world force)
      (loadedIn world project.ledgerFile) (project.targetsIn world) world)
    (hsaved : (project.savedIn world force).1 = .ok ()) {path : Path}
    (hnone : ∀ turn ∈ (project.turnsIn world force).1, turn.1.path = path → turn.2.2 = none) :
    (ledgerIn (project.savedIn world force).2.tree project.ledgerFile).get? path =
      (ledgerIn world.tree project.ledgerFile).get? path := by
  by_cases hany : (project.turnsIn world force).1.any fun turn => turn.2.2.isSome
  · have hfits := fits_recordAll (fits_loadedIn world project.ledgerFile)
      (Project.fits_turnsIn husable hmeasured)
    rw [Project.savedIn_of_records hany] at hsaved ⊢
    have hstart : loadedIn world project.ledgerFile = ledgerIn world.tree project.ledgerFile := by
      rcases hway with hleads | hnone
      · exact loadedIn_of_leads husable.isAbsolute_ledgerFile hleads
      · unfold ledgerIn loadedIn
        rw [hnone]
        split
        · rename_i text hread
          obtain ⟨-, bytes, mtime, hentry, -⟩ :=
            (readText_eq_ok husable.isAbsolute_ledgerFile).1 hread
          rw [hnone] at hentry
          cases hentry
        · rfl
    rw [ledgerIn, get?_save husable.isAbsolute_ledgerFile hsaved, if_pos rfl, ledgerOf_render,
      Ledger.ofJson?_toJson hfits, Option.getD_some, get?_recordAll_of_none hnone, hstart]
  · rw [Project.savedIn_of_no_records (not_any_isSome.1 hany), ledgerIn_turnsIn husable hledger]

/-! ## What a failed target leaves -/

/-- What is kept of a target that fails after the targets in front of it. -/
structure Intact (world : World) (options : BuildOptions) (project : Project)
    (front : List Target) (target : Target) : Prop where
  /-- The file at its path is as it was, or there is none as before. -/
  artifact : SameFiles (· ≠ place target.path) world.tree (world.run (run options)).2.tree
  /-- Its record is as it was. -/
  record : (ledgerIn (world.run (run options)).2.tree project.ledgerFile).get? target.path =
    (ledgerIn world.tree project.ledgerFile).get? target.path
  /-- Its turn changes no file but its neighbour. -/
  turn : SameFiles (· = place (neighbour target.path))
    (world.run (takeTurns (project.contextIn world options.force)
      (loadedIn world project.ledgerFile) front)).2.tree
    (world.run (takeTurns (project.contextIn world options.force)
      (loadedIn world project.ledgerFile) (front ++ [target]))).2.tree

/-- A result stands for a target that is left intact. -/
def LeftIntact (world : World) (options : BuildOptions) (project : Project)
    (result : TargetResult) : Prop :=
  ∃ front target back, project.targetsIn world = front ++ target :: back ∧
    result.language = target.language ∧
    result.path = (project.contextIn world options.force).shown target.path ∧
    Intact world options project front target

/-- **What a failed target leaves.**  If a build reports that a target has failed, the file at its
path is as it was, or there is none as before; its record is as it was; and its turn has changed
no file but its neighbour. The template must not go up, neither itself nor through the base name
that is put into it, no target may be the ledger, and the ledger must not lie where the way to it
is only made by the build. For single files this holds without any condition: a file that is
written is there as a whole, and one that cannot be written is as it was. -/
theorem failed_intact :
    (∀ (world : World) (options : BuildOptions) (project : Project) (summary : BuildSummary)
        (result : TargetResult) (message : String),
      projectIn world options = .ok project →
      ".." ∉ piecesOf (fillBase (project.baseIn world).toList project.config.target.toList) →
      (∀ target ∈ project.targetsIn world, place target.path ≠ place project.ledgerFile) →
      (world.tree.Leads project.ledgerFile ∨
        world.tree.get? (place project.ledgerFile) = none) →
      SeenThrough Measured (project.contextIn world options.force)
        (loadedIn world project.ledgerFile) (project.targetsIn world) world →
      (world.run (run options)).1.summary = .ok summary →
      result ∈ summary.targets → result.outcome = .failed message →
      LeftIntact world options project result) ∧
    ∀ (world : World) (path : Path) (text : String),
      Atomic path text world (world.run (writeWhole path text)).1
        (world.run (writeWhole path text)).2 := by
  refine ⟨?_, atomic_writeWhole⟩
  intro world options project summary result message hfound hup hledger hway hmeasured hsummary
    hresult hfailed
  have husable := Project.usable_of_projectIn hfound
  obtain ⟨hsaved, turn, hturn, rfl⟩ := exists_turn hfound hsummary hresult
  dsimp only at hfailed
  obtain ⟨front, back, hsplit, hown⟩ := exists_split hturn
  have hnot : ¬isBuilt turn.2.1 := by
    rw [hfailed]
    exact Bool.false_ne_true
  have htarget : turn.1 ∈ project.targetsIn world := by
    rw [hsplit]
    simp
  obtain ⟨-, hending⟩ := Context.run_buildTarget (world.run (takeTurns
    (project.contextIn world options.force) (loadedIn world project.ledgerFile) front)).2
    ((loadedIn world project.ledgerFile).get? turn.1.path)
    (project.layers_contextIn world options.force) (husable.isAbsolute_target htarget)
  refine ⟨front, turn.1, back, hsplit, rfl, rfl, ?artifact, ?record, ?turn⟩
  case artifact =>
    rw [run_of_projectIn hfound]
    rw [hown] at hnot
    refine (sameFile_turnsIn husable hup hsplit hnot).trans
      ((sameFiles_savedIn husable).mono fun location hlocation hplace => ?_)
    exact hledger turn.1 htarget (hplace.symm.trans hlocation)
  case record =>
    rw [run_of_projectIn hfound]
    refine get?_savedIn husable hledger hway hmeasured hsaved fun other hother hpath => ?_
    have hsame := eq_of_nodup_map (Project.nodup_turnsIn husable) hother hturn hpath
    rw [hsame]
    rw [← hown] at hending
    exact record_of_ending hending hnot
  case turn =>
    rw [run_takeTurns_append, run_takeTurns_cons]
    rw [← hown] at hending
    exact sameFiles_of_failed hending hnot

/-! ## A target with a folder at its path -/

/-- The options of a build for two languages with a runtime class of its own. -/
def pairOptions : BuildOptions :=
  { (default : BuildOptions) with langs := ["en", "ru"], runtimeFile := some "r.js" }

/-- The project of such a build. -/
def pairProject : Project where
  root := ⟨"/"⟩
  config := { langs := ["en", "ru"], base := some "a", runtimeFile := some "/r.js" }
  languages := [.named "en", .named "ru"]
  configFromFile := true

/-- A world with a folder at the path of the second target. -/
def folderWorld : World :=
  { worldWith "a" with tree := (worldWith "a").tree.set ["a.lang.ru.js"] .folder }

/-- What is said of the second target there. -/
def folderResult : TargetResult :=
  ⟨.named "ru", "a.lang.ru.js",
    .failed "Failed to write /a.lang.ru.js: Is a directory (os error 21)"⟩

theorem evaluated_folder :
    projectIn folderWorld pairOptions = .ok pairProject ∧
    ".." ∉ piecesOf (fillBase (pairProject.baseIn folderWorld).toList
      pairProject.config.target.toList) ∧
    (∀ target ∈ pairProject.targetsIn folderWorld,
      place target.path ≠ place pairProject.ledgerFile) ∧
    folderWorld.tree.Leads pairProject.ledgerFile ∧
    SeenThrough Measured (pairProject.contextIn folderWorld pairOptions.force)
      (loadedIn folderWorld pairProject.ledgerFile) (pairProject.targetsIn folderWorld)
      folderWorld ∧
    (folderWorld.run (run pairOptions)).1.summary.isOk ∧
    folderResult ∈ Project.results (pairProject.contextIn folderWorld pairOptions.force)
      (pairProject.turnsIn folderWorld pairOptions.force).1 := by
  refine ⟨?_, ?_, ?_, ?_, ?_, ?_, ?_⟩ <;> decide +kernel

/-- A target that cannot be moved to its path is left intact, and so is a file at that path. -/
theorem failed_intact_of_folder :
    (∃ summary, (folderWorld.run (run pairOptions)).1.summary = .ok summary ∧
      folderResult ∈ summary.targets) ∧
    LeftIntact folderWorld pairOptions pairProject folderResult := by
  obtain ⟨hfound, hup, hledger, hleads, hmeasured, hok, hmem⟩ := evaluated_folder
  obtain ⟨summary, hsummary, htargets⟩ := exists_summary hfound hok
  have hresult : folderResult ∈ summary.targets := htargets ▸ hmem
  exact ⟨⟨summary, hsummary, hresult⟩, failed_intact.1 _ _ _ _ _ _ hfound hup hledger
    (.inl hleads) hmeasured hsummary hresult rfl⟩

/-! ## Targets that are not left intact -/

/-- The summary of a build says that the target of a language has failed. -/
def Fails (world : World) (options : BuildOptions) (language : Language) : Prop :=
  ∃ summary result message, (world.run (run options)).1.summary = .ok summary ∧
    result ∈ summary.targets ∧ result.language = language ∧ result.outcome = .failed message

theorem fails_of_turn {options : BuildOptions} {language : Language}
    (hfound : projectIn world options = .ok project)
    (hok : (world.run (run options)).1.summary.isOk)
    (hturn : (project.turnsIn world options.force).1.any fun turn =>
      turn.1.language == language && turn.2.1.isFailed) : Fails world options language := by
  obtain ⟨summary, hsummary, htargets⟩ := exists_summary hfound hok
  obtain ⟨turn, hmem, hboth⟩ := List.any_eq_true.1 hturn
  obtain ⟨hlanguage, hfailed⟩ := (Bool.and_eq_true _ _).mp hboth
  have hresult : ⟨turn.1.language, (project.contextIn world options.force).shown turn.1.path,
      turn.2.1⟩ ∈ summary.targets := htargets ▸ List.mem_map.2 ⟨turn, hmem, rfl⟩
  cases houtcome : turn.2.1 with
  | failed message =>
      exact ⟨summary, _, message, hsummary, hresult, beq_iff_eq.1 hlanguage, houtcome⟩
  | upToDate =>
      rw [houtcome] at hfailed
      cases hfailed
  | built keysets keys sources =>
      rw [houtcome] at hfailed
      cases hfailed

/-- A file that comes to the path of a target is none that was left there. -/
theorem not_leftIntact_of_file {options : BuildOptions} {result : TargetResult}
    {location : Location}
    (hplace : ∀ target ∈ project.targetsIn world, target.language = result.language →
      place target.path = location)
    (hnone : (world.tree.get? location).isNone)
    (hfile : (((world.run (run options)).2.tree.get? location).bind contentOf).isSome) :
    ¬LeftIntact world options project result := by
  rintro ⟨front, target, back, hsplit, hlanguage, -, hintact⟩
  have htarget := hplace target (by simp [hsplit]) hlanguage.symm
  obtain ⟨bytes, hbytes⟩ := Option.isSome_iff_exists.1 hfile
  obtain ⟨entry, hentry, hcontent⟩ := Option.bind_eq_some_iff.1 hbytes
  cases entry with
  | folder => cases hcontent
  | file content mtime =>
      have hbefore := (hintact.artifact location (not_not.2 htarget.symm) content mtime).1 hentry
      rw [Option.isNone_iff_eq_none.1 hnone] at hbefore
      cases hbefore

/-- The options of a build in which the way to the second artifact makes a folder of a neighbour. -/
def meetingOptions : BuildOptions :=
  { (default : BuildOptions) with
    langs := ["en", "zz"], target := some "\x7blang\x7d.tmp/?/zz", runtimeFile := some "r.js" }

/-- The project of such a build, in which the base name makes one file of both artifacts. -/
def meetingProject : Project where
  root := ⟨"/"⟩
  config :=
    { langs := ["en", "zz"], target := "\x7blang\x7d.tmp/?/zz", base := some "..",
      runtimeFile := some "/r.js" }
  languages := [.named "en", .named "zz"]
  configFromFile := true

theorem evaluated_meeting :
    projectIn (worldWith "..") meetingOptions = .ok meetingProject ∧
    ".." ∉ piecesOf meetingProject.config.target.toList ∧
    (∀ target ∈ meetingProject.targetsIn (worldWith ".."),
      place target.path ≠ place meetingProject.ledgerFile) ∧
    (worldWith "..").tree.Leads meetingProject.ledgerFile ∧
    SeenThrough Measured (meetingProject.contextIn (worldWith "..") meetingOptions.force)
      (loadedIn (worldWith "..") meetingProject.ledgerFile)
      (meetingProject.targetsIn (worldWith "..")) (worldWith "..") ∧
    ((worldWith "..").run (run meetingOptions)).1.summary.isOk ∧
    ((meetingProject.turnsIn (worldWith "..") meetingOptions.force).1.any fun turn =>
      turn.1.language == .named "zz" && turn.2.1.isFailed) ∧
    (∀ target ∈ meetingProject.targetsIn (worldWith ".."), place target.path = ["zz"]) ∧
    ((worldWith "..").tree.get? ["zz"]).isNone ∧
    ((((worldWith "..").run (run meetingOptions)).2.tree.get? ["zz"]).bind contentOf).isSome := by
  decide +kernel

/-- The options of a build in which the second artifact is the ledger. -/
def ledgerOptions : BuildOptions :=
  { (default : BuildOptions) with
    langs := ["en", "on"], target := some ".langjs-cache.js\x7blang\x7d",
    runtimeFile := some "r.js" }

/-- The project of such a build. -/
def ledgerProject : Project where
  root := ⟨"/"⟩
  config :=
    { langs := ["en", "on"], target := ".langjs-cache.js\x7blang\x7d", base := some "a",
      runtimeFile := some "/r.js" }
  languages := [.named "en", .named "on"]
  configFromFile := true

/-- A world in which that artifact cannot be written. -/
def ledgerWorld : World :=
  { worldWith "a" with tree := (worldWith "a").tree.set [".langjs-cache.json.tmp"] .folder }

theorem evaluated_ledger :
    projectIn ledgerWorld ledgerOptions = .ok ledgerProject ∧
    ".." ∉ piecesOf (fillBase (ledgerProject.baseIn ledgerWorld).toList
      ledgerProject.config.target.toList) ∧
    ledgerWorld.tree.Leads ledgerProject.ledgerFile ∧
    SeenThrough Measured (ledgerProject.contextIn ledgerWorld ledgerOptions.force)
      (loadedIn ledgerWorld ledgerProject.ledgerFile) (ledgerProject.targetsIn ledgerWorld)
      ledgerWorld ∧
    (ledgerWorld.run (run ledgerOptions)).1.summary.isOk ∧
    ((ledgerProject.turnsIn ledgerWorld ledgerOptions.force).1.any fun turn =>
      turn.1.language == .named "on" && turn.2.1.isFailed) ∧
    (∀ target ∈ ledgerProject.targetsIn ledgerWorld, target.language = .named "on" →
      place target.path = [".langjs-cache.json"]) ∧
    (ledgerWorld.tree.get? [".langjs-cache.json"]).isNone ∧
    (((ledgerWorld.run (run ledgerOptions)).2.tree.get? [".langjs-cache.json"]).bind
      contentOf).isSome := by
  decide +kernel

/-- The options of a build into a folder that is reached through another one. -/
def detourOptions : BuildOptions :=
  { pairOptions with outputDir := some "out/m/.." }

/-- The project of such a build. -/
def detourProject : Project where
  root := ⟨"/"⟩
  config := { pairProject.config with outputDir := "/out/m/.." }
  languages := pairProject.languages
  configFromFile := true

/-- A world with a ledger, in which that other folder is not there and the first artifact cannot
be written. -/
def detourWorld : World :=
  { worldWith "a" with
    tree := (((worldWith "a").tree.set ["out"] .folder).set
      ["out", ".langjs-cache.json"] (.file
        "\x7b\"targets\":\x7b\"/out/m/../a.lang.en.js\":\x7b\x7d\x7d\x7d".toUTF8 0)).set
      ["out", "a.lang.en.js.tmp"] .folder }

theorem evaluated_detour :
    projectIn detourWorld detourOptions = .ok detourProject ∧
    ".." ∉ piecesOf (fillBase (detourProject.baseIn detourWorld).toList
      detourProject.config.target.toList) ∧
    (∀ target ∈ detourProject.targetsIn detourWorld,
      place target.path ≠ place detourProject.ledgerFile) ∧
    SeenThrough Measured (detourProject.contextIn detourWorld detourOptions.force)
      (loadedIn detourWorld detourProject.ledgerFile) (detourProject.targetsIn detourWorld)
      detourWorld ∧
    (detourWorld.run (run detourOptions)).1.summary.isOk ∧
    ((detourProject.turnsIn detourWorld detourOptions.force).1.any fun turn =>
      turn.1.language == .named "en" && turn.2.1.isFailed) ∧
    ((detourProject.turnsIn detourWorld detourOptions.force).1.any fun turn =>
      turn.2.2.isSome) ∧
    (detourWorld.run (run detourOptions)).2.tree.Leads detourProject.ledgerFile ∧
    ∀ target ∈ detourProject.targetsIn detourWorld, target.language = .named "en" →
      ((ledgerIn detourWorld.tree detourProject.ledgerFile).get? target.path).isSome ∧
      (((Ledger.ofJson? (Project.recordAll (loadedIn detourWorld detourProject.ledgerFile)
        (detourProject.turnsIn detourWorld detourOptions.force).1).toJson).getD .empty).get?
          target.path).isNone := by
  refine ⟨?_, ?_, ?_, ?_, ?_, ?_, ?_, ?_, ?_⟩ <;> decide +kernel

/-- A record that cannot be found by the build is lost in it. -/
theorem not_leftIntact_detour {result : TargetResult} (hlanguage : result.language = .named "en") :
    ¬LeftIntact detourWorld detourOptions detourProject result := by
  rintro ⟨front, target, back, hsplit, hsame, -, hintact⟩
  obtain ⟨hfound, -, -, -, hok, -, hany, hleads, hrecords⟩ := evaluated_detour
  have htarget : target ∈ detourProject.targetsIn detourWorld := by simp [hsplit]
  obtain ⟨hbefore, hafter⟩ := hrecords target htarget (hsame.symm.trans hlanguage)
  have habsolute := (Project.usable_of_projectIn hfound).isAbsolute_ledgerFile
  have hsaved := saved_of_summary hfound (ne_ledger_of_isOk hok)
  have hloaded := Project.loadedIn_savedIn habsolute hany hsaved
  have hrun : (detourWorld.run (run detourOptions)).2 =
      (detourProject.savedIn detourWorld detourOptions.force).2 := by
    rw [run_of_projectIn hfound]
  rw [← hrun, loadedIn_of_leads habsolute hleads] at hloaded
  rw [← hloaded, hintact.record] at hafter
  rw [Option.isNone_iff_eq_none.1 hafter] at hbefore
  cases hbefore

/-- None of the conditions can be left out: that the template does not go up through the base name,
that no target is the ledger, and that the way to the ledger is there. -/
theorem not_failed_intact :
    (¬∀ (world : World) (options : BuildOptions) (project : Project) (summary : BuildSummary)
        (result : TargetResult) (message : String),
      projectIn world options = .ok project →
      ".." ∉ piecesOf project.config.target.toList →
      (∀ target ∈ project.targetsIn world, place target.path ≠ place project.ledgerFile) →
      (world.tree.Leads project.ledgerFile ∨
        world.tree.get? (place project.ledgerFile) = none) →
      SeenThrough Measured (project.contextIn world options.force)
        (loadedIn world project.ledgerFile) (project.targetsIn world) world →
      (world.run (run options)).1.summary = .ok summary →
      result ∈ summary.targets → result.outcome = .failed message →
      LeftIntact world options project result) ∧
    (¬∀ (world : World) (options : BuildOptions) (project : Project) (summary : BuildSummary)
        (result : TargetResult) (message : String),
      projectIn world options = .ok project →
      ".." ∉ piecesOf (fillBase (project.baseIn world).toList project.config.target.toList) →
      (world.tree.Leads project.ledgerFile ∨
        world.tree.get? (place project.ledgerFile) = none) →
      SeenThrough Measured (project.contextIn world options.force)
        (loadedIn world project.ledgerFile) (project.targetsIn world) world →
      (world.run (run options)).1.summary = .ok summary →
      result ∈ summary.targets → result.outcome = .failed message →
      LeftIntact world options project result) ∧
    ¬∀ (world : World) (options : BuildOptions) (project : Project) (summary : BuildSummary)
        (result : TargetResult) (message : String),
      projectIn world options = .ok project →
      ".." ∉ piecesOf (fillBase (project.baseIn world).toList project.config.target.toList) →
      (∀ target ∈ project.targetsIn world, place target.path ≠ place project.ledgerFile) →
      SeenThrough Measured (project.contextIn world options.force)
        (loadedIn world project.ledgerFile) (project.targetsIn world) world →
      (world.run (run options)).1.summary = .ok summary →
      result ∈ summary.targets → result.outcome = .failed message →
      LeftIntact world options project result := by
  refine ⟨fun h => ?template, fun h => ?ledger, fun h => ?way⟩
  case template =>
    obtain ⟨hfound, hup, hledger, hleads, hmeasured, hok, hturn, hplace, hnone, hfile⟩ :=
      evaluated_meeting
    obtain ⟨summary, result, message, hsummary, hresult, -, hfailed⟩ :=
      fails_of_turn hfound hok hturn
    exact not_leftIntact_of_file (fun target htarget _ => hplace target htarget) hnone hfile
      (h _ _ _ _ _ _ hfound hup hledger (.inl hleads) hmeasured hsummary hresult hfailed)
  case ledger =>
    obtain ⟨hfound, hup, hleads, hmeasured, hok, hturn, hplace, hnone, hfile⟩ := evaluated_ledger
    obtain ⟨summary, result, message, hsummary, hresult, hlanguage, hfailed⟩ :=
      fails_of_turn hfound hok hturn
    exact not_leftIntact_of_file (fun target htarget hsame => hplace target htarget
      (hsame.trans hlanguage)) hnone hfile
      (h _ _ _ _ _ _ hfound hup (.inl hleads) hmeasured hsummary hresult hfailed)
  case way =>
    obtain ⟨hfound, hup, hledger, hmeasured, hok, hturn, -⟩ := evaluated_detour
    obtain ⟨summary, result, message, hsummary, hresult, hlanguage, hfailed⟩ :=
      fails_of_turn hfound hok hturn
    exact not_leftIntact_detour hlanguage
      (h _ _ _ _ _ _ hfound hup hledger hmeasured hsummary hresult hfailed)

end KeysetBundle.Build
