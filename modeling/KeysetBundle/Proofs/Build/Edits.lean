import KeysetBundle.Proofs.Build.Books

/-!
# Freshness under edits

A project is built again and again while its files are edited.  The settings
stay the same, artifacts and the ledger may be removed but are not written by
anyone else, and a file is determined by its fingerprint.  Then a target that
is reported to be up to date is so: its bundle can be made from the files as
they are, and the artifact holds the text of that bundle.

Main results.

- `EditedRun.books`: the books are kept all the time.
- `EditedRun.upToDate`: what a report that a target is up to date means.
-/

namespace KeysetBundle.Build

open KeysetBundle.Bundle (bundleIn classIn inWorld)
open CommandLine (BuildOptions)
open Context (Ending)
open Files
open Freshness
open KeysetBundle.Path (piecesOf)
open Report (Outcome TargetResult)
open TargetName (fillBase)

/-! ## Runs with edits -/

/-- An edit leaves the artifacts and the ledger of a project as they are, or removes them. All else
is free. -/
def Edited (project : Project) (base : String) (before after : FileTree) : Prop :=
  ∀ location, (location = place project.ledgerFile ∨
      ∃ target ∈ project.targets base, location = place target.path) →
    after.get? location = before.get? location ∨ after.get? location = none

variable {project : Project} {base : String} {input : Location → Prop} {seen : FileTree → Prop}
  {world : World} {options : BuildOptions}

/-- A build that finds a project with its settings, makes its bundles from inputs, and takes its
turns in trees that are seen. -/
structure Steady (project : Project) (input : Location → Prop) (seen : FileTree → Prop)
    (world : World) (options : BuildOptions) : Prop where
  /-- The project is found. -/
  found : projectIn world options = .ok project
  /-- What goes into the bundles. -/
  isInput : ∀ target ∈ project.targetsIn world,
    ∀ path ∈ (project.contextIn world options.force).inputs target.language, input (place path)
  /-- The trees before and between the turns, and after them. -/
  isSeen : SeenThrough seen (project.contextIn world options.force)
    (loadedIn world project.ledgerFile) (project.targetsIn world) world

instance [DecidablePred input] [DecidablePred seen] :
    Decidable (Steady project input seen world options) :=
  decidable_of_iff
    (projectIn world options = .ok project ∧
      (∀ target ∈ project.targetsIn world,
        ∀ path ∈ (project.contextIn world options.force).inputs target.language,
          input (place path)) ∧
      SeenThrough seen (project.contextIn world options.force)
        (loadedIn world project.ledgerFile) (project.targetsIn world) world)
    ⟨fun ⟨hfound, hinput, hseen⟩ => ⟨hfound, hinput, hseen⟩,
      fun ⟨hfound, hinput, hseen⟩ => ⟨hfound, hinput, hseen⟩⟩

/-- There is no file in the place of the ledger. -/
def Unwritten (project : Project) (tree : FileTree) : Prop :=
  ∀ bytes mtime, tree.get? (place project.ledgerFile) ≠ some (.file bytes mtime)

/-- The worlds to which builds of a project and edits lead. At the start there is no ledger. -/
inductive EditedRun (project : Project) (base : String) (input : Location → Prop)
    (seen : FileTree → Prop) : World → Prop
  /-- The start. -/
  | start {world : World} (hledger : Unwritten project world.tree) :
    EditedRun project base input seen world
  /-- An edit. Working directory, clock and module cache are free too. -/
  | edit {before after : World} (h : EditedRun project base input seen before)
    (hedit : Edited project base before.tree after.tree) :
    EditedRun project base input seen after
  /-- A build that does not fail to write its ledger. -/
  | build {world : World} {options : BuildOptions} (h : EditedRun project base input seen world)
    (hsteady : Steady project input seen world options)
    (hsaved : ∀ cause, (world.run (run options)).1.summary ≠ .error (.ledger cause)) :
    EditedRun project base input seen (world.run (run options)).2

/-! ## The layout of a project -/

/-- What no file is for two purposes: artifacts are neither the ledger nor inputs, and their
neighbours are no inputs. -/
structure Apart (project : Project) (base : String) (input : Location → Prop) : Prop where
  /-- Artifacts and ledger. -/
  ledger : ∀ target ∈ project.targets base, place target.path ≠ place project.ledgerFile
  /-- Artifacts, their neighbours, and inputs. -/
  input : ∀ target ∈ project.targets base, ∀ location, input location →
    location ≠ place target.path ∧ location ≠ place (neighbour target.path)

/-- The targets of a project with its ledger. -/
def plans (project : Project) (base : String) (file : Path) (target : Target) : Prop :=
  file = project.ledgerFile ∧ target ∈ project.targets base

/-- The inputs that are not the ledger. -/
def source (project : Project) (input : Location → Prop) (location : Location) : Prop :=
  input location ∧ location ≠ place project.ledgerFile

theorem layout_of_usable (h : project.Usable)
    (hup : ".." ∉ piecesOf (fillBase base.toList project.config.target.toList))
    (hapart : Apart project base input) :
    Layout (plans project base) (source project input) := by
  constructor
  · rintro file target ⟨rfl, htarget⟩
    exact ⟨h.isAbsolute_ledgerFile, h.isAbsolute_target htarget⟩
  · rintro file target ⟨-, htarget⟩
    exact h.isRead htarget
  · rintro file target file' target' ⟨rfl, htarget⟩ ⟨rfl, htarget'⟩ hplace
    rw [h.eq_of_place hup htarget htarget' hplace]
    exact ⟨rfl, rfl⟩
  · rintro file target file' target' ⟨rfl, -⟩ ⟨-, htarget'⟩
    exact ⟨(hapart.ledger _ htarget').symm, h.ledger_apart (h.isAbsolute_target htarget')⟩
  · rintro location file target ⟨hinput, hledger⟩ ⟨rfl, htarget⟩
    obtain ⟨hplace, hspare⟩ := hapart.input _ htarget _ hinput
    exact ⟨hplace, hspare, hledger⟩
  · rintro file target file' target' ⟨-, htarget⟩ ⟨-, htarget'⟩ hplace
    exact absurd hplace (h.neighbour_apart htarget htarget')

/-- A keyset file is no ledger. -/
theorem source_ne_ledger (h : project.Usable) {context : Context} {language : Language}
    {path : Path} (hscanned : ∀ dir ∈ context.dirs, dir.IsScanned) (hread : language.IsRead)
    (hpath : path ∈ (context.recipe language).sources) :
    place path ≠ place project.ledgerFile := by
  obtain ⟨steps, habsolute, hsteps⟩ := Context.steps_of_mem_sources hscanned hread hpath
  rw [place_eq habsolute, hsteps, List.foldl_append, h.place_ledgerFile]
  intro heq
  have hlast := (List.append_inj' heq rfl).2
  have hends := congrArg (fun text => text.toList.getLast?) (List.cons.inj hlast).1
  have hscript : (".js" : String).toList.getLast? = some 's' := by decide
  rw [Language.keysetFileName, String.toList_append, List.getLast?_append, hscript,
    Option.some_or] at hends
  exact absurd hends (by decide)

/-! ## Keeping the books -/

theorem ledgerIn_of_unwritten {tree : FileTree} (h : Unwritten project tree) :
    ledgerIn tree project.ledgerFile = .empty := by
  unfold ledgerIn ledgerOf
  split
  · rename_i bytes mtime hentry
    exact absurd hentry (h bytes mtime)
  · rfl

/-- What a steady build starts from, unless the runtime class is the ledger. -/
theorem Steady.start {made : Path → Option Language} (h : Steady project input seen world options)
    (hbase : project.config.base = some base)
    (hup : ".." ∉ piecesOf (fillBase base.toList project.config.target.toList))
    (hdetermined : ∀ location, input location → Determined seen location)
    (hapart : Apart project base input)
    (hruntime : ∀ file, (project.config.runtime project.root).file? = some file →
      place file ≠ place project.ledgerFile)
    (hbooks : Books (plans project base) (source project input) seen made world.tree) :
    Start (plans project base) (source project input) seen made world project options.force := by
  have husable := Project.usable_of_projectIn h.found
  have htargets : project.targetsIn world = project.targets base := by
    rw [Project.targetsIn, Project.baseIn_eq world hbase]
  refine ⟨layout_of_usable husable hup hapart, ?_, husable.isAbsolute_ledgerFile, ?_,
    h.isSeen, hbooks⟩
  · rintro location ⟨hinput, -⟩
    exact hdetermined location hinput
  · apply Course.of_usable husable
    · intro target htarget
      rw [htargets] at htarget
      exact ⟨rfl, htarget⟩
    · intro target htarget path hpath
      refine ⟨h.isInput target htarget path hpath, ?_⟩
      rcases List.mem_append.1 hpath with hfile | hsource
      · exact hruntime path (Option.mem_toList.1 hfile)
      · exact source_ne_ledger husable (fun dir => Project.isScanned_of_mem husable.isAbsolute)
          (husable.isRead htarget) hsource

theorem saved_of_summary (hfound : projectIn world options = .ok project)
    (hsaved : ∀ cause, (world.run (run options)).1.summary ≠ .error (.ledger cause)) :
    (project.savedIn world options.force).1 = .ok () := by
  rw [run_of_projectIn hfound] at hsaved
  unfold Project.summaryIn at hsaved
  generalize project.savedIn world options.force = reply at hsaved ⊢
  obtain ⟨result, after⟩ := reply
  cases result with
  | error cause => exact absurd rfl (hsaved cause)
  | ok saved => rfl

/-- An edit does not disturb the books. -/
theorem Books.edit {made : Path → Option Language} {before after : FileTree} (h : project.Usable)
    (hup : ".." ∉ piecesOf (fillBase base.toList project.config.target.toList))
    (hbooks : Books (plans project base) (source project input) seen made before)
    (hedit : Edited project base before after) :
    Books (plans project base) (source project input) seen made after := by
  rintro file target record ⟨rfl, htarget⟩ hrecord
  have hstored : (ledgerIn before project.ledgerFile).get? target.path = some record := by
    unfold ledgerIn at hrecord ⊢
    rcases hedit _ (.inl rfl) with hsame | hnone
    · rw [hsame] at hrecord
      exact hrecord
    · rw [hnone] at hrecord
      cases hrecord
  have haccounted := hbooks _ target record ⟨rfl, htarget⟩ hstored
  rcases hedit _ (.inr ⟨target, htarget, rfl⟩) with hsame | hnone
  · exact haccounted.of_same hsame
  · obtain ⟨language, hmade, hfile, text, horigin, hnotOnWay, -⟩ := haccounted
    refine ⟨language, hmade, hfile, text, horigin, hnotOnWay, .inr ⟨hnone, ?_⟩⟩
    -- nothing takes the place of an artifact that was removed
    rintro file' other ⟨-, hother⟩ hway
    exact hnotOnWay (h.onWay_of_target hup hother htarget hway)

/-- **The books are kept all the time.** -/
theorem EditedRun.books (husable : project.Usable) (hbase : project.config.base = some base)
    (hup : ".." ∉ piecesOf (fillBase base.toList project.config.target.toList))
    (hdetermined : ∀ location, input location → Determined seen location)
    (hapart : Apart project base input)
    (hruntime : ∀ file, (project.config.runtime project.root).file? = some file →
      place file ≠ place project.ledgerFile)
    (h : EditedRun project base input seen world) :
    ∃ made, Books (plans project base) (source project input) seen made world.tree := by
  induction h with
  | start hledger =>
      refine ⟨fun _ => none, ?_⟩
      rintro file target record ⟨rfl, -⟩ hrecord
      rw [ledgerIn_of_unwritten hledger] at hrecord
      cases hrecord
  | edit h hedit ih =>
      obtain ⟨made, hbooks⟩ := ih
      exact ⟨made, hbooks.edit husable hup hedit⟩
  | build h hsteady hsaved ih =>
      obtain ⟨made, hbooks⟩ := ih
      have hstart := hsteady.start hbase hup hdetermined hapart hruntime hbooks
      have hkept := Books.saved hstart (saved_of_summary hsteady.found hsaved)
      rw [run_of_projectIn hsteady.found]
      exact ⟨_, hkept⟩

/-! ## A runtime class in the ledger -/

/-- Nothing is built if the runtime class is to be found where there is no file. -/
theorem not_isBuilt_of_no_class {context : Context} {target : Target} {old record : Option Record}
    {outcome : Outcome} {tree : FileTree} {file : Path} (habsolute : file.isAbsolute)
    (hruntime : context.runtime = .file file)
    (hnone : ∀ bytes mtime, world.tree.get? (place file) ≠ some (.file bytes mtime))
    (hending : Ending context target old world (outcome, record) tree) : ¬isBuilt outcome := by
  intro hbuilt
  obtain ⟨bundle, hbundle⟩ := makes_of_ending hending hbuilt
  obtain ⟨classSource, -, hclass, -⟩ := Bundle.bundleIn_eq_ok.1 hbundle
  change classIn (inWorld world) context.runtime = _ at hclass
  rw [hruntime] at hclass
  obtain ⟨-, bytes, mtime, hentry, -⟩ :=
    (readText_eq_ok habsolute).1 (Bundle.classIn_file.1 hclass)
  exact hnone bytes mtime hentry

/-- If the runtime class is to be found in the ledger, a build without a ledger can make nothing and
finds nothing up to date. -/
theorem turns_of_unwritten (husable : project.Usable) {force : Bool} {file : Path}
    (hruntime : project.config.runtime project.root = .file file)
    (hplace : place file = place project.ledgerFile)
    (hledger : Unwritten project world.tree) :
    Unwritten project (project.turnsIn world force).2.tree ∧
      ∀ turn ∈ (project.turnsIn world force).1, turn.2.2 = none ∧ turn.2.1 ≠ .upToDate := by
  have hnone : ∀ path : Path, (loadedIn world project.ledgerFile).get? path = none := by
    intro path
    cases hfound : (loadedIn world project.ledgerFile).get? path with
    | none => rfl
    | some record =>
        have hstored := get?_loadedIn husable.isAbsolute_ledgerFile hfound
        rw [ledgerIn_of_unwritten hledger] at hstored
        cases hstored
  have habsolute : file.isAbsolute := by
    have hmem : file ∈ (project.contextIn world force).inputs .all := by
      refine List.mem_append_left _ (Option.mem_toList.2 ?_)
      exact Artifact.RuntimeSource.file?_eq_some.2 hruntime
    exact isAbsolute_inputs husable hmem
  unfold Project.turnsIn
  refine takeTurns_induct (P := fun state => Unwritten project state.tree)
    (Q := fun turn => turn.2.2 = none ∧ turn.2.1 ≠ .upToDate) (fun target htarget now hnow => ?_)
    hledger
  have hlayers : (project.contextIn world force).compactor = .localized := rfl
  obtain ⟨-, hending⟩ := Context.run_buildTarget now
    ((loadedIn world project.ledgerFile).get? target.path) hlayers
    (husable.isAbsolute_target htarget)
  rw [hnone] at hending ⊢
  generalize now.run ((project.contextIn world force).buildTarget target none) = reply
    at hending ⊢
  obtain ⟨⟨outcome, record⟩, after⟩ := reply
  have hbuilt : ¬isBuilt outcome := by
    refine not_isBuilt_of_no_class habsolute hruntime ?_ hending
    rw [hplace]
    exact hnow
  refine ⟨fun bytes mtime hentry => ?_, record_of_ending hending hbuilt, fun hupToDate => ?_⟩
  · have heffect : SideEffect target.path (place project.ledgerFile) _ _ :=
      sideEffect_of_ending hending fun hbuilt' => absurd hbuilt' hbuilt
    rw [hentry] at heffect
    exact hnow bytes mtime heffect.file
  · obtain ⟨stored, hstored, -⟩ := upToDate_of_ending hending hupToDate
    cases hstored

theorem EditedRun.unwritten (husable : project.Usable) {file : Path}
    (hruntime : project.config.runtime project.root = .file file)
    (hplace : place file = place project.ledgerFile)
    (h : EditedRun project base input seen world) : Unwritten project world.tree := by
  induction h with
  | start hledger => exact hledger
  | edit h hedit ih =>
      intro bytes mtime hentry
      rcases hedit _ (.inl rfl) with hsame | hnone
      · exact ih bytes mtime (hsame ▸ hentry)
      · rw [hnone] at hentry
        cases hentry
  | @build world options h hsteady hsaved ih =>
      obtain ⟨hledger, hturns⟩ : Unwritten project (project.turnsIn world options.force).2.tree ∧
          ∀ turn ∈ (project.turnsIn world options.force).1,
            turn.2.2 = none ∧ turn.2.1 ≠ .upToDate :=
        turns_of_unwritten husable hruntime hplace ih
      rw [run_of_projectIn hsteady.found]
      dsimp only
      rw [Project.savedIn_of_no_records fun turn hturn => (hturns turn hturn).1]
      exact hledger

/-! ## Reports -/

/-- A summary has the results of the turns. -/
theorem targets_of_summary {summary : Report.BuildSummary}
    (hfound : projectIn world options = .ok project)
    (hsummary : (world.run (run options)).1.summary = .ok summary) :
    summary.targets = Project.results (project.contextIn world options.force)
      (project.turnsIn world options.force).1 := by
  rw [run_of_projectIn hfound] at hsummary
  unfold Project.summaryIn at hsummary
  split at hsummary
  · cases hsummary
  · cases hsummary
    rfl

theorem exists_turn {summary : Report.BuildSummary} {result : TargetResult}
    (hfound : projectIn world options = .ok project)
    (hsummary : (world.run (run options)).1.summary = .ok summary)
    (hresult : result ∈ summary.targets) :
    (project.savedIn world options.force).1 = .ok () ∧
      ∃ turn ∈ (project.turnsIn world options.force).1, result = ⟨turn.1.language,
        (project.contextIn world options.force).shown turn.1.path, turn.2.1⟩ := by
  refine ⟨saved_of_summary hfound (by simp [hsummary]), ?_⟩
  rw [targets_of_summary hfound hsummary] at hresult
  obtain ⟨turn, hturn, rfl⟩ := List.mem_map.1 hresult
  exact ⟨turn, hturn, rfl⟩

/-- **Freshness under edits.**  In every run of builds and edits with one project, a target that is
reported to be up to date is one whose bundle can be made from the files as they are, and whose
artifact holds the text of that bundle. The template may go up neither itself nor through the base
name that is put into it. -/
theorem EditedRun.upToDate {before : World} {summary : Report.BuildSummary} {result : TargetResult}
    (hbase : project.config.base = some base)
    (hup : ".." ∉ piecesOf (fillBase base.toList project.config.target.toList))
    (hdetermined : ∀ location, input location → Determined seen location)
    (hapart : Apart project base input)
    (hrun : EditedRun project base input seen before)
    (hsteady : Steady project input seen before options)
    (hsummary : (before.run (run options)).1.summary = .ok summary)
    (hresult : result ∈ summary.targets) (hupToDate : result.outcome = .upToDate) :
    ∃ target ∈ project.targets base, ∃ bundle : Bundle,
      result.language = target.language ∧
      result.path = (project.contextIn before options.force).shown target.path ∧
      ((before.run (run options)).2.run (Bundle.make .localized
        ((project.contextIn before options.force).recipe target.language))).1 = .ok bundle ∧
      (before.run (run options)).2.tree.readText (before.run (run options)).2.current
        target.path = .ok bundle.text := by
  have husable := Project.usable_of_projectIn hsteady.found
  obtain ⟨-, turn, hturn, rfl⟩ := exists_turn hsteady.found hsummary hresult
  rw [run_of_projectIn hsteady.found]
  dsimp only at hupToDate ⊢
  by_cases hledger : ∃ file, project.config.runtime project.root = .file file ∧
      place file = place project.ledgerFile
  · obtain ⟨file, hruntime, hplace⟩ := hledger
    have hturns := (turns_of_unwritten husable hruntime hplace
      (hrun.unwritten husable hruntime hplace)).2 turn hturn
    exact absurd hupToDate hturns.2
  · have hruntime : ∀ file, (project.config.runtime project.root).file? = some file →
        place file ≠ place project.ledgerFile :=
      fun file hfile hplace => hledger ⟨file, Artifact.RuntimeSource.file?_eq_some.1 hfile, hplace⟩
    obtain ⟨made, hbooks⟩ := hrun.books husable hbase hup hdetermined hapart hruntime
    have hstart := hsteady.start hbase hup hdetermined hapart hruntime hbooks
    obtain ⟨text, bundle, language, hread, hbundle, -, ⟨file, -, hmade⟩, htext, -⟩ :=
      hstart.reported hturn hupToDate
    have htarget : turn.1 ∈ project.targets base :=
      (hstart.course.isPlanned _ (hstart.mem_targets hturn)).2
    -- the artifact was made for the only target at its path
    have hsame := husable.eq_of_place hup hmade htarget rfl
    have hlanguage : language = turn.1.language := congrArg Target.language hsame
    obtain ⟨modules, hmake⟩ := Bundle.run_make (project.savedIn before options.force).2 .localized
      ((project.contextIn before options.force).recipe turn.1.language)
    refine ⟨turn.1, htarget, bundle, rfl, rfl, ?_, ?_⟩
    · rw [hmake]
      exact hbundle
    · rw [← htext.2 hlanguage]
      exact hread

/-! ## A build after a build -/

theorem Unwritten.of_isNone {tree : FileTree}
    (h : (tree.get? (place project.ledgerFile)).isNone) : Unwritten project tree := by
  intro bytes mtime hentry
  rw [hentry] at h
  cases h

theorem ne_ledger_of_isOk {summary : Except Failure Report.BuildSummary} (h : summary.isOk)
    (cause : Ledger.SaveFailure) : summary ≠ .error (.ledger cause) := by
  rintro rfl
  cases h

/-- A build without a ledger that makes something and saves its records. -/
structure FirstBuild (project : Project) (world : World) (options : BuildOptions) : Prop where
  /-- The project is found. -/
  found : projectIn world options = .ok project
  /-- There is no ledger. -/
  isNone : (world.tree.get? (place project.ledgerFile)).isNone
  /-- Something is made. -/
  any : (project.turnsIn world options.force).1.any fun turn => turn.2.2.isSome
  /-- The records are saved. -/
  isOk : (world.run (run options)).1.summary.isOk
  /-- The way to the ledger can be gone. -/
  leads : (world.run (run options)).2.tree.Leads project.ledgerFile

instance : Decidable (FirstBuild project world options) :=
  decidable_of_iff
    (projectIn world options = .ok project ∧
      (world.tree.get? (place project.ledgerFile)).isNone ∧
      ((project.turnsIn world options.force).1.any fun turn => turn.2.2.isSome) ∧
      (world.run (run options)).1.summary.isOk ∧
      (world.run (run options)).2.tree.Leads project.ledgerFile)
    ⟨fun ⟨hfound, hnone, hany, hok, hleads⟩ => ⟨hfound, hnone, hany, hok, hleads⟩,
      fun ⟨hfound, hnone, hany, hok, hleads⟩ => ⟨hfound, hnone, hany, hok, hleads⟩⟩

theorem FirstBuild.isAbsolute (h : FirstBuild project world options) :
    project.ledgerFile.isAbsolute :=
  (Project.usable_of_projectIn h.found).isAbsolute_ledgerFile

theorem FirstBuild.unwritten (h : FirstBuild project world options) :
    Unwritten project world.tree := .of_isNone h.isNone

/-- What the next build loads. -/
theorem FirstBuild.loadedIn_run (h : FirstBuild project world options) :
    loadedIn (world.run (run options)).2 project.ledgerFile =
      (Ledger.ofJson? (Project.recordAll (loadedIn world project.ledgerFile)
        (project.turnsIn world options.force).1).toJson).getD .empty := by
  have hsaved := saved_of_summary h.found (ne_ledger_of_isOk h.isOk)
  rw [run_of_projectIn h.found]
  exact Project.loadedIn_savedIn h.isAbsolute h.any hsaved

/-- What a build says that makes nothing. -/
theorem summary_of_no_records (hfound : projectIn world options = .ok project)
    (hnone : (project.turnsIn world options.force).1.all fun turn => turn.2.2.isNone) :
    ∃ summary, (world.run (run options)).1.summary = .ok summary ∧
      summary.targets = Project.results (project.contextIn world options.force)
        (project.turnsIn world options.force).1 := by
  have hsaved := Project.savedIn_of_no_records fun turn hturn =>
    Option.isNone_iff_eq_none.1 (List.all_eq_true.1 hnone turn hturn)
  rw [run_of_projectIn hfound]
  unfold Project.summaryIn
  rw [hsaved]
  exact ⟨_, rfl, rfl⟩

/-- A world with a configuration that sets the base name, and with a runtime class. -/
def worldWith (base : String) : World where
  tree := (FileTree.empty.set [Config.fileName]
    (.file ("\x7b\"base\":\"" ++ base ++ "\"\x7d").toUTF8 0)).set ["r.js"] (.file "f".toUTF8 0)
  current := []
  clock := 1
  modules := .empty

/-! ## A run with an edit -/

/-- A project with a runtime class of its own. -/
def keptProject : Project where
  root := ⟨"/"⟩
  config := { base := some "a", runtimeFile := some "/r.js" }
  languages := [.named "en"]
  configFromFile := true

/-- The options of its builds. -/
def keptOptions : BuildOptions := { (default : BuildOptions) with runtimeFile := some "r.js" }

/-- The world after its first build. -/
def keptBuilt : World := ((worldWith "a").run (run keptOptions)).2

/-- The world after an edit. -/
def keptEdited : World := { keptBuilt with tree := keptBuilt.tree.set ["b"] .folder }

/-- What is said of its artifact then. -/
def keptResult : TargetResult := ⟨.named "en", "a.lang.en.js", .upToDate⟩

/-- The place of the runtime class. -/
def keptInput (location : Location) : Prop := location = ["r.js"]

/-- The runtime class is as it was. -/
def keptSeen (tree : FileTree) : Prop := contentOf <$> tree.get? ["r.js"] = some (some "f".toUTF8)

instance : DecidablePred keptInput := fun location => inferInstanceAs (Decidable (location = _))

instance : DecidablePred keptSeen := fun _ => inferInstanceAs (Decidable (_ = some (some _)))

theorem determined_kept {location : Location} (h : keptInput location) :
    Determined keptSeen location := by
  intro tree other hseen hseen' entry entry' path path' hentry hentry' hsize hmtime
  rw [h] at hentry hentry'
  rw [keptSeen, hentry] at hseen
  rw [keptSeen, hentry'] at hseen'
  exact (Option.some.inj hseen).trans (Option.some.inj hseen').symm

theorem evaluated_kept :
    FirstBuild keptProject (worldWith "a") keptOptions ∧
      Steady keptProject keptInput keptSeen (worldWith "a") keptOptions ∧
      keptEdited.tree.Leads keptProject.ledgerFile ∧ place keptProject.ledgerFile ≠ ["b"] ∧
      ∀ target ∈ keptProject.targets "a", place target.path ≠ place keptProject.ledgerFile ∧
        place target.path ≠ ["b"] ∧ place target.path ≠ ["r.js"] ∧
        place (neighbour target.path) ≠ ["r.js"] := by
  decide +kernel

theorem apart_kept : Apart keptProject "a" keptInput := by
  obtain ⟨-, -, -, -, htargets⟩ := evaluated_kept
  constructor
  · exact fun target htarget => (htargets target htarget).1
  · rintro target htarget location rfl
    obtain ⟨-, -, hplace, hspare⟩ := htargets target htarget
    exact ⟨hplace.symm, hspare.symm⟩

theorem loadedIn_keptEdited : loadedIn keptEdited keptProject.ledgerFile =
    (Ledger.ofJson? (Project.recordAll (loadedIn (worldWith "a") keptProject.ledgerFile)
      (keptProject.turnsIn (worldWith "a") false).1).toJson).getD .empty := by
  obtain ⟨hfirst, -, hleads, hplace, -⟩ := evaluated_kept
  have hsame : loadedIn keptEdited keptProject.ledgerFile =
      loadedIn keptBuilt keptProject.ledgerFile :=
    loadedIn_set hfirst.isAbsolute (by decide) hplace hfirst.leads hleads
  rw [hsame]
  exact hfirst.loadedIn_run

theorem editedRun_kept : EditedRun keptProject "a" keptInput keptSeen keptEdited := by
  obtain ⟨hfirst, hsteady, -, hplace, htargets⟩ := evaluated_kept
  have hbuilt : EditedRun keptProject "a" keptInput keptSeen keptBuilt :=
    (EditedRun.start hfirst.unwritten).build hsteady (ne_ledger_of_isOk hfirst.isOk)
  refine hbuilt.edit fun location hlocation => .inl ?_
  have hne : location ≠ ["b"] := by
    rintro rfl
    rcases hlocation with hledger | ⟨target, htarget, hartifact⟩
    · exact hplace hledger.symm
    · exact (htargets target htarget).2.1 hartifact.symm
  exact (FileTree.get?_set _ (by decide) _ location).trans (if_neg hne)

theorem steady_keptEdited : Steady keptProject keptInput keptSeen keptEdited keptOptions := by
  constructor
  · decide +kernel
  · decide +kernel
  · rw [loadedIn_keptEdited]
    decide +kernel

/-- After a build and an edit that does not matter, the artifact is up to date. -/
theorem EditedRun.upToDate_after_edit :
    (∃ summary, (keptEdited.run (run keptOptions)).1.summary = .ok summary ∧
      keptResult ∈ summary.targets) ∧
    ∃ target ∈ keptProject.targets "a", ∃ bundle : Bundle,
      keptResult.language = target.language ∧
      keptResult.path = (keptProject.contextIn keptEdited keptOptions.force).shown target.path ∧
      ((keptEdited.run (run keptOptions)).2.run (Bundle.make .localized
        ((keptProject.contextIn keptEdited keptOptions.force).recipe target.language))).1 =
          .ok bundle ∧
      (keptEdited.run (run keptOptions)).2.tree.readText
        (keptEdited.run (run keptOptions)).2.current target.path = .ok bundle.text := by
  have hnone : (keptProject.turnsIn keptEdited false).1.all fun turn => turn.2.2.isNone := by
    unfold Project.turnsIn
    rw [loadedIn_keptEdited]
    decide +kernel
  have hmem : keptResult ∈ Project.results (keptProject.contextIn keptEdited false)
      (keptProject.turnsIn keptEdited false).1 := by
    unfold Project.turnsIn
    rw [loadedIn_keptEdited]
    decide +kernel
  obtain ⟨summary, hsummary, htargets⟩ := summary_of_no_records steady_keptEdited.found hnone
  have hresult : keptResult ∈ summary.targets := htargets ▸ hmem
  have hbase : keptProject.config.base = some "a" := rfl
  have hup : ".." ∉ piecesOf (fillBase "a".toList keptProject.config.target.toList) := by
    decide +kernel
  refine ⟨⟨summary, hsummary, hresult⟩, ?_⟩
  exact EditedRun.upToDate hbase hup (fun _ => determined_kept) apart_kept editedRun_kept
    steady_keptEdited hsummary hresult rfl

/-! ## A base name that goes up -/

/-- Two languages, and a base name that makes one file of their artifacts. -/
def risingProject : Project where
  root := ⟨"/"⟩
  config := { langs := ["en", "ru"], target := "\x7blang\x7d/?/x.js", base := some ".." }
  languages := [.named "en", .named "ru"]
  configFromFile := true

/-- The options of its builds. -/
def risingOptions : BuildOptions :=
  { (default : BuildOptions) with langs := ["en", "ru"], target := some "\x7blang\x7d/?/x.js" }

/-- The world after its first build. -/
def risingBuilt : World := ((worldWith "..").run (run risingOptions)).2

/-- What is said of its artifacts then. -/
def risingResult (tag : String) : TargetResult := ⟨.named tag, tag ++ "/../x.js", .upToDate⟩

theorem evaluated_rising :
    FirstBuild risingProject (worldWith "..") risingOptions ∧
      Steady risingProject (fun _ => False) (fun _ => True) (worldWith "..") risingOptions ∧
      Steady risingProject (fun _ => False) (fun _ => True) risingBuilt risingOptions := by
  decide +kernel

theorem loadedIn_risingBuilt : loadedIn risingBuilt risingProject.ledgerFile =
    (Ledger.ofJson? (Project.recordAll (loadedIn (worldWith "..") risingProject.ledgerFile)
      (risingProject.turnsIn (worldWith "..") false).1).toJson).getD .empty :=
  evaluated_rising.1.loadedIn_run

theorem editedRun_rising :
    EditedRun risingProject ".." (fun _ => False) (fun _ => True) risingBuilt := by
  obtain ⟨hfirst, hsteady, -⟩ := evaluated_rising
  exact (EditedRun.start hfirst.unwritten).build hsteady (ne_ledger_of_isOk hfirst.isOk)

theorem steady_risingBuilt :
    Steady risingProject (fun _ => False) (fun _ => True) risingBuilt risingOptions :=
  evaluated_rising.2.2

/-- The artifacts of two languages cannot both be in one file. -/
theorem language_of_one_file {after : World} {context : Context} {language other : Language}
    {path path' : Path} {bundle bundle' : Bundle} (hread : language.IsRead)
    (hread' : other.IsRead) (hempty : (context.recipe language).sources = [])
    (hempty' : (context.recipe other).sources = []) (habsolute : path.isAbsolute)
    (habsolute' : path'.isAbsolute) (hplace : place path = place path')
    (hmake : (after.run (Bundle.make .localized (context.recipe language))).1 = .ok bundle)
    (hmake' : (after.run (Bundle.make .localized (context.recipe other))).1 = .ok bundle')
    (htext : after.tree.readText after.current path = .ok bundle.text)
    (htext' : after.tree.readText after.current path' = .ok bundle'.text) : language = other := by
  obtain ⟨modules, hrun⟩ := Bundle.run_make after .localized (context.recipe language)
  obtain ⟨modules', hrun'⟩ := Bundle.run_make after .localized (context.recipe other)
  obtain ⟨-, bytes, mtime, hentry, hbytes⟩ := (readText_eq_ok habsolute).1 htext
  obtain ⟨-, bytes', mtime', hentry', hbytes'⟩ := (readText_eq_ok habsolute').1 htext'
  rw [hrun] at hmake
  rw [hrun'] at hmake'
  rw [hplace, hentry'] at hentry
  cases hentry
  rw [hbytes'] at hbytes
  exact Context.language_of_text hempty hempty' rfl rfl hread hread' hmake hmake'
    (Option.some.inj hbytes).symm

/-- It does not suffice that the template itself does not go up. -/
theorem EditedRun.not_upToDate_of_template :
    ¬∀ (project : Project) (base : String) (input : Location → Prop) (seen : FileTree → Prop)
        (before : World) (options : BuildOptions) (summary : Report.BuildSummary)
        (result : TargetResult),
      project.config.base = some base →
      ".." ∉ piecesOf project.config.target.toList →
      (∀ location, input location → Determined seen location) →
      Apart project base input →
      EditedRun project base input seen before →
      Steady project input seen before options →
      (before.run (run options)).1.summary = .ok summary →
      result ∈ summary.targets → result.outcome = .upToDate →
      ∃ target ∈ project.targets base, ∃ bundle : Bundle,
        result.language = target.language ∧
        result.path = (project.contextIn before options.force).shown target.path ∧
        ((before.run (run options)).2.run (Bundle.make .localized
          ((project.contextIn before options.force).recipe target.language))).1 = .ok bundle ∧
        (before.run (run options)).2.tree.readText (before.run (run options)).2.current
          target.path = .ok bundle.text := by
  intro h
  have hnone : (risingProject.turnsIn risingBuilt false).1.all fun turn => turn.2.2.isNone := by
    unfold Project.turnsIn
    rw [loadedIn_risingBuilt]
    decide +kernel
  have hmem : ∀ tag ∈ ["en", "ru"], risingResult tag ∈ Project.results
      (risingProject.contextIn risingBuilt false) (risingProject.turnsIn risingBuilt false).1 := by
    unfold Project.turnsIn
    rw [loadedIn_risingBuilt]
    decide +kernel
  obtain ⟨summary, hsummary, htargets⟩ := summary_of_no_records steady_risingBuilt.found hnone
  have hresult : ∀ tag ∈ ["en", "ru"], risingResult tag ∈ summary.targets :=
    fun tag htag => htargets ▸ hmem tag htag
  have hup : ".." ∉ piecesOf risingProject.config.target.toList := by decide +kernel
  have hapart : Apart risingProject ".." fun _ => False := ⟨by decide +kernel, nofun⟩
  have happly := fun result => h _ _ _ _ _ _ _ result rfl hup nofun hapart editedRun_rising
    steady_risingBuilt hsummary
  obtain ⟨target, htarget, bundle, hlanguage, -, hmake, hread⟩ :=
    happly _ (hresult "en" (by decide)) rfl
  obtain ⟨target', htarget', bundle', hlanguage', -, hmake', hread'⟩ :=
    happly _ (hresult "ru" (by decide)) rfl
  -- without keyset files both artifacts are at the same place
  have hempty : ∀ target ∈ risingProject.targets "..",
      ((risingProject.contextIn risingBuilt false).recipe target.language).sources = [] := by
    decide +kernel
  have hplace : ∀ target ∈ risingProject.targets "..",
      target.path.isAbsolute ∧ place target.path = ["x.js"] := by
    decide +kernel
  obtain ⟨habsolute, hfile⟩ := hplace _ htarget
  obtain ⟨habsolute', hfile'⟩ := hplace _ htarget'
  have husable := Project.usable_of_projectIn steady_risingBuilt.found
  have hsame := language_of_one_file (husable.isRead htarget) (husable.isRead htarget')
    (hempty _ htarget) (hempty _ htarget') habsolute habsolute' (hfile.trans hfile'.symm)
    hmake hmake' hread hread'
  rw [← hlanguage, ← hlanguage'] at hsame
  exact absurd hsame (by decide)

end KeysetBundle.Build
