import KeysetBundle.Proofs.Build.Edits

/-!
# Freshness under changed settings

One command after the other builds with settings of its own, and between them
nothing is edited that a bundle is made from: only the settings change.  The
records know the settings that shape a bundle, all but one: the language.  So a
target that is reported to be up to date is so exactly if its artifact was made
last for the language of the target.

This takes for granted that an artifact has one spelling and one ledger in all
commands; where it has two, each spelling has a record of its own.

Main results.

- `SettingsRun.kept`: what all commands keep up.
- `SettingsRun.upToDate_iff`: what a report that a target is up to date means.
-/

namespace KeysetBundle.Build

open KeysetBundle.Bundle (bundleIn inWorld)
open CommandLine (BuildOptions)
open Context (Ending Known)
open Files
open Freshness
open Report (Outcome TargetResult)

/-! ## Inputs that nobody edits -/

/-- The inputs are in a tree as they are in another one, but for folders that were made where
nothing was. -/
def Untouched (input : Location → Prop) (first tree : FileTree) : Prop :=
  ∀ location, input location → tree.get? location = first.get? location ∨
    first.get? location = none ∧ tree.get? location = some .folder

variable {planned : Path → Target → Prop} {input : Location → Prop} {first : FileTree}
  {made : Path → Option Language} {world other : World} {project : Project}
  {options : BuildOptions} {force : Bool} {target : Target}

theorem Untouched.refl (input : Location → Prop) (first : FileTree) :
    Untouched input first first := fun _ _ => .inl rfl

/-- A file that is there was there. -/
theorem Untouched.file {tree : FileTree} {location : Location} {bytes : ByteArray} {mtime : Int}
    (h : Untouched input first tree) (hinput : input location)
    (hfile : tree.get? location = some (.file bytes mtime)) :
    first.get? location = some (.file bytes mtime) := by
  rcases h location hinput with hsame | ⟨-, hfolder⟩
  · rw [← hsame, hfile]
  · rw [hfolder] at hfile
    cases hfile

theorem Untouched.of_same {tree after : FileTree} (h : Untouched input first tree)
    (hsame : ∀ location, input location → after.get? location = tree.get? location) :
    Untouched input first after := by
  intro location hinput
  rw [hsame location hinput]
  exact h location hinput

/-- What nobody edits is determined by its fingerprint. -/
theorem determined_of_untouched {location : Location} (hinput : input location) :
    Determined (Untouched input first) location := by
  intro tree tree' hseen hseen' entry entry' path path' hentry hentry' hsize hmtime
  rcases hseen location hinput with hsame | ⟨hnone, hfolder⟩
  · rcases hseen' location hinput with hsame' | ⟨hnone', -⟩
    · rw [← hsame', hentry', hentry] at hsame
      cases hsame
      rfl
    · rw [hnone', hentry] at hsame
      cases hsame
  · rcases hseen' location hinput with hsame' | ⟨-, hfolder'⟩
    · rw [hnone, hentry'] at hsame'
      cases hsame'
    · rw [hfolder] at hentry
      rw [hfolder'] at hentry'
      cases hentry
      cases hentry'
      rfl

/-- The turn of a target touches no inputs. -/
theorem Untouched.turn {context : Context} {record : Option Record} {file : Path}
    (h : Untouched input first world.tree) (hlayout : Layout planned input)
    (hlayers : context.compactor = .localized) (hplanned : planned file target) :
    Untouched input first (world.run (context.buildTarget target record)).2.tree := by
  obtain ⟨-, hending⟩ :=
    Context.run_buildTarget world record hlayers (hlayout.isAbsolute hplanned).2
  intro location hinput
  obtain ⟨hplace, hspare, -⟩ := hlayout.inputApart hinput hplanned
  have heffect := sideEffect_of_ending hending fun _ => hplace
  have hbefore := h location hinput
  generalize world.tree.get? location = before at heffect hbefore
  generalize (world.run (context.buildTarget target record)).2.tree.get? location = after
    at heffect ⊢
  cases heffect with
  | same => exact hbefore
  | made hway =>
      rcases hbefore with hnone | ⟨-, hfolder⟩
      · exact .inr ⟨hnone.symm, rfl⟩
      · cases hfolder
  | removed hneighbour => exact absurd hneighbour hspare

/-- Where the inputs are the same, so is what is made from them. -/
theorem Untouched.bundle_eq {context : Context} {language : Language} {bundle bundle' : Bundle}
    (h : Untouched input first world.tree) (h' : Untouched input first other.tree)
    (hknown : Known input context language)
    (hbundle : bundleIn (inWorld world) .localized (context.recipe language) = .ok bundle)
    (hbundle' : bundleIn (inWorld other) .localized (context.recipe language) = .ok bundle') :
    bundle = bundle' := by
  have hagain : bundleIn (inWorld other) .localized (context.recipe language) = .ok bundle := by
    refine Bundle.bundleIn_of_reads (fun path hpath text hread => ?_) hbundle
    obtain ⟨habsolute, hinput⟩ := hknown.isInput path hpath
    obtain ⟨text', hread'⟩ := Bundle.readText_of_bundleIn hbundle' path hpath
    obtain ⟨-, bytes, mtime, hentry, htext⟩ := (readText_eq_ok habsolute).1 hread
    obtain ⟨-, bytes', mtime', hentry', htext'⟩ := (readText_eq_ok habsolute).1 hread'
    have hfile := h.file hinput hentry
    rw [h'.file hinput hentry'] at hfile
    cases hfile
    rw [htext] at htext'
    cases htext'
    exact hread'
  rw [hbundle'] at hagain
  cases hagain
  rfl

/-! ## Commands -/

/-- A command that finds a project, with targets and inputs that are foreseen. -/
structure Foreseen (planned : Path → Target → Prop) (input : Location → Prop) (world : World)
    (options : BuildOptions) (project : Project) : Prop where
  /-- The project is found. -/
  found : projectIn world options = .ok project
  /-- What is made. -/
  isPlanned : ∀ target ∈ project.targetsIn world, planned project.ledgerFile target
  /-- What goes into the bundles. -/
  isInput : ∀ target ∈ project.targetsIn world,
    ∀ path ∈ (project.contextIn world options.force).inputs target.language, input (place path)

instance [∀ file, DecidablePred (planned file)] [DecidablePred input] :
    Decidable (Foreseen planned input world options project) :=
  decidable_of_iff
    (projectIn world options = .ok project ∧
      (∀ target ∈ project.targetsIn world, planned project.ledgerFile target) ∧
      ∀ target ∈ project.targetsIn world,
        ∀ path ∈ (project.contextIn world options.force).inputs target.language,
          input (place path))
    ⟨fun ⟨hfound, hplanned, hinput⟩ => ⟨hfound, hplanned, hinput⟩,
      fun ⟨hfound, hplanned, hinput⟩ => ⟨hfound, hplanned, hinput⟩⟩

/-- An edit of the settings. It leaves artifacts, ledgers and inputs as they are, and all
folders. -/
structure Resettled (planned : Path → Target → Prop) (input : Location → Prop)
    (before after : FileTree) : Prop where
  /-- The folders. -/
  folder : ∀ location, before.get? location = some .folder → after.get? location = some .folder
  /-- The artifacts and the ledgers. -/
  planned : ∀ file target, planned file target →
    after.get? (place file) = before.get? (place file) ∧
      after.get? (place target.path) = before.get? (place target.path)
  /-- The inputs. -/
  input : ∀ location, input location → after.get? location = before.get? location

/-- To edit a file that is neither an artifact nor a ledger nor an input is to edit the
settings. -/
theorem Resettled.of_set {tree : FileTree} {location : Location} {bytes : ByteArray} {mtime : Int}
    (hfolder : tree.get? location ≠ some .folder)
    (hplanned : ∀ file target, planned file target →
      place file ≠ location ∧ place target.path ≠ location)
    (hinput : ¬input location) :
    Resettled planned input tree (tree.set location (.file bytes mtime)) := by
  have hne : location ≠ [] := by
    rintro rfl
    exact hfolder rfl
  have hget := FileTree.get?_set tree hne (.file bytes mtime)
  constructor
  · intro other hother
    have hdiffer : other ≠ location := by
      rintro rfl
      exact hfolder hother
    rw [hget, if_neg hdiffer, hother]
  · intro file target hplan
    obtain ⟨hledger, hartifact⟩ := hplanned file target hplan
    rw [hget, if_neg hledger, hget, if_neg hartifact]
    exact ⟨rfl, rfl⟩
  · intro other hother
    have hdiffer : other ≠ location := by
      rintro rfl
      exact hinput hother
    rw [hget, if_neg hdiffer]

/-- The worlds to which commands lead whose settings are edited in between, and for which language
each artifact was made last. At the start there are no ledgers. -/
inductive SettingsRun (planned : Path → Target → Prop) (input : Location → Prop) :
    World → (Path → Option Language) → Prop
  /-- The start. -/
  | start {world : World}
    (hledger : ∀ file target, planned file target → ∀ bytes mtime,
      world.tree.get? (place file) ≠ some (.file bytes mtime)) :
    SettingsRun planned input world fun _ => none
  /-- An edit. Working directory, clock and module cache are free. -/
  | edit {before after : World} {made : Path → Option Language}
    (h : SettingsRun planned input before made)
    (hedit : Resettled planned input before.tree after.tree) :
    SettingsRun planned input after made
  /-- A command without a project. -/
  | refused {world : World} {made : Path → Option Language} {options : BuildOptions}
    {failure : Failure} (h : SettingsRun planned input world made)
    (hfound : projectIn world options = .error failure) :
    SettingsRun planned input (world.run (run options)).2 made
  /-- A command with a project. -/
  | build {world : World} {made : Path → Option Language} {options : BuildOptions}
    {project : Project} (h : SettingsRun planned input world made)
    (hforeseen : Foreseen planned input world options project) :
    SettingsRun planned input (world.run (run options)).2
      (makers made (project.turnsIn world options.force).1)

/-- What a command starts from, with or without force. -/
theorem Foreseen.start (h : Foreseen planned input world options project)
    (hlayout : Layout planned input) (huntouched : Untouched input first world.tree)
    (hbooks : Books planned input (Untouched input first) made world.tree) (force : Bool) :
    Start planned input (Untouched input first) made world project force := by
  have husable := Project.usable_of_projectIn h.found
  have hcourse : Course planned input project.ledgerFile (project.contextIn world force)
      (project.targetsIn world) := .of_usable husable h.isPlanned h.isInput
  refine ⟨hlayout, fun location hinput => determined_of_untouched hinput,
    husable.isAbsolute_ledgerFile, hcourse, ?_, hbooks⟩
  refine SeenThrough.of_step huntouched fun target htarget now hnow => ?_
  exact hnow.turn hlayout hcourse.layers (h.isPlanned target htarget)

/-- A command touches no inputs. -/
theorem Start.untouched (h : Start planned input (Untouched input first) made world project force)
    (huntouched : Untouched input first world.tree) :
    Untouched input first (project.savedIn world force).2.tree := by
  have hturns : Untouched input first (project.turnsIn world force).2.tree := by
    refine (takeTurns_induct (P := fun now => Untouched input first now.tree) (Q := fun _ => True)
      (fun target htarget now hnow => ⟨?_, trivial⟩) huntouched).1
    exact hnow.turn h.layout h.course.layers (h.course.isPlanned target htarget)
  refine hturns.of_same fun location hinput => ?_
  refine Project.get?_savedIn_of_turns h.isAbsolute fun turn hturn => ?_
  exact (h.layout.inputApart hinput (h.course.isPlanned _ (h.mem_targets hturn))).2.2

/-! ## What all commands keep up -/

/-- What is kept up: the inputs, the books, and ledgers that can be written. -/
structure Kept (planned : Path → Target → Prop) (input : Location → Prop) (first : FileTree)
    (made : Path → Option Language) (tree : FileTree) : Prop where
  /-- The inputs. -/
  untouched : Untouched input first tree
  /-- The books. -/
  books : Books planned input (Untouched input first) made tree
  /-- The ledgers. -/
  ledgers : LedgersLead planned tree

theorem Kept.edit {before after : FileTree} (h : Kept planned input first made before)
    (hedit : Resettled planned input before after) : Kept planned input first made after := by
  have hledger : ∀ file target, planned file target →
      ledgerIn after file = ledgerIn before file := by
    intro file target hplanned
    unfold ledgerIn
    rw [(hedit.planned file target hplanned).1]
  constructor
  · exact h.untouched.of_same hedit.input
  · intro file target record hplanned hrecord
    rw [hledger file target hplanned] at hrecord
    exact (h.books file target record hplanned hrecord).of_same
      (hedit.planned file target hplanned).2
  · intro file target record hplanned hrecord
    rw [hledger file target hplanned] at hrecord
    exact (h.ledgers file target record hplanned hrecord).mono hedit.folder

theorem Kept.build (h : Kept planned input first made world.tree) (hlayout : Layout planned input)
    (hforeseen : Foreseen planned input world options project) :
    Kept planned input first (makers made (project.turnsIn world options.force).1)
      (world.run (run options)).2.tree := by
  have hstart := hforeseen.start hlayout h.untouched h.books options.force
  rw [run_of_projectIn hforeseen.found]
  constructor
  · exact hstart.untouched h.untouched
  · exact Books.built hstart (Project.usable_of_projectIn hforeseen.found) h.ledgers
  · exact LedgersLead.built hstart h.ledgers

/-- **All commands keep up** what the first one finds. By induction on the run. -/
theorem SettingsRun.kept (hlayout : Layout planned input)
    (h : SettingsRun planned input world made) :
    ∃ first, Kept planned input first made world.tree := by
  induction h with
  | @start world hledger =>
      have hnone : ∀ file target record, planned file target →
          (ledgerIn world.tree file).get? target.path ≠ some record := by
        intro file target record hplanned hrecord
        unfold ledgerIn ledgerOf at hrecord
        split at hrecord
        · rename_i bytes mtime hentry
          exact hledger file target hplanned bytes mtime hentry
        · cases hrecord
      refine ⟨world.tree, .refl _ _, ?_, ?_⟩
      · intro file target record hplanned hrecord
        exact absurd hrecord (hnone file target record hplanned)
      · intro file target record hplanned hrecord
        exact absurd hrecord (hnone file target record hplanned)
  | edit h hedit ih =>
      obtain ⟨first, hkept⟩ := ih
      exact ⟨first, hkept.edit hedit⟩
  | refused h hfound ih =>
      rw [run_of_error hfound]
      exact ih
  | build h hforeseen ih =>
      obtain ⟨first, hkept⟩ := ih
      exact ⟨first, hkept.build hlayout hforeseen⟩

/-- A result for the language of a target is that of its turn. -/
theorem Start.exists_turn_of_language {seen : FileTree → Prop} {summary : Report.BuildSummary}
    {result : TargetResult} (h : Start planned input seen made world project options.force)
    (hfound : projectIn world options = .ok project)
    (hsummary : (world.run (run options)).1.summary = .ok summary)
    (hresult : result ∈ summary.targets) (htarget : target ∈ project.targetsIn world)
    (hlanguage : result.language = target.language) :
    ∃ turn ∈ (project.turnsIn world options.force).1, turn.1 = target ∧
      turn.2.1 = result.outcome := by
  obtain ⟨-, turn, hturn, rfl⟩ := exists_turn hfound hsummary hresult
  exact ⟨turn, hturn, Project.eq_of_language (h.mem_targets hturn) htarget hlanguage, rfl⟩

/-! ## Commands with force -/

/-- The options of the same command with force. -/
def forced (options : BuildOptions) : BuildOptions := { options with force := true }

/-- The text that a command with force writes for a target, if it builds it. -/
def ForcedText (world : World) (options : BuildOptions) (target : Target) (text : String) : Prop :=
  ∀ summary result, (world.run (run (forced options))).1.summary = .ok summary →
    result ∈ summary.targets → result.language = target.language → isBuilt result.outcome →
      (world.run (run (forced options))).2.tree.readText
        (world.run (run (forced options))).2.current target.path = .ok text

/-- With force the text of the bundle is written. -/
theorem Foreseen.forcedText {after : World} {bundle : Bundle}
    (h : Foreseen planned input world options project) (hlayout : Layout planned input)
    (hkept : Kept planned input first made world.tree)
    (htarget : target ∈ project.targetsIn world) (hafter : Untouched input first after.tree)
    (hbundle : bundleIn (inWorld after) .localized
      ((project.contextIn world options.force).recipe target.language) = .ok bundle) :
    ForcedText world options target bundle.text := by
  intro summary result hsummary hresult hlanguage hbuilt
  have hfound : projectIn world (forced options) = .ok project := h.found
  have hstart := h.start hlayout hkept.untouched hkept.books true
  obtain ⟨turn, hturn, rfl, houtcome⟩ :=
    hstart.exists_turn_of_language hfound hsummary hresult htarget hlanguage
  rw [← houtcome] at hbuilt
  obtain ⟨bundle', hbundle', hread⟩ := hstart.filled hturn hbuilt
  have heq := hafter.bundle_eq (hstart.untouched hkept.untouched)
    (hstart.course.isKnown _ htarget) hbundle hbundle'
  rw [heq, run_of_projectIn hfound]
  exact hread

/-! ## Reports -/

/-- An artifact that is reported to be up to date and holds the text of its bundle was made for the
language of the target. -/
theorem SettingsRun.made_of_text {before : World} {summary : Report.BuildSummary}
    {result : TargetResult} {bundle : Bundle} (hrun : SettingsRun planned input before made)
    (hlayout : Layout planned input)
    (hforeseen : Foreseen planned input before options project)
    (hsummary : (before.run (run options)).1.summary = .ok summary)
    (hresult : result ∈ summary.targets) (hupToDate : result.outcome = .upToDate)
    (htarget : target ∈ project.targetsIn before) (hlanguage : result.language = target.language)
    (hmake : ((before.run (run options)).2.run (Bundle.make .localized
      ((project.contextIn before options.force).recipe target.language))).1 = .ok bundle)
    (hread : (before.run (run options)).2.tree.readText (before.run (run options)).2.current
      target.path = .ok bundle.text) :
    made target.path = some target.language := by
  obtain ⟨first, hkept⟩ := hrun.kept hlayout
  have hstart := hforeseen.start hlayout hkept.untouched hkept.books options.force
  obtain ⟨turn, hturn, rfl, houtcome⟩ :=
    hstart.exists_turn_of_language hforeseen.found hsummary hresult htarget hlanguage
  obtain ⟨text, bundle', language, hread', hbundle, hmade, -, htext, -⟩ :=
    hstart.reported hturn (houtcome.trans hupToDate)
  obtain ⟨modules, hrun⟩ := Bundle.run_make (project.savedIn before options.force).2 .localized
    ((project.contextIn before options.force).recipe turn.1.language)
  rw [run_of_projectIn hforeseen.found] at hmake hread
  rw [hrun, hbundle] at hmake
  cases hmake
  have hheld : text = bundle.text := Except.ok.inj (hread'.symm.trans hread)
  rw [hmade, htext.1 hheld]

/-- **Freshness under changed settings.**  In every run of commands with settings of their own, a
target that is reported to be up to date is one whose bundle can be made, and the artifact holds the
text of that bundle, which the same command writes with force, exactly if it was made last for the
language of the target. It was if there are any keyset files. -/
theorem SettingsRun.upToDate_iff {before : World} {summary : Report.BuildSummary}
    {result : TargetResult} (hlayout : Layout planned input)
    (hrun : SettingsRun planned input before made)
    (hforeseen : Foreseen planned input before options project)
    (hsummary : (before.run (run options)).1.summary = .ok summary)
    (hresult : result ∈ summary.targets) (hupToDate : result.outcome = .upToDate) :
    ∃ target ∈ project.targetsIn before, ∃ (bundle : Bundle) (text : String) (language : Language),
      result.language = target.language ∧
      result.path = (project.contextIn before options.force).shown target.path ∧
      ((before.run (run options)).2.run (Bundle.make .localized
        ((project.contextIn before options.force).recipe target.language))).1 = .ok bundle ∧
      ForcedText before options target bundle.text ∧
      (before.run (run options)).2.tree.readText (before.run (run options)).2.current
        target.path = .ok text ∧
      made target.path = some language ∧
      (text = bundle.text ↔ language = target.language) ∧
      (bundle.sources ≠ [] → language = target.language) := by
  obtain ⟨first, hkept⟩ := hrun.kept hlayout
  have hstart := hforeseen.start hlayout hkept.untouched hkept.books options.force
  obtain ⟨-, turn, hturn, rfl⟩ := exists_turn hforeseen.found hsummary hresult
  have htarget := hstart.mem_targets hturn
  obtain ⟨text, bundle, language, hread, hbundle, hmade, -, htext, hsources⟩ :=
    hstart.reported hturn hupToDate
  have hforced := hforeseen.forcedText hlayout hkept htarget (hstart.untouched hkept.untouched)
    hbundle
  obtain ⟨modules, hmake⟩ := Bundle.run_make (project.savedIn before options.force).2 .localized
    ((project.contextIn before options.force).recipe turn.1.language)
  rw [run_of_projectIn hforeseen.found]
  refine ⟨turn.1, htarget, bundle, text, language, rfl, rfl, ?_, hforced, hread, hmade, htext,
    hsources⟩
  rw [hmake]
  exact hbundle

/-! ## One file for all languages -/

/-- A project whose bundles all have the same name. -/
def sharedProject (tag base : String) : Project where
  root := ⟨"/"⟩
  config :=
    { langs := [tag], target := "bundle.js", base := some base, runtimeFile := some "/r.js" }
  languages := [.named tag]
  configFromFile := true

/-- The options of its commands. -/
def sharedOptions (tag : String) : BuildOptions :=
  { (default : BuildOptions) with
    langs := [tag], target := some "bundle.js", runtimeFile := some "r.js" }

/-- The ledger of its commands. -/
def sharedLedger : Path := (sharedProject "en" "a").ledgerFile

theorem ledgerFile_shared (tag base : String) :
    (sharedProject tag base).ledgerFile = sharedLedger := rfl

/-- The target for a language. -/
def sharedTarget (tag : String) : Target := ⟨.named tag, ⟨"/bundle.js"⟩⟩

/-- What is made, for two languages. -/
def sharedPlan (file : Path) (target : Target) : Prop :=
  file = sharedLedger ∧ target ∈ ["en", "ru"].map sharedTarget

instance (file : Path) : DecidablePred (sharedPlan file) :=
  fun _ => inferInstanceAs (Decidable (_ ∧ _))

theorem layout_shared : Layout sharedPlan keptInput := by
  have hfacts : (∀ target ∈ ["en", "ru"].map sharedTarget, target.path = ⟨"/bundle.js"⟩ ∧
      Language.parse target.language.tag = .ok target.language) ∧
      (Path.mk "/bundle.js").isAbsolute ∧ sharedLedger.isAbsolute ∧
      place sharedLedger = [".langjs-cache.json"] ∧ place ⟨"/bundle.js"⟩ = ["bundle.js"] ∧
      place (neighbour ⟨"/bundle.js"⟩) = ["bundle.js.tmp"] := by
    decide +kernel
  obtain ⟨htargets, habsolute, habsolute', hledger, hplace, hspare⟩ := hfacts
  constructor
  · rintro file target ⟨rfl, htarget⟩
    rw [(htargets target htarget).1]
    exact ⟨habsolute', habsolute⟩
  · rintro file target ⟨-, htarget⟩
    exact ⟨_, (htargets target htarget).2⟩
  · rintro file target file' target' ⟨rfl, htarget⟩ ⟨rfl, htarget'⟩ -
    rw [(htargets target htarget).1, (htargets target' htarget').1]
    exact ⟨rfl, rfl⟩
  · rintro file target file' target' ⟨rfl, -⟩ ⟨-, htarget'⟩
    rw [(htargets target' htarget').1, hledger, hplace, hspare]
    decide
  · rintro location file target rfl ⟨rfl, htarget⟩
    rw [(htargets target htarget).1, hledger, hplace, hspare]
    decide
  · rintro file target file' target' ⟨-, htarget⟩ ⟨-, htarget'⟩ heq
    rw [(htargets target htarget).1, (htargets target' htarget').1, hplace, hspare] at heq
    exact absurd heq (by decide)

/-- The world after the first command. -/
def sharedBuilt : World := ((worldWith "a").run (run (sharedOptions "en"))).2

/-- Who made what then. -/
def sharedMade : Path → Option Language :=
  makers (fun _ => none) ((sharedProject "en" "a").turnsIn (worldWith "a") false).1

/-- The world after an edit of the configuration. -/
def sharedEdited : World :=
  { sharedBuilt with
    tree := sharedBuilt.tree.set [Config.fileName] (.file "\x7b\"base\":\"b\"\x7d".toUTF8 7) }

/-- What is said of the bundle later on. -/
def sharedResult (tag : String) : TargetResult := ⟨.named tag, "bundle.js", .upToDate⟩

theorem evaluated_shared :
    FirstBuild (sharedProject "en" "a") (worldWith "a") (sharedOptions "en") ∧
      Foreseen sharedPlan keptInput (worldWith "a") (sharedOptions "en")
        (sharedProject "en" "a") ∧
      Foreseen sharedPlan keptInput sharedBuilt (sharedOptions "ru") (sharedProject "ru" "a") ∧
      Foreseen sharedPlan keptInput sharedEdited (sharedOptions "en") (sharedProject "en" "b") ∧
      (∀ target ∈ (sharedProject "ru" "a").targetsIn sharedBuilt,
        sharedMade target.path = some (.named "en")) ∧
      (sharedBuilt.tree.get? [Config.fileName]).map Entry.stat = some (.file 12 0) ∧
      sharedEdited.tree.Leads sharedLedger ∧ place sharedLedger ≠ [Config.fileName] ∧
      ∀ target ∈ ["en", "ru"].map sharedTarget, place target.path ≠ [Config.fileName] := by
  decide +kernel

theorem settingsRun_sharedBuilt : SettingsRun sharedPlan keptInput sharedBuilt sharedMade := by
  obtain ⟨hfirst, hforeseen, -⟩ := evaluated_shared
  refine (SettingsRun.start ?_).build hforeseen
  rintro file target ⟨rfl, -⟩
  exact hfirst.unwritten

theorem settingsRun_sharedEdited : SettingsRun sharedPlan keptInput sharedEdited sharedMade := by
  obtain ⟨-, -, -, -, -, hstat, -, hledger, htargets⟩ := evaluated_shared
  refine settingsRun_sharedBuilt.edit (.of_set ?_ ?_ (by decide))
  · intro hfolder
    rw [hfolder] at hstat
    cases hstat
  · rintro file target ⟨rfl, htarget⟩
    exact ⟨hledger, htargets target htarget⟩

theorem loadedIn_sharedBuilt : loadedIn sharedBuilt sharedLedger =
    (Ledger.ofJson? (Project.recordAll (loadedIn (worldWith "a") sharedLedger)
      ((sharedProject "en" "a").turnsIn (worldWith "a") false).1).toJson).getD .empty :=
  evaluated_shared.1.loadedIn_run

theorem loadedIn_sharedEdited :
    loadedIn sharedEdited sharedLedger = loadedIn sharedBuilt sharedLedger := by
  obtain ⟨hfirst, -, -, -, -, -, hleads, hledger, -⟩ := evaluated_shared
  exact loadedIn_set hfirst.isAbsolute (by decide) hledger hfirst.leads hleads

/-- After an edit of settings that do not matter for it, the bundle is up to date. -/
theorem SettingsRun.upToDate_iff_after_edit :
    (∃ summary, (sharedEdited.run (run (sharedOptions "en"))).1.summary = .ok summary ∧
      sharedResult "en" ∈ summary.targets) ∧
    ∃ target ∈ (sharedProject "en" "b").targetsIn sharedEdited,
      ∃ (bundle : Bundle) (text : String) (language : Language),
      (sharedResult "en").language = target.language ∧
      (sharedResult "en").path =
        ((sharedProject "en" "b").contextIn sharedEdited (sharedOptions "en").force).shown
          target.path ∧
      ((sharedEdited.run (run (sharedOptions "en"))).2.run (Bundle.make .localized
        (((sharedProject "en" "b").contextIn sharedEdited (sharedOptions "en").force).recipe
          target.language))).1 = .ok bundle ∧
      ForcedText sharedEdited (sharedOptions "en") target bundle.text ∧
      (sharedEdited.run (run (sharedOptions "en"))).2.tree.readText
        (sharedEdited.run (run (sharedOptions "en"))).2.current target.path = .ok text ∧
      sharedMade target.path = some language ∧
      (text = bundle.text ↔ language = target.language) ∧
      (bundle.sources ≠ [] → language = target.language) := by
  obtain ⟨-, -, -, hforeseen, -⟩ := evaluated_shared
  have hturns : (((sharedProject "en" "b").turnsIn sharedEdited false).1.all
      fun turn => turn.2.2.isNone) ∧ sharedResult "en" ∈ Project.results
        ((sharedProject "en" "b").contextIn sharedEdited false)
        ((sharedProject "en" "b").turnsIn sharedEdited false).1 := by
    unfold Project.turnsIn
    rw [ledgerFile_shared, loadedIn_sharedEdited, loadedIn_sharedBuilt]
    decide +kernel
  obtain ⟨summary, hsummary, htargets⟩ := summary_of_no_records hforeseen.found hturns.1
  have hresult : sharedResult "en" ∈ summary.targets := htargets ▸ hturns.2
  exact ⟨⟨summary, hsummary, hresult⟩, SettingsRun.upToDate_iff layout_shared
    settingsRun_sharedEdited hforeseen hsummary hresult rfl⟩

/-! ## Another language -/

/-- A report may be wrong if the language of an artifact is another one than before. -/
theorem SettingsRun.not_upToDate_of_language :
    ¬∀ (planned : Path → Target → Prop) (input : Location → Prop)
        (made : Path → Option Language) (before : World) (options : BuildOptions)
        (project : Project) (summary : Report.BuildSummary) (result : TargetResult),
      Layout planned input →
      SettingsRun planned input before made →
      Foreseen planned input before options project →
      (before.run (run options)).1.summary = .ok summary →
      result ∈ summary.targets → result.outcome = .upToDate →
      ∃ target ∈ project.targetsIn before, ∃ bundle : Bundle,
        result.language = target.language ∧
        result.path = (project.contextIn before options.force).shown target.path ∧
        ((before.run (run options)).2.run (Bundle.make .localized
          ((project.contextIn before options.force).recipe target.language))).1 = .ok bundle ∧
        (before.run (run options)).2.tree.readText (before.run (run options)).2.current
          target.path = .ok bundle.text := by
  intro h
  obtain ⟨-, -, hforeseen, -, hmade, -⟩ := evaluated_shared
  have hturns : (((sharedProject "ru" "a").turnsIn sharedBuilt false).1.all
      fun turn => turn.2.2.isNone) ∧ sharedResult "ru" ∈ Project.results
        ((sharedProject "ru" "a").contextIn sharedBuilt false)
        ((sharedProject "ru" "a").turnsIn sharedBuilt false).1 := by
    unfold Project.turnsIn
    rw [ledgerFile_shared, loadedIn_sharedBuilt]
    decide +kernel
  obtain ⟨summary, hsummary, htargets⟩ := summary_of_no_records hforeseen.found hturns.1
  have hresult : sharedResult "ru" ∈ summary.targets := htargets ▸ hturns.2
  obtain ⟨target, htarget, bundle, hlanguage, -, hmake, hread⟩ := h _ _ _ _ _ _ _ _ layout_shared
    settingsRun_sharedBuilt hforeseen hsummary hresult rfl
  have hlast := settingsRun_sharedBuilt.made_of_text layout_shared hforeseen hsummary hresult
    rfl htarget hlanguage hmake hread
  rw [← hlanguage, hmade target htarget] at hlast
  exact absurd hlast (by decide)

end KeysetBundle.Build
