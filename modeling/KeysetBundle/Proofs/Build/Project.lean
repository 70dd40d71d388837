import KeysetBundle.Build.Project
import KeysetBundle.Proofs.Build.Target
import KeysetBundle.Proofs.Freshness.Stored
import KeysetBundle.Proofs.Scan

/-!
# The course of a build

A build first looks: it finds its project, scans the levels, and reads the
ledger.  All of this is a function of the world in which it starts.  Then it
takes the targets one by one, and in the end it writes the ledger.

Main results.

- `Project.usable_of_projectIn`: the project that is found has an absolute
  root and a configuration that has been checked.
- `run_of_projectIn`: a build is the course of its targets and the ledger.
-/

namespace KeysetBundle

open CommandLine (BuildOptions)
open Files
open Files.Program
open Freshness
open Report (BuildSummary Outcome)

/-! ## Configurations without a fault -/

namespace Config

/-- What a configuration with these languages has to be. -/
structure Sensible (config : Config) (named : List Language) : Prop where
  /-- The levels can be read. -/
  levels : checkLevels config.levels = .ok ()
  /-- There is a suffix. -/
  suffix : config.dirSuffix.isEmpty = false
  /-- There are tags. -/
  tags : config.langs.isEmpty = false
  /-- Several languages have several names. -/
  names : 1 < named.length → TargetName.hasLanguage config.target

theorem check_eq_ok {config : Config} {named : List Language}
    (h : config.languages = .ok named) : config.check = .ok () ↔ config.Sensible named := by
  unfold check
  rw [h]
  constructor
  · intro hcheck
    obtain ⟨⟨⟩, hlevels, hcheck⟩ := bind_eq_ok.1 hcheck
    dsimp only at hcheck
    split at hcheck
    · cases hcheck
    · rename_i hsuffix
      split at hcheck
      · cases hcheck
      · rename_i htags
        obtain ⟨languages, hsame, hcheck⟩ := bind_eq_ok.1 hcheck
        cases hsame
        split at hcheck
        · cases hcheck
        · rename_i hnames
          refine ⟨hlevels, by simpa using hsuffix, by simpa using htags, fun hmany => ?_⟩
          exact Classical.byContradiction fun hnot => hnames ⟨hmany, by simpa using hnot⟩
  · intro hsensible
    refine bind_eq_ok.2 ⟨(), hsensible.levels, ?_⟩
    have hnames : ¬(1 < named.length ∧ (!TargetName.hasLanguage config.target) = true) :=
      fun ⟨hmany, hnot⟩ => by simp [hsensible.names hmany] at hnot
    simp only [hsensible.suffix, hsensible.tags, Bool.false_eq_true, if_false]
    show (if _ then _ else _) = _
    rw [if_neg hnames]
    rfl

/-! ## Finding the project -/

theorem looks_findFrom (bound : Nat) (dir : Path) : (findFrom bound dir).Looks fun _ => True := by
  induction bound generalizing dir with
  | zero =>
      unfold findFrom
      refine looks_bind (looks_pathExists _) fun here _ => ?_
      cases here with
      | true => exact looks_pure trivial
      | false =>
          refine looks_bind (looks_pathExists _) fun marked _ => ?_
          cases marked <;> exact looks_pure trivial
  | succ bound ih =>
      unfold findFrom
      refine looks_bind (looks_pathExists _) fun here _ => ?_
      cases here with
      | true => exact looks_pure trivial
      | false =>
          refine looks_bind (looks_pathExists _) fun marked _ => ?_
          cases marked with
          | true => exact looks_pure trivial
          | false =>
              cases dir.parent? with
              | none => exact looks_pure trivial
              | some parent => exact ih parent

theorem looks_readFile (file : Path) : (readFile file).Looks fun _ => True := by
  refine looks_bind (looks_readText file) fun read _ => ?_
  cases read with
  | error failure => exact looks_pure trivial
  | ok text =>
      dsimp only
      split
      · exact looks_pure trivial
      · split <;> exact looks_pure trivial

theorem looks_load (dir : Path) : (load dir).Looks fun _ => True := by
  refine looks_bind (looks_findFrom _ dir) fun found _ => ?_
  cases found with
  | none => exact looks_pure trivial
  | some file =>
      refine looks_bind (looks_readFile file) fun read _ => ?_
      cases read <;> exact looks_pure trivial

theorem looks_baseName (config : Config) (root : Path) :
    (config.baseName root).Looks fun base => ∀ given, config.base = some given → base = given := by
  unfold baseName
  cases config.base with
  | some base => exact looks_pure fun given hgiven => Option.some.inj hgiven
  | none => exact looks_bind (looks_request rfl) fun _ _ => looks_pure nofun

end Config

namespace Build

theorem looks_findRoot (options : BuildOptions) (current : Path) :
    (findRoot options current).Looks fun found => ∀ root, found = .ok root → root.isAbsolute := by
  refine looks_bind (looks_request rfl) fun canonical hcanonical => ?_
  cases (canonical : Except Files.Failure Path) with
  | error cause => exact looks_pure nofun
  | ok root =>
      apply looks_pure
      intro found hfound
      cases hfound
      exact hcanonical _ rfl

namespace Project

/-- What is known of every project that a build finds. -/
structure Usable (project : Project) : Prop where
  /-- The root is absolute. -/
  isAbsolute : project.root.isAbsolute
  /-- The configuration has no fault. -/
  check : project.config.check = .ok ()
  /-- The languages are those of the configuration. -/
  languages : project.config.languages = .ok project.languages

theorem usable_ofConfig {root : Path} {config : Config} {fromFile : Bool} {project : Project}
    (hroot : root.isAbsolute) (h : ofConfig root config fromFile = .ok project) :
    project.Usable := by
  unfold ofConfig at h
  split at h
  · cases h
  · cases h
  · rename_i languages hcheck hlanguages
    cases h
    exact ⟨hroot, hcheck, hlanguages⟩

theorem looks_find (options : BuildOptions) :
    (find options).Looks fun found => ∀ project, found = .ok project → project.Usable := by
  refine looks_bind (looks_request rfl) fun current _ => ?_
  refine looks_bind (looks_findRoot options current) fun found hfound => ?_
  cases found with
  | error failure => exact looks_pure nofun
  | ok root =>
      refine looks_bind (Config.looks_load root) fun loaded _ => ?_
      cases loaded with
      | error cause => exact looks_pure nofun
      | ok loaded => exact looks_pure fun project => usable_ofConfig (hfound root rfl)

end Project

/-! ## What a build finds in a world -/

/-- The project that is found. -/
def projectIn (world : World) (options : BuildOptions) : Except Failure Project :=
  (world.run (Project.find options)).1

theorem run_find (world : World) (options : BuildOptions) :
    world.run (Project.find options) = (projectIn world options, world) :=
  Prod.ext rfl (run_of_looks (Project.looks_find options) world).2

namespace Project

theorem usable_of_projectIn {world : World} {options : BuildOptions} {project : Project}
    (h : projectIn world options = .ok project) : project.Usable :=
  (run_of_looks (looks_find options) world).1 project h

/-- What the scan of the levels gives. -/
def scanIn (world : World) (project : Project) : Scan :=
  (world.run (Scan.ofLevels project.root project.config.levels project.config.dirSuffix)).1

/-- The base name of the targets. -/
def baseIn (world : World) (project : Project) : String :=
  (world.run (project.config.baseName project.root)).1

/-- The targets. -/
def targetsIn (world : World) (project : Project) : List Target :=
  project.targets (baseIn world project)

/-- What the targets share. -/
def contextIn (world : World) (project : Project) (force : Bool) : Context :=
  project.context (scanIn world project).dirs force

theorem layers_contextIn (project : Project) (world : World) (force : Bool) :
    (contextIn world project force).compactor = .localized := rfl

theorem run_ofLevels (world : World) {project : Project} (h : project.root.isAbsolute) :
    world.run (Scan.ofLevels project.root project.config.levels project.config.dirSuffix) =
      (scanIn world project, world) :=
  Prod.ext rfl (run_of_looks (Scan.looks_ofLevels _ _ h) world).2

theorem isScanned_of_mem {world : World} {project : Project} {dir : KeysetDir}
    (h : project.root.isAbsolute) (hdir : dir ∈ (scanIn world project).dirs) : dir.IsScanned :=
  (run_of_looks (Scan.looks_ofLevels _ _ h) world).1 dir hdir

theorem run_baseName (world : World) (project : Project) :
    world.run (project.config.baseName project.root) = (baseIn world project, world) :=
  Prod.ext rfl (run_of_looks (project.config.looks_baseName project.root) world).2

theorem baseIn_eq {project : Project} {base : String} (world : World)
    (h : project.config.base = some base) : baseIn world project = base :=
  (run_of_looks (project.config.looks_baseName project.root) world).1 base h

end Project

/-! ## The course of a build -/

/-- What comes of a target: what is reported and its new record. -/
abbrev Turn := Target × Outcome × Option Record

/-- Takes the targets one by one. -/
def takeTurns (context : Context) (ledger : Ledger) (targets : List Target) :
    Program (List Turn) :=
  targets.mapM fun target => do
    return (target, ← context.buildTarget target (ledger.get? target.path))

namespace Project

/-- The turns of the targets, and the world after them. -/
def turnsIn (world : World) (project : Project) (force : Bool) : List Turn × World :=
  world.run (takeTurns (contextIn world project force) (loadedIn world project.ledgerFile)
    (targetsIn world project))

/-- Whether the ledger could be written after the turns, and the world at the end. -/
def savedIn (world : World) (project : Project) (force : Bool) :
    Except Ledger.SaveFailure Unit × World :=
  (turnsIn world project force).2.run
    (project.saveLedger (loadedIn world project.ledgerFile) (turnsIn world project force).1)

/-- The summary of a build. -/
def summaryIn (world : World) (project : Project) (force : Bool) : Except Failure BuildSummary :=
  match savedIn world project force with
  | (.error cause, _) => .error (.ledger cause)
  | (.ok (), after) => .ok {
      targets := results (contextIn world project force) (turnsIn world project force).1
      dirCount := (scanIn world project).dirs.length
      skippedCount := 0
      configFromFile := project.configFromFile
      moduleCount := after.modules.size
      layers := (contextIn world project force).compactor.layerNames }

theorem run_buildTargets (world : World) (project : Project) (force : Bool) :
    world.run (project.buildTargets (scanIn world project).dirs force) =
      (summaryIn world project force, (savedIn world project force).2) := by
  have hturns : world.run (takeTurns (contextIn world project force)
      (loadedIn world project.ledgerFile) (targetsIn world project)) =
        turnsIn world project force := rfl
  have hsaved : (turnsIn world project force).2.run (project.saveLedger
      (loadedIn world project.ledgerFile) (turnsIn world project force).1) =
        savedIn world project force := rfl
  unfold takeTurns contextIn targetsIn at hturns
  unfold buildTargets summaryIn
  rw [World.run_bind, run_baseName]
  dsimp only
  rw [World.run_bind, run_load]
  dsimp only
  rw [World.run_bind, hturns, World.run_bind, hsaved]
  cases savedIn world project force with
  | mk result after =>
      cases result with
      | error cause => rfl
      | ok saved => rfl

end Project

/-- A build without a project changes nothing. -/
theorem run_of_error {world : World} {options : BuildOptions} {failure : Failure}
    (h : projectIn world options = .error failure) :
    world.run (run options) = (⟨[], .error failure⟩, world) := by
  rw [run, World.run_bind, run_find, h]
  rfl

/-- **The course of a build.** -/
theorem run_of_projectIn {world : World} {options : BuildOptions} {project : Project}
    (h : projectIn world options = .ok project) :
    world.run (run options) =
      (⟨(Project.scanIn world project).warnings, Project.summaryIn world project options.force⟩,
        (Project.savedIn world project options.force).2) := by
  have hscan := Project.run_ofLevels world (Project.usable_of_projectIn h).isAbsolute
  rw [run, World.run_bind, run_find, h]
  dsimp only
  rw [Project.build, World.run_bind, hscan]
  dsimp only
  rw [World.run_bind, Project.run_buildTargets]
  rfl

end Build

end KeysetBundle
