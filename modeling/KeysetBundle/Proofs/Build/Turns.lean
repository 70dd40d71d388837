import KeysetBundle.Proofs.Build.Edits
import KeysetBundle.Proofs.Freshness.Measured

/-!
# Single turns in a build

The turn of a target is taken in the world that the turns before it leave.
This module finds that world for every turn of a build, and says which records
the ledger has when it is loaded again.

Main results.

- `exists_split`: the turns before a turn, and the world in which it is taken.
- `takeTurns_keeps`, `takeTurns_keeps_tree`: what every turn keeps, all turns keep.
- `loadedIn_savedIn_of_fits`: the ledger after a build is the one with the new records.
-/

namespace KeysetBundle.Build

open Files
open Freshness
open Report (Outcome)

variable {context : Context} {ledger : Ledger} {targets : List Target} {world : World}
  {seen : FileTree → Prop}

/-! ## What comes of a target -/

namespace Context

open KeysetBundle.Bundle (bundleIn inWorld)

variable {target : Target} {old : Option Record} {failure : Bundle.Failure} {bundle : Bundle}

/-- A target that is found up to date is left alone. -/
theorem run_buildTarget_upToDate (h : isUpToDateIn world context target old) :
    world.run (context.buildTarget target old) = ((.upToDate, none), world) := by
  unfold buildTarget
  rw [World.run_bind, run_isUpToDate]
  dsimp only
  rw [if_pos h]
  rfl

/-- Nothing is written for a bundle that cannot be made. -/
theorem run_buildTarget_error (hlayers : context.compactor = .localized)
    (h : isUpToDateIn world context target old = false)
    (hbundle : bundleIn (inWorld world) .localized (context.recipe target.language) =
      .error failure) :
    ∃ modules, world.run (context.buildTarget target old) =
      ((.failed failure.message, none), { world with modules }) := by
  obtain ⟨modules, hmake⟩ := Bundle.run_make world .localized (context.recipe target.language)
  unfold buildTarget makeAndWrite
  rw [World.run_bind, run_isUpToDate]
  dsimp only
  rw [h, if_neg (by decide), World.run_bind, World.run_bind, hlayers, hmake, hbundle]
  exact ⟨modules, rfl⟩

/-- A bundle that can be made is written, and if this succeeds its record is taken. -/
theorem run_buildTarget_ok (hlayers : context.compactor = .localized)
    (h : isUpToDateIn world context target old = false)
    (hbundle : bundleIn (inWorld world) .localized (context.recipe target.language) =
      .ok bundle) :
    ∃ modules, world.run (context.buildTarget target old) =
      match ({ world with modules } : World).run (writeWhole target.path bundle.text) with
      | (.error failure, after) =>
        ((.failed (Bundle.Failure.write target.path failure).message, none), after)
      | (.ok (), after) =>
        ((.built bundle.keysetCount bundle.keyCount (bundle.sources.map context.shown),
          recordIn after context bundle.sources), after) := by
  obtain ⟨modules, hmake⟩ := Bundle.run_make world .localized (context.recipe target.language)
  refine ⟨modules, ?_⟩
  unfold buildTarget makeAndWrite
  rw [World.run_bind, run_isUpToDate]
  dsimp only
  rw [h, if_neg (by decide), World.run_bind, World.run_bind, hlayers, hmake, hbundle]
  dsimp only
  rw [World.run_bind]
  generalize World.run _ (writeWhole target.path bundle.text) = reply
  obtain ⟨written, after⟩ := reply
  cases written with
  | error failure => rfl
  | ok written =>
      dsimp only
      rw [World.run_pure]
      dsimp only
      rw [World.run_bind, run_takeRecord]
      rfl

/-- Where a target is built, its bundle was written and its record taken afterwards. -/
theorem run_buildTarget_built (hlayers : context.compactor = .localized)
    (h : isBuilt (world.run (context.buildTarget target old)).1.1) :
    ∃ bundle modules, bundleIn (inWorld world) .localized (context.recipe target.language) =
        .ok bundle ∧
      ({ world with modules } : World).run (writeWhole target.path bundle.text) =
        (.ok (), (world.run (context.buildTarget target old)).2) ∧
      (world.run (context.buildTarget target old)).1.2 =
        recordIn (world.run (context.buildTarget target old)).2 context bundle.sources := by
  cases hfound : isUpToDateIn world context target old with
  | true =>
      rw [run_buildTarget_upToDate hfound] at h
      cases h
  | false =>
      cases hbundle : bundleIn (inWorld world) .localized (context.recipe target.language) with
      | error failure =>
          obtain ⟨modules, hrun⟩ := run_buildTarget_error hlayers hfound hbundle
          rw [hrun] at h
          cases h
      | ok bundle =>
          obtain ⟨modules, hrun⟩ := run_buildTarget_ok hlayers hfound hbundle
          refine ⟨bundle, modules, rfl, ?_⟩
          rw [hrun] at h ⊢
          generalize World.run _ (writeWhole target.path bundle.text) = reply at h ⊢
          obtain ⟨written, after⟩ := reply
          cases written with
          | error failure => cases h
          | ok written => exact ⟨rfl, rfl⟩

end Context

/-! ## The worlds between turns -/

theorem run_takeTurns_append (context : Context) (ledger : Ledger) (front back : List Target)
    (world : World) :
    let before := world.run (takeTurns context ledger front)
    world.run (takeTurns context ledger (front ++ back)) =
      (before.1 ++ (before.2.run (takeTurns context ledger back)).1,
        (before.2.run (takeTurns context ledger back)).2) := by
  induction front generalizing world with
  | nil => rfl
  | cons target front ih =>
      have hrest := ih (world.run (context.buildTarget target (ledger.get? target.path))).2
      dsimp only at hrest ⊢
      rw [List.cons_append, run_takeTurns_cons, run_takeTurns_cons]
      dsimp only
      rw [hrest, List.cons_append]

/-- The turns are those of the targets in their order. -/
theorem map_takeTurns (context : Context) (ledger : Ledger) (targets : List Target)
    (world : World) : (world.run (takeTurns context ledger targets)).1.map (·.1) = targets := by
  induction targets generalizing world with
  | nil => rfl
  | cons target targets ih =>
      rw [run_takeTurns_cons]
      exact congrArg (target :: ·) (ih _)

/-- **The world in which a turn is taken** is the one that the turns before it leave. -/
theorem exists_split {turn : Turn}
    (h : turn ∈ (world.run (takeTurns context ledger targets)).1) :
    ∃ front back, targets = front ++ turn.1 :: back ∧
      turn.2 = ((world.run (takeTurns context ledger front)).2.run
        (context.buildTarget turn.1 (ledger.get? turn.1.path))).1 := by
  induction targets generalizing world with
  | nil => cases h
  | cons target targets ih =>
      rw [run_takeTurns_cons] at h
      rcases List.mem_cons.1 h with rfl | h
      · exact ⟨[], targets, rfl, rfl⟩
      · obtain ⟨front, back, hsplit, hturn⟩ := ih h
        refine ⟨target :: front, back, congrArg (target :: ·) hsplit, ?_⟩
        rw [run_takeTurns_cons]
        exact hturn

/-- The turn of a target is among the turns. -/
theorem mem_takeTurns {front back : List Target} {target : Target}
    (h : targets = front ++ target :: back) :
    (target, ((world.run (takeTurns context ledger front)).2.run
      (context.buildTarget target (ledger.get? target.path))).1) ∈
        (world.run (takeTurns context ledger targets)).1 := by
  rw [h, run_takeTurns_append, run_takeTurns_cons]
  simp

/-- What the turn of each target keeps, all turns keep. -/
theorem takeTurns_keeps {P : World → Prop}
    (hstep : ∀ target ∈ targets, ∀ now, P now →
      P (now.run (context.buildTarget target (ledger.get? target.path))).2)
    (hstart : P world) : P (world.run (takeTurns context ledger targets)).2 :=
  (takeTurns_induct (Q := fun _ => True)
    (fun target htarget now hnow => ⟨hstep target htarget now hnow, trivial⟩) hstart).1

/-- What every end of a turn keeps in the tree, all turns keep. -/
theorem takeTurns_keeps_tree {P : FileTree → Prop} (hlayers : context.compactor = .localized)
    (habsolute : ∀ target ∈ targets, target.path.isAbsolute)
    (hstep : ∀ target ∈ targets, ∀ now turn after, P now.tree →
      Context.Ending context target (ledger.get? target.path) now turn after → P after)
    (hstart : P world.tree) : P (world.run (takeTurns context ledger targets)).2.tree := by
  refine takeTurns_keeps (P := fun now => P now.tree) (fun target htarget now hnow => ?_) hstart
  obtain ⟨-, hending⟩ :=
    Context.run_buildTarget now (ledger.get? target.path) hlayers (habsolute target htarget)
  exact hstep target htarget now _ _ hnow hending

theorem SeenThrough.start (h : SeenThrough seen context ledger targets world) :
    seen world.tree := by
  cases targets with
  | nil => exact h
  | cons target targets => exact h.1

/-- The world is seen after some of the turns. -/
theorem SeenThrough.after {front back : List Target}
    (h : SeenThrough seen context ledger (front ++ back) world) :
    SeenThrough seen context ledger back (world.run (takeTurns context ledger front)).2 := by
  induction front generalizing world with
  | nil => exact h
  | cons target front ih =>
      rw [run_takeTurns_cons]
      exact ih h.2

/-! ## The ledger after a build -/

/-- The record of a target without a new record stays. -/
theorem get?_recordAll_of_none {turns : List Turn} {path : Path}
    (h : ∀ turn ∈ turns, turn.1.path = path → turn.2.2 = none) :
    (Project.recordAll ledger turns).get? path = ledger.get? path := by
  induction turns generalizing ledger with
  | nil => rfl
  | cons turn turns ih =>
      obtain ⟨target, outcome, taken⟩ := turn
      have hrest := fun other hother => h other (List.mem_cons_of_mem _ hother)
      cases taken with
      | none => exact ih hrest
      | some record =>
          have hne : path ≠ target.path := by
            rintro rfl
            cases h (target, outcome, some record) (by simp) rfl
          change (Project.recordAll (ledger.set target.path record) turns).get? path = _
          rw [ih hrest, get?_set, if_neg hne]

/-- A new record is in the ledger, if all targets have paths of their own. -/
theorem get?_recordAll_of_mem {turns : List Turn} {turn : Turn} {record : Record}
    (hnodup : (turns.map (·.1.path)).Nodup) (hturn : turn ∈ turns)
    (hrecord : turn.2.2 = some record) :
    (Project.recordAll ledger turns).get? turn.1.path = some record := by
  induction turns generalizing ledger with
  | nil => cases hturn
  | cons first turns ih =>
      obtain ⟨hfirst, hrest⟩ := List.nodup_cons.1 hnodup
      rcases List.mem_cons.1 hturn with rfl | hother
      · obtain ⟨target, outcome, taken⟩ := turn
        dsimp only at hrecord hfirst ⊢
        subst hrecord
        have hlater : ∀ other ∈ turns, other.1.path = target.path → other.2.2 = none := by
          intro other hother heq
          exact absurd (List.mem_map.2 ⟨other, hother, heq⟩) hfirst
        change (Project.recordAll (ledger.set target.path record) turns).get? target.path = _
        rw [get?_recordAll_of_none hlater, get?_set, if_pos rfl]
      · obtain ⟨target, outcome, taken⟩ := first
        cases taken with
        | none => exact ih hrest hother
        | some other => exact ih hrest hother

theorem fits_recordAll {turns : List Turn} (hledger : ledger.Fits)
    (hturns : ∀ turn ∈ turns, ∀ record, turn.2.2 = some record → record.Fits) :
    (Project.recordAll ledger turns).Fits := by
  intro name record hget
  rcases @get?_recordAll _ _ ⟨name⟩ _ hget with ⟨turn, hturn, -, hrecord⟩ | ⟨hold, -⟩
  · exact hturns turn hturn record hrecord
  · exact hledger name record hold

namespace Context

theorem fits_recordIn {sources : List Path} {record : Record} (hmeasured : Measured world.tree)
    (h : recordIn world context sources = some record) : record.Fits := by
  unfold recordIn at h
  split at h
  · rename_i base fingerprints hbase hsources
    cases h
    have hlists : base.fileLists = Dictionary.empty ∧
        ∀ name fingerprint, base.files.get? name = some fingerprint → fingerprint.Fits := by
      unfold runtimeRecordIn at hbase
      split at hbase
      · obtain ⟨fingerprint, hprint, rfl⟩ := map_eq_ok.1 hbase
        refine ⟨rfl, fun name other hget => ?_⟩
        rw [Dictionary.get?_insert] at hget
        split at hget
        · cases hget
          exact fits_printIn hmeasured hprint
        · cases hget
      · cases hbase
        exact ⟨rfl, fun name other hget => nomatch hget⟩
    refine ⟨hlists.2, fun name found hget fingerprint hmem => ?_⟩
    rw [Dictionary.get?_insert, hlists.1] at hget
    split at hget
    · cases hget
      obtain ⟨path, -, hprint⟩ := exists_of_mem_mapM hsources fingerprint hmem
      exact fits_printIn hmeasured hprint
    · cases hget
  · cases h

/-- The record that a turn takes fits, if the tree that it leaves is one of 64 bits. -/
theorem fits_of_ending {target : Target} {old record : Option Record} {outcome : Outcome}
    {tree : FileTree} (hmeasured : Measured tree)
    (hending : Ending context target old world (outcome, record) tree) {taken : Record}
    (htaken : record = some taken) : taken.Fits := by
  cases hending with
  | upToDate hold hexists hfresh => cases htaken
  | failed heffect => cases htaken
  | built hbundle hwritten => exact fits_recordIn hmeasured htaken

end Context

namespace Project

variable {project : Project} {force : Bool}

/-- All records that are taken fit, if the trees between the turns do. -/
theorem fits_turnsIn (husable : project.Usable)
    (hmeasured : SeenThrough Measured (project.contextIn world force)
      (loadedIn world project.ledgerFile) (project.targetsIn world) world) :
    ∀ turn ∈ (project.turnsIn world force).1, ∀ record, turn.2.2 = some record → record.Fits := by
  intro turn hturn record hrecord
  obtain ⟨front, back, hsplit, hturn'⟩ := exists_split hturn
  have htarget : turn.1 ∈ project.targetsIn world := by
    rw [hsplit]
    simp
  rw [hsplit] at hmeasured
  have hafter := hmeasured.after.2.start
  obtain ⟨-, hending⟩ := Context.run_buildTarget
    (world.run (takeTurns (project.contextIn world force) (loadedIn world project.ledgerFile)
      front)).2 ((loadedIn world project.ledgerFile).get? turn.1.path)
    (project.layers_contextIn world force) (husable.isAbsolute_target htarget)
  rw [← hturn'] at hending
  exact Context.fits_of_ending hafter hending hrecord

/-- The paths of the turns differ. -/
theorem nodup_turnsIn (husable : project.Usable) :
    ((project.turnsIn world force).1.map (·.1.path)).Nodup := by
  have hnodup : ((project.targetsIn world).map (·.path)).Nodup := husable.nodup_paths _
  rw [← map_takeTurns (project.contextIn world force) (loadedIn world project.ledgerFile)
    (project.targetsIn world) world, List.map_map] at hnodup
  exact hnodup

section Split

variable {front back : List Target} {target : Target}
  (hsplit : project.targetsIn world = front ++ target :: back)

include hsplit in
theorem mem_of_split {other : Target} (h : other ∈ front ++ target :: back) :
    other ∈ project.targets (project.baseIn world) := by
  rw [← hsplit] at h
  exact h

include hsplit in
theorem target_of_split : target ∈ project.targets (project.baseIn world) :=
  mem_of_split hsplit (by simp)

include hsplit in
theorem ne_of_split (husable : project.Usable) {other : Target}
    (h : other ∈ front ∨ other ∈ back) : other ≠ target := by
  have hnodup : (front ++ target :: back).Nodup := by
    rw [← hsplit]
    exact List.Pairwise.of_map (·.path) (fun _ _ hne heq => hne (congrArg _ heq))
      (husable.nodup_paths (project.baseIn world))
  rw [List.nodup_append] at hnodup
  rintro rfl
  rcases h with h | h
  · exact hnodup.2.2 other h other (by simp) rfl
  · exact (List.nodup_cons.1 hnodup.2.1).1 h

end Split

/-- **The ledger after a build** is the one that was loaded with the new records, if there are
any. -/
theorem loadedIn_savedIn_of_fits (husable : project.Usable)
    (hfits : ∀ turn ∈ (project.turnsIn world force).1, ∀ record, turn.2.2 = some record →
      record.Fits)
    (hany : (project.turnsIn world force).1.any fun turn => turn.2.2.isSome)
    (hsaved : (project.savedIn world force).1 = .ok ()) :
    loadedIn (project.savedIn world force).2 project.ledgerFile =
      recordAll (loadedIn world project.ledgerFile) (project.turnsIn world force).1 := by
  rw [loadedIn_savedIn husable.isAbsolute_ledgerFile hany hsaved,
    Ledger.ofJson?_toJson (fits_recordAll (fits_loadedIn world project.ledgerFile) hfits),
    Option.getD_some]

end Project

/-! ## The report of a build -/

/-- What a build says of its targets. -/
theorem exists_summary {options : CommandLine.BuildOptions} {project : Project}
    (hfound : projectIn world options = .ok project)
    (hok : (world.run (run options)).1.summary.isOk) :
    ∃ summary, (world.run (run options)).1.summary = .ok summary ∧
      summary.targets = Project.results (project.contextIn world options.force)
        (project.turnsIn world options.force).1 := by
  cases hsummary : (world.run (run options)).1.summary with
  | error failure =>
      rw [hsummary] at hok
      cases hok
  | ok summary => exact ⟨summary, rfl, targets_of_summary hfound hsummary⟩

end KeysetBundle.Build
