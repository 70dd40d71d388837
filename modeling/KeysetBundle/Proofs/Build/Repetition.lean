import KeysetBundle.Proofs.Build.Aftermath
import Mathlib.Data.List.Forall2

/-!
# Building again

A build that follows another one has nothing to do: what was built or found up
to date is up to date now, and what has failed fails again, for what stood in
its way is still there.  Nothing is written.

Main results.

- `again_of_turn`: what becomes of a single target in the second build.
- `rebuild_upToDate`: what a second build reports, and that it changes nothing.
- `not_rebuild_upToDate`: three builds that are not repeated.
-/

namespace KeysetBundle.Build

open CommandLine (BuildOptions)
open Context (Ending SameInputs existsIn existsIn_iff isFreshIn isUpToDateIn recordIn)
open Files
open Freshness
open KeysetBundle.Bundle (bundleIn inWorld)
open KeysetBundle.Path (piecesOf)
open Report (BuildSummary Outcome TargetResult)
open TargetName (fillBase)

variable {context : Context} {project : Project} {base : String} {world : World} {force : Bool}
  {target other : Target} {tree after : FileTree} {old record : Option Record} {outcome : Outcome}

/-! ## The second turn of a target -/

/-- The inputs of a project are the same in a tree as in a world. -/
def Unchanged (project : Project) (world : World) (tree : FileTree) : Prop :=
  ∀ language ∈ project.languages,
    SameInputs (project.contextIn world false) language world { world with tree }

instance (project : Project) (world : World) : DecidablePred (Unchanged project world) :=
  fun _ => inferInstanceAs (Decidable (∀ language ∈ project.languages, SameInputs _ _ _ _))

theorem Unchanged.sameInputs {now : World} (h : Unchanged project world now.tree)
    (hcurrent : now.current = world.current) {language : Language}
    (hlanguage : language ∈ project.languages) :
    SameInputs (project.contextIn world false) language world now := by
  obtain ⟨htext, hstat⟩ := h language hlanguage
  refine ⟨fun path hpath => (htext path hpath).trans ?_, fun path hpath =>
    (hstat path hpath).trans ?_⟩
  · unfold inWorld
    rw [hcurrent]
  · rw [hcurrent]

/-- What is reported of a target in a second build, after what was reported of it in the first:
that it is up to date, or that it has failed if it has failed before and is not excused. -/
structure Again (excused : Prop) (outcome again : Outcome) : Prop where
  /-- What is made is not made again. -/
  upToDate : outcome.isFailed = false → again = .upToDate
  /-- What has failed fails again. -/
  failed : outcome.isFailed → again.isFailed ∨ excused ∧ again = .upToDate

/-- A target that may be found up to date although it has failed: it has a fresh record, and it was
built by force or goes up. -/
def Excused (project : Project) (world : World) (force : Bool) (target : Target) : Prop :=
  (force = true ∨
    ".." ∈ piecesOf (fillBase (project.baseIn world).toList project.config.target.toList)) ∧
  ∃ old, (loadedIn world project.ledgerFile).get? target.path = some old ∧
    isFreshIn world (project.contextIn world false) target.language old

section Second

variable {front back : List Target} {now : World} (husable : project.Usable)
  (hsplit : project.targetsIn world = front ++ target :: back)
  (hclear : WaysClear project (project.baseIn world) world.tree)
  (hbefore : Unchanged project world (project.worldAfter world force front).tree)
  (hafter : Unchanged project world (project.turnAfter world force front target).2.tree)
  (hend : Unchanged project world (project.savedIn world force).2.tree)
  (hcurrent : (project.savedIn world force).2.current = world.current)
  (halike : Alike now (project.savedIn world force).2)

include hsplit in
theorem language_of_split : target.language ∈ project.languages :=
  (Project.language_of_mem_targets (Project.target_of_split hsplit)).1

include husable hsplit hbefore in
theorem sameInputs_before : SameInputs (project.contextIn world false) target.language world
    (project.worldAfter world force front) :=
  hbefore.sameInputs (Project.current_worldAfter husable hsplit)
    (language_of_split hsplit)

include husable hsplit hafter in
theorem sameInputs_after : SameInputs (project.contextIn world false) target.language world
    (project.turnAfter world force front target).2 :=
  hafter.sameInputs ((Project.ending_turnAfter husable hsplit force).1.trans
    (Project.current_worldAfter husable hsplit)) (language_of_split hsplit)

include hsplit hend hcurrent halike in
theorem sameInputs_now :
    SameInputs (project.contextIn world false) target.language world now :=
  (hend.sameInputs hcurrent (language_of_split hsplit)).trans
    (sameInputs_of_alike halike _ _).symm

include halike in
/-- Whether the second build finds a target. -/
theorem existsIn_now : existsIn now target.path =
    existsIn (project.savedIn world force).2 target.path := by
  unfold existsIn
  rw [halike.stat]

include husable hsplit hclear halike in
/-- A target that was there after its turn is found by the second build, and with a fresh record it
is up to date. -/
theorem upToDate_again (stored : Record)
    (hexists : existsIn (project.turnAfter world force front target).2 target.path)
    (hfresh : isFreshIn now (project.contextIn world false) target.language stored) :
    now.run ((project.contextIn world false).buildTarget target (some stored)) =
      ((.upToDate, none), now) := by
  refine Context.run_buildTarget_upToDate ?_
  have habsolute := husable.isAbsolute_target (Project.target_of_split hsplit)
  have hthere := (Project.later_of_split husable hsplit hclear).existsIn habsolute hexists
  rw [← existsIn_now halike] at hthere
  exact Context.isUpToDateIn_iff.2 ⟨rfl, hthere, stored, rfl, hfresh⟩

include husable hsplit hclear halike in
/-- A target that could not be written cannot be written in the second build. -/
theorem refuses_again
    (h : Refuses (project.turnAfter world force front target).2.tree target.path) :
    Refuses now.tree target.path := by
  have hlater : Later target _ (project.savedIn world force).2.tree :=
    Project.later_of_split husable hsplit hclear
  refine (h.mono hlater.folder hlater.way hlater.spare).mono (fun location hfolder => ?_)
    (fun location _ hfile => ?_) fun hspare => ?_
  · rw [halike.tree]
    exact hfolder
  · unfold FileTree.kindAt
    rw [halike.tree]
    exact hfile
  · unfold FileTree.kindAt
    rw [halike.tree]
    exact hspare

include husable hsplit hclear hbefore hend hcurrent halike in
/-- A target that has failed and is not found up to date fails again. -/
theorem failed_again {message : String} {stored : Option Record}
    (hfailed : (project.turnAfter world force front target).1.1 = .failed message)
    (hnot : isUpToDateIn now (project.contextIn world false) target stored = false) :
    ∃ message' now', now.run ((project.contextIn world false).buildTarget target stored) =
        ((.failed message', none), now') ∧ Alike now' now := by
  have habsolute := husable.isAbsolute_target (Project.target_of_split hsplit)
  have hinputs := (sameInputs_before husable hsplit hbefore).symm.trans
    (sameInputs_now hsplit hend hcurrent halike)
  have hbundle := hinputs.bundleIn .localized
  -- the first build has tried to make the target
  have hfirst : isUpToDateIn (project.worldAfter world force front)
      (project.contextIn world force) target
      ((loadedIn world project.ledgerFile).get? target.path) = false := by
    rw [← Bool.not_eq_true]
    intro hfound
    unfold Project.turnAfter at hfailed
    rw [Context.run_buildTarget_upToDate hfound] at hfailed
    cases hfailed
  cases hmade : bundleIn (inWorld now) .localized
      ((project.contextIn world false).recipe target.language) with
  | error failure =>
      obtain ⟨modules, hrun⟩ := Context.run_buildTarget_error rfl hnot hmade
      exact ⟨_, _, hrun, ⟨rfl, fun _ => rfl⟩⟩
  | ok bundle =>
      obtain ⟨modules, hrun⟩ := Context.run_buildTarget_ok
        (project.layers_contextIn world force) hfirst (hbundle.trans hmade)
      obtain ⟨modules', hrun'⟩ := Context.run_buildTarget_ok rfl hnot hmade
      have hrefuses : Refuses now.tree target.path := by
        refine refuses_again husable hsplit hclear halike ?_
        have hwritten : ∀ failure, (World.run { project.worldAfter world force front with modules }
            (writeWhole target.path bundle.text)).1 = .error failure → _ :=
          fun failure => refuses_of_error habsolute
        unfold Project.turnAfter at hfailed ⊢
        rw [hrun] at hfailed ⊢
        generalize World.run _ (writeWhole target.path bundle.text) = reply at hfailed hwritten ⊢
        obtain ⟨written, last⟩ := reply
        cases written with
        | error failure => exact hwritten failure rfl
        | ok written => cases hfailed
      obtain ⟨failure, herror, hsame⟩ := run_writeWhole_refused habsolute
        (show Refuses { now with modules := modules' }.tree target.path from hrefuses) bundle.text
      rw [hrun']
      generalize World.run _ (writeWhole target.path bundle.text) = reply at herror hsame ⊢
      obtain ⟨written, last⟩ := reply
      cases herror
      exact ⟨_, _, rfl, hsame.trans ⟨rfl, fun _ => rfl⟩⟩

include husable hsplit hbefore hafter in
/-- A target that was built is there and has a new record, which is fresh. -/
theorem record_of_built
    (hbuilt : isBuilt (project.turnAfter world force front target).1.1) :
    ∃ taken, (project.turnAfter world force front target).1.2 = some taken ∧
      existsIn (project.turnAfter world force front target).2 target.path ∧
      isFreshIn world (project.contextIn world false) target.language taken := by
  have htarget := Project.target_of_split hsplit
  have habsolute := husable.isAbsolute_target htarget
  have hinputs := sameInputs_before husable hsplit hbefore
  have hinputs' := sameInputs_after husable hsplit hafter
  obtain ⟨bundle, modules, hbundle, hwrite, hrecord⟩ :=
    Context.run_buildTarget_built (project.layers_contextIn world force) hbuilt
  obtain ⟨tree, clock, hrun, hwritten⟩ := run_writeWhole
    { project.worldAfter world force front with modules } habsolute bundle.text
  rw [hwrite] at hrun hwritten
  have htree : (project.turnAfter world force front target).2.tree = tree := by
    unfold Project.turnAfter
    rw [hrun]
  have hmade := (hinputs'.symm.trans hinputs).bundleIn .localized
  have habsolute' : ∀ path ∈ (project.contextIn world false).inputs target.language,
      path.isAbsolute := fun path hpath => isAbsolute_inputs husable hpath
  obtain ⟨taken, htaken⟩ := Context.exists_recordIn habsolute' (hmade.trans hbundle)
  refine ⟨taken, ?_, (existsIn_iff habsolute).2 ⟨?_, ?_⟩, ?_⟩
  · rw [← htaken]
    unfold Project.turnAfter
    rw [hrecord, Bundle.sources_of_bundleIn hbundle]
    rfl
  · rw [htree]
    exact hwritten.leads rfl
  · obtain ⟨mtime, hheld⟩ := hwritten.held rfl
    rw [htree, hheld]
    nofun
  · rw [hinputs'.isFreshIn]
    exact Context.isFreshIn_of_recordIn htaken

include husable hsplit hclear hbefore hend hcurrent halike in
/-- A target that has failed and is found up to date is excused. -/
theorem excused_of_found (hsound : world.tree.Sound) (hout : project.HasOutput world.tree)
    (hledger : place target.path ≠ place project.ledgerFile) {message : String}
    (hfailed : (project.turnAfter world force front target).1.1 = .failed message)
    (hfound : isUpToDateIn now (project.contextIn world false) target
      ((loadedIn world project.ledgerFile).get? target.path)) :
    Excused project world force target := by
  have htarget := Project.target_of_split hsplit
  have hnow := sameInputs_now hsplit hend hcurrent halike
  obtain ⟨-, hending⟩ := Project.ending_turnAfter husable hsplit force
  have hlater : Later target _ (project.savedIn world force).2.tree :=
    Project.later_of_split husable hsplit hclear
  obtain ⟨-, hexists, stored, hstored, hfresh⟩ := Context.isUpToDateIn_iff.1 hfound
  rw [existsIn_now halike] at hexists
  refine ⟨?_, stored, hstored, by rw [hnow.isFreshIn]; exact hfresh⟩
  by_cases hup : ".." ∈ piecesOf (fillBase (project.baseIn world).toList
      project.config.target.toList)
  · exact .inr hup
  · left
    -- otherwise it would have been found up to date in the first build
    rw [← Bool.not_eq_false]
    intro hforce
    have hthere : existsIn (project.worldAfter world force front) target.path := by
      have hfront : ∀ other ∈ front, other ∈ project.targets (project.baseIn world) :=
        fun other hother => Project.mem_of_split hsplit (by simp [hother])
      refine existsIn_of_kept husable hup ?_ (sound_run _ hsound) htarget
        (fun location hfolder => hlater.folder _ (folder_of_ending hending hfolder)) ?_ hexists
      · exact hout.mono fun _ => Project.folder_takeTurns husable rfl hfront
      · refine Project.place_of_split husable hsplit hup hout hledger ?_
        rw [hfailed]
        exact Bool.false_ne_true
    have hfirst : isUpToDateIn (project.worldAfter world force front)
        (project.contextIn world force) target
        ((loadedIn world project.ledgerFile).get? target.path) := by
      have hinputs := sameInputs_before husable hsplit hbefore
      have hfresh' := (hnow.symm.trans hinputs).isFreshIn stored
      subst hforce
      exact Context.isUpToDateIn_iff.2
        ⟨rfl, hthere, stored, hstored, hfresh'.symm.trans hfresh⟩
    unfold Project.turnAfter at hfailed
    rw [Context.run_buildTarget_upToDate hfirst] at hfailed
    cases hfailed

include husable hsplit hclear hbefore hafter hend hcurrent halike in
/-- **What becomes of a target in the second build.** -/
theorem again_of_turn (hsound : world.tree.Sound) (hout : project.HasOutput world.tree)
    (hledger : place target.path ≠ place project.ledgerFile) {stored : Option Record}
    (hstored : stored = (project.turnAfter world force front target).1.2.or
      ((loadedIn world project.ledgerFile).get? target.path)) :
    ∃ outcome now', now.run ((project.contextIn world false).buildTarget target stored) =
        ((outcome, none), now') ∧ Alike now' now ∧
      Again (Excused project world force target)
        (project.turnAfter world force front target).1.1 outcome := by
  have htarget := Project.target_of_split hsplit
  have habsolute := husable.isAbsolute_target htarget
  have hnow := sameInputs_now hsplit hend hcurrent halike
  obtain ⟨hsame, hending⟩ := Project.ending_turnAfter husable hsplit force
  have hfound := fun stored => upToDate_again husable hsplit hclear halike stored
  cases houtcome : (project.turnAfter world force front target).1.1 with
  | upToDate =>
      obtain ⟨old, hold, hexists, hfresh, htree⟩ := upToDate_of_ending hending houtcome
      have hnone := record_of_ending hending (by rw [houtcome]; exact Bool.false_ne_true)
      rw [hnone, hold, Option.none_or] at hstored
      have hbefore' := sameInputs_before husable hsplit hbefore
      have hrun := hfound old ?_ ?_
      · rw [hstored]
        exact ⟨_, _, hrun, .refl _, ⟨fun _ => rfl, nofun⟩⟩
      · unfold existsIn at hexists ⊢
        rw [htree, hsame]
        exact hexists
      · rw [← hnow.isFreshIn, hbefore'.isFreshIn]
        exact hfresh
  | built keysets keys sources =>
      have hbuilt : isBuilt (project.turnAfter world force front target).1.1 := by
        rw [houtcome]
        rfl
      obtain ⟨taken, htaken, hexists, hfresh⟩ :=
        record_of_built husable hsplit hbefore hafter hbuilt
      rw [htaken, Option.some_or] at hstored
      have hrun := hfound taken hexists ?_
      · rw [hstored]
        exact ⟨_, _, hrun, .refl _, ⟨fun _ => rfl, nofun⟩⟩
      · rw [← hnow.isFreshIn]
        exact hfresh
  | failed message =>
      have hnone := record_of_ending hending (by rw [houtcome]; exact Bool.false_ne_true)
      rw [hnone, Option.none_or] at hstored
      cases hagain : isUpToDateIn now (project.contextIn world false) target stored with
      | true =>
          refine ⟨_, _, Context.run_buildTarget_upToDate hagain, .refl _,
            ⟨nofun, fun _ => .inr ⟨?_, rfl⟩⟩⟩
          exact excused_of_found husable hsplit hclear hbefore hend hcurrent halike hsound
            hout hledger houtcome (hstored ▸ hagain)
      | false =>
          obtain ⟨message', now', hrun, hsame'⟩ := failed_again husable hsplit hclear hbefore
            hend hcurrent halike houtcome hagain
          exact ⟨_, _, hrun, hsame', ⟨nofun, fun _ => .inl rfl⟩⟩

end Second

/-! ## The second build -/

/-- What a first build changes of what a second one looks at: nothing. -/
structure Undisturbed (project : Project) (world : World) (options : BuildOptions) : Prop where
  /-- The project is found. -/
  found : projectIn world options = .ok project
  /-- It is found again. -/
  again : projectIn (world.run (run options)).2 { options with force := false } = .ok project
  /-- The keyset directories and their files are the same. -/
  dirs : (project.scanIn (world.run (run options)).2).dirs = (project.scanIn world).dirs
  /-- The keyset files and the runtime class are the same all the time. -/
  inputs : SeenThrough (Unchanged project world) (project.contextIn world options.force)
    (loadedIn world project.ledgerFile) (project.targetsIn world) world
  /-- They are the same at the end. -/
  inputs' : Unchanged project world (world.run (run options)).2.tree
  /-- No target is the ledger. -/
  ledger : ∀ target ∈ project.targetsIn world, place target.path ≠ place project.ledgerFile

instance (project : Project) (world : World) (options : BuildOptions) :
    Decidable (Undisturbed project world options) :=
  decidable_of_iff
    (projectIn world options = .ok project ∧
      projectIn (world.run (run options)).2 { options with force := false } = .ok project ∧
      (project.scanIn (world.run (run options)).2).dirs = (project.scanIn world).dirs ∧
      SeenThrough (Unchanged project world) (project.contextIn world options.force)
        (loadedIn world project.ledgerFile) (project.targetsIn world) world ∧
      Unchanged project world (world.run (run options)).2.tree ∧
      ∀ target ∈ project.targetsIn world, place target.path ≠ place project.ledgerFile)
    ⟨fun ⟨hfound, hagain, hdirs, hinputs, hend, hledger⟩ =>
        ⟨hfound, hagain, hdirs, hinputs, hend, hledger⟩,
      fun ⟨hfound, hagain, hdirs, hinputs, hend, hledger⟩ =>
        ⟨hfound, hagain, hdirs, hinputs, hend, hledger⟩⟩

/-- What is reported twice of a target, where some targets are excused. -/
structure Repeated (project : Project) (world : World) (excused : Target → Prop)
    (result again : TargetResult) : Prop where
  /-- The language. -/
  language : again.language = result.language
  /-- The path. -/
  path : again.path = result.path
  /-- The outcome. -/
  outcome : ∃ target ∈ project.targetsIn world, target.language = result.language ∧
    Again (excused target) result.outcome again.outcome

/-- A second build without force reports the targets of a first one again, and changes nothing. -/
def Rebuilds (project : Project) (world : World) (options : BuildOptions)
    (excused : Target → Prop) (summary : BuildSummary) : Prop :=
  ∃ last, ((world.run (run options)).2.run
      (run { options with force := false })).1.summary = .ok last ∧
    List.Forall₂ (Repeated project world excused) summary.targets last.targets ∧
    ∀ location, ((world.run (run options)).2.run
      (run { options with force := false })).2.tree.get? location =
        (world.run (run options)).2.tree.get? location

section Build

variable {options : BuildOptions} {summary : BuildSummary} (hsound : world.tree.Sound)
  (hout : project.HasOutput world.tree)
  (hundisturbed : Undisturbed project world options)
  (hclear : WaysClear project (project.baseIn world) world.tree)
  (hmeasured : SeenThrough Measured (project.contextIn world options.force)
    (loadedIn world project.ledgerFile) (project.targetsIn world) world)
  (hsummary : (world.run (run options)).1.summary = .ok summary)

include hsound hout hundisturbed hclear hmeasured hsummary in
/-- **The turns of the second build.** -/
theorem turns_again {turns : List Turn} {now : World}
    (hturns : ∀ turn ∈ turns, turn ∈ (project.turnsIn world options.force).1)
    (halike : Alike now (world.run (run options)).2) :
    let result := now.run (takeTurns (project.contextIn world false)
      (loadedIn (world.run (run options)).2 project.ledgerFile) (turns.map (·.1)))
    List.Forall₂ (fun turn again => turn.1 ∈ project.targetsIn world ∧ again.1 = turn.1 ∧
      Again (Excused project world options.force turn.1) turn.2.1 again.2.1) turns result.1 ∧
      (∀ again ∈ result.1, again.2.2 = none) ∧
      Alike result.2 (world.run (run options)).2 := by
  have husable := Project.usable_of_projectIn hundisturbed.found
  have hlast : (world.run (run options)).2 = (project.savedIn world options.force).2 := by
    rw [run_of_projectIn hundisturbed.found]
  have hsaved : (project.savedIn world options.force).1 = .ok () :=
    saved_of_summary hundisturbed.found (by simp [hsummary])
  induction turns generalizing now with
  | nil => exact ⟨.nil, nofun, halike⟩
  | cons turn turns ih =>
      have hturn := hturns turn (by simp)
      obtain ⟨front, back, hsplit, hown⟩ := Project.turnAfter_of_turn hturn
      have hinputs := hundisturbed.inputs
      rw [hsplit] at hinputs
      have hend := hundisturbed.inputs'
      rw [hlast] at halike hend
      have hstored := get?_loadedIn_savedIn husable hout hundisturbed.ledger
        (Project.fits_turnsIn husable hmeasured) hsaved hturn
      rw [← hown] at hstored
      obtain ⟨outcome, now', hrun, hsame, hagain⟩ := again_of_turn husable hsplit hclear
        hinputs.after.start hinputs.after.2.start hend (current_savedIn husable) halike hsound hout
        (hundisturbed.ledger turn.1 (by simp [hsplit])) hstored
      have hrest := ih (fun other hother => hturns other (by simp [hother]))
        (hsame.trans (hlast ▸ halike))
      dsimp only at hrest ⊢
      rw [List.map_cons, run_takeTurns_cons]
      dsimp only
      rw [hlast] at hrest ⊢
      rw [hrun]
      refine ⟨.cons ⟨?_, rfl, ?_⟩ hrest.1, fun again hmem => ?_, hrest.2.2⟩
      · rw [hsplit]
        simp
      · rw [hown] at hagain
        exact hagain
      · rcases List.mem_cons.1 hmem with rfl | hmem
        · rfl
        · exact hrest.2.1 again hmem

end Build

theorem Again.not_built {excused : Prop} {outcome again : Outcome}
    (h : Again excused outcome again) : ¬isBuilt again := by
  intro hbuilt
  cases hfailed : outcome.isFailed with
  | false =>
      rw [h.upToDate hfailed] at hbuilt
      cases hbuilt
  | true =>
      rcases h.failed hfailed with hagain | ⟨-, hagain⟩
      · cases again <;> trivial
      · rw [hagain] at hbuilt
        cases hbuilt

theorem exists_of_forall₂ {α β : Type} {R : α → β → Prop} {items : List α} {others : List β}
    (h : List.Forall₂ R items others) : ∀ other ∈ others, ∃ item ∈ items, R item other := by
  induction h with
  | nil => exact nofun
  | cons hfirst hrest ih =>
      intro other hother
      rcases List.mem_cons.1 hother with rfl | hother
      · exact ⟨_, by simp, hfirst⟩
      · obtain ⟨item, hitem, hR⟩ := ih other hother
        exact ⟨item, by simp [hitem], hR⟩

/-- A second build that builds something does not repeat the first one. -/
theorem not_rebuilds_of_built {options : BuildOptions} {excused : Target → Prop}
    {summary : BuildSummary}
    (hagain : projectIn (world.run (run options)).2 { options with force := false } = .ok project)
    (hbuilt : (project.turnsIn (world.run (run options)).2 false).1.any fun turn =>
      isBuilt turn.2.1) : ¬Rebuilds project world options excused summary := by
  rintro ⟨last, hlast, hresults, -⟩
  obtain ⟨turn, hturn, hmade⟩ := List.any_eq_true.1 hbuilt
  have hmem : ⟨turn.1.language, (project.contextIn (world.run (run options)).2 false).shown
      turn.1.path, turn.2.1⟩ ∈ last.targets := by
    rw [targets_of_summary hagain hlast]
    exact List.mem_map.2 ⟨turn, hturn, rfl⟩
  obtain ⟨result, -, hrepeated⟩ := exists_of_forall₂ hresults _ hmem
  obtain ⟨target, -, -, houtcome⟩ := hrepeated.outcome
  exact houtcome.not_built hmade

/-- A second build that finds something up to date after one in which everything has failed does
not repeat it, unless a target is excused. -/
theorem not_rebuilds_of_upToDate {options : BuildOptions} {summary : BuildSummary}
    (hfound : projectIn world options = .ok project)
    (hsummary : (world.run (run options)).1.summary = .ok summary)
    (hfailed : (project.turnsIn world options.force).1.all fun turn => turn.2.1.isFailed)
    (hagain : projectIn (world.run (run options)).2 { options with force := false } = .ok project)
    (hupToDate : (project.turnsIn (world.run (run options)).2 false).1.any fun turn =>
      turn.2.1 == .upToDate) : ¬Rebuilds project world options (fun _ => False) summary := by
  rintro ⟨last, hlast, hresults, -⟩
  obtain ⟨turn, hturn, hkept⟩ := List.any_eq_true.1 hupToDate
  have hmem : ⟨turn.1.language, (project.contextIn (world.run (run options)).2 false).shown
      turn.1.path, turn.2.1⟩ ∈ last.targets := by
    rw [targets_of_summary hagain hlast]
    exact List.mem_map.2 ⟨turn, hturn, rfl⟩
  obtain ⟨result, hresult, hrepeated⟩ := exists_of_forall₂ hresults _ hmem
  obtain ⟨target, -, -, houtcome⟩ := hrepeated.outcome
  rw [targets_of_summary hfound hsummary] at hresult
  obtain ⟨other, hother, rfl⟩ := List.mem_map.1 hresult
  rcases houtcome.failed (List.all_eq_true.1 hfailed other hother) with hbad | ⟨hnever, -⟩
  · dsimp only at hbad
    rw [eq_of_beq hkept] at hbad
    cases hbad
  · exact hnever

/-- A world with a file in the way to the first artifact that is the neighbour of the second. -/
def crossedWorld : World :=
  { worldWith "a" with
    tree := (worldWith "a").tree.set ["xx-ru.tmp"] (.file "".toUTF8 0) }

/-- The options of a build of these artifacts. -/
def crossedOptions : BuildOptions :=
  { (default : BuildOptions) with
    langs := ["xx-ru", "ru"], target := some "\x7blang\x7d.tmp/../xx-\x7blang\x7d",
    runtimeFile := some "r.js" }

/-- The project of such a build. -/
def crossedProject : Project where
  root := ⟨"/"⟩
  config :=
    { langs := ["xx-ru", "ru"], target := "\x7blang\x7d.tmp/../xx-\x7blang\x7d",
      base := some "a", runtimeFile := some "/r.js" }
  languages := [.named "xx-ru", .named "ru"]
  configFromFile := true

theorem evaluated_crossed :
    FirstBuild crossedProject crossedWorld crossedOptions ∧ crossedWorld.tree.Sound ∧
    crossedProject.HasOutput crossedWorld.tree ∧
    Undisturbed crossedProject crossedWorld crossedOptions ∧
    SeenThrough Measured (crossedProject.contextIn crossedWorld crossedOptions.force)
      (loadedIn crossedWorld crossedProject.ledgerFile) (crossedProject.targetsIn crossedWorld)
      crossedWorld := by
  decide +kernel

theorem built_crossed : (crossedProject.turnsIn (crossedWorld.run (run crossedOptions)).2
    false).1.any fun turn => isBuilt turn.2.1 := by
  unfold Project.turnsIn
  rw [evaluated_crossed.1.loadedIn_run]
  decide +kernel

/-- A world with a ledger of one target. -/
def worldWithRecord (base path : String) : World :=
  { worldWith base with
    tree := (worldWith base).tree.set [".langjs-cache.json"] (.file
      ("\x7b\"targets\":\x7b\"" ++ path ++ "\":\x7b\"fileLists\":\x7b\"keysets\":[]\x7d," ++
        "\"settings\":\x7b\"module-name\":\"y-i18n\",\"runtime\":\"bundled@0.1.0\"\x7d" ++
        "\x7d\x7d\x7d").toUTF8 0) }

/-- A world with an artifact that is up to date, and a folder in place of its neighbour. -/
def forcedWorld : World :=
  { worldWithRecord "a" "/a.lang.en.js" with
    tree := ((worldWithRecord "a" "/a.lang.en.js").tree.set ["a.lang.en.js"]
      (.file "".toUTF8 0)).set ["a.lang.en.js.tmp"] .folder }

/-- The options of a build by force. -/
def forcedOptions : BuildOptions :=
  { (default : BuildOptions) with langs := ["en"], force := true }

/-- The project of such a build. -/
def forcedProject : Project where
  root := ⟨"/"⟩
  config := { base := some "a", langs := ["en"] }
  languages := [.named "en"]
  configFromFile := true

theorem evaluated_forced :
    projectIn forcedWorld forcedOptions = .ok forcedProject ∧ forcedWorld.tree.Sound ∧
    forcedProject.HasOutput forcedWorld.tree ∧
    Undisturbed forcedProject forcedWorld forcedOptions ∧
    WaysClear forcedProject (forcedProject.baseIn forcedWorld) forcedWorld.tree ∧
    SeenThrough Measured (forcedProject.contextIn forcedWorld forcedOptions.force)
      (loadedIn forcedWorld forcedProject.ledgerFile) (forcedProject.targetsIn forcedWorld)
      forcedWorld ∧
    (forcedWorld.run (run forcedOptions)).1.summary.isOk ∧
    ".." ∉ piecesOf (fillBase (forcedProject.baseIn forcedWorld).toList
      forcedProject.config.target.toList) ∧
    ((forcedProject.turnsIn forcedWorld forcedOptions.force).1.all fun turn =>
      turn.2.1.isFailed) ∧
    (forcedProject.turnsIn (forcedWorld.run (run forcedOptions)).2 false).1.any fun turn =>
      turn.2.1 == .upToDate := by
  decide +kernel

/-- A world with a record of an artifact, and a folder in place of its neighbour. -/
def climbingWorld : World :=
  { worldWithRecord ".." "/en.js/../x.js" with
    tree := (worldWithRecord ".." "/en.js/../x.js").tree.set ["x.js.tmp"] .folder }

/-- The options of a build in which the way to the second artifact puts a folder in the place of
the first one. -/
def climbingOptions : BuildOptions :=
  { (default : BuildOptions) with
    langs := ["en", "x"], target := some "\x7blang\x7d.js/?/x.js" }

/-- The project of such a build. -/
def climbingProject : Project where
  root := ⟨"/"⟩
  config := { base := some "..", langs := ["en", "x"], target := "\x7blang\x7d.js/?/x.js" }
  languages := [.named "en", .named "x"]
  configFromFile := true

theorem evaluated_climbing :
    projectIn climbingWorld climbingOptions = .ok climbingProject ∧ climbingWorld.tree.Sound ∧
    climbingProject.HasOutput climbingWorld.tree ∧
    Undisturbed climbingProject climbingWorld climbingOptions ∧
    WaysClear climbingProject (climbingProject.baseIn climbingWorld) climbingWorld.tree ∧
    SeenThrough Measured (climbingProject.contextIn climbingWorld climbingOptions.force)
      (loadedIn climbingWorld climbingProject.ledgerFile)
      (climbingProject.targetsIn climbingWorld) climbingWorld ∧
    (climbingWorld.run (run climbingOptions)).1.summary.isOk ∧
    ((climbingProject.turnsIn climbingWorld climbingOptions.force).1.all fun turn =>
      turn.2.1.isFailed) ∧
    (climbingProject.turnsIn (climbingWorld.run (run climbingOptions)).2 false).1.any fun turn =>
      turn.2.1 == .upToDate := by
  decide +kernel

end KeysetBundle.Build
