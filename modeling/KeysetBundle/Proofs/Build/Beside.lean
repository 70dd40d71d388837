import KeysetBundle.Proofs.Build.Aftermath
import KeysetBundle.Proofs.KeysetFiles

/-!
# A target beside others

What the turn of a target looks at is out of the reach of the other targets,
but for folders on its way that they make.  A folder that is made beforehand
makes no difference, since the target would have made it itself.  So the turn
of a target comes to the same end with the turns of others before it.

Main results.

- `beside_takeTurns`: what the turns of other targets leave of a target.
- `writeWhole_beside`: a file is written with the same outcome.
- `turn_beside`: the turn of a target comes to the same end.
-/

namespace KeysetBundle.Build

open Context (Ending SameInputs existsIn existsIn_iff isFreshIn isUpToDateIn recordIn)
open Files
open Files.FileTree
open Freshness
open KeysetBundle.Bundle (bundleIn inWorld)
open KeysetBundle.Path (piecesOf)
open Report (Outcome)
open TargetName (fillBase)

variable {context : Context} {project : Project} {base : String} {world : World} {force : Bool}
  {target other : Target} {tree after : FileTree} {old record : Option Record} {outcome : Outcome}

/-! ## Neighbours of targets -/

/-- Files whose neighbours are the same are the same. -/
theorem place_of_neighbour {path path' : Path} {name name' : String} (h : path.isAbsolute)
    (h' : path'.isAbsolute) (hname : path.fileName? = some name)
    (hname' : path'.fileName? = some name')
    (hsame : place (neighbour path) = place (neighbour path')) : place path = place path' := by
  have hplace : ∀ {path : Path} {name : String}, path.isAbsolute → path.fileName? = some name →
      place path = path.steps.dropLast.foldl walk [] ++ [name] ∧
        place (neighbour path) = path.steps.dropLast.foldl walk [] ++ [name ++ ".tmp"] := by
    intro path name h hname
    have hsteps := Path.fileName?_eq_some h hname
    constructor
    · conv => lhs; rw [place_eq h, hsteps]
      rw [List.foldl_append]
      rfl
    · rw [place_neighbour h, hname]
      rfl
  obtain ⟨hplace₁, hspare₁⟩ := hplace h hname
  obtain ⟨hplace₂, hspare₂⟩ := hplace h' hname'
  rw [hspare₁, hspare₂] at hsame
  obtain ⟨hfolders, hnames⟩ := List.append_inj' hsame rfl
  rw [hplace₁, hplace₂, hfolders, (String.append_left_inj _).1 (List.cons.inj hnames).1]

/-- **Each target has a neighbour of its own.** -/
theorem Project.Usable.eq_of_neighbour (h : project.Usable)
    (hup : ".." ∉ piecesOf (fillBase base.toList project.config.target.toList))
    (htarget : target ∈ project.targets base) (hother : other ∈ project.targets base)
    (hsame : place (neighbour target.path) = place (neighbour other.path)) : target = other := by
  refine h.eq_of_place hup htarget hother ?_
  have hlength := h.length_place hup htarget hother
  obtain ⟨front, -, hfront⟩ := h.exists_place hup
  obtain ⟨names, -, hsteps, hplace⟩ := hfront target htarget
  obtain ⟨names', -, hsteps', hplace'⟩ := hfront other hother
  have hnamed : ∀ {one : Target} {names : List String}, one ∈ project.targets base →
      one.path.steps = front ++ names.map .name → names ≠ [] → ∃ name,
        one.path.fileName? = some name := by
    intro one names hone hsteps hne
    refine Option.ne_none_iff_exists'.1 fun hnone => ?_
    rw [← List.dropLast_concat_getLast hne, List.map_append, ← List.append_assoc] at hsteps
    rcases steps_of_no_fileName (h.isAbsolute_target hone) hnone with hnil | ⟨steps, hparent⟩
    · rw [hnil] at hsteps
      simp at hsteps
    · rw [hparent] at hsteps
      cases (List.append_inj' hsteps rfl).2
  rw [hplace, hplace', List.length_append, List.length_append] at hlength
  by_cases hempty : names = []
  · subst hempty
    rw [hplace, hplace', List.length_eq_zero_iff.1 (show names'.length = 0 by simpa using hlength)]
  · have hempty' : names' ≠ [] := by
      rintro rfl
      exact hempty (List.length_eq_zero_iff.1 (by simpa using hlength))
    obtain ⟨name, hname⟩ := hnamed htarget hsteps hempty
    obtain ⟨name', hname'⟩ := hnamed hother hsteps' hempty'
    exact place_of_neighbour (h.isAbsolute_target htarget) (h.isAbsolute_target hother) hname
      hname' hsame

/-! ## What the turns of other targets leave -/

/-- What is kept of a target in the turns of others. -/
structure Beside (target : Target) (tree after : FileTree) : Prop where
  /-- Folders stay. -/
  folder : ∀ location, tree.get? location = some .folder → after.get? location = some .folder
  /-- What is at its path stays as it is. -/
  place : after.get? (place target.path) = tree.get? (place target.path)
  /-- So does what is at its neighbour. -/
  spare : after.get? (Files.place (neighbour target.path)) =
    tree.get? (Files.place (neighbour target.path))
  /-- On its way folders can be made. -/
  way : ∀ location, OnWay target.path location → after.get? location = tree.get? location ∨
    tree.get? location = none ∧ after.get? location = some .folder

theorem Beside.refl (target : Target) (tree : FileTree) : Beside target tree tree :=
  ⟨fun _ h => h, rfl, rfl, fun _ _ => .inl rfl⟩

theorem Beside.trans {last : FileTree} (h : Beside target tree after)
    (h' : Beside target after last) : Beside target tree last := by
  refine ⟨fun location hfolder => h'.folder location (h.folder location hfolder),
    h'.place.trans h.place, h'.spare.trans h.spare, fun location hway => ?_⟩
  rcases h.way location hway with hsame | ⟨hnone, hfolder⟩
  · rw [← hsame]
    exact h'.way location hway
  · exact .inr ⟨hnone, h'.folder location hfolder⟩

/-- The turn of a target leaves the neighbours of other targets as they are. -/
theorem get?_neighbour_of_ending (husable : project.Usable)
    (hup : ".." ∉ piecesOf (fillBase base.toList project.config.target.toList))
    (hout : project.HasOutput world.tree) (htarget : target ∈ project.targets base)
    (hother : other ∈ project.targets base) (hne : other ≠ target)
    (hending : Ending context other old world (outcome, record) tree) :
    tree.get? (place (neighbour target.path)) =
      world.tree.get? (place (neighbour target.path)) := by
  have heffect : SideEffect other.path (place (neighbour target.path)) _ _ :=
    sideEffect_of_ending hending fun _ => husable.neighbour_apart htarget hother
  generalize hbefore : world.tree.get? (place (neighbour target.path)) = before at heffect ⊢
  generalize tree.get? (place (neighbour target.path)) = last at heffect ⊢
  cases heffect with
  | same => rfl
  | made hway =>
      rcases hout.onWay_cases husable hup hother hway with hfolder | ⟨-, hapart⟩
      · rw [hfolder] at hbefore
        cases hbefore
      · exact absurd rfl (hapart target htarget).2
  | removed hlocation =>
      exact absurd (husable.eq_of_neighbour hup hother htarget hlocation.symm) hne

/-- The turn of a target makes folders on the way to another one, and nothing else. -/
theorem way_of_ending (husable : project.Usable)
    (hup : ".." ∉ piecesOf (fillBase base.toList project.config.target.toList))
    (hout : project.HasOutput world.tree) (htarget : target ∈ project.targets base)
    (hother : other ∈ project.targets base)
    (hending : Ending context other old world (outcome, record) tree) {location : Location}
    (hway : OnWay target.path location) : tree.get? location = world.tree.get? location ∨
      world.tree.get? location = none ∧ tree.get? location = some .folder := by
  rcases hout.onWay_cases husable hup htarget hway with hfolder | ⟨-, hapart⟩
  · left
    rw [hfolder, folder_of_ending hending hfolder]
  · have heffect : SideEffect other.path location (world.tree.get? location)
        (tree.get? location) := sideEffect_of_ending hending fun _ => (hapart other hother).1
    generalize world.tree.get? location = before at heffect ⊢
    generalize tree.get? location = last at heffect ⊢
    cases heffect with
    | same => exact .inl rfl
    | made _ => exact .inr ⟨rfl, rfl⟩
    | removed hlocation => exact absurd hlocation (hapart other hother).2

theorem Beside.of_ending (husable : project.Usable)
    (hup : ".." ∉ piecesOf (fillBase base.toList project.config.target.toList))
    (hout : project.HasOutput world.tree) (htarget : target ∈ project.targets base)
    (hother : other ∈ project.targets base) (hne : other ≠ target)
    (hending : Ending context other old world (outcome, record) tree) :
    Beside target world.tree tree where
  folder _ := folder_of_ending hending
  place := Project.get?_place_of_ending husable hup hout htarget hother hending fun _ => hne
  spare := get?_neighbour_of_ending husable hup hout htarget hother hne hending
  way _ := way_of_ending husable hup hout htarget hother hending

/-- **What the turns of other targets leave of a target.** -/
theorem beside_takeTurns {ledger : Ledger} {targets : List Target} (husable : project.Usable)
    (hlayers : context.compactor = .localized)
    (hup : ".." ∉ piecesOf (fillBase base.toList project.config.target.toList))
    (hout : project.HasOutput world.tree) (htarget : target ∈ project.targets base)
    (htargets : ∀ other ∈ targets, other ∈ project.targets base ∧ other ≠ target) :
    Beside target world.tree (world.run (takeTurns context ledger targets)).2.tree := by
  refine takeTurns_keeps_tree (P := Beside target world.tree) hlayers
    (fun other hother => husable.isAbsolute_target (htargets other hother).1)
    (fun other hother now turn after hnow hending => hnow.trans ?_) (.refl _ _)
  obtain ⟨hmem, hne⟩ := htargets other hother
  exact .of_ending husable hup (hout.mono hnow.folder) htarget hmem hne hending

/-! ## Writing the artifact -/

/-- What is at the place of a target, without its time. -/
def contentAt (tree : FileTree) (target : Target) : Option (Option ByteArray) :=
  (tree.get? (place target.path)).map contentOf

section Writing

variable (husable : project.Usable)
  (hup : ".." ∉ piecesOf (fillBase base.toList project.config.target.toList))
  (htarget : target ∈ project.targets base)

include husable hup htarget in
/-- A target that is not there is not on the way to itself. -/
theorem not_onWay_self (hout : project.HasOutput tree)
    (hnone : tree.get? (place target.path) = none) : ¬OnWay target.path (place target.path) := by
  intro hway
  rcases hout.onWay_cases husable hup htarget hway with hfolder | ⟨-, hapart⟩
  · rw [hnone] at hfolder
    cases hfolder
  · exact (hapart target htarget).1 rfl

include husable hup htarget in
/-- Making the way to a target touches neither its place nor its neighbour. -/
theorem get?_of_grown (hout : project.HasOutput tree)
    (hgrown : tree.Grown (OnWay target.path) after) :
    after.get? (place target.path) = tree.get? (place target.path) ∧
      after.get? (place (neighbour target.path)) =
        tree.get? (place (neighbour target.path)) := by
  constructor
  · rcases hgrown (place target.path) with hsame | ⟨hnone, -, hway⟩
    · exact hsame
    · exact absurd hway (not_onWay_self husable hup htarget hout hnone)
  · rcases hgrown (place (neighbour target.path)) with hsame | ⟨hnone, -, hway⟩
    · exact hsame
    · rcases hout.onWay_cases husable hup htarget hway with hfolder | ⟨-, hapart⟩
      · rw [hnone] at hfolder
        cases hfolder
      · exact absurd rfl (hapart target htarget).2

include husable hup htarget in
/-- In a sound tree all that is on the way to a target before a file are folders. -/
theorem blockedAt_of_file (hout : project.HasOutput tree) (hsound : tree.Sound) {n : Nat}
    (hn : n < target.path.steps.length)
    (hfile : tree.kindAt (stop target.path n) = some false) : tree.BlockedAt target.path n := by
  obtain ⟨bytes, mtime, hentry⟩ := kindAt_eq_file.1 hfile
  refine ⟨fun m hm => ?_, bytes, mtime, hentry⟩
  rcases hout.stop_cases husable hup htarget (Nat.le_of_lt hn) with hfolder | ⟨names, hplace, hlength⟩
  · rw [hfolder] at hentry
    cases hentry
  rcases hout.stop_cases husable hup htarget (show m ≤ _ by omega) with
    hfolder | ⟨names', hplace', hlength'⟩
  · exact hfolder
  -- both lie above the place of the target, and the file lies deeper
  have hdeeper : (stop target.path m).length < (stop target.path n).length := by
    have hlengths := congrArg List.length (hplace.symm.trans hplace')
    rw [List.length_append, List.length_append] at hlengths
    omega
  have habove : stop target.path m <+: stop target.path n :=
    List.prefix_of_prefix_length_le ⟨names', hplace'.symm⟩ ⟨names, hplace.symm⟩
      (Nat.le_of_lt hdeeper)
  obtain ⟨rest, hrest⟩ := habove
  refine hsound.folder_of_append (show rest ≠ [] from ?_) ?_
  · rintro rfl
    rw [← hrest, List.append_nil] at hdeeper
    exact Nat.lt_irrefl _ hdeeper
  · rw [hrest, hentry]
    nofun

/-- The way to a file can be made if there is no file on it. -/
theorem run_makeWay_free (world : World) {path : Path} (h : path.isAbsolute)
    (hfree : ∀ n, n < path.steps.length → world.tree.kindAt (stop path n) ≠ some false) :
    (world.run (makeWay path)).1 = .ok () ∧
      ∃ tree, (world.run (makeWay path)).2 = { world with tree } ∧
        world.tree.Grown (OnWay path) tree ∧ tree.OpenTo path path.steps.length := by
  obtain ⟨tree, hrun, hgrown⟩ := run_makeWay world h
  obtain ⟨hopen, hblocked⟩ := made_makeWay world h
  have hok : (world.run (makeWay path)).1 = .ok () := by
    cases hresult : (world.run (makeWay path)).1 with
    | ok made => rfl
    | error failure =>
        obtain ⟨n, hn, -, bytes, mtime, hfile⟩ := hblocked failure hresult
        rw [hrun] at hfile
        rcases hgrown (stop path n) with hsame | ⟨-, hfolder, -⟩
        · exact absurd (kindAt_eq_file.2 ⟨bytes, mtime, hsame.symm.trans hfile⟩) (hfree n hn)
        · rw [hfile] at hfolder
          cases hfolder
  have hway := hopen hok
  rw [hrun] at hway
  exact ⟨hok, tree, hrun, hgrown, hway⟩

include husable hup htarget in
/-- What is at the place of a target after it was written. -/
theorem contentAt_of_written {text : String} {result : Except Files.Failure Unit}
    (hout : project.HasOutput tree) (h : Written target.path text result tree after) :
    contentAt after target =
      if result.isOk then some (some text.toUTF8) else contentAt tree target := by
  cases result with
  | ok written =>
      rw [if_pos (show (Except.ok written).isOk from rfl)]
      obtain ⟨mtime, hheld⟩ := h.held rfl
      unfold contentAt
      rw [hheld]
      rfl
  | error failure =>
      have habsolute := husable.isAbsolute_target htarget
      have heffect := h.elsewhere (place target.path) nofun
      rw [if_neg (fun hok => nomatch hok)]
      unfold contentAt
      generalize hbefore : tree.get? (place target.path) = before at heffect ⊢
      generalize after.get? (place target.path) = last at heffect ⊢
      cases heffect with
      | same => rfl
      | made hway => exact absurd hway (not_onWay_self husable hup htarget hout hbefore)
      | removed hlocation => exact absurd hlocation.symm (place_neighbour_ne_self habsolute)

include husable hup htarget in
/-- **A file is written with the same outcome** after the turns of other targets. -/
theorem writeWhole_beside (world now : World) (hout : project.HasOutput world.tree)
    (hsound : world.tree.Sound) (hsound' : now.tree.Sound) (hcurrent : now.current = world.current)
    (hbeside : Beside target world.tree now.tree) (text : String) :
    (now.run (writeWhole target.path text)).1 = (world.run (writeWhole target.path text)).1 := by
  have habsolute := husable.isAbsolute_target htarget
  have hout' : project.HasOutput now.tree := hout.mono hbeside.folder
  have hways : ∀ n, n < target.path.steps.length →
      (now.tree.kindAt (stop target.path n) = some false ↔
        world.tree.kindAt (stop target.path n) = some false) := by
    intro n hn
    unfold kindAt
    rcases hbeside.way (stop target.path n) ⟨n, hn, rfl⟩ with hsame | ⟨hnone, hfolder⟩
    · rw [hsame]
    · rw [hnone, hfolder]
      exact ⟨nofun, nofun⟩
  rw [run_writeWhole_of_makeWay, run_writeWhole_of_makeWay]
  by_cases hfile : ∃ n, n < target.path.steps.length ∧
      world.tree.kindAt (stop target.path n) = some false
  · obtain ⟨n, hn, hfile⟩ := hfile
    have hblocked := blockedAt_of_file husable hup htarget hout hsound hn hfile
    have hblocked' := blockedAt_of_file husable hup htarget hout' hsound' hn ((hways n hn).2 hfile)
    rw [run_makeWay_blocked world habsolute hn hblocked,
      run_makeWay_blocked now habsolute hn hblocked']
  · have hfree : ∀ n, n < target.path.steps.length →
        world.tree.kindAt (stop target.path n) ≠ some false :=
      fun n hn hthere => hfile ⟨n, hn, hthere⟩
    obtain ⟨hok, tree, hrun, hgrown, hopen⟩ := run_makeWay_free world habsolute hfree
    obtain ⟨hok', tree', hrun', hgrown', hopen'⟩ := run_makeWay_free now habsolute
      fun n hn hthere => hfree n hn ((hways n hn).1 hthere)
    obtain ⟨hplace, hspare⟩ := get?_of_grown husable hup htarget hout hgrown
    obtain ⟨hplace', hspare'⟩ := get?_of_grown husable hup htarget hout' hgrown'
    have hmade : world.run (makeWay target.path) = (.ok (), { world with tree }) :=
      Prod.ext hok hrun
    have hmade' : now.run (makeWay target.path) = (.ok (), { now with tree := tree' }) :=
      Prod.ext hok' hrun'
    rw [hmade, hmade']
    refine replaceFile_congr habsolute hcurrent hopen' (fun n hn => ?_) ?_
    · dsimp only
      by_cases hlast : n < target.path.steps.length
      · rw [kindAt_eq_folder.2 (hopen n hlast), kindAt_eq_folder.2 (hopen' n hlast)]
      · rw [show n = target.path.steps.length by omega, stop_length habsolute]
        unfold kindAt
        rw [hplace, hplace', hbeside.place]
    · dsimp only
      unfold kindAt
      rw [hspare, hspare', hbeside.spare]

include husable hup htarget in
theorem contentAt_writeWhole (world now : World) (hout : project.HasOutput world.tree)
    (hsound : world.tree.Sound) (hsound' : now.tree.Sound) (hcurrent : now.current = world.current)
    (hbeside : Beside target world.tree now.tree) (text : String) :
    contentAt (now.run (writeWhole target.path text)).2.tree target =
      contentAt (world.run (writeWhole target.path text)).2.tree target := by
  have habsolute := husable.isAbsolute_target htarget
  have hout' : project.HasOutput now.tree := hout.mono hbeside.folder
  obtain ⟨tree, clock, hrun, hwritten⟩ := run_writeWhole world habsolute text
  obtain ⟨tree', clock', hrun', hwritten'⟩ := run_writeWhole now habsolute text
  rw [writeWhole_beside husable hup htarget world now hout hsound hsound' hcurrent hbeside]
    at hwritten'
  rw [hrun, hrun', contentAt_of_written husable hup htarget hout hwritten,
    contentAt_of_written husable hup htarget hout' hwritten']
  unfold contentAt
  rw [hbeside.place]

end Writing

/-! ## The turn of a target -/

section Turn

variable {now : World} (husable : project.Usable)
  (hup : ".." ∉ piecesOf (fillBase base.toList project.config.target.toList))
  (htarget : target ∈ project.targets base) (hout : project.HasOutput world.tree)
  (hsound : world.tree.Sound) (hbeside : Beside target world.tree now.tree)

include husable hup htarget hout hsound hbeside in
theorem existsIn_beside : existsIn now target.path = existsIn world target.path := by
  rw [Bool.eq_iff_iff]
  refine ⟨existsIn_of_kept husable hup hout hsound htarget hbeside.folder hbeside.place,
    fun hexists => ?_⟩
  have habsolute := husable.isAbsolute_target htarget
  obtain ⟨hleads, hthere⟩ := (existsIn_iff habsolute).1 hexists
  refine (existsIn_iff habsolute).2 ⟨hleads.mono hbeside.folder, ?_⟩
  rw [hbeside.place]
  exact hthere

include husable hup htarget hout hsound hbeside in
/-- **The turn of a target comes to the same end** after the turns of other targets, if these
leave its inputs as they are. -/
theorem turn_beside (hlayers : context.compactor = .localized) (hsound' : now.tree.Sound)
    (hcurrent : now.current = world.current)
    (hinputs : SameInputs context target.language world now)
    (hafter : SameInputs context target.language
      (world.run (context.buildTarget target old)).2 (now.run (context.buildTarget target old)).2) :
    (now.run (context.buildTarget target old)).1 =
        (world.run (context.buildTarget target old)).1 ∧
      contentAt (now.run (context.buildTarget target old)).2.tree target =
        contentAt (world.run (context.buildTarget target old)).2.tree target := by
  have hfound : isUpToDateIn now context target old = isUpToDateIn world context target old := by
    unfold isUpToDateIn
    rw [existsIn_beside husable hup htarget hout hsound hbeside]
    cases old with
    | none => rfl
    | some old => rw [Option.any_some, Option.any_some, hinputs.isFreshIn]
  have hmade := hinputs.bundleIn .localized
  cases hupToDate : isUpToDateIn world context target old with
  | true =>
      rw [Context.run_buildTarget_upToDate hupToDate,
        Context.run_buildTarget_upToDate (hfound.trans hupToDate)]
      refine ⟨rfl, ?_⟩
      unfold contentAt
      rw [hbeside.place]
  | false =>
      have hupToDate' := hfound.trans hupToDate
      cases hbundle : bundleIn (inWorld world) .localized (context.recipe target.language) with
      | error failure =>
          obtain ⟨modules, hrun⟩ := Context.run_buildTarget_error hlayers hupToDate hbundle
          obtain ⟨modules', hrun'⟩ :=
            Context.run_buildTarget_error hlayers hupToDate' (hmade.symm.trans hbundle)
          rw [hrun, hrun']
          refine ⟨rfl, ?_⟩
          unfold contentAt
          rw [hbeside.place]
      | ok bundle =>
          obtain ⟨modules, hrun⟩ := Context.run_buildTarget_ok hlayers hupToDate hbundle
          obtain ⟨modules', hrun'⟩ :=
            Context.run_buildTarget_ok hlayers hupToDate' (hmade.symm.trans hbundle)
          have hresult := writeWhole_beside husable hup htarget { world with modules }
            { now with modules := modules' } hout hsound hsound' hcurrent hbeside bundle.text
          have hcontent := contentAt_writeWhole husable hup htarget { world with modules }
            { now with modules := modules' } hout hsound hsound' hcurrent hbeside bundle.text
          have hsources := Bundle.sources_of_bundleIn hbundle
          rw [hrun, hrun'] at hafter ⊢
          generalize World.run { world with modules } _ = reply at hresult hcontent hafter ⊢
          generalize World.run { now with modules := modules' } _ = reply'
            at hresult hcontent hafter ⊢
          obtain ⟨written, last⟩ := reply
          obtain ⟨written', last'⟩ := reply'
          dsimp only at hresult
          subst hresult
          cases written' with
          | error failure => exact ⟨rfl, hcontent⟩
          | ok written =>
              refine ⟨?_, hcontent⟩
              have hrecord := hafter.recordIn
              dsimp only at hrecord ⊢
              rw [hsources, ← hrecord]

end Turn

end KeysetBundle.Build
