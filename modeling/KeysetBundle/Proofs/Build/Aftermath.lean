import KeysetBundle.Proofs.Build.Failures
import KeysetBundle.Proofs.Build.SameInputs
import KeysetBundle.Proofs.Build.Surroundings
import KeysetBundle.Proofs.Files.Refusal

/-!
# The other turns of a build

What the turns of other targets, and the saving of the ledger, leave of one target: of what stood
in its way, of its artifact, and of the answer to whether it is there.

Main results.

- `Later`: what is kept of a target after its turn; `Project.later_of_split`: in every build.
- `Project.place_of_split`: a target that does not go up is changed by its own turn only.
- `existsIn_of_kept`: such a target is not there just because a way was made.
-/

namespace KeysetBundle.Build

open Context (Ending SameInputs existsIn existsIn_iff)
open Files
open Freshness
open KeysetBundle.Path (piecesOf)
open Report (Outcome)
open TargetName (fillBase)

variable {context : Context} {project : Project} {base : String} {world : World} {force : Bool}
  {target other : Target} {tree after : FileTree} {old record : Option Record} {outcome : Outcome}

/-! ## What the rest of a build leaves -/

/-- What is kept of a target in the turns after its own. -/
structure Later (target : Target) (tree after : FileTree) : Prop where
  /-- Folders stay. -/
  folder : ∀ location, tree.get? location = some .folder → after.get? location = some .folder
  /-- Something stays at its path. -/
  there : tree.get? (place target.path) ≠ none → after.get? (place target.path) ≠ none
  /-- A file in its way stays a file. -/
  way : ∀ location, OnWay target.path location → tree.kindAt location = some false →
    after.kindAt location = some false
  /-- No file comes to its neighbour. -/
  spare : tree.kindAt (place (neighbour target.path)) ≠ some false →
    after.kindAt (place (neighbour target.path)) ≠ some false

theorem Later.refl (target : Target) (tree : FileTree) : Later target tree tree :=
  ⟨fun _ h => h, fun h => h, fun _ _ h => h, fun h => h⟩

theorem Later.trans {last : FileTree} (h : Later target tree after) (h' : Later target after last) :
    Later target tree last :=
  ⟨fun location hfolder => h'.folder location (h.folder location hfolder),
    fun hthere => h'.there (h.there hthere),
    fun location hway hfile => h'.way location hway (h.way location hway hfile),
    fun hspare => h'.spare (h.spare hspare)⟩

instance (path : Path) (location : Location) : Decidable (OnWay path location) :=
  decidable_of_iff (∃ n ∈ List.range path.steps.length,
      location = (path.steps.take n).foldl walk [])
    ⟨fun ⟨n, hn, hlocation⟩ => ⟨n, List.mem_range.1 hn, hlocation⟩,
      fun ⟨n, hn, hlocation⟩ => ⟨n, List.mem_range.2 hn, hlocation⟩⟩

/-- No file that is there before a build lies at the neighbour of one target and on the way to
another one. -/
def WaysClear (project : Project) (base : String) (tree : FileTree) : Prop :=
  ∀ target ∈ project.targets base, ∀ other ∈ project.targets base, other ≠ target →
    OnWay target.path (place (neighbour other.path)) →
    tree.kindAt (place (neighbour other.path)) ≠ some false

instance (project : Project) (base : String) (tree : FileTree) :
    Decidable (WaysClear project base tree) :=
  inferInstanceAs (Decidable (∀ target ∈ project.targets base, ∀ other ∈ project.targets base,
    other ≠ target → OnWay target.path (place (neighbour other.path)) →
      tree.kindAt (place (neighbour other.path)) ≠ some false))

/-- The files at the neighbours of targets are as old as a tree. -/
def SparesOf (project : Project) (base : String) (tree after : FileTree) : Prop :=
  ∀ target ∈ project.targets base, after.kindAt (place (neighbour target.path)) = some false →
    tree.kindAt (place (neighbour target.path)) = some false

theorem file_of_built (hending : Ending context target old world (outcome, record) tree)
    (hbuilt : isBuilt outcome) : tree.kindAt (place target.path) = some false := by
  cases hending with
  | upToDate => cases hbuilt
  | failed => cases hbuilt
  | built hbundle hwritten =>
      obtain ⟨mtime, hfile⟩ := hwritten.held rfl
      exact FileTree.kindAt_eq_file.2 ⟨_, mtime, hfile⟩

/-- What the turn of a target does to the place of another file. -/
theorem effect_of_ending (hending : Ending context target old world (outcome, record) tree)
    (location : Location) :
    SideEffect target.path location (world.tree.get? location) (tree.get? location) ∨
      tree.kindAt location = some false := by
  by_cases hbuilt : isBuilt outcome = true ∧ location = place target.path
  · obtain ⟨hbuilt, rfl⟩ := hbuilt
    exact .inr (file_of_built hending hbuilt)
  · exact .inl (sideEffect_of_ending hending fun h hlocation => hbuilt ⟨h, hlocation⟩)

theorem kindAt_eq_none {location : Location} :
    tree.kindAt location = none ↔ tree.get? location = none := by
  unfold FileTree.kindAt
  rw [Option.map_eq_none_iff]

/-- No file comes to the neighbour of a target. -/
theorem spare_of_ending (husable : project.Usable) (htarget : target ∈ project.targets base)
    (hother : other ∈ project.targets base)
    (hending : Ending context other old world (outcome, record) tree)
    (hfile : tree.kindAt (place (neighbour target.path)) = some false) :
    world.tree.kindAt (place (neighbour target.path)) = some false := by
  have heffect : SideEffect other.path (place (neighbour target.path)) _ _ :=
    sideEffect_of_ending hending fun _ => husable.neighbour_apart htarget hother
  obtain ⟨bytes, mtime, hthere⟩ := FileTree.kindAt_eq_file.1 hfile
  rw [hthere] at heffect
  exact FileTree.kindAt_eq_file.2 ⟨bytes, mtime, heffect.file⟩

theorem Later.of_ending {start : FileTree} (husable : project.Usable)
    (hclear : WaysClear project base start) (hspares : SparesOf project base start world.tree)
    (htarget : target ∈ project.targets base) (hother : other ∈ project.targets base)
    (hne : other ≠ target) (hending : Ending context other old world (outcome, record) tree) :
    Later target world.tree tree := by
  refine ⟨fun location => folder_of_ending hending, fun hthere hgone => ?_,
    fun location hway hfile => ?_, fun hspare hfile => ?_⟩
  · -- only neighbours are removed
    rcases effect_of_ending hending (place target.path) with heffect | hfile
    · rw [hgone] at heffect
      generalize world.tree.get? (place target.path) = before at heffect hthere
      cases heffect with
      | same => exact hthere rfl
      | removed hlocation => exact husable.neighbour_apart hother htarget hlocation.symm
    · rw [kindAt_eq_none.2 hgone] at hfile
      cases hfile
  · rcases effect_of_ending hending location with heffect | hbuilt
    · obtain ⟨bytes, mtime, hthere⟩ := FileTree.kindAt_eq_file.1 hfile
      rw [hthere] at heffect
      generalize hlast : tree.get? location = last at heffect
      cases heffect with
      | same => exact FileTree.kindAt_eq_file.2 ⟨bytes, mtime, hlast⟩
      | removed hlocation =>
          subst hlocation
          exact absurd (hspares other hother hfile) (hclear target htarget other hother hne hway)
    · exact hbuilt
  · exact hspare (spare_of_ending husable htarget hother hending hfile)

theorem kindAt_set {location spot : Location} {bytes : ByteArray} {mtime : Int}
    (h : spot ≠ []) : (tree.set spot (.file bytes mtime)).kindAt location =
      if location = spot then some false else tree.kindAt location := by
  unfold FileTree.kindAt
  rw [FileTree.get?_set _ h]
  split <;> rfl

/-- Saving the ledger keeps all this too. -/
theorem Later.saved (husable : project.Usable) (htarget : target ∈ project.targets base) :
    Later target (project.turnsIn world force).2.tree (project.savedIn world force).2.tree := by
  have hclosing : Closing _ _ _ _ (project.savedIn world force) :=
    Project.closing husable.isAbsolute_ledgerFile
  generalize project.savedIn world force = reply at hclosing ⊢
  cases hclosing with
  | idle hnone => exact .refl _ _
  | refused cause => exact .refl _ _
  | written hnew hne hfree hleads =>
      refine ⟨fun location => FileTree.get?_set_folder hne hfree, fun hthere => ?_,
        fun location _ hfile => ?_, fun hspare => ?_⟩
      · dsimp only
        rw [FileTree.get?_set _ hne]
        split
        · nofun
        · exact hthere
      · dsimp only
        rw [kindAt_set hne, hfile, ite_self]
      · dsimp only
        rw [kindAt_set hne,
          if_neg (husable.ledger_apart (husable.isAbsolute_target htarget)).symm]
        exact hspare

/-- Worlds that are alike have the same inputs. -/
theorem sameInputs_of_alike {now last : World} (h : Alike now last) (context : Context)
    (language : Language) : SameInputs context language now last :=
  ⟨fun path _ => h.readText path, fun path _ => h.stat path⟩

/-! ## The turn of a target in a build -/

namespace Project

/-- The world after the turns of some targets. -/
def worldAfter (world : World) (project : Project) (force : Bool) (targets : List Target) : World :=
  (world.run (takeTurns (project.contextIn world force) (loadedIn world project.ledgerFile)
    targets)).2

/-- The turn of a target after those of others. -/
def turnAfter (world : World) (project : Project) (force : Bool) (front : List Target)
    (target : Target) : (Outcome × Option Record) × World :=
  (project.worldAfter world force front).run ((project.contextIn world force).buildTarget target
    ((loadedIn world project.ledgerFile).get? target.path))

/-- Every turn is that of a target after those in front of it. -/
theorem turnAfter_of_turn {turn : Turn} (hturn : turn ∈ (project.turnsIn world force).1) :
    ∃ front back, project.targetsIn world = front ++ turn.1 :: back ∧
      (project.turnAfter world force front turn.1).1 = turn.2 := by
  obtain ⟨front, back, hsplit, hown⟩ := exists_split hturn
  exact ⟨front, back, hsplit, hown.symm⟩

section Split

variable {front back : List Target} {target : Target}

theorem worldAfter_append (front back : List Target) :
    project.worldAfter world force (front ++ back) =
      ((project.worldAfter world force front).run (takeTurns (project.contextIn world force)
        (loadedIn world project.ledgerFile) back)).2 := by
  unfold worldAfter
  rw [run_takeTurns_append]

theorem worldAfter_cons (front back : List Target) (target : Target) :
    project.worldAfter world force (front ++ target :: back) =
      ((project.turnAfter world force front target).2.run
        (takeTurns (project.contextIn world force) (loadedIn world project.ledgerFile) back)).2 := by
  rw [worldAfter_append, run_takeTurns_cons]
  rfl

theorem current_takeTurns {ledger : Ledger} {targets : List Target} (husable : project.Usable)
    (hlayers : context.compactor = .localized)
    (htargets : ∀ target ∈ targets, target ∈ project.targets base) :
    (world.run (takeTurns context ledger targets)).2.current = world.current := by
  refine takeTurns_keeps (P := fun now => now.current = world.current)
    (fun other hother now hnow => ?_) rfl
  obtain ⟨hcurrent, -⟩ := Context.run_buildTarget now (ledger.get? other.path) hlayers
    (husable.isAbsolute_target (htargets other hother))
  exact hcurrent.trans hnow

theorem folder_takeTurns {ledger : Ledger} {targets : List Target} (husable : project.Usable)
    (hlayers : context.compactor = .localized)
    (htargets : ∀ target ∈ targets, target ∈ project.targets base) {location : Location}
    (hfolder : world.tree.get? location = some .folder) :
    (world.run (takeTurns context ledger targets)).2.tree.get? location = some .folder := by
  exact takeTurns_keeps_tree (P := fun tree => tree.get? location = some .folder) hlayers
    (fun other hother => husable.isAbsolute_target (htargets other hother))
    (fun other hother now turn after hnow hending => folder_of_ending hending hnow) hfolder

theorem sparesOf_takeTurns {ledger : Ledger} {targets : List Target} (husable : project.Usable)
    (hlayers : context.compactor = .localized)
    (htargets : ∀ target ∈ targets, target ∈ project.targets base)
    (h : SparesOf project base tree world.tree) :
    SparesOf project base tree (world.run (takeTurns context ledger targets)).2.tree := by
  refine takeTurns_keeps_tree (P := SparesOf project base tree) hlayers
    (fun other hother => husable.isAbsolute_target (htargets other hother))
    (fun other hother now turn after hnow hending => ?_) h
  exact fun target htarget hfile => hnow target htarget
    (spare_of_ending husable htarget (htargets other hother) hending hfile)

variable (husable : project.Usable)
  (hsplit : project.targetsIn world = front ++ target :: back)

include husable hsplit in
/-- The turn of a target comes to one of its ends. -/
theorem ending_turnAfter (force : Bool) :
    (project.turnAfter world force front target).2.current =
        (project.worldAfter world force front).current ∧
      Ending (project.contextIn world force) target
        ((loadedIn world project.ledgerFile).get? target.path)
        (project.worldAfter world force front) (project.turnAfter world force front target).1
        (project.turnAfter world force front target).2.tree :=
  Context.run_buildTarget _ _ rfl
    (husable.isAbsolute_target (target_of_split hsplit))

include husable hsplit in
theorem current_worldAfter : (project.worldAfter world force front).current = world.current :=
  current_takeTurns husable rfl fun other hother => mem_of_split hsplit (by simp [hother])

include hsplit in
theorem turnsIn_of_split :
    (project.turnsIn world force).2 = project.worldAfter world force (front ++ target :: back) := by
  unfold turnsIn worldAfter
  rw [hsplit]

include husable hsplit in
/-- **What the rest of a build keeps of a target.** -/
theorem later_of_split (hclear : WaysClear project (project.baseIn world) world.tree) :
    Later target (project.turnAfter world force front target).2.tree
      (project.savedIn world force).2.tree := by
  have htarget := target_of_split hsplit
  obtain ⟨-, hending⟩ := ending_turnAfter husable hsplit force
  have hspares : SparesOf project (project.baseIn world) world.tree
      (project.worldAfter world force front).tree :=
    sparesOf_takeTurns husable rfl (fun other hother => mem_of_split hsplit (by simp [hother]))
      fun _ _ hfile => hfile
  have hspares' : SparesOf project (project.baseIn world) world.tree
      (project.turnAfter world force front target).2.tree :=
    fun other hother hfile => hspares other hother
      (spare_of_ending husable hother htarget hending hfile)
  have hturns : Later target (project.turnAfter world force front target).2.tree
      (project.turnsIn world force).2.tree := by
    rw [turnsIn_of_split hsplit, worldAfter_cons]
    have hback : ∀ other ∈ back, other ∈ project.targets (project.baseIn world) :=
      fun other hother => mem_of_split hsplit (by simp [hother])
    refine (takeTurns_keeps_tree (P := fun tree =>
      Later target (project.turnAfter world force front target).2.tree tree ∧
        SparesOf project (project.baseIn world) world.tree tree) rfl
      (fun other hother => husable.isAbsolute_target (hback other hother))
      (fun other hother now turn after hnow hother' => ?_) ⟨.refl _ _, hspares'⟩).1
    refine ⟨hnow.1.trans (.of_ending husable hclear hnow.2 htarget (hback other hother)
      (ne_of_split hsplit husable (.inr hother)) hother'), fun one hone hfile => ?_⟩
    exact hnow.2 one hone (spare_of_ending husable hone (hback other hother) hother' hfile)
  exact hturns.trans (.saved husable htarget)

include husable hsplit in
theorem hasOutput_worldAfter (hout : project.HasOutput world.tree) :
    project.HasOutput (project.worldAfter world force front).tree :=
  hout.mono fun _ => folder_takeTurns husable rfl fun other hother =>
    mem_of_split hsplit (by simp [hother])

include husable hsplit in
/-- If a target does not go up, the rest of a build leaves its place as it was after its turn. -/
theorem place_savedIn_of_split
    (hup : ".." ∉ piecesOf (fillBase (project.baseIn world).toList project.config.target.toList))
    (hout : project.HasOutput world.tree)
    (hledger : place target.path ≠ place project.ledgerFile) :
    (project.savedIn world force).2.tree.get? (place target.path) =
      (project.turnAfter world force front target).2.tree.get? (place target.path) := by
  have htarget := target_of_split hsplit
  obtain ⟨-, hending⟩ := ending_turnAfter husable hsplit force
  have hback : ∀ other ∈ back, other ∈ project.targets (project.baseIn world) :=
    fun other hother => mem_of_split hsplit (by simp [hother])
  rw [get?_savedIn_of_ne husable.isAbsolute_ledgerFile hledger, turnsIn_of_split hsplit,
    worldAfter_cons]
  refine (takeTurns_keeps_tree (P := fun tree => tree.get? (place target.path) =
    (project.turnAfter world force front target).2.tree.get? (place target.path) ∧
      project.HasOutput tree) rfl
    (fun other hother => husable.isAbsolute_target (hback other hother))
    (fun other hother now turn after hnow hother' => ?_)
    ⟨rfl, (hasOutput_worldAfter husable hsplit hout).mono fun _ => folder_of_ending hending⟩).1
  refine ⟨?_, hnow.2.mono fun _ => folder_of_ending hother'⟩
  rw [get?_place_of_ending husable hup hnow.2 htarget (hback other hother) hother'
    fun _ => ne_of_split hsplit husable (.inr hother)]
  exact hnow.1

include husable hsplit in
/-- If a target does not go up and is not built, its place is as it was before its turn. -/
theorem place_of_split
    (hup : ".." ∉ piecesOf (fillBase (project.baseIn world).toList project.config.target.toList))
    (hout : project.HasOutput world.tree)
    (hledger : place target.path ≠ place project.ledgerFile)
    (hnot : ¬isBuilt (project.turnAfter world force front target).1.1) :
    (project.savedIn world force).2.tree.get? (place target.path) =
      (project.worldAfter world force front).tree.get? (place target.path) := by
  have htarget := target_of_split hsplit
  obtain ⟨-, hending⟩ := ending_turnAfter husable hsplit force
  rw [place_savedIn_of_split husable hsplit hup hout hledger]
  exact get?_place_of_ending husable hup (hasOutput_worldAfter husable hsplit hout) htarget htarget
    hending fun hbuilt => absurd hbuilt hnot

end Split

end Project

/-! ## The end of a build -/

theorem current_savedIn (husable : project.Usable) :
    (project.savedIn world force).2.current = world.current := by
  have hturns : (project.turnsIn world force).2.current = world.current :=
    Project.current_takeTurns husable rfl fun target htarget => htarget
  have hclosing : Closing _ _ _ _ (project.savedIn world force) :=
    Project.closing husable.isAbsolute_ledgerFile
  generalize project.savedIn world force = reply at hclosing ⊢
  cases hclosing <;> exact hturns

/-- The folder for the artifacts stays. -/
theorem hasOutput_savedIn (husable : project.Usable) (hout : project.HasOutput world.tree) :
    project.HasOutput (project.savedIn world force).2.tree :=
  hout.mono fun _ hfolder => Project.folder_savedIn husable.isAbsolute_ledgerFile
    (Project.folder_takeTurns husable rfl (fun _ htarget => htarget) hfolder)

/-- **The records that the next build loads**: the new ones, and the old ones of targets without a
new one. -/
theorem get?_loadedIn_savedIn (husable : project.Usable) (hout : project.HasOutput world.tree)
    (hledger : ∀ target ∈ project.targetsIn world, place target.path ≠ place project.ledgerFile)
    (hfits : ∀ turn ∈ (project.turnsIn world force).1, ∀ record, turn.2.2 = some record →
      record.Fits)
    (hsaved : (project.savedIn world force).1 = .ok ()) {turn : Turn}
    (hturn : turn ∈ (project.turnsIn world force).1) :
    (loadedIn (project.savedIn world force).2 project.ledgerFile).get? turn.1.path =
      turn.2.2.or ((loadedIn world project.ledgerFile).get? turn.1.path) := by
  have hnodup : ((project.turnsIn world force).1.map (·.1.path)).Nodup :=
    Project.nodup_turnsIn husable
  by_cases hany : (project.turnsIn world force).1.any fun turn => turn.2.2.isSome
  · rw [Project.loadedIn_savedIn_of_fits husable hfits hany hsaved]
    cases hrecord : turn.2.2 with
    | some record => exact get?_recordAll_of_mem hnodup hturn hrecord
    | none =>
        rw [get?_recordAll_of_none, Option.none_or]
        intro other hother hpath
        rw [eq_of_nodup_map hnodup hother hturn hpath]
        exact hrecord
  · have hnone := not_any_isSome.1 hany
    have hout' : project.HasOutput (project.turnsIn world force).2.tree :=
      hout.mono fun _ => Project.folder_takeTurns husable rfl fun target htarget => htarget
    rw [Project.savedIn_of_no_records hnone, hnone turn hturn, Option.none_or,
      loadedIn_of_leads husable.isAbsolute_ledgerFile (hout'.leads_ledgerFile husable),
      ledgerIn_turnsIn husable hledger,
      loadedIn_of_leads husable.isAbsolute_ledgerFile (hout.leads_ledgerFile husable)]

/-! ## Targets that are there -/

/-- A target that was there after its turn is there at the end. -/
theorem Later.existsIn {now last : World} (h : Later target now.tree last.tree)
    (habsolute : target.path.isAbsolute) (hexists : existsIn now target.path) :
    Context.existsIn last target.path := by
  obtain ⟨hleads, hthere⟩ := (existsIn_iff habsolute).1 hexists
  exact (existsIn_iff habsolute).2 ⟨hleads.mono h.folder, h.there hthere⟩

/-- A target that does not go up is not there just because the way to it was made: in a sound tree
what is at its place can be reached. -/
theorem existsIn_of_kept {now last : World} (husable : project.Usable)
    (hup : ".." ∉ piecesOf (fillBase base.toList project.config.target.toList))
    (hout : project.HasOutput now.tree) (hsound : now.tree.Sound)
    (htarget : target ∈ project.targets base)
    (hfolder : ∀ location, now.tree.get? location = some .folder →
      last.tree.get? location = some .folder)
    (hplace : last.tree.get? (place target.path) = now.tree.get? (place target.path))
    (hexists : existsIn last target.path) : existsIn now target.path := by
  have habsolute := husable.isAbsolute_target htarget
  obtain ⟨hleads, hthere⟩ := (existsIn_iff habsolute).1 hexists
  rw [hplace] at hthere
  have hkinds : ∀ n, n ≤ target.path.steps.length →
      now.tree.kindAt (stop target.path n) = last.tree.kindAt (stop target.path n) := by
    intro n hn
    have hopen : now.tree.get? (stop target.path n) = some .folder →
        now.tree.kindAt (stop target.path n) = last.tree.kindAt (stop target.path n) := by
      intro hstop
      rw [FileTree.kindAt_eq_folder.2 hstop, FileTree.kindAt_eq_folder.2 (hfolder _ hstop)]
    rcases hout.stop_cases husable hup htarget hn with hstop | ⟨names, hnames, -⟩
    · exact hopen hstop
    · by_cases hempty : names = []
      · rw [hempty, List.append_nil] at hnames
        unfold FileTree.kindAt
        rw [← hnames, hplace]
      · rw [hnames] at hthere
        exact hopen (hsound.folder_of_append hempty hthere)
  refine (existsIn_iff habsolute).2 ⟨?_, hthere⟩
  unfold FileTree.Leads at hleads ⊢
  rw [FileTree.walk_congr hkinds]
  exact hleads

end KeysetBundle.Build
