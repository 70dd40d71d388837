import KeysetBundle.Proofs.Build.Layout
import KeysetBundle.Proofs.Build.Turns
import KeysetBundle.Proofs.Files.Sound

/-!
# What lies around targets

If the folder for the artifacts is there, the way to a target leads over
folders that are there and then down to its place.  Where the targets do not go
up, whatever lies further down is shorter than the places of all targets and of
their neighbours, so the turn of one target takes nothing from the way to
another one and does not touch its place.

Main results.

- `Project.HasOutput.onWay_cases`: what can be on the way to a target.
- `Project.get?_place_of_ending`: the turn of a target leaves the places of other
  targets as they are.
-/

namespace KeysetBundle.Build

open Context (Ending)
open Files
open Freshness
open KeysetBundle.Path (piecesOf stepsOf)
open Report (Outcome)
open TargetName (fillBase)

namespace Project

variable {project : Project} {base : String} {tree after : FileTree} {target other : Target}

/-- The folder for the artifacts is there. -/
structure HasOutput (project : Project) (tree : FileTree) : Prop where
  /-- The way to it can be gone. -/
  leads : tree.Leads (project.config.outputPath project.root)
  /-- It is a folder. -/
  isFolder : tree.isFolder (place (project.config.outputPath project.root))

instance (project : Project) (tree : FileTree) : Decidable (project.HasOutput tree) :=
  decidable_of_iff (tree.Leads (project.config.outputPath project.root) ∧
    tree.isFolder (place (project.config.outputPath project.root)))
    ⟨fun ⟨hleads, hfolder⟩ => ⟨hleads, hfolder⟩, fun h => ⟨h.leads, h.isFolder⟩⟩

namespace HasOutput

theorem mono (h : project.HasOutput tree)
    (hkeep : ∀ location, tree.get? location = some .folder → after.get? location = some .folder) :
    project.HasOutput after :=
  ⟨h.leads.mono hkeep,
    FileTree.isFolder_iff.2 (hkeep _ (FileTree.isFolder_iff.1 h.isFolder))⟩

theorem openTo (h : project.HasOutput tree) (husable : project.Usable) :
    tree.OpenTo (project.config.outputPath project.root)
      ((project.config.outputPath project.root).steps.length + 1) :=
  FileTree.openTo_succ husable.isAbsolute_outputPath (FileTree.openTo_of_leads h.leads)
    (FileTree.isFolder_iff.1 h.isFolder)

/-- The way to the ledger can be gone. -/
theorem leads_ledgerFile (h : project.HasOutput tree) (husable : project.Usable) :
    tree.Leads project.ledgerFile :=
  FileTree.leads_joinText husable.isAbsolute_outputPath isName_fileName (h.openTo husable)

/-- The base name is the same as long as the folder for the artifacts is there. -/
theorem baseIn_eq {world now : World} (h : project.HasOutput world.tree)
    (h' : project.HasOutput now.tree) (husable : project.Usable) :
    project.baseIn now = project.baseIn world := by
  have habsolute := husable.isAbsolute_outputPath
  have hname : project.config.base = none → ∀ some : World, project.HasOutput some.tree →
      project.baseIn some = ((FileTree.pathOf (place
        (project.config.outputPath project.root))).fileName?).getD Config.fallbackBase := by
    intro hbase some hsome
    have hresolve : some.tree.resolve some.current (project.config.outputPath project.root) =
        .ok (_, _) :=
      (FileTree.resolve_eq_ok habsolute).2
        ⟨hsome.leads, rfl, FileTree.isFolder_iff.1 hsome.isFolder⟩
    have hcanonical : some.tree.canonicalize some.current
        (project.config.outputPath project.root) =
        .ok (FileTree.pathOf (place (project.config.outputPath project.root))) := by
      unfold FileTree.canonicalize
      rw [hresolve]
      rfl
    have hanswer : (World.answer
        (.canonicalize (project.config.outputPath project.root)) some).1 = .ok _ := hcanonical
    unfold baseIn Config.baseName
    rw [hbase]
    refine (congrArg Prod.fst (Program.run_request_bind World.answer _ _ some)).trans ?_
    rw [hanswer]
    simp only [Program.run_pure]
  cases hbase : project.config.base with
  | some base => rw [Project.baseIn_eq now hbase, Project.baseIn_eq world hbase]
  | none => rw [hname hbase now h', hname hbase world h]

/-- **What is at the stops of a target**: folders that are there, or what its place lies below. -/
theorem stop_cases (h : project.HasOutput tree) (husable : project.Usable)
    (hup : ".." ∉ piecesOf (fillBase base.toList project.config.target.toList))
    (htarget : target ∈ project.targets base) {n : Nat} (hn : n ≤ target.path.steps.length) :
    tree.get? (stop target.path n) = some .folder ∨
      ∃ names, place target.path = stop target.path n ++ names ∧
        names.length = target.path.steps.length - n := by
  obtain ⟨front, hcases, hfront⟩ := husable.exists_place hup
  obtain ⟨names, -, hsteps, hplace⟩ := hfront target htarget
  have hstop : stop target.path n = stopFrom [] (front ++ names.map .name) n := by
    rw [stop, hsteps]
  by_cases hfew : n ≤ front.length
  · left
    rw [hstop, stopFrom_append_left _ _ hfew]
    rcases hcases with rfl | rfl
    · have hzero : n = 0 := by simpa using hfew
      rw [hzero, stopFrom_zero]
      rfl
    · exact h.openTo husable n (by omega)
  · right
    obtain ⟨m, rfl⟩ := Nat.exists_eq_add_of_le (Nat.le_of_not_le hfew)
    rw [hsteps, List.length_append, List.length_map] at hn
    refine ⟨names.drop m, ?_, ?_⟩
    · rw [hplace, hstop, stopFrom_append_right, stopFrom, ← List.map_take, foldl_walk_names,
        List.append_assoc, List.take_append_drop]
    · rw [hsteps, List.length_append, List.length_map, List.length_drop]
      omega

end HasOutput

/-! ## Lengths of places -/

/-- All targets that do not go up have places of the same length. -/
theorem Usable.length_place (husable : project.Usable)
    (hup : ".." ∉ piecesOf (fillBase base.toList project.config.target.toList))
    (htarget : target ∈ project.targets base) (hother : other ∈ project.targets base) :
    (place target.path).length = (place other.path).length := by
  obtain ⟨front, -, hfront⟩ := husable.exists_place hup
  obtain ⟨names, -, hsteps, hplace⟩ := hfront target htarget
  obtain ⟨names', -, hsteps', hplace'⟩ := hfront other hother
  have hshapes := congrArg List.length (husable.shapes htarget hother)
  rw [List.length_map, List.length_map, hsteps, hsteps', List.length_append, List.length_append,
    List.length_map, List.length_map] at hshapes
  rw [hplace, hplace', List.length_append, List.length_append]
  omega

/-- A neighbour does not lie above a file. -/
theorem length_place_le {path : Path} (h : path.isAbsolute) :
    (place path).length ≤ (place (neighbour path)).length := by
  rw [place_eq h, place_neighbour h]
  cases hname : path.fileName? with
  | none => simp
  | some name =>
      have hsteps := Path.fileName?_eq_some h hname
      conv => lhs; rw [hsteps]
      rw [Option.isSome_some, if_pos rfl, List.foldl_append, List.length_append]
      simp [walk]

/-- **What can be on the way to a target**: a folder that is there, or a place above the target
that is neither that of a target nor that of a neighbour. -/
theorem HasOutput.onWay_cases (h : project.HasOutput tree) (husable : project.Usable)
    (hup : ".." ∉ piecesOf (fillBase base.toList project.config.target.toList))
    (htarget : target ∈ project.targets base) {location : Location}
    (hway : OnWay target.path location) :
    tree.get? location = some .folder ∨
      (∃ names, names ≠ [] ∧ place target.path = location ++ names) ∧
      ∀ other ∈ project.targets base,
        location ≠ place other.path ∧ location ≠ place (neighbour other.path) := by
  obtain ⟨n, hn, rfl⟩ := hway
  rcases h.stop_cases husable hup htarget (Nat.le_of_lt hn) with hfolder | ⟨names, hplace, hlength⟩
  · exact .inl hfolder
  · right
    have hshort : (stop target.path n).length < (place target.path).length := by
      rw [hplace, List.length_append]
      omega
    refine ⟨⟨names, ?_, hplace⟩, fun other hother => ?_⟩
    · rintro rfl
      simp at hlength
      omega
    · have hsame := husable.length_place hup htarget hother
      have hle := length_place_le (husable.isAbsolute_target hother)
      constructor
      · intro heq
        have hlocation := congrArg List.length heq
        rw [show (target.path.steps.take n).foldl walk [] = stop target.path n from rfl]
          at hlocation
        omega
      · intro heq
        have hlocation := congrArg List.length heq
        rw [show (target.path.steps.take n).foldl walk [] = stop target.path n from rfl]
          at hlocation
        omega

/-! ## Turns of other targets -/

section Turns

variable {context : Context} {old record : Option Record} {outcome : Outcome} {world : World}

/-- **The turn of a target leaves the places of other targets as they are**, and its own unless it
is built. -/
theorem get?_place_of_ending (husable : project.Usable)
    (hup : ".." ∉ piecesOf (fillBase base.toList project.config.target.toList))
    (hout : project.HasOutput world.tree) (htarget : target ∈ project.targets base)
    (hother : other ∈ project.targets base)
    (hending : Ending context other old world (outcome, record) tree)
    (hne : isBuilt outcome → other ≠ target) :
    tree.get? (place target.path) = world.tree.get? (place target.path) := by
  have heffect : SideEffect other.path (place target.path) _ _ := sideEffect_of_ending hending
    fun hbuilt hplace => hne hbuilt (husable.eq_of_place hup hother htarget hplace.symm)
  generalize hbefore : world.tree.get? (place target.path) = before at heffect ⊢
  generalize tree.get? (place target.path) = last at heffect ⊢
  cases heffect with
  | same => rfl
  | made hway =>
      rcases hout.onWay_cases husable hup hother hway with hfolder | ⟨-, hapart⟩
      · rw [hfolder] at hbefore
        cases hbefore
      · exact absurd rfl (hapart target htarget).1
  | removed hlocation => exact absurd hlocation.symm (husable.neighbour_apart hother htarget)

end Turns

end Project

end KeysetBundle.Build
