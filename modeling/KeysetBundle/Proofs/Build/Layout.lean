import KeysetBundle.Proofs.Build.Project
import KeysetBundle.Proofs.Files.Writing
import KeysetBundle.Proofs.Pairs
import KeysetBundle.Proofs.TargetName

/-!
# Where the files of a project lie

The targets of a project have their names from one template, so their paths
have steps of the same shapes.  From this it follows that no target is the
neighbour of another one; and if the names do not go up, that no target stands
in the way of another one and that each of them has a place of its own.

Main results.

- `Project.nodup_paths`: the targets of a project have different paths.
- `Project.neighbour_apart`: no target is the neighbour of a target.
- `Project.eq_of_place`, `Project.onWay_of_target`: where targets lie that do
  not go up.
-/

namespace KeysetBundle

open Files
open TargetName (bare fillBase nameSlots points resolve shape)
open KeysetBundle.Path (Component piecesOf stepsOf)

/-! ## Shapes of locations -/

namespace Files

theorem map_walk (location : Location) (step : Component) :
    (walk location step).map bare = walk (location.map bare) (shape step) := by
  cases step with
  | root => rfl
  | current => rfl
  | parent => exact List.map_dropLast
  | name text => exact List.map_append

/-- Steps of the same shapes lead to locations of the same shape. -/
theorem map_foldl_walk (location : Location) (steps : List Component) :
    (steps.foldl walk location).map bare = (steps.map shape).foldl walk (location.map bare) := by
  induction steps generalizing location with
  | nil => rfl
  | cons step steps ih => rw [List.foldl_cons, ih, map_walk, List.map_cons, List.foldl_cons]

theorem points_tmp (name : String) : points (name ++ ".tmp") = points name + 1 := by
  have hone : (".tmp" : String).toList.count '.' = 1 := by decide
  rw [points, String.toList_append, List.count_append, hone, points]

/-- The neighbour of a path has another shape than the path. -/
theorem place_neighbour_ne {path other : Path} (h : path.isAbsolute) (h' : other.isAbsolute)
    (hshapes : path.steps.map shape = other.steps.map shape) :
    place (neighbour path) ≠ place other := by
  intro heq
  have hplaces : (place other).map bare = (place path).map bare := by
    rw [place_eq h, place_eq h', map_foldl_walk, map_foldl_walk, hshapes]
  rw [← heq, place_neighbour h] at hplaces
  cases hname : path.fileName? with
  | none =>
      have hlength := congrArg List.length hplaces
      rw [hname, if_neg (by decide), place_eq h] at hlength
      simp at hlength
  | some name =>
      have hsteps := Path.fileName?_eq_some h hname
      have hplace : place path = path.steps.dropLast.foldl walk [] ++ [name] := by
        conv => lhs; rw [place_eq h, hsteps]
        rw [List.foldl_append]
        rfl
      rw [hname, Option.isSome_some, if_pos rfl, hplace, List.map_append, List.map_append,
        Option.getD_some] at hplaces
      have hlast := List.append_cancel_left hplaces
      have hpoints := congrArg points (List.cons.inj hlast).1
      rw [TargetName.points_bare, TargetName.points_bare, points_tmp] at hpoints
      omega

end Files

/-! ## Joining an absolute name -/

theorem Path.steps_of_isAbsolute {name : String} (h : (Path.mk name).isAbsolute) :
    (Path.mk name).steps = stepsOf (piecesOf name.toList) := by
  have htext : name.toList = '/' :: (Path.mk name).body := Path.text_eq h
  have hpieces := piecesOf_append_slash [] (Path.mk name).body
  rw [List.nil_append] at hpieces
  rw [steps, htext, hpieces, stepsOf_append]
  rfl

namespace Build.Project

open Freshness

variable {project : Project} {base : String} {target other : Target}

/-! ## Targets -/

theorem language_of_mem_targets (h : target ∈ project.targets base) :
    target.language ∈ project.languages ∧ target.path =
      (project.config.outputPath project.root).joinText
        (resolve project.config.target base target.language.tag) := by
  obtain ⟨language, hlanguage, rfl⟩ := List.mem_map.1 h
  dsimp only
  exact ⟨hlanguage, rfl⟩

theorem eq_of_language (h : target ∈ project.targets base) (hother : other ∈ project.targets base)
    (hlanguage : target.language = other.language) : target = other := by
  have hpath := (language_of_mem_targets h).2
  rw [hlanguage] at hpath
  have hpath' := hpath.trans (language_of_mem_targets hother).2.symm
  cases target
  cases other
  cases hlanguage
  exact congrArg (Target.mk _) hpath'

theorem Usable.nodup_languages (h : project.Usable) :
    project.languages.Nodup ∧ ∀ language ∈ project.languages, language.IsRead := by
  have hlanguages := h.languages
  unfold Config.languages at hlanguages
  split at hlanguages
  · rename_i languages hread
    cases hlanguages
    exact Config.nodup_languagesOf hread
  · cases hlanguages

theorem Usable.isRead (h : project.Usable) (htarget : target ∈ project.targets base) :
    target.language.IsRead :=
  h.nodup_languages.2 _ (language_of_mem_targets htarget).1

/-- A configuration for several languages has a slot for the language in its template. -/
theorem Usable.slot (h : project.Usable) (hlanguages : 1 < project.languages.length) :
    none ∈ nameSlots project.config.target base := by
  have hhas := ((Config.check_eq_ok h.languages).1 h.check).names hlanguages
  exact TargetName.mem_slots_of_mentionsLanguage (TargetName.mentionsLanguage_fillBase _ hhas)

theorem Usable.isAbsolute_outputPath (h : project.Usable) :
    (project.config.outputPath project.root).isAbsolute :=
  Path.isAbsolute_resolve _ h.isAbsolute

theorem Usable.isAbsolute_ledgerFile (h : project.Usable) : project.ledgerFile.isAbsolute :=
  Path.isAbsolute_joinText _ h.isAbsolute_outputPath

theorem Usable.isAbsolute_target (h : project.Usable) (htarget : target ∈ project.targets base) :
    target.path.isAbsolute := by
  rw [(language_of_mem_targets htarget).2]
  exact Path.isAbsolute_joinText _ h.isAbsolute_outputPath

/-- The steps of the targets, after those that they have in common: the steps to the folder of the
artifacts, unless the template is an absolute path. -/
theorem Usable.exists_front (h : project.Usable) (base : String) :
    ∃ front, (front = [] ∨ front = (project.config.outputPath project.root).steps) ∧
      ∀ target ∈ project.targets base, target.path.steps =
        front ++ stepsOf (piecesOf
          (resolve project.config.target base target.language.tag).toList) := by
  by_cases habsolute : ∃ target ∈ project.targets base,
      (Path.mk (resolve project.config.target base target.language.tag)).isAbsolute
  · obtain ⟨some, hsome, hname⟩ := habsolute
    refine ⟨[], .inl rfl, fun target htarget => ?_⟩
    have hname' := TargetName.isAbsolute_resolve (h.isRead hsome) target.language hname
    rw [(language_of_mem_targets htarget).2, Path.joinText, Path.join, if_pos hname',
      Path.steps_of_isAbsolute hname', List.nil_append]
  · refine ⟨(project.config.outputPath project.root).steps, .inr rfl, fun target htarget => ?_⟩
    have hname : ¬(Path.mk (resolve project.config.target base target.language.tag)).isAbsolute :=
      fun hname => habsolute ⟨target, htarget, hname⟩
    rw [(language_of_mem_targets htarget).2, Path.steps_joinText h.isAbsolute_outputPath hname]

/-! ## Places -/

theorem Usable.shapes (h : project.Usable) (htarget : target ∈ project.targets base)
    (hother : other ∈ project.targets base) :
    target.path.steps.map shape = other.path.steps.map shape := by
  obtain ⟨front, -, hfront⟩ := h.exists_front base
  rw [hfront target htarget, hfront other hother, List.map_append, List.map_append,
    TargetName.shapes_resolve (h.isRead htarget) (h.isRead hother)]

/-- **No target is the neighbour of a target.** -/
theorem Usable.neighbour_apart (h : project.Usable) (htarget : target ∈ project.targets base)
    (hother : other ∈ project.targets base) :
    place (neighbour target.path) ≠ place other.path :=
  place_neighbour_ne (h.isAbsolute_target htarget) (h.isAbsolute_target hother)
    (h.shapes htarget hother)

theorem isName_fileName : Path.IsName Ledger.fileName := by
  constructor
  · decide
  · decide

theorem Usable.place_ledgerFile (h : project.Usable) : place project.ledgerFile =
    (project.config.outputPath project.root).steps.foldl walk [] ++ [Ledger.fileName] := by
  rw [place_eq h.isAbsolute_ledgerFile, ledgerFile,
    Path.steps_joinText_of_isName h.isAbsolute_outputPath isName_fileName, List.foldl_append]
  rfl

/-- No ledger is the neighbour of a file. -/
theorem Usable.ledger_apart (h : project.Usable) {path : Path} (hpath : path.isAbsolute) :
    place project.ledgerFile ≠ place (neighbour path) := by
  rw [h.place_ledgerFile, place_neighbour hpath]
  intro heq
  have hlast := (List.append_inj' heq rfl).2
  have hends := congrArg (fun text => text.toList.getLast?) (List.cons.inj hlast).1
  have htmp : (".tmp" : String).toList.getLast? = some 'p' := by decide
  rw [String.toList_append, List.getLast?_append, htmp, Option.some_or] at hends
  exact absurd hends (by decide)

/-- Targets with the same steps are the same. -/
theorem Usable.eq_of_steps (h : project.Usable) (htarget : target ∈ project.targets base)
    (hother : other ∈ project.targets base)
    (hsteps : stepsOf (piecesOf (resolve project.config.target base target.language.tag).toList) =
      stepsOf (piecesOf (resolve project.config.target base other.language.tag).toList)) :
    target = other := by
  obtain ⟨hlanguage, -⟩ := language_of_mem_targets htarget
  obtain ⟨hlanguage', -⟩ := language_of_mem_targets hother
  have hsame : target.language = other.language := by
    by_cases hmany : 1 < project.languages.length
    · exact TargetName.language_of_steps (h.isRead htarget) (h.isRead hother) (h.slot hmany) hsteps
    · obtain ⟨language, hone⟩ : ∃ language, project.languages = [language] := by
        cases hlanguages : project.languages with
        | nil =>
            rw [hlanguages] at hlanguage
            cases hlanguage
        | cons language rest =>
            cases rest with
            | nil => exact ⟨language, rfl⟩
            | cons next rest =>
                rw [hlanguages] at hmany
                simp at hmany
      rw [hone, List.mem_singleton] at hlanguage hlanguage'
      rw [hlanguage, hlanguage']
  exact eq_of_language htarget hother hsame

/-- **The targets of a project have different paths.** -/
theorem Usable.nodup_paths (h : project.Usable) (base : String) :
    ((project.targets base).map (·.path)).Nodup := by
  have hnodup : (project.targets base).Nodup := by
    unfold targets
    refine List.Pairwise.map _ ?_ h.nodup_languages.1
    intro language language' hne heq
    exact hne (Target.mk.inj heq).1
  refine List.pairwise_map.2 (hnodup.imp_of_mem fun htarget hother hne heq => hne ?_)
  obtain ⟨front, -, hfront⟩ := h.exists_front base
  have hsteps := congrArg Path.steps heq
  rw [hfront _ htarget, hfront _ hother] at hsteps
  exact h.eq_of_steps htarget hother (List.append_cancel_left hsteps)

/-! ## Targets that do not go up -/

theorem exists_names {steps : List Component} (h : ∀ step ∈ steps, ∃ name, step = .name name) :
    ∃ names : List String, steps = names.map .name := by
  induction steps with
  | nil => exact ⟨[], rfl⟩
  | cons step steps ih =>
      obtain ⟨name, rfl⟩ := h step (by simp)
      obtain ⟨names, rfl⟩ := ih fun other hother => h other (by simp [hother])
      exact ⟨name :: names, rfl⟩

theorem foldl_walk_names (location : Location) (names : List String) :
    (names.map Component.name).foldl walk location = location ++ names := by
  induction names generalizing location with
  | nil => simp
  | cons name names ih =>
      rw [List.map_cons, List.foldl_cons, ih, walk, List.append_assoc]
      rfl

/-- The place of a target that does not go up ends in the names of the target. -/
theorem Usable.exists_place (h : project.Usable)
    (hup : ".." ∉ piecesOf (fillBase base.toList project.config.target.toList)) :
    ∃ front, (front = [] ∨ front = (project.config.outputPath project.root).steps) ∧
      ∀ target ∈ project.targets base, ∃ names : List String,
        stepsOf (piecesOf (resolve project.config.target base target.language.tag).toList) =
          names.map .name ∧
        target.path.steps = front ++ names.map .name ∧
        place target.path = front.foldl walk [] ++ names := by
  obtain ⟨front, hcases, hfront⟩ := h.exists_front base
  refine ⟨front, hcases, fun target htarget => ?_⟩
  obtain ⟨names, hnames⟩ := exists_names fun step hstep =>
    TargetName.name_of_mem_steps (h.isRead htarget) hup hstep
  have hsteps := hfront target htarget
  rw [hnames] at hsteps
  refine ⟨names, hnames, hsteps, ?_⟩
  rw [place_eq (h.isAbsolute_target htarget), hsteps, List.foldl_append, foldl_walk_names]

/-- **Each target has a place of its own.** -/
theorem Usable.eq_of_place (h : project.Usable)
    (hup : ".." ∉ piecesOf (fillBase base.toList project.config.target.toList))
    (htarget : target ∈ project.targets base) (hother : other ∈ project.targets base)
    (hplace : place target.path = place other.path) : target = other := by
  obtain ⟨front, -, hfront⟩ := h.exists_place hup
  obtain ⟨names, hnames, -, hat⟩ := hfront target htarget
  obtain ⟨names', hnames', -, hat'⟩ := hfront other hother
  rw [hat, hat'] at hplace
  have hsame := List.append_cancel_left hplace
  exact h.eq_of_steps htarget hother (by rw [hnames, hnames', hsame])

/-- **No target is in the way of another one**, unless it is in its own way. -/
theorem Usable.onWay_of_target (h : project.Usable)
    (hup : ".." ∉ piecesOf (fillBase base.toList project.config.target.toList))
    (htarget : target ∈ project.targets base) (hother : other ∈ project.targets base)
    (hway : OnWay target.path (place other.path)) : OnWay other.path (place other.path) := by
  obtain ⟨front, -, hfront⟩ := h.exists_place hup
  obtain ⟨names, -, hsteps, -⟩ := hfront target htarget
  obtain ⟨names', -, hsteps', hat'⟩ := hfront other hother
  have hlength : names.length = names'.length := by
    have hshapes := congrArg List.length (h.shapes htarget hother)
    rw [List.length_map, List.length_map, hsteps, hsteps', List.length_append,
      List.length_append, List.length_map, List.length_map] at hshapes
    omega
  obtain ⟨n, hn, hlocation⟩ := hway
  rw [hsteps, List.length_append, List.length_map] at hn
  by_cases hfew : n ≤ front.length
  · refine ⟨n, ?_, ?_⟩
    · rw [hsteps', List.length_append, List.length_map]
      omega
    · rw [hlocation, hsteps, hsteps', List.take_append_of_le_length hfew,
        List.take_append_of_le_length hfew]
  · -- past the common front a way is shorter than the place of a target
    rw [hsteps, List.take_append, List.take_of_length_le (by omega), List.foldl_append,
      ← List.map_take, foldl_walk_names, hat'] at hlocation
    have hshort := congrArg List.length (List.append_cancel_left hlocation)
    rw [List.length_take] at hshort
    omega

end Build.Project

end KeysetBundle
