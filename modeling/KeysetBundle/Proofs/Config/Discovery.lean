import KeysetBundle.Config.Discovery
import KeysetBundle.Proofs.Build.Layout
import KeysetBundle.Proofs.KeysetFiles
import Mathlib.Data.List.Induction

/-!
# The nearest configuration

The configuration of a directory lies in the nearest directory at or above it that has one, unless
the root of a repository is nearer.  `IsNearest` says this of the tree alone: it speaks of folders
and of the two names that may stand in them, not of the order in which a search asks for them.  The
order shows in one place only, that the two names may stand in the same folder, and there the
configuration counts.

Main results.

- `existsIn_joinText`: what a look at a name in a folder finds.
- `findFrom_cases`: what one turn of the search comes to.
- `find_nearest`: a search gives the nearest configuration, and nothing if there is none.
-/

namespace KeysetBundle.Config

open Build.Context (existsIn existsIn_iff run_pathExists)
open Build.Project (exists_names foldl_walk_names)
open Files
open KeysetBundle.Path (Component)

/-! ## Folders and what stands in them -/

/-- A folder has something of a name in it: all on the way to it are folders, and so is the folder
itself. -/
structure HasEntry (tree : FileTree) (folder : Location) (name : String) : Prop where
  /-- The folder is there, and so are those above it. -/
  reached : ∀ above, above <+: folder → tree.get? above = some .folder
  /-- There is a file or a folder of that name. -/
  found : tree.get? (folder ++ [name]) ≠ none

/-- An absolute path that never goes up spells its place name by name. -/
theorem steps_eq_names {dir : Path} (h : dir.isAbsolute) (hup : .parent ∉ dir.components) :
    dir.steps = (place dir).map .name := by
  have hall : ∀ step ∈ dir.steps, ∃ name, step = .name name := by
    intro step hstep
    refine (parent_or_name hstep).resolve_left ?_
    rintro rfl
    apply hup
    rw [Path.components_of_isAbsolute h]
    exact List.mem_cons_of_mem _ hstep
  obtain ⟨names, hnames⟩ := exists_names hall
  rw [place_eq h, hnames, foldl_walk_names, List.nil_append]

/-- The stops on the way are what the place starts with. -/
theorem stop_eq_take {dir : Path} (h : dir.isAbsolute) (hup : .parent ∉ dir.components) (n : Nat) :
    stop dir n = (place dir).take n := by
  rw [stop, stopFrom, steps_eq_names h hup, ← List.map_take, foldl_walk_names, List.nil_append]

/-- **A look at a name in a folder finds what stands there.** -/
theorem existsIn_joinText (world : World) {dir : Path} {name : String} (h : dir.isAbsolute)
    (hup : .parent ∉ dir.components) (hname : Path.IsName name) :
    existsIn world (dir.joinText name) ↔ HasEntry world.tree (place dir) name := by
  have hlength : (place dir).length = dir.steps.length := by
    rw [steps_eq_names h hup, List.length_map]
  have hsteps := Path.steps_joinText_of_isName h hname
  rw [existsIn_iff (Path.isAbsolute_joinText _ h), FileTree.place_joinText h hname]
  constructor
  · rintro ⟨hleads, hfound⟩
    refine ⟨fun above habove => ?_, hfound⟩
    have hle : above.length ≤ dir.steps.length := hlength ▸ habove.length_le
    have hopen := FileTree.openTo_of_leads hleads above.length (by
      rw [hsteps, List.length_append, List.length_singleton]
      omega)
    rw [stop, hsteps, stopFrom_append_left _ _ hle] at hopen
    rw [List.prefix_iff_eq_take.1 habove, ← stop_eq_take h hup]
    exact hopen
  · rintro ⟨hreached, hfound⟩
    refine ⟨FileTree.leads_joinText h hname fun n _ => ?_, hfound⟩
    rw [stop_eq_take h hup]
    exact hreached _ (List.take_prefix n _)

/-! ## The nearest configuration -/

/-- The folder with the configuration that counts for a start: it is the start or above it, it has a
configuration, and those nearer to the start have neither a configuration nor the mark of a
repository. -/
structure IsNearest (tree : FileTree) (start folder : Location) : Prop where
  /-- The folder is the start or above it. -/
  isAbove : folder <+: start
  /-- It has a configuration. -/
  configured : HasEntry tree folder fileName
  /-- Nothing that is nearer ends the search. -/
  nearer : ∀ other, folder <+: other → other <+: start → other ≠ folder →
    ¬HasEntry tree other fileName ∧ ¬HasEntry tree other repositoryMark

/-- The directories at and above a directory. -/
inductive Ascends : Path → Path → Prop
  /-- The directory itself. -/
  | self (dir : Path) : Ascends dir dir
  /-- One at or above its parent. -/
  | up {dir parent folder : Path} (hparent : dir.parent? = some parent)
    (h : Ascends parent folder) : Ascends dir folder

section Folders

variable {tree : FileTree} {start folder : Location} {name : String}

theorem isNearest_self (h : HasEntry tree start fileName) : IsNearest tree start start where
  isAbove := List.prefix_rfl
  configured := h
  nearer _ hfolder hstart hne := absurd (hstart.eq_of_length_le hfolder.length_le) hne

/-- A start with one of the two names in it ends the search. -/
theorem IsNearest.eq_start (h : IsNearest tree start folder)
    (hends : HasEntry tree start fileName ∨ HasEntry tree start repositoryMark) :
    folder = start := by
  refine Classical.byContradiction fun hne => ?_
  obtain ⟨hconfigured, hmarked⟩ := h.nearer start h.isAbove List.prefix_rfl (Ne.symm hne)
  rcases hends with hends | hends
  · exact hconfigured hends
  · exact hmarked hends

/-- A mark is never nearer than the configuration that counts. -/
theorem IsNearest.marked_isPrefix {marked : Location} (h : IsNearest tree start folder)
    (hstart : marked <+: start) (hmarked : HasEntry tree marked repositoryMark) :
    marked <+: folder := by
  by_cases heq : marked = folder
  · subst heq
    exact List.prefix_rfl
  · refine (List.prefix_or_prefix_of_prefix hstart h.isAbove).resolve_right fun hfolder => ?_
    exact (h.nearer marked hfolder hstart heq).2 hmarked

/-- A start with neither name in it leaves the search to the folder above. -/
theorem isNearest_concat (hconfigured : ¬HasEntry tree (start ++ [name]) fileName)
    (hmarked : ¬HasEntry tree (start ++ [name]) repositoryMark) :
    IsNearest tree (start ++ [name]) folder ↔ IsNearest tree start folder := by
  constructor
  · intro h
    rcases List.prefix_concat_iff.1 h.isAbove with rfl | habove
    · exact absurd h.configured hconfigured
    · exact ⟨habove, h.configured, fun other hfolder hstart =>
        h.nearer other hfolder (hstart.trans (List.prefix_append _ _))⟩
  · intro h
    refine ⟨h.isAbove.trans (List.prefix_append _ _), h.configured, fun other hfolder hstart => ?_⟩
    rcases List.prefix_concat_iff.1 hstart with rfl | hstart
    · exact fun _ => ⟨hconfigured, hmarked⟩
    · exact h.nearer other hfolder hstart

end Folders

/-! ## Going up -/

section Paths

variable {dir parent folder : Path}

/-- The parent lies one name above. -/
theorem place_parent (h : dir.isAbsolute) (hup : .parent ∉ dir.components)
    (hparent : dir.parent? = some parent) :
    parent.isAbsolute ∧ .parent ∉ parent.components ∧
      ∃ name, place dir = place parent ++ [name] := by
  obtain ⟨habsolute, step, hsteps⟩ := Path.steps_parent h hparent
  have hdown : .parent ∉ parent.components := by
    rw [Path.components_of_isAbsolute habsolute]
    rw [Path.components_of_isAbsolute h, hsteps] at hup
    simpa using fun hmem => hup (by simp [hmem])
  refine ⟨habsolute, hdown, ?_⟩
  have hnames := steps_eq_names h hup
  rw [hsteps, steps_eq_names habsolute hdown] at hnames
  obtain ⟨front, back, hplace, hfront, hback⟩ := List.map_eq_append_iff.1 hnames.symm
  obtain ⟨name, rfl⟩ : ∃ name, back = [name] := by
    rw [← List.length_eq_one_iff, ← List.length_map (f := Component.name), hback]
    rfl
  have hsame : front = place parent :=
    List.map_injective_iff.2 (fun _ _ => Component.name.inj) hfront
  exact ⟨name, hsame ▸ hplace⟩

/-- What lies at or above a directory starts its place. -/
theorem Ascends.isAbove (hascends : Ascends dir folder) (h : dir.isAbsolute)
    (hup : .parent ∉ dir.components) : folder.isAbsolute ∧ place folder <+: place dir := by
  induction hascends with
  | self dir => exact ⟨h, List.prefix_rfl⟩
  | up hparent _ ih =>
      obtain ⟨habsolute, hdown, name, hplace⟩ := place_parent h hup hparent
      obtain ⟨hfolder, habove⟩ := ih habsolute hdown
      rw [hplace]
      exact ⟨hfolder, habove.trans (List.prefix_append _ _)⟩

/-- Each folder above the place of a directory is the place of a directory above it. -/
theorem exists_ascends {above : Location} (h : dir.isAbsolute) (hup : .parent ∉ dir.components)
    (habove : above <+: place dir) : ∃ folder, Ascends dir folder ∧ place folder = above := by
  induction hstart : place dir using List.reverseRecOn generalizing dir with
  | nil =>
      rw [hstart, List.prefix_nil] at habove
      exact ⟨dir, .self dir, hstart.trans habove.symm⟩
  | append_singleton start name ih =>
      rw [hstart] at habove
      rcases List.prefix_concat_iff.1 habove with rfl | habove
      · exact ⟨dir, .self dir, hstart⟩
      · have hsteps : dir.steps ≠ [] := by
          rw [steps_eq_names h hup, hstart]
          simp
        obtain ⟨parent, hparent⟩ := Option.isSome_iff_exists.1 (Path.parent?_isSome h hsteps)
        obtain ⟨habsolute, hdown, last, hplace⟩ := place_parent h hup hparent
        have hsame : place parent = start := (List.append_inj' (hplace.symm.trans hstart) rfl).1
        obtain ⟨folder, hascends, hat⟩ := ih habsolute hdown (hsame ▸ habove) hsame
        exact ⟨folder, .up hparent hascends, hat⟩

end Paths

/-! ## The search -/

variable (world : World) (bound : Nat) {dir folder : Path}

theorem run_findFrom (dir : Path) :
    (world.run (findFrom bound dir)).1 =
      if existsIn world (dir.joinText fileName) then some (dir.joinText fileName)
      else if existsIn world (dir.joinText repositoryMark) then none
      else match bound, dir.parent? with
        | bound + 1, some parent => (world.run (findFrom bound parent)).1
        | _, _ => none := by
  rw [findFrom.eq_def]
  dsimp only
  rw [World.run_bind, run_pathExists]
  dsimp only
  cases existsIn world (dir.joinText fileName) with
  | true => rfl
  | false =>
      rw [if_neg Bool.false_ne_true, if_neg Bool.false_ne_true, World.run_bind, run_pathExists]
      dsimp only
      cases existsIn world (dir.joinText repositoryMark) with
      | true => rfl
      | false =>
          rw [if_neg Bool.false_ne_true, if_neg Bool.false_ne_true]
          cases bound with
          | zero => rfl
          | succ bound => cases dir.parent? <;> rfl

/-- One turn of the search: it ends at a configuration, then at a mark, and then it goes up. -/
theorem findFrom_cases (h : dir.isAbsolute) (hup : .parent ∉ dir.components) :
    (HasEntry world.tree (place dir) fileName ∧
      (world.run (findFrom bound dir)).1 = some (dir.joinText fileName)) ∨
    (¬HasEntry world.tree (place dir) fileName ∧
      HasEntry world.tree (place dir) repositoryMark ∧
      (world.run (findFrom bound dir)).1 = none) ∨
    (¬HasEntry world.tree (place dir) fileName ∧
      ¬HasEntry world.tree (place dir) repositoryMark ∧
      (world.run (findFrom bound dir)).1 = match bound, dir.parent? with
        | bound + 1, some parent => (world.run (findFrom bound parent)).1
        | _, _ => none) := by
  have hconfig := existsIn_joinText world h hup (show Path.IsName fileName by decide)
  have hmark := existsIn_joinText world h hup (show Path.IsName repositoryMark by decide)
  rw [run_findFrom, ← hconfig, ← hmark]
  by_cases hconfigured : existsIn world (dir.joinText fileName)
  · exact .inl ⟨hconfigured, if_pos hconfigured⟩
  · by_cases hmarked : existsIn world (dir.joinText repositoryMark)
    · exact .inr (.inl ⟨hconfigured, hmarked, by rw [if_neg hconfigured, if_pos hmarked]⟩)
    · exact .inr (.inr ⟨hconfigured, hmarked, by rw [if_neg hconfigured, if_neg hmarked]⟩)

/-- A search that can go up often enough gives the nearest configuration. -/
theorem findFrom_of_isNearest (h : dir.isAbsolute) (hup : .parent ∉ dir.components)
    (hbound : dir.steps.length ≤ bound) (hascends : Ascends dir folder)
    (hnearest : IsNearest world.tree (place dir) (place folder)) :
    (world.run (findFrom bound dir)).1 = some (folder.joinText fileName) := by
  induction hascends generalizing bound with
  | self dir =>
      rcases findFrom_cases world bound h hup with ⟨-, hfound⟩ | ⟨hnot, -⟩ | ⟨hnot, -⟩
      · exact hfound
      · exact absurd hnearest.configured hnot
      · exact absurd hnearest.configured hnot
  | @up dir parent folder hparent hascends ih =>
      obtain ⟨habsolute, hdown, name, hplace⟩ := place_parent h hup hparent
      -- the folder is above the parent, so nothing in the directory ends the search
      have hne : place folder ≠ place dir := by
        intro heq
        have hle := (hascends.isAbove habsolute hdown).2.length_le
        rw [heq, hplace, List.length_append, List.length_singleton] at hle
        omega
      rcases findFrom_cases world bound h hup with
        ⟨hends, -⟩ | ⟨-, hends, -⟩ | ⟨hconfigured, hmarked, hturn⟩
      · exact absurd (hnearest.eq_start (.inl hends)) hne
      · exact absurd (hnearest.eq_start (.inr hends)) hne
      · have hlength := (steps_length_parent h hparent).1
        obtain ⟨bound, rfl⟩ := Nat.exists_eq_succ_of_ne_zero (show bound ≠ 0 by omega)
        rw [hplace] at hnearest hconfigured hmarked
        rw [hturn, hparent]
        exact ih bound habsolute hdown (by omega)
          ((isNearest_concat hconfigured hmarked).1 hnearest)

/-- What a search gives is the nearest configuration. -/
theorem isNearest_of_findFrom {file : Path} (h : dir.isAbsolute) (hup : .parent ∉ dir.components)
    (hfound : (world.run (findFrom bound dir)).1 = some file) :
    ∃ folder, Ascends dir folder ∧ IsNearest world.tree (place dir) (place folder) ∧
      file = folder.joinText fileName := by
  induction bound generalizing dir with
  | zero =>
      rcases findFrom_cases world 0 h hup with
        ⟨hconfigured, heq⟩ | ⟨-, -, heq⟩ | ⟨-, -, heq⟩ <;> rw [heq] at hfound
      · exact ⟨dir, .self dir, isNearest_self hconfigured, (Option.some.inj hfound).symm⟩
      · cases hfound
      · cases hfound
  | succ bound ih =>
      rcases findFrom_cases world (bound + 1) h hup with
        ⟨hconfigured, heq⟩ | ⟨-, -, heq⟩ | ⟨hconfigured, hmarked, heq⟩ <;> rw [heq] at hfound
      · exact ⟨dir, .self dir, isNearest_self hconfigured, (Option.some.inj hfound).symm⟩
      · cases hfound
      · cases hparent : dir.parent? with
        | none =>
            rw [hparent] at hfound
            cases hfound
        | some parent =>
            rw [hparent] at hfound
            obtain ⟨habsolute, hdown, name, hplace⟩ := place_parent h hup hparent
            obtain ⟨folder, hascends, hnearest, hfile⟩ := ih habsolute hdown hfound
            rw [hplace] at hconfigured hmarked ⊢
            exact ⟨folder, .up hparent hascends,
              (isNearest_concat hconfigured hmarked).2 hnearest, hfile⟩

/-- **A search finds the nearest configuration.**  It gives the file in a directory at or above the
start exactly if that is the nearest one, and nothing exactly if there is none, however long the way
to the root is; what lies above a mark is never found, and nothing is changed. -/
theorem find_nearest (h : dir.isAbsolute) (hup : .parent ∉ dir.components) :
    (∀ file, (world.run (find dir)).1 = some file ↔
      ∃ folder, Ascends dir folder ∧ IsNearest world.tree (place dir) (place folder) ∧
        file = folder.joinText fileName) ∧
    ((world.run (find dir)).1 = none ↔
      ∀ folder, ¬IsNearest world.tree (place dir) folder) ∧
    (∀ file marked, (world.run (find dir)).1 = some file → marked <+: place dir →
      HasEntry world.tree marked repositoryMark → marked <+: (place file).dropLast) ∧
    (world.run (find dir)).2 = world := by
  have hbound : dir.steps.length ≤ dir.components.length := by
    rw [Path.components_of_isAbsolute h]
    exact Nat.le_succ _
  have hsome : ∀ file, (world.run (find dir)).1 = some file ↔
      ∃ folder, Ascends dir folder ∧ IsNearest world.tree (place dir) (place folder) ∧
        file = folder.joinText fileName := by
    intro file
    constructor
    · exact isNearest_of_findFrom world _ h hup
    · rintro ⟨folder, hascends, hnearest, rfl⟩
      exact findFrom_of_isNearest world _ h hup hbound hascends hnearest
  refine ⟨hsome, ?_, ?_, ?_⟩
  · constructor
    · intro hnone above hnearest
      obtain ⟨folder, hascends, rfl⟩ := exists_ascends h hup hnearest.isAbove
      rw [(hsome _).2 ⟨folder, hascends, hnearest, rfl⟩] at hnone
      cases hnone
    · intro hnone
      rw [Option.eq_none_iff_forall_ne_some]
      intro file hfound
      obtain ⟨folder, -, hnearest, -⟩ := (hsome file).1 hfound
      exact hnone (place folder) hnearest
  · intro file marked hfound hstart hmarked
    obtain ⟨folder, hascends, hnearest, rfl⟩ := (hsome file).1 hfound
    rw [FileTree.place_joinText (hascends.isAbove h hup).1 (by decide), List.dropLast_concat]
    exact hnearest.marked_isPrefix hstart hmarked
  · exact (Program.run_of_looks (looks_findFrom _ dir) world).2

/-- A repository with a configuration beside its mark, in a folder that has a configuration too. -/
def repositoryWorld : World :=
  ⟨((((FileTree.empty.set [fileName] (.file "{}".toUTF8 0)).set ["r"] .folder).set
    ["r", repositoryMark] .folder).set ["r", fileName] (.file "{}".toUTF8 0)).set ["r", "p"]
      .folder, [], 0, .empty⟩

/-- The search goes up past folders that are missing or empty, and finds the configuration beside
the mark. -/
theorem find_repositoryWorld :
    (repositoryWorld.run (find ⟨"/r//p/q"⟩)).1 = some ⟨"/r/.langjsrc.json"⟩ ∧
      ∃ folder, Ascends ⟨"/r//p/q"⟩ folder ∧
        IsNearest repositoryWorld.tree (place ⟨"/r//p/q"⟩) (place folder) ∧
        ⟨"/r/.langjsrc.json"⟩ = folder.joinText fileName := by
  have hfound : (repositoryWorld.run (find ⟨"/r//p/q"⟩)).1 = some ⟨"/r/.langjsrc.json"⟩ := by
    decide +kernel
  have hnearest := find_nearest repositoryWorld
    (show Path.isAbsolute ⟨"/r//p/q"⟩ by decide +kernel) (by decide +kernel)
  exact ⟨hfound, (hnearest.1 _).1 hfound⟩

end KeysetBundle.Config
