import Mathlib.Data.List.Forall2
import KeysetBundle.Proofs.Files.Joining
import KeysetBundle.Proofs.Files.Listing
import KeysetBundle.Proofs.Files.Spelling
import KeysetBundle.Proofs.Files.Program

/-!
# Folders as they are from above

A *site* is a folder of a world and a path that leads to it.  What is below the
folder is known by the names that lead there, so two sites can be compared that
lie in different places of different worlds: they are the same if the same is
below them (`Site.Same`).

A path from the base of a site is followed by two things: the names to which it
leads, and the components that it has behind those of the base (`Site.At`).
Paths from two bases that agree in both see the same.

Main results.

- `Site.Same.listing`: listings at the same names of two sites are equal.
- `Site.Same.walk`: a relative text leads to the same names, or nowhere.
-/

namespace KeysetBundle

namespace Path

variable {path other : Path}

/-! ## Ways -/

/-- The components of a path without a `.` at its start. -/
def way (path : Path) : List Component := path.components.filter (· ≠ .current)

theorem filter_stepsOf (pieces : List String) :
    (stepsOf pieces).filter (· ≠ .current) = stepsOf pieces := by
  rw [List.filter_eq_self]
  intro step hstep
  rw [decide_eq_true_eq]
  rintro rfl
  nomatch isStep_of_mem hstep

theorem way_joinText {text : String} (h : path.text ≠ "") (htext : ¬(Path.mk text).isAbsolute) :
    (path.joinText text).way = path.way ++ stepsOf (piecesOf text.toList) := by
  unfold way
  rw [components_joinText h htext, List.filter_append, filter_stepsOf]

theorem way_of_piece {piece : String} (h : '/' ∉ piece.toList) :
    (Path.mk piece).way = stepsOf [piece] := by
  unfold way
  rw [components_eq, piecesOf_of_not_mem h, List.filter_append, filter_stepsOf]
  have hlead : (leadOf [piece]).filter (· ≠ Component.current) = [] := by
    rw [leadOf]
    split
    · rfl
    · rw [if_neg (by simp)]
      rfl
  rw [hlead, List.nil_append]

/-- The last of some steps at the end of a way is the last component. -/
theorem getLast?_components {front steps : List Component} (h : path.way = front ++ steps)
    (hne : steps ≠ []) (hsteps : ∀ step ∈ steps, step.isStep = true) :
    path.components.getLast? = steps.getLast? := by
  obtain ⟨lead, pieces, hcomponents⟩ : ∃ (lead : Lead) (pieces : List String),
      path.components = lead.component?.toList ++ stepsOf pieces := ⟨_, _, rfl⟩
  have hlast : path.way.getLast? = steps.getLast? := by
    rw [h, List.getLast?_append_of_ne_nil _ hne]
  rw [way, hcomponents, List.filter_append, filter_stepsOf] at hlast
  by_cases hnil : stepsOf pieces = []
  · rw [hnil, List.append_nil] at hlast
    obtain ⟨step, hstep⟩ : ∃ step, steps.getLast? = some step :=
      ⟨_, List.getLast?_eq_some_getLast hne⟩
    rw [hstep] at hlast
    have hmem := List.mem_of_getLast? hstep
    have hroot := (List.mem_filter.1 (List.mem_of_getLast? hlast)).1
    cases lead with
    | root => cases List.mem_singleton.1 hroot; nomatch hsteps _ hmem
    | current => cases List.mem_singleton.1 hroot; nomatch hsteps _ hmem
    | none => cases hroot
  · rw [List.getLast?_append_of_ne_nil _ hnil] at hlast
    rw [hcomponents, List.getLast?_append_of_ne_nil _ hnil, hlast]

/-- Paths that end in the same steps have the same last name. -/
theorem fileName?_eq {front front' steps : List Component} (h : path.way = front ++ steps)
    (h' : other.way = front' ++ steps) (hne : steps ≠ [])
    (hsteps : ∀ step ∈ steps, step.isStep = true) : path.fileName? = other.fileName? := by
  unfold fileName?
  rw [getLast?_components h hne hsteps, getLast?_components h' hne hsteps]

end Path

namespace Files

open KeysetBundle.Path (Component isIdle piecesOf stepsOf)

/-! ## Questions about a path -/

section Located

variable {world : World} {path : Path} {location : Location}

theorem toOption_stat (h : world.tree.locate world.current path = .ok location) :
    (world.tree.stat world.current path).toOption =
      (world.tree.get? location).map Entry.stat := by
  unfold FileTree.stat FileTree.resolve
  rw [h]
  dsimp only
  cases world.tree.get? location <;> rfl

theorem toOption_stat_of_error {failure : Failure}
    (h : world.tree.locate world.current path = .error failure) :
    (world.tree.stat world.current path).toOption = none := by
  unfold FileTree.stat FileTree.resolve
  rw [h]
  rfl

theorem run_isFolder_of_locate (h : world.tree.locate world.current path = .ok location) :
    world.run (isFolder path) =
      ((world.tree.get? location).any fun entry => entry.stat.isFolder, world) := by
  have hrun : world.run (isFolder path) =
      ((world.tree.stat world.current path).toOption.any Stat.isFolder, world) := rfl
  rw [hrun, toOption_stat h, Option.any_map]

theorem run_isFolder_of_error {failure : Failure}
    (h : world.tree.locate world.current path = .error failure) :
    world.run (isFolder path) = (false, world) := by
  have hrun : world.run (isFolder path) =
      ((world.tree.stat world.current path).toOption.any Stat.isFolder, world) := rfl
  rw [hrun, toOption_stat_of_error h]
  rfl

theorem run_pathExists_of_locate (h : world.tree.locate world.current path = .ok location) :
    world.run (pathExists path) = ((world.tree.get? location).isSome, world) := by
  have hrun : world.run (pathExists path) =
      ((world.tree.stat world.current path).toOption.isSome, world) := rfl
  rw [hrun, toOption_stat h, Option.isSome_map]

theorem run_pathExists_of_error {failure : Failure}
    (h : world.tree.locate world.current path = .error failure) :
    world.run (pathExists path) = (false, world) := by
  have hrun : world.run (pathExists path) =
      ((world.tree.stat world.current path).toOption.isSome, world) := rfl
  rw [hrun, toOption_stat_of_error h]
  rfl

end Located

/-! ## Sites -/

/-- A folder of a world and a path that leads to it. -/
structure Site where
  /-- The world. -/
  world : World
  /-- The path. -/
  base : Path
  /-- Where the folder is. -/
  location : Location
  /-- All that is on the way to an entry are folders. -/
  sound : world.tree.Sound
  /-- The path leads to the folder. -/
  leads : world.tree.resolve world.current base = .ok (location, .folder)

namespace Site

variable {site other : Site} {names more : Location} {steps : List Component} {path path' : Path}

/-- What is below the folder. -/
def get? (site : Site) (names : Location) : Option Entry :=
  site.world.tree.get? (site.location ++ names)

theorem get?_nil (site : Site) : site.get? [] = some .folder := by
  rw [get?, List.append_nil]
  exact (FileTree.resolve_iff.1 site.leads).2

theorem isName {name : String} (h : site.get? (names ++ [name]) ≠ none) : Path.IsName name := by
  rw [get?, ← List.append_assoc] at h
  exact site.sound.isName _ _ h

theorem folder_of_append (hne : more ≠ []) (h : site.get? (names ++ more) ≠ none) :
    site.get? names = some .folder := by
  rw [get?, ← List.append_assoc] at h
  exact site.sound.folder_of_append hne h

/-- The names after one more piece of a path. -/
def below (names : Location) (piece : String) : Location :=
  if isIdle piece then names else if piece = ".." then names.dropLast else names ++ [piece]

theorem below_of_isName {name : String} (h : Path.IsName name) :
    below names name = names ++ [name] := by
  obtain ⟨hidle, hup⟩ := FileTree.name_of_component h.component
  rw [below, if_neg hidle, if_neg hup]

/-- A step from some names, unless it leaves the site. -/
theorem step_eq (site : Site) {piece : String} (hup : piece = ".." → names ≠ []) :
    site.world.tree.step (site.location ++ names) piece =
      match site.get? names with
      | none => .error .notFound
      | some (.file ..) => .error .notDirectory
      | some .folder => .ok (site.location ++ below names piece) := by
  unfold FileTree.step get?
  cases site.world.tree.get? (site.location ++ names) with
  | none => rfl
  | some entry =>
      cases entry with
      | file bytes mtime => rfl
      | folder =>
          dsimp only
          unfold below
          split
          · rfl
          · split
            · rename_i hparent
              rw [List.dropLast_append_of_ne_nil (hup hparent)]
            · rw [List.append_assoc]

/-! ## Paths from the base -/

/-- The names to which a path leads, and its components behind those of the base. -/
structure At (site : Site) (names : Location) (steps : List Component) (path : Path) : Prop where
  /-- The path leads to the names. -/
  locate : site.world.tree.locate site.world.current path = .ok (site.location ++ names)
  /-- It has the components. -/
  way : path.way = site.base.way ++ steps

theorem at_base (site : Site) : site.At [] [] site.base := by
  refine ⟨?_, (List.append_nil _).symm⟩
  rw [List.append_nil]
  exact (FileTree.resolve_iff.1 site.leads).1

theorem At.joinText (h : site.At names steps path) {text : String}
    (htext : ¬(Path.mk text).isAbsolute)
    (hwalk : (piecesOf text.toList).foldlM site.world.tree.step (site.location ++ names) =
      .ok (site.location ++ more)) :
    site.At more (steps ++ stepsOf (piecesOf text.toList)) (path.joinText text) := by
  constructor
  · rw [FileTree.locate_joinText_of_relative h.locate htext, hwalk]
  · rw [Path.way_joinText (FileTree.text_ne_of_locate h.locate) htext, h.way, List.append_assoc]

theorem At.joinName {name : String} (h : site.At names steps path)
    (hfolder : site.get? names = some .folder) (hname : Path.IsName name) :
    site.At (names ++ [name]) (steps ++ [.name name]) (path.joinText name) := by
  have hwalk : (piecesOf name.toList).foldlM site.world.tree.step (site.location ++ names) =
      .ok (site.location ++ (names ++ [name])) := by
    rw [Path.piecesOf_of_not_mem hname.noSlash, List.foldlM_cons,
      FileTree.step_of_name hfolder hname.component, List.append_assoc]
    rfl
  rw [← hname.stepsOf_piecesOf]
  exact h.joinText hname.not_isAbsolute hwalk

/-- Names below a folder are joined to a path one by one. -/
theorem At.foldl {join : Path → String → Path}
    (hjoin : ∀ {names : Location} {steps : List Component} {path : Path} {name : String},
      site.At names steps path → site.get? names = some .folder → Path.IsName name →
        site.At (names ++ [name]) (steps ++ [.name name]) (join path name))
    (h : site.At names steps path) (hthere : site.get? (names ++ more) ≠ none) :
    site.At (names ++ more) (steps ++ more.map .name) (more.foldl join path) := by
  induction more generalizing names steps path with
  | nil =>
      rw [List.append_nil, List.map_nil, List.append_nil]
      exact h
  | cons name more ih =>
      have hfolder := folder_of_append (List.cons_ne_nil name more) hthere
      have hsplit : names ++ name :: more = names ++ [name] ++ more := by simp
      rw [hsplit] at hthere ⊢
      have hfirst : site.get? (names ++ [name]) ≠ none := by
        by_cases hnil : more = []
        · rw [hnil, List.append_nil] at hthere
          exact hthere
        · rw [folder_of_append hnil hthere]
          nofun
      have hrest := ih (hjoin h hfolder (isName hfirst)) hthere
      rw [List.map_cons, ← List.singleton_append (x := Component.name name), ← List.append_assoc]
      exact hrest

/-- Whether there is a folder. -/
def isFolderAt (site : Site) (names : Location) : Bool :=
  (site.get? names).any fun entry => entry.stat.isFolder

theorem isFolderAt_iff : site.isFolderAt names = true ↔ site.get? names = some .folder := by
  unfold isFolderAt
  cases site.get? names with
  | none => exact iff_of_false nofun nofun
  | some entry =>
      cases entry with
      | folder => exact iff_of_true rfl rfl
      | file bytes mtime => exact iff_of_false nofun nofun

theorem At.run_isFolder (h : site.At names steps path) :
    site.world.run (isFolder path) = (site.isFolderAt names, site.world) :=
  run_isFolder_of_locate h.locate

theorem At.resolve (h : site.At names steps path) (hfolder : site.get? names = some .folder) :
    site.world.tree.resolve site.world.current path =
      .ok (site.location ++ names, .folder) :=
  FileTree.resolve_iff.2 ⟨h.locate, hfolder⟩

/-- What is no folder has no listing. -/
theorem At.listing_eq_nil (h : site.At names steps path)
    (hnot : site.get? names ≠ some .folder) :
    site.world.tree.listing site.world.current path = [] := by
  unfold FileTree.listing FileTree.resolve
  rw [h.locate]
  dsimp only
  unfold get? at hnot
  cases hentry : site.world.tree.get? (site.location ++ names) with
  | none => rfl
  | some entry =>
      cases entry with
      | folder => exact absurd hentry hnot
      | file bytes mtime => rfl

theorem At.mem_listing (h : site.At names steps path) {stat : Stat} :
    (more, stat) ∈ site.world.tree.listing site.world.current path ↔
      more ≠ [] ∧ (site.get? (names ++ more)).map Entry.stat = some stat := by
  by_cases hfolder : site.get? names = some .folder
  · rw [FileTree.mem_listing (h.resolve hfolder), get?, List.append_assoc]
  · rw [h.listing_eq_nil hfolder]
    refine iff_of_false nofun ?_
    rintro ⟨hne, hstat⟩
    refine hfolder (folder_of_append hne ?_)
    intro hnone
    rw [hnone] at hstat
    cases hstat

theorem At.pairwise_listing (h : site.At names steps path) :
    (site.world.tree.listing site.world.current path).Pairwise fun a b => Before a.1 b.1 := by
  by_cases hfolder : site.get? names = some .folder
  · exact FileTree.pairwise_listing (h.resolve hfolder)
  · rw [h.listing_eq_nil hfolder]
    exact .nil

/-! ## Sites with the same below them -/

/-- The same is below both folders. -/
def Same (site other : Site) : Prop := ∀ names, other.get? names = site.get? names

/-- **Listings at the same names are equal.** -/
theorem Same.listing (h : site.Same other) {steps' : List Component}
    (hpath : site.At names steps path) (hpath' : other.At names steps' path') :
    other.world.tree.listing other.world.current path' =
      site.world.tree.listing site.world.current path := by
  refine eq_of_ascending hpath'.pairwise_listing hpath.pairwise_listing ?_
  rintro ⟨more, stat⟩
  rw [hpath'.mem_listing, hpath.mem_listing, h]

/-- **A relative text leads to the same names**, or nowhere. -/
theorem Same.walk (h : site.Same other) {pieces : List String} (hup : ".." ∉ pieces)
    (names : Location) :
    (∃ more, pieces.foldlM site.world.tree.step (site.location ++ names) =
        .ok (site.location ++ more) ∧
      pieces.foldlM other.world.tree.step (other.location ++ names) =
        .ok (other.location ++ more)) ∨
    ∃ failure, pieces.foldlM site.world.tree.step (site.location ++ names) = .error failure ∧
      pieces.foldlM other.world.tree.step (other.location ++ names) = .error failure := by
  induction pieces generalizing names with
  | nil => exact .inl ⟨names, rfl, rfl⟩
  | cons piece pieces ih =>
      obtain ⟨hpiece, hpieces⟩ := not_or.1 (mt List.mem_cons.2 hup)
      have hdown : piece = ".." → names ≠ [] := fun heq => absurd heq.symm hpiece
      rw [List.foldlM_cons, List.foldlM_cons, site.step_eq hdown, other.step_eq hdown, h]
      cases site.get? names with
      | none => exact .inr ⟨.notFound, rfl, rfl⟩
      | some entry =>
          cases entry with
          | file bytes mtime => exact .inr ⟨.notDirectory, rfl, rfl⟩
          | folder => exact ih hpieces (below names piece)

end Site

end Files

end KeysetBundle
