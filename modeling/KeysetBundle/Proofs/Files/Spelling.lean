import KeysetBundle.Proofs.Files.Atomic

/-!
# Spellings of one file

Two paths with the same components may be different spellings, such as `a//m`
and `a/./m`.  Both lead to the same location, with one exception: a slash or a
`.` after a name asks for a folder, so `m/` is no spelling of the file `m`.
A path is *trimmed* if nothing of this kind is at its end; trimmed paths with
the same components are read in the same way.

Main result.

- `readText_of_same`: trimmed spellings of a path are read in the same way.
-/

namespace KeysetBundle

namespace Path

/-- Neither a slash nor a `.` is at the end of a path. -/
def isTrimmed (path : Path) : Bool :=
  (piecesOf path.text.toList).getLast?.all fun piece => !isIdle piece

/-- The piece that spells a component after the lead. -/
def Component.spelling : Component → String
  | .name text => text
  | .parent => ".."
  | _ => ""

theorem stepsOf_cons_idle {piece : String} (h : isIdle piece = true) (rest : List String) :
    stepsOf (piece :: rest) = stepsOf rest := by
  rw [stepsOf, List.filterMap_cons, pieceComponent?, if_pos h]
  rfl

theorem stepsOf_cons_step {piece : String} (h : ¬isIdle piece = true) (rest : List String) :
    ∃ step, stepsOf (piece :: rest) = step :: stepsOf rest ∧ step.spelling = piece := by
  rw [stepsOf, List.filterMap_cons, pieceComponent?, if_neg h]
  by_cases hup : piece == ".."
  · rw [if_pos hup]
    exact ⟨.parent, rfl, (beq_iff_eq.1 hup).symm⟩
  · rw [if_neg hup]
    exact ⟨.name piece, rfl, rfl⟩

/-- A component that a piece stands for. -/
def Component.isStep : Component → Bool
  | .root => false
  | .current => false
  | _ => true

theorem isStep_of_mem {pieces : List String} {step : Component} (h : step ∈ stepsOf pieces) :
    step.isStep = true := by
  obtain ⟨piece, -, hpiece⟩ := List.mem_filterMap.1 h
  unfold pieceComponent? at hpiece
  split at hpiece
  · cases hpiece
  · split at hpiece
    · cases hpiece
      rfl
    · cases hpiece
      rfl

theorem filter_isStep (lead : Lead) (pieces : List String) :
    (lead.component?.toList ++ stepsOf pieces).filter Component.isStep = stepsOf pieces := by
  have hlead : lead.component?.toList.filter Component.isStep = [] := by cases lead <;> rfl
  rw [List.filter_append, hlead, List.nil_append, List.filter_eq_self]
  exact fun step => isStep_of_mem

/-- A path is absolute exactly if the root is one of its components. -/
theorem isAbsolute_iff_mem {path : Path} : path.isAbsolute = true ↔ .root ∈ path.components := by
  constructor
  · intro h
    rw [components_of_isAbsolute h]
    exact List.mem_cons_self
  · intro h
    have hsteps : ∀ pieces, .root ∉ stepsOf pieces :=
      fun pieces hroot => nomatch isStep_of_mem hroot
    unfold components decompose at h
    split at h
    rename_i lead pieces hsplit
    split at hsplit
    · rename_i rest htext
      exact isAbsolute_of_text rest htext
    · cases hsplit
      nomatch (List.mem_append.1 h).resolve_right (hsteps _)
    · cases hsplit
      nomatch (List.mem_append.1 h).resolve_right (hsteps _)
    · cases hsplit
      nomatch (List.mem_append.1 h).resolve_right (hsteps _)

theorem isAbsolute_of_same {path other : Path} (h : path.same other = true) :
    path.isAbsolute = other.isAbsolute := by
  rw [Bool.eq_iff_iff, isAbsolute_iff_mem, isAbsolute_iff_mem, beq_iff_eq.1 h]

end Path

namespace Files

open KeysetBundle.Path (Component isIdle piecesOf stepsOf)

variable {path other : Path}

/-- Paths with the same components start at one location and go the same steps. -/
theorem origin_of_same (current : Location) (h : path.same other = true) :
    (origin current path).1 = (origin current other).1 ∧
      stepsOf (origin current path).2 = stepsOf (origin current other).2 := by
  obtain ⟨lead, hpath⟩ := components_origin current path
  obtain ⟨lead', hother⟩ := components_origin current other
  constructor
  · unfold origin
    rw [Path.isAbsolute_of_same h]
    split <;> rfl
  · rw [← Path.filter_isStep lead, ← hpath, beq_iff_eq.1 h, hother, Path.filter_isStep]

theorem getLast?_origin (current : Location) (path : Path) :
    (origin current path).2.getLast? = (piecesOf path.text.toList).getLast? := by
  unfold origin
  split
  · rename_i habsolute
    have hpieces := Path.piecesOf_append_slash [] path.body
    rw [List.nil_append, ← Path.text_eq habsolute] at hpieces
    have hne : piecesOf path.body ≠ [] :=
      fun hnil => Path.splitSlashes_ne_nil _ (List.map_eq_nil_iff.1 hnil)
    obtain ⟨piece, pieces, hcons⟩ := List.exists_cons_of_ne_nil hne
    rw [hpieces, hcons]
    exact List.getLast?_cons_cons.symm
  · rfl

namespace FileTree

variable (tree : FileTree)

/-- Where it is left at once, a location may as well be stayed at first. -/
theorem foldlM_idle {piece : String} (h : isIdle piece = true) {rest : List String}
    (hrest : rest ≠ []) (location : Location) :
    (piece :: rest).foldlM tree.step location = rest.foldlM tree.step location := by
  obtain ⟨next, others, rfl⟩ := List.exists_cons_of_ne_nil hrest
  cases hentry : tree.get? location with
  | none =>
      have hstuck : ∀ piece, tree.step location piece = .error .notFound := by
        intro piece
        unfold step
        rw [hentry]
      rw [List.foldlM_cons, List.foldlM_cons, hstuck, hstuck]
      rfl
  | some entry =>
      cases entry with
      | file bytes mtime =>
          have hstuck : ∀ piece, tree.step location piece = .error .notDirectory := by
            intro piece
            unfold step
            rw [hentry]
          rw [List.foldlM_cons, List.foldlM_cons, hstuck, hstuck]
          rfl
      | folder =>
          have hstay : tree.step location piece = .ok location := by
            unfold step
            rw [hentry]
            exact if_pos h
          rw [List.foldlM_cons, hstay]
          rfl

/-- A walk depends on the steps only, unless it ends by staying where it is. -/
theorem foldlM_eq_spellings {pieces : List String}
    (h : pieces.getLast?.all fun piece => !isIdle piece) (location : Location) :
    pieces.foldlM tree.step location =
      ((stepsOf pieces).map Component.spelling).foldlM tree.step location := by
  induction pieces generalizing location with
  | nil => rfl
  | cons piece rest ih =>
      by_cases hidle : isIdle piece = true
      · have hrest : rest ≠ [] := by
          rintro rfl
          rw [List.getLast?_singleton, Option.all_some, hidle] at h
          cases h
        obtain ⟨next, others, rfl⟩ := List.exists_cons_of_ne_nil hrest
        rw [List.getLast?_cons_cons] at h
        rw [foldlM_idle tree hidle hrest, Path.stepsOf_cons_idle hidle, ih h]
      · obtain ⟨step, hsteps, hspelling⟩ := Path.stepsOf_cons_step hidle rest
        have hlast : rest.getLast?.all fun piece => !isIdle piece := by
          cases rest with
          | nil => rfl
          | cons next others => rwa [List.getLast?_cons_cons] at h
        rw [hsteps, List.map_cons, hspelling, List.foldlM_cons, List.foldlM_cons]
        congr 1
        funext next
        exact ih hlast next

theorem text_ne_of_isTrimmed (h : path.isTrimmed = true) : path.text ≠ "" := by
  intro htext
  unfold Path.isTrimmed at h
  rw [htext] at h
  cases h

theorem locate_of_same (current : Location) (hpath : path.isTrimmed = true)
    (hother : other.isTrimmed = true) (h : path.same other = true) :
    tree.locate current path = tree.locate current other := by
  obtain ⟨hstart, hsteps⟩ := origin_of_same current h
  have hpieces := hpath
  have hpieces' := hother
  unfold Path.isTrimmed at hpieces hpieces'
  rw [← getLast?_origin current] at hpieces hpieces'
  rw [locate_eq tree current (text_ne_of_isTrimmed hpath),
    locate_eq tree current (text_ne_of_isTrimmed hother), foldlM_eq_spellings tree hpieces,
    foldlM_eq_spellings tree hpieces', hstart, hsteps]

/-- **Trimmed spellings of a path are read in the same way.** -/
theorem readText_of_same (current : Location) (hpath : path.isTrimmed = true)
    (hother : other.isTrimmed = true) (h : path.same other = true) :
    tree.readText current path = tree.readText current other := by
  unfold readText resolve
  rw [locate_of_same tree current hpath hother h]

end FileTree

end Files

end KeysetBundle
