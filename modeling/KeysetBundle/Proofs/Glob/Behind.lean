import KeysetBundle.Proofs.Glob.Reading
import KeysetBundle.Proofs.Glob.Searching

/-!
# Patterns behind two bases

A level that is a pattern is searched for behind the path of a base.  If the base
is taken literally (`Glob.IsPlain`), then the search comes to the folder to which
it leads and goes on with the pattern alone (`Site.exists_search`).  If the pattern
stays below (`Level.staysBelow`), it finds the same folders behind all bases with
the same below them (`Glob.agrees_folders`).

Main results.

- `Level.IsBelow.tidy`, `Level.IsBelow.startsDown`: the pieces of a pattern below
  a base.
- `Glob.agrees_folders`: folders that match a pattern behind two bases.
-/

namespace KeysetBundle

open Files
open Files.Program
open KeysetBundle.Path (Component isIdle piecesOf stepsOf)

/-! ## Levels below a base -/

/-- A level that is relative and has no `.` and no `..` in it. -/
structure Level.IsBelow (level : String) : Prop where
  /-- It is not empty. -/
  nonempty : level ≠ ""
  /-- It is relative. -/
  relative : ¬(Path.mk level).isAbsolute
  /-- It has no `.`. -/
  noCurrent : .current ∉ (Path.mk level).components
  /-- It has no `..`. -/
  noParent : .parent ∉ (Path.mk level).components

instance (level : String) : Decidable (Level.IsBelow level) :=
  decidable_of_iff (level ≠ "" ∧ ¬(Path.mk level).isAbsolute ∧
      .current ∉ (Path.mk level).components ∧ .parent ∉ (Path.mk level).components)
    ⟨fun h => ⟨h.1, h.2.1, h.2.2.1, h.2.2.2⟩,
      fun h => ⟨h.nonempty, h.relative, h.noCurrent, h.noParent⟩⟩

/-- Whether a level stays below the folder where it is searched, if it is a pattern. -/
def Level.staysBelow (level : String) : Bool :=
  (Glob.PathPattern.ofText level).toOption.all fun pattern => Glob.staysBelow 0 pattern.pieces

section Below

variable {level : String} (h : Level.IsBelow level)

include h

theorem Level.IsBelow.not_up : ".." ∉ piecesOf level.toList := by
  intro hmem
  apply h.noParent
  rw [Path.components_eq]
  exact List.mem_append_right _ (List.mem_filterMap.2 ⟨"..", hmem, by decide⟩)

theorem Level.IsBelow.exists_piecesOf : ∃ first rest,
    piecesOf level.toList = first :: rest ∧ ¬isIdle first := by
  obtain ⟨first, rest, hpieces⟩ := List.exists_cons_of_ne_nil (Path.piecesOf_ne_nil level.toList)
  refine ⟨first, rest, hpieces, fun hidle => ?_⟩
  have hcomponents := Path.components_eq ⟨level⟩
  dsimp only at hcomponents
  rw [hpieces, Path.leadOf] at hcomponents
  rcases Bool.or_eq_true_iff.1 hidle with hempty | hpoint
  · have hempty := beq_iff_eq.1 hempty
    subst hempty
    by_cases hrest : rest = []
    · subst hrest
      exact h.nonempty (String.toList_eq_nil_iff.1 (Path.piecesOf_eq_singleton hpieces))
    · rw [if_neg (by decide), if_pos ⟨rfl, hrest⟩] at hcomponents
      refine h.relative (Path.isAbsolute_iff_mem.2 ?_)
      rw [hcomponents]
      exact List.mem_cons_self
  · rw [if_pos (beq_iff_eq.1 hpoint)] at hcomponents
    apply h.noCurrent
    rw [hcomponents]
    exact List.mem_cons_self

theorem Level.IsBelow.stepsOf_ne_nil : stepsOf (piecesOf level.toList) ≠ [] := by
  obtain ⟨first, rest, hpieces, hidle⟩ := h.exists_piecesOf
  obtain ⟨step, hsteps, -⟩ := Path.stepsOf_cons_step hidle rest
  rw [hpieces, hsteps]
  exact List.cons_ne_nil _ _

/-- The texts of a pattern below a base do not go up. -/
theorem Level.IsBelow.tidy {pattern : Glob.PathPattern}
    (hpattern : Glob.PathPattern.ofText level = .ok pattern) : Glob.Tidy pattern.pieces := by
  obtain ⟨pieces, hread, hpieces⟩ := Glob.exists_pieces_of_ofText h.relative hpattern
  intro value hvalue
  rw [hpieces] at hvalue
  obtain ⟨segment, hsegment, hpiece⟩ :=
    exists_of_mem_mapM hread _ (Glob.collapse_subset pieces hvalue)
  rw [Glob.eq_of_readPiece hpiece]
  have hmem := Glob.mem_piecesOf_of_segments hsegment
  exact ⟨Path.not_mem_of_mem_piecesOf hmem, fun hup => h.not_up (hup ▸ hmem)⟩

/-- The first piece of a pattern below a base leaves the base. -/
theorem Level.IsBelow.startsDown {pattern : Glob.PathPattern}
    (hpattern : Glob.PathPattern.ofText level = .ok pattern) : Glob.StartsDown pattern.pieces := by
  obtain ⟨pieces, hread, hpieces⟩ := Glob.exists_pieces_of_ofText h.relative hpattern
  obtain ⟨first, rest, hsplit, hidle⟩ := h.exists_piecesOf
  have hne : first ≠ "" := by
    rintro rfl
    exact hidle rfl
  obtain ⟨others, hsegments⟩ := Glob.exists_segments_cons hsplit hne
  rw [hsegments] at hread
  obtain ⟨piece, more, hpiece, -, rfl⟩ := mapM_cons_eq_ok.1 hread
  obtain ⟨collapsed, hcollapse, -⟩ := Glob.exists_collapse_cons piece more
  rw [hpieces, hcollapse]
  cases piece with
  | text value =>
      rw [Glob.eq_of_readPiece hpiece]
      exact hidle
  | wild tokens => exact trivial
  | anyFolders => exact trivial

end Below

/-! ## Patterns behind a base -/

/-- A base that a pattern takes literally: it has no characters that stand for others, and at its
start no empty piece after points. -/
structure Glob.IsPlain (base : Path) : Prop where
  /-- Its characters stand for themselves. -/
  plain : ∀ c ∈ base.text.toList, isPlainChar c = true
  /-- A search gets over its first pieces. -/
  leaves : ¬base.isAbsolute → ((segmentsOf base).dropWhile (· == ".")).head? ≠ some ""

instance (base : Path) : Decidable (Glob.IsPlain base) :=
  decidable_of_iff (base.text.toList.all Glob.isPlainChar = true ∧
      (¬base.isAbsolute → ((Glob.segmentsOf base).dropWhile (· == ".")).head? ≠ some ""))
    ⟨fun h => ⟨List.all_eq_true.1 h.1, h.2⟩, fun h => ⟨List.all_eq_true.2 h.plain, h.leaves⟩⟩

namespace Files.Site

variable {site other : Site}

theorem locate_startOf (site : Site) : site.world.tree.locate site.world.current
    (Glob.startOf site.base) = .ok (origin site.world.current site.base).1 := by
  have hlocate := (FileTree.resolve_iff.1 site.leads).1
  rw [FileTree.locate_eq _ _ (FileTree.text_ne_of_locate hlocate)] at hlocate
  unfold Glob.startOf
  by_cases habsolute : site.base.isAbsolute
  · rw [if_pos habsolute, origin, if_pos habsolute]
    rfl
  · rw [if_neg habsolute, origin, if_neg habsolute]
    rw [origin, if_neg habsolute] at hlocate
    have hcurrent : site.world.tree.get? site.world.current = some .folder :=
      Glob.folder_of_walk hlocate (FileTree.resolve_iff.1 site.leads).2
    rw [Glob.locate_piece (by decide) (by decide), List.foldlM_cons, FileTree.step, hcurrent]
    rfl

theorem walk_segmentsOf (site : Site) : (Glob.segmentsOf site.base).foldlM site.world.tree.step
    (origin site.world.current site.base).1 = .ok site.location := by
  have hlocate := (FileTree.resolve_iff.1 site.leads).1
  rw [FileTree.locate_eq _ _ (FileTree.text_ne_of_locate hlocate), Glob.origin_snd] at hlocate
  unfold Glob.segmentsOf
  generalize (if site.base.isAbsolute then site.base.body else site.base.text.toList) = cs at *
  unfold Glob.segments
  dsimp only
  split
  · rename_i hlast
    obtain ⟨front, hfront⟩ := List.getLast?_eq_some_iff.1 hlast
    rw [hfront, List.foldlM_append] at hlocate
    obtain ⟨middle, hwalk, hend⟩ := bind_eq_ok.1 hlocate
    -- a slash at the end stays where it is
    have hmiddle : site.location = middle := (FileTree.walk_eq_ok hend).1
    rw [hfront, List.dropLast_concat, hwalk, hmiddle]
  · exact hlocate

theorem way_startOf (base : Path) :
    (Glob.startOf base).way ++ stepsOf (Glob.segmentsOf base) = base.way := by
  obtain ⟨lead, hcomponents⟩ := components_origin [] base
  have hsteps : stepsOf (Glob.segmentsOf base) = stepsOf (origin [] base).2 := by
    rw [Glob.segmentsOf, Glob.stepsOf_segments, Glob.origin_snd]
  have hway : base.way = (lead.component?.toList.filter (· ≠ .current)) ++
      stepsOf (origin [] base).2 := by
    rw [Path.way, hcomponents, List.filter_append, Path.filter_stepsOf]
  rw [hway, hsteps]
  congr 1
  unfold Glob.startOf
  have hroot : base.isAbsolute = true ↔ .root ∈ base.components := Path.isAbsolute_iff_mem
  have hnot : .root ∉ stepsOf (origin [] base).2 := by
    intro hmem
    cases Path.isStep_of_mem hmem
  rw [hcomponents, List.mem_append, or_iff_left hnot] at hroot
  cases lead with
  | root =>
      rw [if_pos (hroot.2 List.mem_cons_self)]
      decide
  | current =>
      rw [if_neg (mt hroot.1 (by decide))]
      decide
  | none =>
      rw [if_neg (mt hroot.1 (by decide))]
      decide

/-- A search for a pattern behind the base comes to the folder. -/
theorem exists_search (site : Site) (hplain : Glob.IsPlain site.base) (pieces : List Glob.Piece) :
    ∃ path, site.At [] [] path ∧
      site.world.run (Glob.search ((Glob.segmentsOf site.base).map .text ++ pieces)
        (Glob.startOf site.base)) = site.world.run (Glob.search pieces path) := by
  have hpoint : (Glob.startOf site.base).text = "." →
      ((Glob.segmentsOf site.base).dropWhile (· == ".")).head? ≠ some "" := by
    intro htext
    apply hplain.leaves
    intro habsolute
    rw [Glob.startOf, if_pos habsolute] at htext
    exact absurd htext (by decide)
  obtain ⟨path, hlocate, hway, hrun⟩ := Glob.exists_search_texts
    (fun _ htext => Glob.slash_of_segmentsOf htext) site.locate_startOf site.walk_segmentsOf
    (FileTree.resolve_iff.1 site.leads).2 hpoint pieces
  rw [way_startOf] at hway
  refine ⟨path, ⟨?_, ?_⟩, hrun⟩
  · rw [List.append_nil]
    exact hlocate
  · rw [List.append_nil]
    exact hway

end Files.Site

/-! ## Searches behind two bases -/

namespace Glob

variable {site other : Site}

/-- Paths alongside each other to a folder below two sites. -/
def ToFolder (site other : Site) (path path' : Path) : Prop :=
  ∃ names steps, Alongside site other names steps path path' ∧ steps ≠ [] ∧
    site.get? names = some .folder

/-- Searches behind two bases find the same folders. -/
theorem agrees_folders (hsame : site.Same other) (hplain : IsPlain site.base)
    (hplain' : IsPlain other.base) {pieces : List Piece} (htidy : Tidy pieces)
    (hstart : StartsDown pieces) (hstays : staysBelow 0 pieces = true) :
    (PathPattern.mk (startOf site.base)
      ((segmentsOf site.base).map .text ++ pieces)).folders.Agrees site.world other.world
      (List.Forall₂ (ToFolder site other))
      (PathPattern.mk (startOf other.base)
        ((segmentsOf other.base).map .text ++ pieces)).folders := by
  obtain ⟨path, hat, hrun⟩ := site.exists_search hplain pieces
  obtain ⟨path', hat', hrun'⟩ := other.exists_search hplain' pieces
  have halong : Alongside site other [] [] path path' := ⟨hat, hat', nofun⟩
  have hsearch := findsSame hsame pieces htidy hstays halong (Nat.le_refl 0) (.inr ⟨rfl, hstart⟩)
  refine agrees_bind (hsearch.of_run hrun hrun') fun found found' hfound => ?_
  refine agrees_filterM hfound ?_
  rintro next next' ⟨names, steps, hnext, hne, -⟩
  refine (hnext.agrees_isFolder hsame).mono ?_
  rintro yes yes' ⟨heq, hyes⟩
  exact ⟨heq, fun htrue => ⟨names, steps, hnext, hne, hyes htrue⟩⟩

end Glob

end KeysetBundle
