import KeysetBundle.Proofs.Path.Pieces

/-!
# The components of all paths

A path is read from the pieces of its spelling: the first of them may be a lead,
and the others are steps.  So what is put behind a path, or taken from its end,
changes its components in the same way, whether it is absolute or not.

Main results.

- `components_eq`: the components of a path from the pieces of its spelling.
- `components_joinText`: a relative text adds its steps to a path.
- `components_parent`, `components_withFileName`: the path without its last
  component, and with another last name.
-/

namespace KeysetBundle.Path

variable {path : Path} {pieces others : List String}

/-! ## Leads -/

/-- What the first piece of a spelling stands for, apart from its step: an empty piece before
others is the root. -/
def leadOf : List String → List Component
  | [] => []
  | piece :: rest =>
    if piece = "." then [.current] else if piece = "" ∧ rest ≠ [] then [.root] else []

theorem leadOf_append (h : pieces ≠ []) (hothers : others ≠ []) {more : List String}
    (hmore : more ≠ []) : leadOf (pieces ++ others) = leadOf (pieces ++ more) := by
  obtain ⟨piece, rest, rfl⟩ := List.exists_cons_of_ne_nil h
  simp [leadOf, hothers, hmore]

theorem leadOf_append_of_ne (h : pieces ≠ []) (hroot : pieces ≠ [""]) :
    leadOf (pieces ++ others) = leadOf pieces := by
  obtain ⟨piece, rest, rfl⟩ := List.exists_cons_of_ne_nil h
  by_cases hempty : piece = ""
  · subst hempty
    have hrest : rest ≠ [] := fun hnil => hroot (by rw [hnil])
    simp [leadOf, hrest]
  · simp [leadOf, hempty]

theorem leadOf_of_front (h : pieces <+: others) (hothers : leadOf others = []) :
    leadOf pieces = [] := by
  obtain ⟨rest, rfl⟩ := h
  cases pieces with
  | nil => rfl
  | cons piece front =>
      by_cases hroot : piece :: front = [""]
      · rw [hroot]
        rfl
      · rw [leadOf_append_of_ne (List.cons_ne_nil _ _) hroot] at hothers
        exact hothers

/-! ## Spellings -/

theorem splitSlashes_eq_cons {cs piece : List Char} {rest : List (List Char)}
    (h : splitSlashes cs = piece :: rest) :
    rest = [] ∧ cs = piece ∨ ∃ after, cs = piece ++ '/' :: after ∧ splitSlashes after = rest := by
  induction cs generalizing piece with
  | nil =>
      cases h
      exact .inl ⟨rfl, rfl⟩
  | cons c cs ih =>
      rw [splitSlashes] at h
      split at h
      · rename_i hslash
        cases h
        exact .inr ⟨cs, by rw [hslash]; rfl, rfl⟩
      · cases hcs : splitSlashes cs with
        | nil => exact absurd hcs (splitSlashes_ne_nil cs)
        | cons first others =>
            rw [hcs] at h
            cases h
            rcases ih hcs with ⟨hrest, rfl⟩ | ⟨after, rfl, hafter⟩
            · exact .inl ⟨hrest, rfl⟩
            · exact .inr ⟨after, rfl, hafter⟩

theorem piecesOf_ne_nil (cs : List Char) : piecesOf cs ≠ [] :=
  fun hnil => splitSlashes_ne_nil cs (List.map_eq_nil_iff.1 hnil)

theorem piecesOf_cons_slash (cs : List Char) : piecesOf ('/' :: cs) = "" :: piecesOf cs :=
  piecesOf_append_slash [] cs

/-- A spelling is its first piece alone, or goes on after a slash. -/
theorem piecesOf_eq_cons {cs : List Char} {piece : String} {rest : List String}
    (h : piecesOf cs = piece :: rest) :
    rest = [] ∧ cs = piece.toList ∨
      ∃ after, cs = piece.toList ++ '/' :: after ∧ piecesOf after = rest := by
  obtain ⟨chars, others, hsplit, rfl, rfl⟩ := List.map_eq_cons_iff.1 h
  rw [String.toList_ofList]
  rcases splitSlashes_eq_cons hsplit with ⟨rfl, hcs⟩ | ⟨after, hcs, hafter⟩
  · exact .inl ⟨rfl, hcs⟩
  · exact .inr ⟨after, hcs, by rw [piecesOf, hafter]⟩

theorem piecesOf_eq_singleton {cs : List Char} {piece : String} (h : piecesOf cs = [piece]) :
    cs = piece.toList := by
  rcases piecesOf_eq_cons h with ⟨-, hcs⟩ | ⟨after, -, hafter⟩
  · exact hcs
  · exact absurd hafter (piecesOf_ne_nil after)

/-- **The components of a path**, from the pieces of its spelling. -/
theorem components_eq (path : Path) : path.components =
    leadOf (piecesOf path.text.toList) ++ stepsOf (piecesOf path.text.toList) := by
  unfold components decompose
  split
  rename_i lead pieces hsplit
  split at hsplit
  · rename_i rest htext
    cases hsplit
    rw [htext, piecesOf_cons_slash, leadOf, if_neg (by decide),
      if_pos ⟨rfl, piecesOf_ne_nil rest⟩]
    rfl
  · rename_i htext
    cases hsplit
    rw [htext]
    rfl
  · rename_i rest htext
    cases hsplit
    have hpieces : piecesOf ('.' :: '/' :: rest) = "." :: piecesOf rest :=
      piecesOf_append_slash ['.'] rest
    rw [htext, hpieces, piecesOf_cons_slash, leadOf, if_pos rfl]
    rfl
  · rename_i hslash hpoint hcurrent
    cases hsplit
    -- neither does a slash come first nor a point alone
    have hlead : leadOf (piecesOf path.text.toList) = [] := by
      cases hpieces : piecesOf path.text.toList with
      | nil => rfl
      | cons piece rest =>
          rw [leadOf]
          rcases piecesOf_eq_cons hpieces with ⟨rfl, htext⟩ | ⟨after, htext, -⟩
          · rw [if_neg, if_neg (by simp)]
            rintro rfl
            exact hpoint htext
          · rw [if_neg, if_neg]
            · rintro ⟨rfl, -⟩
              exact hslash after htext
            · rintro rfl
              exact hcurrent after htext
    rw [hlead]
    rfl

/-! ## Joining -/

/-- A relative text stands behind a slash, of which the path may have its own. -/
theorem exists_text_joinText {name : String} (h : path.text ≠ "")
    (hname : ¬(Path.mk name).isAbsolute) :
    ∃ front, (path.joinText name).text.toList = front ++ '/' :: name.toList ∧
      (path.text.toList = front ∧ front ≠ [] ∧ front.getLast? ≠ some '/' ∨
        path.text.toList = front ++ ['/']) := by
  have hslash : ("/" : String).toList = ['/'] := by decide
  unfold joinText join
  rw [if_neg hname]
  split
  · rename_i hend
    rw [Bool.or_eq_true, String.isEmpty_iff] at hend
    have hend := hend.resolve_left h
    rw [String.endsWith_eq_endsWith_toSlice, String.Slice.endsWith_string_iff,
      String.copy_toSlice, hslash] at hend
    obtain ⟨front, hfront⟩ := hend
    refine ⟨front, ?_, .inr hfront.symm⟩
    rw [String.toList_append, ← hfront, List.append_assoc]
    rfl
  · rename_i hend
    refine ⟨path.text.toList, ?_, .inl ⟨rfl, mt String.toList_eq_nil_iff.1 h, fun hlast => ?_⟩⟩
    · rw [String.toList_append, String.toList_append, hslash, List.append_assoc]
      rfl
    · rw [Bool.or_eq_true, String.endsWith_eq_endsWith_toSlice,
        String.Slice.endsWith_string_iff, String.copy_toSlice, hslash] at hend
      obtain ⟨front, hfront⟩ := List.getLast?_eq_some_iff.1 hlast
      exact hend (.inr ⟨front, hfront.symm⟩)

/-- Behind an empty path a text stays as it is. -/
theorem joinText_of_empty (h : path.text = "") (name : String) : path.joinText name = ⟨name⟩ := by
  unfold joinText join
  rw [h]
  split
  · rfl
  · exact congrArg Path.mk (String.empty_append)

/-- **A relative text adds its steps to a path.** -/
theorem components_joinText {name : String} (h : path.text ≠ "")
    (hname : ¬(Path.mk name).isAbsolute) :
    (path.joinText name).components = path.components ++ stepsOf (piecesOf name.toList) := by
  obtain ⟨front, hjoined, hpath⟩ := exists_text_joinText h hname
  rw [components_eq, hjoined, piecesOf_append_slash, stepsOf_append, components_eq]
  rcases hpath with ⟨hpath, hfront, -⟩ | hpath
  · have hroot : piecesOf front ≠ [""] := fun heq => hfront (piecesOf_eq_singleton heq)
    rw [hpath, leadOf_append_of_ne (piecesOf_ne_nil front) hroot, List.append_assoc]
  · have hnil : stepsOf (piecesOf []) = [] := rfl
    rw [hpath, piecesOf_append_slash, stepsOf_append, hnil, List.append_nil, List.append_assoc,
      leadOf_append (piecesOf_ne_nil front) (piecesOf_ne_nil name.toList) (piecesOf_ne_nil [])]

theorem components_joinText_of_isName {name : String} (hname : IsName name) (path : Path) :
    (path.joinText name).components = path.components ++ [.name name] := by
  by_cases h : path.text = ""
  · have hcomponents : path.components = [] := by
      rw [components_eq, h]
      rfl
    have hone := piecesOf_of_not_mem hname.noSlash
    have hlead : leadOf [name] = [] := by
      rw [leadOf, if_neg, if_neg (by simp)]
      rintro rfl
      cases hname.component
    rw [joinText_of_empty h, hcomponents, components_eq]
    dsimp only
    rw [hname.stepsOf_piecesOf, hone, hlead]
  · rw [components_joinText h hname.not_isAbsolute, hname.stepsOf_piecesOf]

/-! ## Without the last component -/

/-- What is neither absolute nor starts with a point has only its pieces. -/
theorem leadOf_of_decompose (h : path.decompose = (.none, pieces)) :
    leadOf (piecesOf path.text.toList) = [] := by
  have hboth := components_eq path
  rw [components, h] at hboth
  have hpieces : pieces = piecesOf path.text.toList := by
    unfold decompose at h
    split at h
    all_goals cases h
    rfl
  subst hpieces
  exact (List.append_cancel_right hboth).symm

/-- Some of the first pieces after a point, not idle at the end. -/
theorem components_of_current_front {rest : List Char} (hothers : others <+: piecesOf ('/' :: rest))
    (hlast : ∀ piece, others.getLast? = some piece → ¬isIdle piece) :
    (Path.mk (Lead.current.text ++ joinPieces others)).components = .current :: stepsOf others := by
  rw [piecesOf_cons_slash] at hothers
  rcases others with _ | ⟨piece, others⟩
  · rfl
  · obtain ⟨rfl, hrest⟩ := List.cons_prefix_cons.1 hothers
    obtain ⟨next, others, rfl⟩ : ∃ next more, others = next :: more := by
      rcases others with _ | ⟨next, more⟩
      · exact absurd rfl (hlast "" rfl)
      · exact ⟨next, more, rfl⟩
    have hpieces : piecesOf (joinPieces (next :: others)).toList = next :: others :=
      piecesOf_joinPieces (by simp) fun piece hpiece =>
        not_mem_of_mem_piecesOf (hrest.subset hpiece)
    have hjoined : (Lead.current.text ++ joinPieces ("" :: next :: others)).toList =
        ['.'] ++ '/' :: (joinPieces (next :: others)).toList := by
      unfold joinPieces
      rw [String.intercalate_cons_cons, String.toList_append, String.toList_append,
        String.toList_append]
      rfl
    rw [components_eq, hjoined, piecesOf_append_slash, hpieces]
    rfl

/-- The spelling of a lead with some of the first pieces after it, not idle at the end. -/
theorem components_of_front {lead : Lead} (h : path.decompose = (lead, pieces))
    (hothers : others <+: pieces) (hlast : ∀ piece, others.getLast? = some piece → ¬isIdle piece) :
    (Path.mk (lead.text ++ joinPieces others)).components =
      lead.component?.toList ++ stepsOf others := by
  have hnoSlash : ∀ cs : List Char, others <+: piecesOf cs →
      ∀ piece ∈ others, '/' ∉ piece.toList :=
    fun cs hfront piece hpiece => not_mem_of_mem_piecesOf (hfront.subset hpiece)
  have hsplit := h
  unfold decompose at h
  split at h
  · rename_i rest htext
    cases h
    have hroot : (Path.mk (Lead.root.text ++ joinPieces others)).text.toList =
        '/' :: (joinPieces others).toList := by
      rw [String.toList_append]
      rfl
    rw [components_of_isAbsolute (isAbsolute_of_text _ hroot), steps, body_of_text hroot,
      stepsOf_joinPieces (hnoSlash rest hothers)]
    rfl
  · cases h
    -- there is nothing but the point
    have hnil : others = [] := by
      rcases others with _ | ⟨piece, rest⟩
      · rfl
      · obtain ⟨hpiece, hrest⟩ := List.cons_prefix_cons.1 hothers
        rw [List.prefix_nil.1 hrest, hpiece] at hlast
        exact absurd rfl (hlast "" rfl)
    rw [hnil]
    rfl
  · cases h
    exact components_of_current_front hothers hlast
  · cases h
    have htext : Lead.none.text ++ joinPieces others = joinPieces others := String.empty_append
    rw [htext, components_eq]
    by_cases hnil : others = []
    · rw [hnil]
      rfl
    · rw [piecesOf_joinPieces hnil (hnoSlash _ hothers),
        leadOf_of_front hothers (leadOf_of_decompose hsplit)]
      rfl

theorem trimRight_isFront (pieces : List String) : trimRight pieces <+: pieces := by
  obtain ⟨idle, -, heq⟩ := trimRight_append pieces
  exact ⟨idle, heq.symm⟩

theorem not_isIdle_of_trimRight {piece : String} (h : (trimRight pieces).getLast? = some piece) :
    ¬isIdle piece := by
  have hne : trimRight pieces ≠ [] := by
    intro hnil
    rw [hnil] at h
    cases h
  rw [List.getLast?_eq_some_getLast hne] at h
  cases h
  exact not_isIdle_getLast_trimRight hne

/-- **The path without its last component** has one component less. -/
theorem components_parent {name : String} (h : path.fileName? = some name) :
    ∃ parent, path.parent? = some parent ∧ path.components = parent.components ++ [.name name] := by
  obtain ⟨lead, pieces, hsplit⟩ : ∃ lead pieces, path.decompose = (lead, pieces) := ⟨_, _, rfl⟩
  have hcomponents : path.components = lead.component?.toList ++ stepsOf pieces := by
    rw [components, hsplit]
    rfl
  have hlast : path.components.getLast? = some (.name name) := by
    unfold fileName? at h
    split at h
    · rename_i text hlast
      cases h
      exact hlast
    · cases h
  have hne : trimRight pieces ≠ [] := by
    intro hnil
    rw [hcomponents, ← stepsOf_trimRight, hnil] at hlast
    cases lead <;> cases hlast
  obtain ⟨component, hcomponent⟩ := exists_last_step hne
  rw [hcomponents, hcomponent, ← List.append_assoc, List.getLast?_concat] at hlast
  cases hlast
  refine ⟨⟨lead.text ++ joinPieces (trimRight (trimRight pieces).dropLast)⟩, ?_, ?_⟩
  · rw [parent?, hsplit]
    dsimp only
    split
    · rename_i hnil
      exact absurd hnil hne
    · rfl
  · have hdrop : (trimRight pieces).dropLast <+: trimRight pieces := List.dropLast_prefix _
    have hfront := (trimRight_isFront (trimRight pieces).dropLast).trans
      (hdrop.trans (trimRight_isFront pieces))
    rw [components_of_front hsplit hfront fun piece => not_isIdle_of_trimRight,
      stepsOf_trimRight, hcomponents, hcomponent, List.append_assoc]

/-- **Another last name** takes the place of the last one, or comes after all components if they do
not end in a name. -/
theorem components_withFileName {name : String} (hname : IsName name) (path : Path) :
    (path.withFileName name).components =
      (if path.fileName?.isSome then path.components.dropLast else path.components) ++
        [.name name] := by
  unfold withFileName
  cases hlast : path.fileName? with
  | none => exact components_joinText_of_isName hname path
  | some last =>
      obtain ⟨parent, hparent, hcomponents⟩ := components_parent hlast
      rw [hparent, Option.getD_some, components_joinText_of_isName hname parent, hcomponents,
        List.dropLast_concat]
      rfl

end KeysetBundle.Path
