import KeysetBundle.Path.Basic

/-!
# The components of absolute paths

An absolute path is a slash and a body, and its components are the root and
what the pieces of the body stand for.  This module says which components the
operations on such paths give.

Main results.

- `steps_joinText`: a relative name adds its components to those of a folder.
- `steps_parent`: the path without its last component has one step less.
- `steps_withFileName`: another last name replaces the last step.
-/

namespace KeysetBundle.Path

/-! ## Splitting at slashes -/

theorem splitSlashes_ne_nil (cs : List Char) : splitSlashes cs ≠ [] := by
  cases cs with
  | nil => simp [splitSlashes]
  | cons c cs =>
      rw [splitSlashes]
      split
      · simp
      · split <;> simp

theorem splitSlashes_append_slash (cs ds : List Char) :
    splitSlashes (cs ++ '/' :: ds) = splitSlashes cs ++ splitSlashes ds := by
  induction cs with
  | nil => simp [splitSlashes]
  | cons c cs ih =>
      rw [List.cons_append, splitSlashes, ih, splitSlashes]
      split
      · rfl
      · cases hcs : splitSlashes cs with
        | nil => exact absurd hcs (splitSlashes_ne_nil cs)
        | cons piece pieces => rfl

theorem splitSlashes_of_not_mem {cs : List Char} (h : '/' ∉ cs) : splitSlashes cs = [cs] := by
  induction cs with
  | nil => rfl
  | cons c cs ih =>
      obtain ⟨hc, hcs⟩ := not_or.1 (mt List.mem_cons.2 h)
      rw [splitSlashes, if_neg (Ne.symm hc), ih hcs]

theorem not_mem_of_mem_splitSlashes {cs piece : List Char} (h : piece ∈ splitSlashes cs) :
    '/' ∉ piece := by
  induction cs generalizing piece with
  | nil =>
      rw [splitSlashes, List.mem_singleton] at h
      simp [h]
  | cons c cs ih =>
      rw [splitSlashes] at h
      split at h
      · rcases List.mem_cons.1 h with rfl | h
        · simp
        · exact ih h
      · rename_i hc
        cases hcs : splitSlashes cs with
        | nil => exact absurd hcs (splitSlashes_ne_nil cs)
        | cons first rest =>
            rw [hcs] at h
            rcases List.mem_cons.1 h with rfl | h
            · have hfirst : '/' ∉ first := ih (by simp [hcs])
              simp [Ne.symm hc, hfirst]
            · exact ih (by simp [hcs, h])

theorem piecesOf_append_slash (cs ds : List Char) :
    piecesOf (cs ++ '/' :: ds) = piecesOf cs ++ piecesOf ds := by
  rw [piecesOf, splitSlashes_append_slash, List.map_append]
  rfl

theorem piecesOf_of_not_mem {text : String} (h : '/' ∉ text.toList) :
    piecesOf text.toList = [text] := by
  rw [piecesOf, splitSlashes_of_not_mem h, List.map_singleton, String.ofList_toList]

theorem not_mem_of_mem_piecesOf {cs : List Char} {piece : String} (h : piece ∈ piecesOf cs) :
    '/' ∉ piece.toList := by
  obtain ⟨chars, hchars, rfl⟩ := List.mem_map.1 h
  rw [String.toList_ofList]
  exact not_mem_of_mem_splitSlashes hchars

theorem piecesOf_joinPieces {pieces : List String} (hne : pieces ≠ [])
    (h : ∀ piece ∈ pieces, '/' ∉ piece.toList) :
    piecesOf (joinPieces pieces).toList = pieces := by
  induction pieces with
  | nil => exact absurd rfl hne
  | cons piece pieces ih =>
      cases pieces with
      | nil => simpa [joinPieces] using piecesOf_of_not_mem (h piece (by simp))
      | cons next rest =>
          have hslash : ("/" : String).toList = ['/'] := by decide
          have htext : (joinPieces (piece :: next :: rest)).toList =
              piece.toList ++ '/' :: (joinPieces (next :: rest)).toList := by
            rw [joinPieces, String.intercalate_cons_cons, String.toList_append,
              String.toList_append, hslash]
            simp [joinPieces]
          rw [htext, piecesOf_append_slash, piecesOf_of_not_mem (h piece (by simp)),
            ih (by simp) (fun other hother => h other (by simp [hother]))]
          rfl

/-! ## Steps -/

/-- The components that pieces stand for. -/
def stepsOf (pieces : List String) : List Component := pieces.filterMap pieceComponent?

@[simp] theorem stepsOf_append (pieces others : List String) :
    stepsOf (pieces ++ others) = stepsOf pieces ++ stepsOf others := by
  rw [stepsOf, List.filterMap_append]
  rfl

theorem stepsOf_cons (piece : String) (pieces : List String) :
    stepsOf (piece :: pieces) = stepsOf [piece] ++ stepsOf pieces :=
  stepsOf_append [piece] pieces

/-- A piece is one step at most. -/
theorem length_stepsOf_singleton (piece : String) : (stepsOf [piece]).length ≤ 1 :=
  List.length_filterMap_le _ _

theorem stepsOf_of_idle {pieces : List String} (h : ∀ piece ∈ pieces, isIdle piece) :
    stepsOf pieces = [] := by
  rw [stepsOf, List.filterMap_eq_nil_iff]
  intro piece hpiece
  rw [pieceComponent?, if_pos (h piece hpiece)]

theorem stepsOf_joinPieces {pieces : List String} (h : ∀ piece ∈ pieces, '/' ∉ piece.toList) :
    stepsOf (piecesOf (joinPieces pieces).toList) = stepsOf pieces := by
  cases pieces with
  | nil => rfl
  | cons piece pieces => rw [piecesOf_joinPieces (by simp) h]

/-- The characters of an absolute path after its slash. -/
def body (path : Path) : List Char := path.text.toList.tail

/-- The components of an absolute path after the root. -/
def steps (path : Path) : List Component := stepsOf (piecesOf path.body)

theorem isAbsolute_iff {path : Path} :
    path.isAbsolute ↔ ∃ rest, path.text.toList = '/' :: rest := by
  have hslash : ("/" : String).toList = ['/'] := by decide
  rw [isAbsolute, String.startsWith_string_iff, hslash]
  constructor
  · rintro ⟨rest, hrest⟩
    exact ⟨rest, hrest.symm⟩
  · rintro ⟨rest, hrest⟩
    exact ⟨rest, hrest.symm⟩

theorem text_eq {path : Path} (h : path.isAbsolute) : path.text.toList = '/' :: path.body := by
  obtain ⟨rest, hrest⟩ := isAbsolute_iff.1 h
  rw [body, hrest]
  rfl

theorem text_ne_empty {path : Path} (h : path.isAbsolute) : path.text ≠ "" := by
  rw [Ne, ← String.toList_inj, text_eq h]
  simp

theorem isEmpty_text {path : Path} (h : path.isAbsolute) : path.text.isEmpty = false := by
  rw [← Bool.not_eq_true, String.isEmpty_iff]
  exact text_ne_empty h

theorem isAbsolute_of_text {path : Path} (rest : List Char) (h : path.text.toList = '/' :: rest) :
    path.isAbsolute := isAbsolute_iff.2 ⟨rest, h⟩

theorem body_of_text {path : Path} {rest : List Char} (h : path.text.toList = '/' :: rest) :
    path.body = rest := by
  rw [body, h]
  rfl

theorem decompose_of_isAbsolute {path : Path} (h : path.isAbsolute) :
    path.decompose = (.root, piecesOf path.body) := by
  rw [decompose, text_eq h]
  rfl

theorem components_of_isAbsolute {path : Path} (h : path.isAbsolute) :
    path.components = .root :: path.steps := by
  rw [components, decompose_of_isAbsolute h]
  rfl

/-! ## Joining -/

theorem isAbsolute_join {path : Path} (other : Path) (h : path.isAbsolute) :
    (path.join other).isAbsolute := by
  unfold join
  split
  · assumption
  · split
    · refine isAbsolute_of_text (path.body ++ other.text.toList) ?_
      rw [String.toList_append, text_eq h]
      rfl
    · refine isAbsolute_of_text (path.body ++ ("/" : String).toList ++ other.text.toList) ?_
      rw [String.toList_append, String.toList_append, text_eq h]
      rfl

theorem isAbsolute_joinText {path : Path} (other : String) (h : path.isAbsolute) :
    (path.joinText other).isAbsolute := isAbsolute_join _ h

theorem isAbsolute_resolve {root : Path} (text : String) (h : root.isAbsolute) :
    (resolve root text).isAbsolute := by
  unfold resolve
  dsimp only
  split
  · assumption
  · exact isAbsolute_join _ h

/-- A relative name stands behind a slash, of which the folder may have its own. -/
theorem body_joinText {path : Path} {name : String} (h : path.isAbsolute)
    (hname : ¬(Path.mk name).isAbsolute) :
    (path.body = [] ∧ (path.joinText name).body = name.toList) ∨
      ∃ front, (path.body = front ∨ path.body = front ++ ['/']) ∧
        (path.joinText name).body = front ++ '/' :: name.toList := by
  have htext := text_eq h
  have hslash : ("/" : String).toList = ['/'] := by decide
  unfold joinText join
  rw [if_neg hname]
  split
  · rename_i hend
    -- the slash at the end is one before the name, or the one at the start
    rw [isEmpty_text h, Bool.false_or, String.endsWith_eq_endsWith_toSlice,
      String.Slice.endsWith_string_iff, String.copy_toSlice, hslash, htext] at hend
    have hjoined : (Path.mk (path.text ++ name)).text.toList =
        '/' :: (path.body ++ name.toList) := by
      rw [String.toList_append, htext]
      rfl
    rw [body_of_text hjoined]
    obtain ⟨front, hfront⟩ := hend
    cases front with
    | nil =>
        obtain ⟨-, hbody⟩ := List.cons.inj hfront
        exact .inl ⟨hbody.symm, by rw [← hbody, List.nil_append]⟩
    | cons c front =>
        have hbody : front ++ ['/'] = path.body := (List.cons.inj hfront).2
        refine .inr ⟨front, .inr hbody.symm, ?_⟩
        rw [← hbody, List.append_assoc, List.singleton_append]
  · have hjoined : (Path.mk (path.text ++ "/" ++ name)).text.toList =
        '/' :: (path.body ++ '/' :: name.toList) := by
      rw [String.toList_append, String.toList_append, htext, hslash]
      simp
    exact .inr ⟨path.body, .inl rfl, body_of_text hjoined⟩

/-- A relative name adds its components to those of a folder. -/
theorem steps_joinText {path : Path} {name : String} (h : path.isAbsolute)
    (hname : ¬(Path.mk name).isAbsolute) :
    (path.joinText name).steps = path.steps ++ stepsOf (piecesOf name.toList) := by
  have hnil : stepsOf (piecesOf []) = [] := rfl
  rcases body_joinText h hname with ⟨hempty, hbody⟩ | ⟨front, hfront, hbody⟩
  · rw [steps, steps, hbody, hempty, hnil, List.nil_append]
  · rw [steps, steps, hbody, piecesOf_append_slash, stepsOf_append]
    rcases hfront with hsame | hslash
    · rw [hsame]
    · rw [hslash, piecesOf_append_slash, stepsOf_append, hnil, List.append_nil]

/-! ## Without the last component -/

theorem trimRight_append (pieces : List String) :
    ∃ idle, (∀ piece ∈ idle, isIdle piece) ∧ pieces = trimRight pieces ++ idle := by
  refine ⟨(pieces.reverse.takeWhile isIdle).reverse, ?_, ?_⟩
  · intro piece hpiece
    exact List.all_eq_true.1 List.all_takeWhile piece (List.mem_reverse.1 hpiece)
  · rw [trimRight, ← List.reverse_append, List.takeWhile_append_dropWhile, List.reverse_reverse]

theorem stepsOf_trimRight (pieces : List String) : stepsOf (trimRight pieces) = stepsOf pieces := by
  obtain ⟨idle, hidle, heq⟩ := trimRight_append pieces
  conv => rhs; rw [heq]
  rw [stepsOf_append, stepsOf_of_idle hidle, List.append_nil]

theorem mem_of_mem_trimRight {pieces : List String} {piece : String}
    (h : piece ∈ trimRight pieces) : piece ∈ pieces := by
  obtain ⟨idle, -, heq⟩ := trimRight_append pieces
  rw [heq]
  exact List.mem_append_left _ h

/-- The last piece that is left stands for a component. -/
theorem not_isIdle_getLast_trimRight {pieces : List String} (h : trimRight pieces ≠ []) :
    ¬isIdle ((trimRight pieces).getLast h) := by
  have hne : pieces.reverse.dropWhile isIdle ≠ [] := fun hnil => h (by rw [trimRight, hnil]; rfl)
  have hlast : (trimRight pieces).getLast h = (pieces.reverse.dropWhile isIdle).head hne := by
    unfold trimRight
    exact List.getLast_reverse _
  have hhead := List.head_dropWhile_not isIdle hne
  rw [hlast, hhead]
  simp

theorem exists_last_step {pieces : List String} (h : trimRight pieces ≠ []) :
    ∃ component, stepsOf pieces = stepsOf (trimRight pieces).dropLast ++ [component] := by
  have hlast := not_isIdle_getLast_trimRight h
  have hone : ∃ component, stepsOf [(trimRight pieces).getLast h] = [component] := by
    unfold stepsOf
    rw [List.filterMap_cons, List.filterMap_nil, pieceComponent?, if_neg hlast]
    by_cases hup : (trimRight pieces).getLast h == ".."
    · exact ⟨.parent, by rw [if_pos hup]⟩
    · exact ⟨.name _, by rw [if_neg hup]⟩
  obtain ⟨component, hcomponent⟩ := hone
  refine ⟨component, ?_⟩
  rw [← hcomponent, ← stepsOf_append, List.dropLast_concat_getLast, stepsOf_trimRight]

/-- The path without its last component is absolute and has one step less. -/
theorem steps_parent {path parent : Path} (h : path.isAbsolute)
    (hparent : path.parent? = some parent) :
    parent.isAbsolute ∧ ∃ component, path.steps = parent.steps ++ [component] := by
  rw [parent?, decompose_of_isAbsolute h] at hparent
  dsimp only at hparent
  split at hparent
  · cases hparent
  · rename_i hne
    obtain ⟨component, hcomponent⟩ := exists_last_step hne
    cases hparent
    have hslash : Lead.root.text.toList = ['/'] := by decide
    have htext : (Path.mk (Lead.root.text ++
        joinPieces (trimRight (trimRight (piecesOf path.body)).dropLast))).text.toList =
        '/' :: (joinPieces (trimRight (trimRight (piecesOf path.body)).dropLast)).toList := by
      rw [String.toList_append, hslash]
      rfl
    refine ⟨isAbsolute_of_text _ htext, component, ?_⟩
    have hparent : stepsOf (piecesOf
        (joinPieces (trimRight (trimRight (piecesOf path.body)).dropLast)).toList) =
        stepsOf (trimRight (piecesOf path.body)).dropLast := by
      rw [stepsOf_joinPieces, stepsOf_trimRight]
      intro piece hpiece
      exact not_mem_of_mem_piecesOf
        (mem_of_mem_trimRight (List.dropLast_subset _ (mem_of_mem_trimRight hpiece)))
    rw [steps, hcomponent, steps, body_of_text htext, hparent]

theorem parent?_isSome {path : Path} (h : path.isAbsolute) (hsteps : path.steps ≠ []) :
    path.parent?.isSome := by
  rw [parent?, decompose_of_isAbsolute h]
  dsimp only
  split
  · rename_i htrimmed
    rw [steps, ← stepsOf_trimRight, htrimmed] at hsteps
    exact absurd rfl hsteps
  · rfl

/-! ## Names -/

/-- A text that is the name of a file: one piece that stands for itself. -/
structure IsName (text : String) : Prop where
  /-- There is no slash in it. -/
  noSlash : '/' ∉ text.toList
  /-- It stands for itself. -/
  component : pieceComponent? text = some (.name text)

theorem IsName.not_isAbsolute {name : String} (h : IsName name) :
    ¬(Path.mk name).isAbsolute := by
  intro habsolute
  exact h.noSlash (by rw [text_eq habsolute]; simp)

theorem IsName.stepsOf_piecesOf {name : String} (h : IsName name) :
    stepsOf (piecesOf name.toList) = [.name name] := by
  rw [piecesOf_of_not_mem h.noSlash, stepsOf, List.filterMap_cons, List.filterMap_nil, h.component]

/-- The name of a file with an ending is one too. -/
theorem isName_append {name ending : String} (hname : '/' ∉ name.toList)
    (hending : '/' ∉ ending.toList) (hlong : 2 < ending.toList.length) :
    IsName (name ++ ending) := by
  have hlength : 2 < (name ++ ending).toList.length := by
    rw [String.toList_append, List.length_append]
    omega
  have hne : ∀ other : String, other.toList.length ≤ 2 → name ++ ending ≠ other := by
    intro other hother heq
    rw [heq] at hlength
    omega
  constructor
  · rw [String.toList_append, List.mem_append]
    exact not_or.2 ⟨hname, hending⟩
  · have hempty := hne "" (by decide)
    have hpoint := hne "." (by decide)
    have hup := hne ".." (by decide)
    simp [pieceComponent?, isIdle, hempty, hpoint, hup]

/-- A component of a path that is no point and no slash is a name. -/
theorem isName_of_mem_components {path : Path} {name : String}
    (h : .name name ∈ path.components) : IsName name := by
  unfold components at h
  have hpieces : ∀ piece ∈ path.decompose.2, '/' ∉ piece.toList := by
    unfold decompose
    split
    · exact fun piece hpiece => not_mem_of_mem_piecesOf hpiece
    · intro piece hpiece
      rw [List.mem_singleton.1 hpiece]
      decide
    · exact fun piece hpiece => not_mem_of_mem_piecesOf hpiece
    · exact fun piece hpiece => not_mem_of_mem_piecesOf hpiece
  generalize path.decompose = parts at h hpieces
  obtain ⟨lead, pieces⟩ := parts
  rcases List.mem_append.1 h with hlead | hname
  · cases lead <;> simp [Lead.component?] at hlead
  · obtain ⟨piece, hpiece, hcomponent⟩ := List.mem_filterMap.1 hname
    have hsame : piece = name := by
      unfold pieceComponent? at hcomponent
      split at hcomponent
      · cases hcomponent
      · split at hcomponent
        · cases hcomponent
        · cases hcomponent
          rfl
    subst hsame
    exact ⟨hpieces _ hpiece, hcomponent⟩

/-- What a path has as its last component is a name. -/
theorem isName_of_fileName? {path : Path} {name : String} (h : path.fileName? = some name) :
    IsName name := by
  unfold fileName? at h
  split at h
  · rename_i text hlast
    cases h
    exact isName_of_mem_components (List.mem_of_getLast? hlast)
  · cases h

theorem fileName?_eq_some {path : Path} {name : String} (h : path.isAbsolute)
    (hname : path.fileName? = some name) : path.steps = path.steps.dropLast ++ [.name name] := by
  rw [fileName?, components_of_isAbsolute h] at hname
  cases hsteps : path.steps with
  | nil =>
      rw [hsteps] at hname
      cases hname
  | cons first rest =>
      rw [hsteps, List.getLast?_cons_cons] at hname
      split at hname
      · rename_i text hlast
        cases hname
        obtain ⟨front, hfront⟩ := List.getLast?_eq_some_iff.1 hlast
        rw [hfront, List.dropLast_concat]
      · cases hname

/-- A file in a folder has its name as the last piece. -/
theorem exists_piecesOf_joinText {path : Path} {name : String} (h : path.isAbsolute)
    (hname : IsName name) : ∃ pieces, piecesOf (path.joinText name).body = pieces ++ [name] := by
  have hpiece := piecesOf_of_not_mem hname.noSlash
  rcases body_joinText h hname.not_isAbsolute with ⟨-, hbody⟩ | ⟨front, -, hbody⟩
  · exact ⟨[], by rw [hbody, hpiece, List.nil_append]⟩
  · exact ⟨piecesOf front, by rw [hbody, piecesOf_append_slash, hpiece]⟩

theorem steps_joinText_of_isName {path : Path} {name : String} (h : path.isAbsolute)
    (hname : IsName name) : (path.joinText name).steps = path.steps ++ [.name name] := by
  rw [steps_joinText h hname.not_isAbsolute, hname.stepsOf_piecesOf]

/-- Another last name takes the place of the last one, or comes after all components if they do not
end in a name. -/
theorem steps_withFileName {path : Path} {name : String} (h : path.isAbsolute)
    (hname : IsName name) :
    (path.withFileName name).isAbsolute ∧
      (path.withFileName name).steps =
        (if path.fileName?.isSome then path.steps.dropLast else path.steps) ++ [.name name] := by
  unfold withFileName
  cases hlast : path.fileName? with
  | none => exact ⟨isAbsolute_joinText _ h, steps_joinText_of_isName h hname⟩
  | some last =>
      have hsteps := fileName?_eq_some h hlast
      have hsome := parent?_isSome h (by rw [hsteps]; simp)
      obtain ⟨parent, hparent⟩ := Option.isSome_iff_exists.1 hsome
      obtain ⟨habsolute, component, hcomponent⟩ := steps_parent h hparent
      rw [hparent, Option.getD_some]
      refine ⟨isAbsolute_joinText _ habsolute, ?_⟩
      rw [steps_joinText_of_isName habsolute hname, hcomponent, List.dropLast_concat]
      rfl

end KeysetBundle.Path
