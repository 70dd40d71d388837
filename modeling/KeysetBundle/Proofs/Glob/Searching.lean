import KeysetBundle.Glob.Expansion
import KeysetBundle.Proofs.Files.Agreement
import KeysetBundle.Proofs.Files.Site

/-!
# Searches from two sites

A search for a pattern asks only what is below the folder where it begins, as
long as it does not go above it.  So searches from two sites with the same below
them find the same, in the same order, and what they find has the same
components behind those of the two bases (`findsSame`).

A wildcard can go above: `.*` matches `..`.  Such a piece is harmless only if
enough folders come before it (`stays`).

The pieces of the base stand before those of the pattern.  They lead to the base
again if they are texts, apart from one spelling: a search that is still at `.`
does not get over an empty piece (`exists_search_texts`).

Main results.

- `findsSame`: searches from two sites find the same.
- `exists_search_texts`: a search along texts.
-/

namespace KeysetBundle.Glob

open Files
open Files.Program
open Files.Site (below)
open KeysetBundle.Path (Component isIdle piecesOf stepsOf)

/-! ## Children -/

section Children

variable {tree : FileTree} {current location : Location} {path : Path} {piece : String}

theorem eq_point (h : path.text = ".") : path = ⟨"."⟩ := by
  cases path
  exact congrArg Path.mk h

theorem way_of_point (h : path.text = ".") : path.way = [] := by
  rw [eq_point h]
  decide

theorem locate_piece (hne : piece ≠ "") (hslash : '/' ∉ piece.toList) :
    tree.locate current ⟨piece⟩ = [piece].foldlM tree.step current := by
  have hrelative : ∀ rest, (Path.mk piece).text.toList ≠ '/' :: rest := by
    intro rest htext
    rw [show piece.toList = '/' :: rest from htext] at hslash
    exact hslash List.mem_cons_self
  rw [FileTree.locate_eq _ _ hne, origin_of_relative current hrelative,
    Path.piecesOf_of_not_mem hslash]

theorem not_isAbsolute_of_piece (hslash : '/' ∉ piece.toList) : ¬(Path.mk piece).isAbsolute := by
  intro habsolute
  rw [show piece.toList = '/' :: _ from Path.text_eq habsolute] at hslash
  exact hslash List.mem_cons_self

/-- A child is one piece further, unless the piece is empty at the start. -/
theorem locate_child (h : tree.locate current path = .ok location) (hslash : '/' ∉ piece.toList)
    (hpoint : piece = "" → path.text ≠ ".") :
    tree.locate current (child path piece) = [piece].foldlM tree.step location := by
  unfold child
  split
  · rename_i htext
    rw [eq_point htext, locate_piece (by decide) (by decide)] at h
    have hlocation : location = current := (FileTree.walk_eq_ok h).1
    rw [locate_piece (fun hempty => hpoint hempty htext) hslash, hlocation]
  · rw [FileTree.locate_joinText_of_relative h (not_isAbsolute_of_piece hslash),
      Path.piecesOf_of_not_mem hslash]

theorem way_child (h : path.text ≠ "") (hslash : '/' ∉ piece.toList) :
    (child path piece).way = path.way ++ stepsOf [piece] := by
  unfold child
  split
  · rename_i htext
    rw [way_of_point htext, Path.way_of_piece hslash, List.nil_append]
  · rw [Path.way_joinText h (not_isAbsolute_of_piece hslash), Path.piecesOf_of_not_mem hslash]

/-- What has left the start does not come back to it. -/
theorem text_child_ne (h : path.text ≠ "") (hslash : '/' ∉ piece.toList)
    (hpoint : path.text ≠ ".") : (child path piece).text ≠ "." := by
  obtain ⟨front, hjoined, -⟩ :=
    Path.exists_text_joinText h (not_isAbsolute_of_piece hslash)
  rw [child, if_neg hpoint]
  intro htext
  have hmem : '/' ∈ (path.joinText piece).text.toList := by
    rw [hjoined]
    simp
  rw [htext] at hmem
  exact absurd hmem (by decide)

end Children

/-! ## Paths from two sites -/

/-- Paths that lead from two sites to the same names, with the same components. -/
structure Alongside (site other : Site) (names : Location) (steps : List Component)
    (path path' : Path) : Prop where
  /-- The path from the first site. -/
  first : site.At names steps path
  /-- The path from the second site. -/
  second : other.At names steps path'
  /-- The components are names or go up. -/
  isStep : ∀ step ∈ steps, step.isStep = true

/-- Paths alongside each other that have left the bases and go at least so deep. -/
def Deeper (site other : Site) (depth : Nat) (path path' : Path) : Prop :=
  ∃ names steps, Alongside site other names steps path path' ∧ steps ≠ [] ∧ depth ≤ names.length

theorem Deeper.mono {site other : Site} {depth less : Nat} {path path' : Path}
    (h : Deeper site other depth path path') (hless : less ≤ depth) :
    Deeper site other less path path' := by
  obtain ⟨names, steps, halong, hne, hdepth⟩ := h
  exact ⟨names, steps, halong, hne, Nat.le_trans hless hdepth⟩

section At

variable {site : Site} {names more : Location} {steps : List Component} {path : Path}
  {piece : String}

theorem at_child (h : site.At names steps path) (hslash : '/' ∉ piece.toList)
    (hpoint : piece = "" → path.text ≠ ".") (hup : piece ≠ "..")
    (hfolder : site.get? names = some .folder) :
    site.At (below names piece) (steps ++ stepsOf [piece]) (child path piece) := by
  constructor
  · rw [locate_child h.locate hslash hpoint, List.foldlM_cons,
      site.step_eq fun heq => absurd heq hup, hfolder]
    rfl
  · rw [way_child (FileTree.text_ne_of_locate h.locate) hslash, h.way, List.append_assoc]

theorem stepsOf_of_name (hidle : ¬isIdle piece) (hup : piece ≠ "..") :
    stepsOf [piece] = [.name piece] := by
  rw [stepsOf, List.filterMap_cons, Path.pieceComponent?, if_neg hidle,
    if_neg (by rwa [beq_iff_eq])]
  rfl

theorem at_child_of_isName (h : site.At names steps path)
    (hfolder : site.get? names = some .folder) (hname : Path.IsName piece) :
    site.At (names ++ [piece]) (steps ++ [.name piece]) (child path piece) := by
  have hcomponent := FileTree.name_of_component hname.component
  have hchild := at_child h hname.noSlash (fun hempty => absurd (by rw [hempty]; rfl) hcomponent.1)
    hcomponent.2 hfolder
  rw [Site.below_of_isName hname] at hchild
  have hsteps := hname.stepsOf_piecesOf
  rw [Path.piecesOf_of_not_mem hname.noSlash] at hsteps
  rw [← hsteps]
  exact hchild

/-- The paths with which a folder names itself and the one above. -/
theorem at_relative (h : site.At names steps path) (hfolder : site.get? names = some .folder)
    (hne : names ≠ []) :
    site.At names.dropLast (steps ++ [.parent]) (path.joinText "..") ∧
      site.At names steps (path.joinText ".") := by
  have hwalk : ∀ piece : String, '/' ∉ piece.toList →
      (piecesOf piece.toList).foldlM site.world.tree.step (site.location ++ names) =
        .ok (site.location ++ below names piece) := by
    intro piece hslash
    rw [Path.piecesOf_of_not_mem hslash, List.foldlM_cons, site.step_eq fun _ => hne, hfolder]
    rfl
  constructor
  · exact h.joinText (not_isAbsolute_of_piece (by decide)) (hwalk ".." (by decide))
  · have hpath := h.joinText (not_isAbsolute_of_piece (by decide)) (hwalk "." (by decide))
    have hsteps : stepsOf (piecesOf ".".toList) = [] := by decide
    rw [hsteps, List.append_nil] at hpath
    exact hpath

/-- Whether a search goes on with a text. -/
def goesOn (site : Site) (names : Location) (value : String) : Bool :=
  site.isFolderAt names && (site.get? (below names value)).isSome

theorem run_test (h : site.At names steps path) (hslash : '/' ∉ piece.toList)
    (hpoint : piece = "" → path.text ≠ ".") (hup : piece ≠ "..") :
    site.world.run (if isRelative piece then isFolder path else pathExists (child path piece)) =
      (goesOn site names piece, site.world) := by
  unfold goesOn
  by_cases hrelative : isRelative piece
  · have hpiece : piece = "." := by
      unfold isRelative at hrelative
      rw [Bool.or_eq_true, beq_iff_eq, beq_iff_eq] at hrelative
      exact hrelative.resolve_right hup
    have hbelow : below names piece = names := by
      rw [hpiece]
      rfl
    rw [if_pos hrelative, h.run_isFolder, hbelow]
    unfold Site.isFolderAt
    cases site.get? names with
    | none => rfl
    | some entry => rw [Option.isSome_some, Bool.and_true]
  · rw [if_neg hrelative]
    by_cases hfolder : site.get? names = some .folder
    · rw [run_pathExists_of_locate (at_child h hslash hpoint hup hfolder).locate,
        Site.isFolderAt_iff.2 hfolder, Bool.true_and]
      rfl
    · have hwalk := locate_child h.locate hslash hpoint
      rw [List.foldlM_cons, site.step_eq fun heq => absurd heq hup] at hwalk
      have hnot : site.isFolderAt names = false := by
        rw [← Bool.not_eq_true, Site.isFolderAt_iff]
        exact hfolder
      rw [hnot, Bool.false_and]
      cases hentry : site.get? names with
      | none =>
          rw [hentry] at hwalk
          exact run_pathExists_of_error hwalk
      | some entry =>
          cases entry with
          | folder => exact absurd hentry hfolder
          | file bytes mtime =>
              rw [hentry] at hwalk
              exact run_pathExists_of_error hwalk

end At

/-! ## Searches -/

/-- Whether a search from so deep below a folder stays below it.  A text goes down unless it is
idle; a wildcard that matches `..` goes up. -/
def staysBelow : Nat → List Piece → Bool
  | _, [] => true
  | depth, .text value :: rest => staysBelow (if isIdle value then depth else depth + 1) rest
  | depth, .wild tokens :: rest =>
    if relativeMatches tokens = [] then staysBelow (depth + 1) rest
    else decide (0 < depth) && staysBelow (depth - 1) rest
  | _, [.anyFolders] => true
  | depth, .anyFolders :: _ :: rest => staysBelow (depth + 1) rest

/-- The texts among the pieces are single pieces of paths that do not go up. -/
def Tidy (pieces : List Piece) : Prop :=
  ∀ value, .text value ∈ pieces → '/' ∉ value.toList ∧ value ≠ ".."

theorem Tidy.tail {piece : Piece} {pieces : List Piece} (h : Tidy (piece :: pieces)) :
    Tidy pieces := fun value hvalue => h value (List.mem_cons_of_mem piece hvalue)

/-- The first piece leaves the folder where the search begins. -/
def StartsDown : List Piece → Prop
  | [] => False
  | .text value :: _ => ¬isIdle value
  | _ => True

section Search

variable {site other : Site} {names more : Location} {steps : List Component} {path path' : Path}
  {depth : Nat}

theorem ne_point_of_at (h : site.At names steps path) (hne : steps ≠ []) : path.text ≠ "." := by
  intro htext
  have hway := h.way
  rw [way_of_point htext] at hway
  exact hne (List.append_eq_nil_iff.1 hway.symm).2

theorem isFolderAt_eq (h : site.Same other) (names : Location) :
    other.isFolderAt names = site.isFolderAt names := by
  unfold Site.isFolderAt
  rw [h]

theorem goesOn_eq (h : site.Same other) (names : Location) (value : String) :
    goesOn other names value = goesOn site names value := by
  unfold goesOn
  rw [isFolderAt_eq h, h]

theorem Alongside.snoc (h : Alongside site other names steps path path')
    {more : Location} {step : List Component} {next next' : Path}
    (hnext : site.At more (steps ++ step) next) (hnext' : other.At more (steps ++ step) next')
    (hstep : ∀ s ∈ step, s.isStep = true) :
    Alongside site other more (steps ++ step) next next' :=
  ⟨hnext, hnext', fun s hs => (List.mem_append.1 hs).elim (h.isStep s) (hstep s)⟩

theorem Alongside.child (h : Alongside site other names steps path path')
    (hsame : site.Same other) {value : String} (hslash : '/' ∉ value.toList) (hup : value ≠ "..")
    (hpoint : value = "" → path.text ≠ "." ∧ path'.text ≠ ".")
    (hfolder : site.get? names = some .folder) :
    Alongside site other (below names value) (steps ++ stepsOf [value]) (child path value)
      (child path' value) := by
  refine h.snoc (at_child h.first hslash (fun heq => (hpoint heq).1) hup hfolder) ?_
    fun step => Path.isStep_of_mem
  exact at_child h.second hslash (fun heq => (hpoint heq).2) hup (by rw [hsame, hfolder])

/-- The paths of a wildcard that matches `..` or `.`. -/
theorem Alongside.relative (h : Alongside site other names steps path path')
    (hsame : site.Same other) (hfolder : site.get? names = some .folder) (hnames : names ≠ [])
    (hne : steps ≠ []) {tokens : List Token} {name : String}
    (hname : name ∈ relativeMatches tokens) :
    Deeper site other (names.length - 1) (path.joinText name) (path'.joinText name) := by
  have hfolder' : other.get? names = some .folder := by rw [hsame, hfolder]
  have hcases : name = ".." ∨ name = "." := by
    unfold relativeMatches at hname
    split at hname
    · simpa using (List.mem_filter.1 hname).1
    · cases hname
  obtain ⟨hparent, hself⟩ := at_relative h.first hfolder hnames
  obtain ⟨hparent', hself'⟩ := at_relative h.second hfolder' hnames
  rcases hcases with rfl | rfl
  · refine ⟨names.dropLast, _, h.snoc hparent hparent' ?_, by simp, by simp⟩
    intro step hstep
    cases List.mem_singleton.1 hstep
    rfl
  · exact ⟨names, steps, ⟨hself, hself', h.isStep⟩, hne, Nat.sub_le _ _⟩

/-- Names below a folder are joined to both paths one by one. -/
theorem Alongside.foldl {join : Path → String → Path}
    (hjoin : ∀ {place : Site} {names : Location} {steps : List Component} {path : Path}
      {name : String}, place.At names steps path → place.get? names = some .folder →
        Path.IsName name → place.At (names ++ [name]) (steps ++ [.name name]) (join path name))
    (h : Alongside site other names steps path path') (hsame : site.Same other)
    (hthere : site.get? (names ++ more) ≠ none) :
    Alongside site other (names ++ more) (steps ++ more.map .name) (more.foldl join path)
      (more.foldl join path') := by
  have hthere' : other.get? (names ++ more) ≠ none := by
    rw [hsame]
    exact hthere
  refine h.snoc (h.first.foldl hjoin hthere) (h.second.foldl hjoin hthere') fun step hstep => ?_
  obtain ⟨name, -, rfl⟩ := List.mem_map.1 hstep
  rfl

/-- What is listed is reached from both. -/
theorem Alongside.descend (h : Alongside site other names steps path path')
    (hsame : site.Same other) (hne : more ≠ []) (hthere : site.get? (names ++ more) ≠ none) :
    Deeper site other (names.length + 1) (descend path more) (descend path' more) := by
  refine ⟨names ++ more, _, h.foldl at_child_of_isName hsame hthere, ?_, ?_⟩
  · simp [hne]
  · have hpos := List.length_pos_iff.2 hne
    rw [List.length_append]
    omega

theorem forall₂_map_same {α β γ : Type} {R : β → γ → Prop} {f : α → β} {g : α → γ} {items : List α}
    (h : ∀ a ∈ items, R (f a) (g a)) : List.Forall₂ R (items.map f) (items.map g) := by
  rw [List.forall₂_map_left_iff, List.forall₂_map_right_iff, List.forall₂_same]
  exact h

theorem agrees_gather {α β γ δ : Type} {world world' : World} {S : α → β → Prop} {R : γ → δ → Prop}
    {items : List α} {items' : List β} {program : α → Program (List γ)}
    {program' : β → Program (List δ)} (hitems : List.Forall₂ S items items')
    (h : ∀ a b, S a b → (program a).Agrees world world' (List.Forall₂ R) (program' b)) :
    (gather items program).Agrees world world' (List.Forall₂ R) (gather items' program') :=
  agrees_bind (agrees_mapM hitems h) fun _ _ hlists => agrees_pure (List.rel_flatten hlists)

/-- The listings of both are the same. -/
theorem Alongside.agrees_listing (h : Alongside site other names steps path path')
    (hsame : site.Same other) :
    (Program.request (.listing path)).Agrees site.world other.world
      (fun (listing listing' : List (Location × Stat)) => listing = listing' ∧
        ∀ item ∈ listing, item.1 ≠ [] ∧ site.get? (names ++ item.1) ≠ none)
      (Program.request (.listing path')) := by
  refine ⟨rfl, rfl, (hsame.listing h.first h.second).symm, ?_⟩
  rintro ⟨more, stat⟩ hitem
  obtain ⟨hne, hstat⟩ := h.first.mem_listing.1 hitem
  refine ⟨hne, fun hnone => ?_⟩
  rw [hnone] at hstat
  cases hstat

theorem Alongside.agrees_isFolder (h : Alongside site other names steps path path')
    (hsame : site.Same other) :
    (isFolder path).Agrees site.world other.world
      (fun yes yes' => yes = yes' ∧ (yes = true → site.get? names = some .folder))
      (isFolder path') := by
  refine agrees_of_run h.first.run_isFolder h.second.run_isFolder ?_
  exact ⟨(isFolderAt_eq hsame names).symm, Site.isFolderAt_iff.1⟩

theorem Alongside.agrees_test (h : Alongside site other names steps path path')
    (hsame : site.Same other) {value : String} (hslash : '/' ∉ value.toList) (hup : value ≠ "..")
    (hpoint : value = "" → path.text ≠ "." ∧ path'.text ≠ ".") :
    (if isRelative value then isFolder path else pathExists (Glob.child path value)).Agrees
      site.world other.world
      (fun yes yes' => yes = yes' ∧ (yes = true → site.get? names = some .folder))
      (if isRelative value then isFolder path' else pathExists (Glob.child path' value)) := by
  have htest := run_test h.first hslash (fun heq => (hpoint heq).1) hup
  have htest' := run_test h.second hslash (fun heq => (hpoint heq).2) hup
  refine agrees_of_run htest htest' ⟨(goesOn_eq hsame names value).symm, fun hyes => ?_⟩
  exact Site.isFolderAt_iff.1 (Bool.and_eq_true_iff.1 hyes).1

/-- The names in a folder that a pattern matches are reached from both. -/
theorem Alongside.forall₂_childMatches (h : Alongside site other names steps path path')
    (hsame : site.Same other) (tokens : List Token) {listing : List (Location × Stat)}
    (hlisting : ∀ item ∈ listing, item.1 ≠ [] ∧ site.get? (names ++ item.1) ≠ none) :
    List.Forall₂ (Deeper site other (names.length + 1))
      ((childMatches tokens listing).map (Glob.child path))
      ((childMatches tokens listing).map (Glob.child path')) := by
  refine forall₂_map_same fun name hname => ?_
  obtain ⟨⟨more, stat⟩, hitem, hmatch⟩ := List.mem_filterMap.1 hname
  have hmore : more = [name] := by
    dsimp only at hmatch
    split at hmatch
    · obtain ⟨-, heq⟩ := Option.ite_none_right_eq_some.1 hmatch
      rw [Option.some.inj heq]
    · cases hmatch
  obtain ⟨hne, hthere⟩ := hlisting _ hitem
  rw [hmore] at hne hthere
  exact h.descend hsame hne hthere

/-- A text leads on alongside, and deeper unless it is idle. -/
theorem Alongside.deeper_child (h : Alongside site other names steps path path')
    (hsame : site.Same other) {value : String} (hslash : '/' ∉ value.toList) (hup : value ≠ "..")
    (hpoint : value = "" → path.text ≠ "." ∧ path'.text ≠ ".")
    (hfolder : site.get? names = some .folder) (hdepth : depth ≤ names.length)
    (hleft : isIdle value → steps ≠ []) :
    Deeper site other (if isIdle value then depth else depth + 1) (Glob.child path value)
      (Glob.child path' value) := by
  refine ⟨below names value, _, h.child hsame hslash hup hpoint hfolder, ?_, ?_⟩
  · by_cases hidle : isIdle value
    · exact fun hnil => hleft hidle (List.append_eq_nil_iff.1 hnil).1
    · rw [stepsOf_of_name hidle hup]
      exact List.append_ne_nil_of_right_ne_nil steps (List.cons_ne_nil _ _)
  · unfold below
    split
    · exact hdepth
    · rw [List.length_append]
      exact Nat.add_le_add_right hdepth 1

section Equations

variable (path : Path) (tokens : List Token) (value : String) (next : Piece) (rest : List Piece)

theorem search_nil : search [] path = return [path] :=
  rfl

theorem search_text : search (.text value :: rest) path = (do
    if ← (if isRelative value then isFolder path else pathExists (child path value)) then
      search rest (child path value)
    else return []) :=
  rfl

theorem search_wild : search (.wild tokens :: rest) path = (do
    if ← isFolder path then
      let listing : List (Location × Stat) ← Program.request (.listing path)
      gather ((relativeMatches tokens).map path.joinText ++
        (childMatches tokens listing).map (child path)) (search rest)
    else return []) :=
  rfl

theorem search_anyFolders : search [.anyFolders] path = (do
    let listing : List (Location × Stat) ← Program.request (.listing path)
    return (foldersOf listing).map (descend path)) :=
  rfl

theorem search_anyFolders_cons : search (.anyFolders :: next :: rest) path = (do
    let listing : List (Location × Stat) ← Program.request (.listing path)
    gather ((deepMatches next.tokens listing).map (descend path)) (search rest)) :=
  rfl

end Equations

/-- Searches for the pieces find the same wherever they begin alongside each other. -/
def FindsSame (site other : Site) (pieces : List Piece) : Prop :=
  ∀ ⦃depth : Nat⦄ ⦃names : Location⦄ ⦃steps : List Component⦄ ⦃path path' : Path⦄,
    staysBelow depth pieces = true → Alongside site other names steps path path' →
    depth ≤ names.length → (steps ≠ [] ∨ depth = 0 ∧ StartsDown pieces) →
    (search pieces path).Agrees site.world other.world (List.Forall₂ (Deeper site other 0))
      (search pieces path')

section Pieces

variable {rest : List Piece}

theorem FindsSame.deeper (h : FindsSame site other rest) (hstays : staysBelow depth rest = true)
    (hdeeper : Deeper site other depth path path') :
    (search rest path).Agrees site.world other.world (List.Forall₂ (Deeper site other 0))
      (search rest path') := by
  obtain ⟨names, steps, halong, hne, hdepth⟩ := hdeeper
  exact h hstays halong hdepth (.inl hne)

theorem findsSame_text (hsame : site.Same other) {value : String} (hslash : '/' ∉ value.toList)
    (hup : value ≠ "..") (hrest : FindsSame site other rest) :
    FindsSame site other (.text value :: rest) := by
  intro depth names steps path path' hstays h hdepth hleft
  have hidle : isIdle value → steps ≠ [] := fun hidle =>
    hleft.resolve_right fun hstart => hstart.2 hidle
  have hpoint : value = "" → path.text ≠ "." ∧ path'.text ≠ "." := by
    rintro rfl
    exact ⟨ne_point_of_at h.first (hidle rfl), ne_point_of_at h.second (hidle rfl)⟩
  rw [search_text, search_text]
  refine agrees_bind (h.agrees_test hsame hslash hup hpoint) ?_
  rintro yes _ ⟨rfl, hyes⟩
  cases yes with
  | false => exact agrees_pure .nil
  | true =>
      exact hrest.deeper hstays (h.deeper_child hsame hslash hup hpoint (hyes rfl) hdepth hidle)

theorem findsSame_wild (hsame : site.Same other) {tokens : List Token}
    (hrest : FindsSame site other rest) : FindsSame site other (.wild tokens :: rest) := by
  intro depth names steps path path' hstays h hdepth hleft
  rw [search_wild, search_wild]
  refine agrees_bind (h.agrees_isFolder hsame) ?_
  rintro yes _ ⟨rfl, hyes⟩
  cases yes with
  | false => exact agrees_pure .nil
  | true =>
      refine agrees_bind (h.agrees_listing hsame) ?_
      rintro listing _ ⟨rfl, hlisting⟩
      have hchildren := h.forall₂_childMatches hsame tokens hlisting
      rw [staysBelow] at hstays
      split at hstays
      · rename_i hnone
        rw [hnone]
        exact agrees_gather hchildren fun next next' hnext =>
          hrest.deeper hstays (hnext.mono (by omega))
      · -- what matches `..` leads up, so there has to be a folder to go up to
        obtain ⟨hpos, hstays⟩ := Bool.and_eq_true_iff.1 hstays
        have hpos := of_decide_eq_true hpos
        have hne : steps ≠ [] := hleft.resolve_right fun hstart => by omega
        have hnames : names ≠ [] := List.ne_nil_of_length_pos (by omega)
        have hrelative := forall₂_map_same fun name (hname : name ∈ relativeMatches tokens) =>
          h.relative hsame (hyes rfl) hnames hne hname
        have hboth := List.rel_append hrelative
          (hchildren.imp fun next next' hnext => hnext.mono (by omega))
        exact agrees_gather hboth fun next next' hnext =>
          hrest.deeper hstays (hnext.mono (by omega))

theorem findsSame_anyFolders (hsame : site.Same other) :
    FindsSame site other [.anyFolders] := by
  intro depth names steps path path' hstays h hdepth hleft
  rw [search_anyFolders, search_anyFolders]
  refine agrees_bind (h.agrees_listing hsame) ?_
  rintro listing _ ⟨rfl, hlisting⟩
  refine agrees_pure (forall₂_map_same fun more hmore => ?_)
  obtain ⟨item, hitem, rfl⟩ := List.mem_map.1 hmore
  obtain ⟨hne, hthere⟩ := hlisting item (List.mem_filter.1 hitem).1
  exact (h.descend hsame hne hthere).mono (Nat.zero_le _)

theorem findsSame_anyFolders_cons (hsame : site.Same other) {next : Piece}
    (hrest : FindsSame site other rest) :
    FindsSame site other (.anyFolders :: next :: rest) := by
  intro depth names steps path path' hstays h hdepth hleft
  rw [search_anyFolders_cons, search_anyFolders_cons]
  refine agrees_bind (h.agrees_listing hsame) ?_
  rintro listing _ ⟨rfl, hlisting⟩
  have hfound := forall₂_map_same fun more (hmore : more ∈ deepMatches next.tokens listing) => by
    obtain ⟨item, hitem, rfl⟩ := List.mem_map.1 (List.mem_filter.1 hmore).1
    obtain ⟨hne, hthere⟩ := hlisting item hitem
    exact h.descend hsame hne hthere
  rw [staysBelow] at hstays
  exact agrees_gather hfound fun path path' hdeeper =>
    hrest.deeper hstays (hdeeper.mono (by omega))

end Pieces

/-- **Searches from two sites find the same.**  The recursion is that of the search. -/
theorem findsSame (hsame : site.Same other) :
    ∀ pieces : List Piece, Tidy pieces → FindsSame site other pieces
  | [], _ => by
      intro depth names steps path path' _ h _ hleft
      rw [search_nil, search_nil]
      have hne : steps ≠ [] := hleft.resolve_right fun hstart => hstart.2
      exact agrees_pure (.cons ⟨names, steps, h, hne, Nat.zero_le _⟩ .nil)
  | .text value :: rest, htidy => by
      obtain ⟨hslash, hup⟩ := htidy value List.mem_cons_self
      exact findsSame_text hsame hslash hup (findsSame hsame rest htidy.tail)
  | .wild _ :: rest, htidy => findsSame_wild hsame (findsSame hsame rest htidy.tail)
  | [.anyFolders], _ => findsSame_anyFolders hsame
  | .anyFolders :: _ :: rest, htidy =>
      findsSame_anyFolders_cons hsame (findsSame hsame rest htidy.tail.tail)

end Search

/-! ## Searches along texts -/

section Texts

variable {world : World} {location last : Location} {path : Path} {texts : List String}

theorem folder_of_walk (hwalk : texts.foldlM world.tree.step location = .ok last)
    (hfolder : world.tree.get? last = some .folder) :
    world.tree.get? location = some .folder := by
  cases texts with
  | nil =>
      cases hwalk
      exact hfolder
  | cons text texts =>
      rw [List.foldlM_cons] at hwalk
      obtain ⟨next, hstep, -⟩ := bind_eq_ok.1 hwalk
      exact (FileTree.step_eq_ok hstep).1

theorem run_search_text {text : String} {next : Location}
    (h : world.tree.locate world.current path = .ok location)
    (hfolder : world.tree.get? location = some .folder)
    (hnext : world.tree.locate world.current (child path text) = .ok next)
    (hthere : world.tree.get? next = some .folder) (rest : List Piece) :
    world.run (search (.text text :: rest) path) = world.run (search rest (child path text)) := by
  have htest : world.run (if isRelative text then isFolder path else pathExists (child path text)) =
      (true, world) := by
    split
    · rw [run_isFolder_of_locate h, hfolder]
      rfl
    · rw [run_pathExists_of_locate hnext, hthere]
      rfl
  rw [search_text, run_bind_of_stays _ (by rw [htest]), htest]
  rfl

/-- **A search along texts.**  It stands where they lead, and goes on from there.  At the start it
does not get over an empty text. -/
theorem exists_search_texts (hslash : ∀ text ∈ texts, '/' ∉ text.toList)
    (h : world.tree.locate world.current path = .ok location)
    (hwalk : texts.foldlM world.tree.step location = .ok last)
    (hfolder : world.tree.get? last = some .folder)
    (hpoint : path.text = "." → (texts.dropWhile (· == ".")).head? ≠ some "")
    (rest : List Piece) :
    ∃ final, world.tree.locate world.current final = .ok last ∧
      final.way = path.way ++ stepsOf texts ∧
      world.run (search (texts.map .text ++ rest) path) = world.run (search rest final) := by
  induction texts generalizing path location with
  | nil =>
      cases hwalk
      exact ⟨path, h, (List.append_nil _).symm, rfl⟩
  | cons text texts ih =>
      have hslashText := hslash text List.mem_cons_self
      have hstart := folder_of_walk hwalk hfolder
      rw [List.foldlM_cons] at hwalk
      obtain ⟨next, hstep, hwalk⟩ := bind_eq_ok.1 hwalk
      have hempty : text = "" → path.text ≠ "." := by
        rintro rfl htext
        exact hpoint htext rfl
      have hnext : world.tree.locate world.current (child path text) = .ok next := by
        rw [locate_child h hslashText hempty, List.foldlM_cons, hstep]
        rfl
      have hrest : (child path text).text = "." →
          (texts.dropWhile (· == ".")).head? ≠ some "" := by
        intro htext
        by_cases hpath : path.text = "."
        · rw [child, if_pos hpath] at htext
          have hdrop := hpoint hpath
          rw [show text = "." from htext] at hdrop
          exact hdrop
        · exact absurd htext (text_child_ne (FileTree.text_ne_of_locate h) hslashText hpath)
      obtain ⟨final, hfinal, hway, hrun⟩ :=
        ih (fun other hother => hslash other (List.mem_cons_of_mem text hother)) hnext hwalk hrest
      refine ⟨final, hfinal, ?_, ?_⟩
      · rw [hway, way_child (FileTree.text_ne_of_locate h) hslashText, List.append_assoc,
          ← Path.stepsOf_append]
        rfl
      · rw [List.map_cons, List.cons_append,
          run_search_text h hstart hnext (folder_of_walk hwalk hfolder), hrun]

end Texts

end KeysetBundle.Glob
