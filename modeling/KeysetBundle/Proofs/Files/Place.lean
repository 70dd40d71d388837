import KeysetBundle.Files.Tree
import KeysetBundle.Proofs.Except
import KeysetBundle.Proofs.Path.Pieces

/-!
# Places of paths in trees

In a tree without links an absolute path leads to one location, its *place*,
which depends on its components only; the tree decides whether the way there
can be gone.  Whenever an operation on a tree succeeds, it has worked at the
places of its paths, and all locations on the way were folders.

Main results.

- `resolve_eq_ok`, `destination_eq_ok`: where the walk along a path ends, and
  which folders it has passed.
- `stat_iff`, `readText_iff`, `write_iff`, `makeFolder_iff`, `rename_iff`,
  `removeFile_iff`: when the operations succeed, and what they give then.
- `write_eq_ok`, `makeFolder_eq_ok`, `rename_eq_ok`, `removeFile_eq_ok`: the
  same of absolute paths, in terms of their places.
- `makeFolders_keeps`: what the making of one folder keeps is kept by the
  making of all that are missing.
- `createFolders_made`: missing folders are made, and nothing else is changed.
-/

namespace KeysetBundle.Files

open KeysetBundle.Path (Component pieceComponent? piecesOf stepsOf)

/-! ## Places -/

/-- The location to which a component leads. -/
def walk (location : Location) : Component → Location
  | .root => []
  | .current => location
  | .parent => location.dropLast
  | .name text => location ++ [text]

/-- The location to which an absolute path leads. -/
def place (path : Path) : Location := path.components.foldl walk []

/-- A location is on the way to a path if one of its components has to be looked up there. -/
def OnWay (path : Path) (location : Location) : Prop :=
  ∃ n, n < path.steps.length ∧ location = (path.steps.take n).foldl walk []

theorem place_eq {path : Path} (h : path.isAbsolute) : place path = path.steps.foldl walk [] := by
  rw [place, Path.components_of_isAbsolute h]
  rfl

theorem place_eq_of_same {path other : Path} (h : path.same other) : place path = place other := by
  rw [place, place, beq_iff_eq.1 h]

theorem onWay_of_parent {path parent : Path} (h : path.isAbsolute)
    (hparent : path.parent? = some parent) {location : Location}
    (hlocation : location = place parent ∨ OnWay parent location) : OnWay path location := by
  obtain ⟨habsolute, component, hsteps⟩ := Path.steps_parent h hparent
  rcases hlocation with rfl | ⟨n, hn, rfl⟩
  · refine ⟨parent.steps.length, by simp [hsteps], ?_⟩
    rw [place_eq habsolute, hsteps, List.take_left' rfl]
  · refine ⟨n, by simp [hsteps]; omega, ?_⟩
    rw [hsteps, List.take_append_of_le_length (by omega)]

namespace FileTree

/-! ## Entries -/

@[simp] theorem get?_nil (tree : FileTree) : tree.get? [] = some .folder := rfl

theorem get?_of_ne_nil (tree : FileTree) {location : Location} (h : location ≠ []) :
    tree.get? location = tree.entries.lookup location := by
  rw [get?, if_neg h]

theorem lookup_filter_ne {β : Type} (entries : List (Location × β)) (location other : Location) :
    (entries.filter fun entry => !(entry.1 == location)).lookup other =
      if other = location then none else entries.lookup other := by
  induction entries with
  | nil => simp
  | cons entry entries ih =>
      obtain ⟨first, value⟩ := entry
      rw [List.filter_cons]
      by_cases hfirst : first = location
      · have hbeq : (first == location) = true := beq_iff_eq.2 hfirst
        simp only [hbeq, Bool.not_true, Bool.false_eq_true, if_false, ih, List.lookup_cons]
        by_cases hother : other = location
        · rw [if_pos hother, if_pos hother]
        · have hne : (other == first) = false := by
            rw [hfirst]
            exact beq_eq_false_iff_ne.2 hother
          rw [if_neg hother, if_neg hother, hne]
      · have hbeq : (first == location) = false := beq_eq_false_iff_ne.2 hfirst
        simp only [hbeq, Bool.not_false, if_true, List.lookup_cons, ih]
        by_cases hother : other = location
        · have hne : (other == first) = false := by
            rw [hother]
            exact beq_eq_false_iff_ne.2 (Ne.symm hfirst)
          rw [if_pos hother, if_pos hother, hne]
        · rw [if_neg hother, if_neg hother]

theorem get?_erase (tree : FileTree) {location : Location} (h : location ≠ [])
    (other : Location) :
    (tree.erase location).get? other = if other = location then none else tree.get? other := by
  by_cases hother : other = []
  · subst hother
    rw [if_neg (Ne.symm h), get?_nil, get?_nil]
  · rw [get?_of_ne_nil _ hother, get?_of_ne_nil _ hother]
    exact lookup_filter_ne tree.entries location other

theorem get?_set (tree : FileTree) {location : Location} (h : location ≠ []) (entry : Entry)
    (other : Location) :
    (tree.set location entry).get? other =
      if other = location then some entry else tree.get? other := by
  by_cases hother : other = []
  · subst hother
    rw [if_neg (Ne.symm h), get?_nil, get?_nil]
  · rw [get?_of_ne_nil _ hother]
    show ((location, entry) :: (tree.erase location).entries).lookup other = _
    rw [List.lookup_cons]
    by_cases heq : other = location
    · rw [if_pos heq, beq_iff_eq.2 heq]
    · rw [if_neg heq, beq_eq_false_iff_ne.2 heq]
      have herase := get?_erase tree h other
      rw [if_neg heq, get?_of_ne_nil _ hother] at herase
      exact herase

/-- Folders stay where something is put in the place of no folder. -/
theorem get?_set_folder {tree : FileTree} {location other : Location} {entry : Entry}
    (h : location ≠ []) (hfolder : tree.get? location ≠ some .folder)
    (hother : tree.get? other = some .folder) :
    (tree.set location entry).get? other = some .folder := by
  have hne : other ≠ location := by
    rintro rfl
    exact hfolder hother
  rw [get?_set _ h, if_neg hne, hother]

theorem isFolder_iff {tree : FileTree} {location : Location} :
    tree.isFolder location ↔ tree.get? location = some .folder := by
  unfold isFolder
  split
  · simp_all
  · simp_all

/-! ## Walks -/

theorem step_eq_ok {tree : FileTree} {location next : Location} {piece : String}
    (h : tree.step location piece = .ok next) :
    tree.get? location = some .folder ∧ next = (stepsOf [piece]).foldl walk location := by
  unfold step at h
  split at h
  · cases h
  · cases h
  · rename_i hfolder
    refine ⟨hfolder, ?_⟩
    rw [stepsOf, List.filterMap_cons, List.filterMap_nil, pieceComponent?]
    split at h
    · rename_i hidle
      cases h
      rw [if_pos hidle]
      rfl
    · rename_i hidle
      rw [if_neg hidle]
      split at h
      · rename_i hup
        cases h
        rw [if_pos (beq_iff_eq.2 hup)]
        rfl
      · rename_i hup
        cases h
        rw [if_neg (mt beq_iff_eq.1 hup)]
        rfl

/-- A walk ends where its components lead, and every location that it has left is a folder. -/
theorem walk_eq_ok {tree : FileTree} {pieces : List String} {start last : Location}
    (h : pieces.foldlM tree.step start = .ok last) :
    last = (stepsOf pieces).foldl walk start ∧
      ∀ n, n < (stepsOf pieces).length →
        tree.get? (((stepsOf pieces).take n).foldl walk start) = some .folder := by
  induction pieces generalizing start with
  | nil =>
      cases h
      exact ⟨rfl, fun n hn => absurd hn (Nat.not_lt_zero n)⟩
  | cons piece pieces ih =>
      rw [List.foldlM_cons] at h
      obtain ⟨next, hstep, hrest⟩ := bind_eq_ok.1 h
      obtain ⟨hfolder, rfl⟩ := step_eq_ok hstep
      obtain ⟨rfl, hpassed⟩ := ih hrest
      refine ⟨by rw [Path.stepsOf_cons piece pieces, List.foldl_append], ?_⟩
      intro n hn
      have hone := Path.length_stepsOf_singleton piece
      rw [Path.stepsOf_cons piece pieces, List.length_append] at hn
      rw [Path.stepsOf_cons piece pieces, List.take_append, List.foldl_append]
      cases n with
      | zero => simpa using hfolder
      | succ n =>
          rw [List.take_of_length_le (by omega)]
          exact hpassed _ (by omega)

theorem walk_concat {tree : FileTree} {pieces : List String} {piece : String}
    {start last : Location} :
    (pieces ++ [piece]).foldlM tree.step start = .ok last ↔
      ∃ folder, pieces.foldlM tree.step start = .ok folder ∧ tree.step folder piece = .ok last := by
  simp only [List.foldlM_append, bind_eq_ok, List.foldlM_cons, List.foldlM_nil, bind_pure]

/-- A walk that ends in a point ends in a folder. -/
theorem walk_point {tree : FileTree} {pieces : List String} {start folder : Location} :
    (pieces ++ ["."]).foldlM tree.step start = .ok folder ↔
      pieces.foldlM tree.step start = .ok folder ∧ tree.get? folder = some .folder := by
  rw [walk_concat]
  constructor
  · rintro ⟨last, hwalk, hstep⟩
    obtain ⟨hfolder, hsame⟩ := step_eq_ok hstep
    have hsame : folder = last := hsame
    subst hsame
    exact ⟨hwalk, hfolder⟩
  · rintro ⟨hwalk, hfolder⟩
    refine ⟨folder, hwalk, ?_⟩
    unfold step
    rw [hfolder]
    rfl

/-- A walk over folders can be gone in every tree that has these folders. -/
theorem walk_mono {tree other : FileTree} {pieces : List String} {start last : Location}
    (hkeep : ∀ location, tree.get? location = some .folder → other.get? location = some .folder)
    (h : pieces.foldlM tree.step start = .ok last) : pieces.foldlM other.step start = .ok last := by
  induction pieces generalizing start with
  | nil => exact h
  | cons piece pieces ih =>
      rw [List.foldlM_cons] at h ⊢
      obtain ⟨next, hstep, hrest⟩ := bind_eq_ok.1 h
      have hfolder := (step_eq_ok hstep).1
      have hother : other.step start piece = .ok next := by
        rw [← hstep]
        unfold step
        rw [hfolder, hkeep _ hfolder]
      exact bind_eq_ok.2 ⟨next, hother, ih hrest⟩

/-- The way along an absolute path can be gone in a tree. -/
def Leads (tree : FileTree) (path : Path) : Prop :=
  (piecesOf path.body).foldlM tree.step [] = .ok (place path)

instance (tree : FileTree) (path : Path) : Decidable (tree.Leads path) :=
  inferInstanceAs (Decidable (_ = _))

theorem Leads.mono {tree other : FileTree} {path : Path} (h : tree.Leads path)
    (hkeep : ∀ location, tree.get? location = some .folder → other.get? location = some .folder) :
    other.Leads path := walk_mono hkeep h

theorem leads_of_walk {tree : FileTree} {path : Path} {location : Location} (h : path.isAbsolute)
    (hwalk : (piecesOf path.body).foldlM tree.step [] = .ok location) : tree.Leads path := by
  have hplace : location = place path := by
    rw [place_eq h]
    exact (walk_eq_ok hwalk).1
  rw [Leads, hwalk, hplace]

theorem locate_of_isAbsolute (tree : FileTree) (current : Location) {path : Path}
    (h : path.isAbsolute) :
    tree.locate current path = (piecesOf path.body).foldlM tree.step [] := by
  unfold locate
  rw [Path.text_eq h]
  rfl

/-- What a path names is the entry to which it leads. -/
theorem resolve_iff {tree : FileTree} {current location : Location} {path : Path} {entry : Entry} :
    tree.resolve current path = .ok (location, entry) ↔
      tree.locate current path = .ok location ∧ tree.get? location = some entry := by
  unfold resolve
  constructor
  · intro h
    split at h
    · cases h
    · rename_i hlocate
      split at h
      · cases h
      · rename_i hentry
        cases h
        exact ⟨hlocate, hentry⟩
  · rintro ⟨hlocate, hentry⟩
    rw [hlocate]
    simp only [hentry]

/-- What an absolute path names: the entry at its place, if the way there can be gone. -/
theorem resolve_eq_ok {tree : FileTree} {current location : Location} {path : Path} {entry : Entry}
    (h : path.isAbsolute) :
    tree.resolve current path = .ok (location, entry) ↔
      tree.Leads path ∧ location = place path ∧ tree.get? (place path) = some entry := by
  rw [resolve_iff, locate_of_isAbsolute tree current h]
  constructor
  · rintro ⟨hwalk, hentry⟩
    have hleads := leads_of_walk h hwalk
    obtain rfl : place path = location := by
      rw [Leads, hwalk] at hleads
      exact (Except.ok.inj hleads).symm
    exact ⟨hleads, rfl, hentry⟩
  · rintro ⟨hleads, rfl, hentry⟩
    exact ⟨hleads, hentry⟩

/-! ## Destinations -/

/-- The last piece that is a name, with what stands before and after it. -/
theorem lastPiece_eq_name {pieces : List String} {text : String} {slash : Bool}
    (h : lastPiece pieces = .name text slash) :
    pieceComponent? text = some (.name text) ∧ slash = (pieces.getLast? == some "") ∧
      pieces.reverse.dropWhile (· == "") = text :: (leadingPieces pieces).reverse := by
  unfold lastPiece at h
  split at h
  · cases h
  · rename_i last rest hpieces
    split at h
    · cases h
    · rename_i hrelative
      obtain ⟨hpoint, hup⟩ := not_or.1 hrelative
      injection h with htext hslash
      subst htext
      have hhead := List.head_dropWhile_not (· == "") (l := pieces.reverse) (by simp [hpieces])
      have hempty : last ≠ "" := by simpa [hpieces] using hhead
      refine ⟨by simp [pieceComponent?, Path.isIdle, hempty, hpoint, hup], hslash.symm, ?_⟩
      rw [leadingPieces, hpieces, List.reverse_cons, List.dropLast_concat, List.reverse_reverse]

theorem stepsOf_of_lastPiece {pieces : List String} {text : String} {slash : Bool}
    (h : lastPiece pieces = .name text slash) :
    stepsOf pieces = stepsOf (leadingPieces pieces) ++ [.name text] := by
  obtain ⟨hcomponent, -, hpieces⟩ := lastPiece_eq_name h
  have hsplit : pieces =
      (pieces.reverse.dropWhile (· == "")).reverse ++
        (pieces.reverse.takeWhile (· == "")).reverse := by
    rw [← List.reverse_append, List.takeWhile_append_dropWhile, List.reverse_reverse]
  have hidle : stepsOf (pieces.reverse.takeWhile (· == "")).reverse = [] := by
    apply Path.stepsOf_of_idle
    intro piece hpiece
    have hempty := List.all_eq_true.1 List.all_takeWhile piece (List.mem_reverse.1 hpiece)
    rw [beq_iff_eq.1 hempty]
    rfl
  conv => lhs; rw [hsplit]
  rw [Path.stepsOf_append, hidle, List.append_nil, hpieces, List.reverse_cons,
    List.reverse_reverse, Path.stepsOf_append]
  congr 1
  rw [stepsOf, List.filterMap_cons, List.filterMap_nil, hcomponent]

theorem pieces_of_lastPiece {pieces : List String} {text : String}
    (h : lastPiece pieces = .name text false) : pieces = leadingPieces pieces ++ [text] := by
  obtain ⟨-, hslash, hpieces⟩ := lastPiece_eq_name h
  have hlast : pieces.reverse.dropWhile (· == "") = pieces.reverse := by
    cases hreverse : pieces.reverse with
    | nil => rfl
    | cons last rest =>
        rw [List.getLast?_eq_head?_reverse, hreverse, List.head?_cons] at hslash
        have hne : (last == "") = false := by simpa using hslash.symm
        rw [List.dropWhile_cons, hne]
        rfl
  have hforward := congrArg List.reverse (hlast.symm.trans hpieces)
  rwa [List.reverse_reverse, List.reverse_cons, List.reverse_reverse] at hforward

theorem name_of_component {text : String} (h : pieceComponent? text = some (.name text)) :
    ¬Path.isIdle text ∧ text ≠ ".." := by
  unfold pieceComponent? at h
  split at h
  · cases h
  · rename_i hidle
    split at h
    · cases h
    · rename_i hup
      exact ⟨hidle, mt beq_iff_eq.2 hup⟩

theorem step_of_name {tree : FileTree} {folder : Location} {text : String}
    (hfolder : tree.get? folder = some .folder)
    (hname : pieceComponent? text = some (.name text)) :
    tree.step folder text = .ok (folder ++ [text]) := by
  obtain ⟨hidle, hup⟩ := name_of_component hname
  unfold step
  rw [hfolder]
  dsimp only
  rw [if_neg hidle, if_neg hup]

/-- The way to the place of something new can be gone, unless the path ends in a slash. -/
theorem leads_of_lastPiece {tree : FileTree} {path : Path} {folder : Location} {text : String}
    (h : path.isAbsolute)
    (hlead : (leadingPieces (piecesOf path.body)).foldlM tree.step [] = .ok folder)
    (hfolder : tree.get? folder = some .folder)
    (hlast : lastPiece (piecesOf path.body) = .name text false) : tree.Leads path := by
  apply leads_of_walk h
  rw [pieces_of_lastPiece hlast]
  exact walk_concat.2 ⟨folder, hlead, step_of_name hfolder (lastPiece_eq_name hlast).1⟩

theorem destination_of_isAbsolute (tree : FileTree) (current : Location) {path : Path}
    (h : path.isAbsolute) :
    tree.destination current path =
      match (leadingPieces (piecesOf path.body) ++ ["."]).foldlM tree.step [] with
      | .error failure => .error failure
      | .ok folder => .ok ⟨folder, lastPiece (piecesOf path.body)⟩ := by
  unfold destination
  rw [Path.text_eq h]
  exact if_neg (by simp [Path.isEmpty_text h])

/-- The destination of an absolute path is in the folder to which its leading pieces lead. -/
theorem destination_iff_of_isAbsolute {tree : FileTree} {current : Location} {path : Path}
    {destination : Destination} (h : path.isAbsolute) :
    tree.destination current path = .ok destination ↔
      (leadingPieces (piecesOf path.body)).foldlM tree.step [] = .ok destination.folder ∧
        tree.get? destination.folder = some .folder ∧
        destination.last = lastPiece (piecesOf path.body) := by
  rw [destination_of_isAbsolute tree current h]
  constructor
  · intro hdestination
    split at hdestination
    · cases hdestination
    · rename_i folder hwalk
      cases hdestination
      obtain ⟨hlead, hfolder⟩ := walk_point.1 hwalk
      exact ⟨hlead, hfolder, rfl⟩
  · rintro ⟨hlead, hfolder, hlast⟩
    rw [walk_point.2 ⟨hlead, hfolder⟩]
    dsimp only
    rw [← hlast]

/-- Where something new is put is the place of the path, and all that is on the way is a
folder. -/
theorem destination_eq_ok {tree : FileTree} {current folder : Location} {path : Path}
    {text : String} {slash : Bool} (h : path.isAbsolute)
    (hdestination : tree.destination current path = .ok ⟨folder, .name text slash⟩) :
    place path = folder ++ [text] ∧ (slash = false → tree.Leads path) ∧
      ∀ location, OnWay path location → tree.get? location = some .folder := by
  obtain ⟨hlead, hmiddle, hlast⟩ := (destination_iff_of_isAbsolute h).1 hdestination
  have hlast := hlast.symm
  obtain ⟨hplace, hpassed⟩ := walk_eq_ok hlead
  dsimp only at hplace hmiddle
  have hsteps : path.steps = stepsOf (leadingPieces (piecesOf path.body)) ++ [.name text] :=
    stepsOf_of_lastPiece hlast
  refine ⟨?_, ?_, ?_⟩
  · rw [place_eq h, hsteps, List.foldl_append, ← hplace]
    rfl
  · rintro rfl
    exact leads_of_lastPiece h hlead hmiddle hlast
  · rintro location ⟨n, hn, rfl⟩
    rw [hsteps, List.length_append, List.length_singleton] at hn
    rw [hsteps, List.take_append_of_le_length (by omega)]
    by_cases hlast : n < (stepsOf (leadingPieces (piecesOf path.body))).length
    · exact hpassed n hlast
    · rw [List.take_of_length_le (by omega), ← hplace]
      exact hmiddle

/-! ## Operations -/

/-- A file can be written where one is found. -/
theorem destination_of_leads {tree : FileTree} {path : Path} {pieces : List String} {name : String}
    (current : Location) (h : path.isAbsolute) (hpieces : piecesOf path.body = pieces ++ [name])
    (hname : pieceComponent? name = some (.name name)) (hleads : tree.Leads path) :
    ∃ folder, tree.destination current path = .ok ⟨folder, .name name false⟩ ∧
      place path = folder ++ [name] := by
  obtain ⟨hidle, hup⟩ := name_of_component hname
  have hempty : (name == "") = false := by
    rw [beq_eq_false_iff_ne]
    rintro rfl
    exact hidle rfl
  have hpoint : ¬(name = "." ∨ name = "..") := by
    rintro (rfl | rfl)
    · exact hidle rfl
    · exact hup rfl
  have hdrop : (pieces ++ [name]).reverse.dropWhile (· == "") = name :: pieces.reverse := by
    rw [List.reverse_append, List.reverse_singleton, List.singleton_append, List.dropWhile_cons,
      hempty]
    rfl
  have hlead : leadingPieces (pieces ++ [name]) = pieces := by
    rw [leadingPieces, hdrop, List.reverse_cons, List.dropLast_concat, List.reverse_reverse]
  have hlast : lastPiece (pieces ++ [name]) = .name name false := by
    rw [lastPiece, hdrop]
    dsimp only
    rw [if_neg hpoint, List.getLast?_concat, Option.some_beq_some, hempty]
  rw [Leads, hpieces] at hleads
  obtain ⟨folder, hwalk, hstep⟩ := walk_concat.1 hleads
  have hfolder := (step_eq_ok hstep).1
  rw [step_of_name hfolder hname] at hstep
  injection hstep with hplace
  refine ⟨folder, (destination_iff_of_isAbsolute h).2 ⟨?_, hfolder, ?_⟩, hplace.symm⟩
  · rw [hpieces, hlead]
    exact hwalk
  · rw [hpieces, hlast]

theorem ne_nil_of_append {folder : Location} {text : String} : folder ++ [text] ≠ [] := by simp

/-- What is known of a path is known of the entry that it names. -/
theorem stat_iff {tree : FileTree} {current : Location} {path : Path} {stat : Stat} :
    tree.stat current path = .ok stat ↔
      ∃ location entry, tree.resolve current path = .ok (location, entry) ∧ entry.stat = stat := by
  unfold FileTree.stat
  rw [map_eq_ok]
  constructor
  · rintro ⟨⟨location, entry⟩, hresolve, hstat⟩
    exact ⟨location, entry, hresolve, hstat⟩
  · rintro ⟨location, entry, hresolve, hstat⟩
    exact ⟨(location, entry), hresolve, hstat⟩

/-- Which text is read. -/
theorem readText_iff {tree : FileTree} {current : Location} {path : Path} {text : String} :
    tree.readText current path = .ok text ↔
      ∃ location bytes mtime, tree.resolve current path = .ok (location, .file bytes mtime) ∧
        String.fromUTF8? bytes = some text := by
  unfold readText
  constructor
  · intro h
    split at h
    · cases h
    · cases h
    · rename_i location bytes mtime hresolve
      split at h
      · rename_i found htext
        cases h
        exact ⟨location, bytes, mtime, hresolve, htext⟩
      · cases h
  · rintro ⟨location, bytes, mtime, hresolve, htext⟩
    rw [hresolve]
    simp only [htext]

/-- Where a file is written. -/
theorem write_iff {tree after : FileTree} {current : Location} {path : Path} {bytes : ByteArray}
    {mtime : Int} :
    tree.write current path bytes mtime = .ok after ↔
      ∃ folder text, tree.destination current path = .ok ⟨folder, .name text false⟩ ∧
        tree.get? (folder ++ [text]) ≠ some .folder ∧
        after = tree.set (folder ++ [text]) (.file bytes mtime) := by
  unfold write writable
  rw [map_eq_ok]
  constructor
  · rintro ⟨location, hwritable, rfl⟩
    split at hwritable
    · cases hwritable
    · rename_i folder text hdestination
      split at hwritable
      · cases hwritable
      · rename_i hfolder
        cases hwritable
        exact ⟨folder, text, hdestination, mt isFolder_iff.2 hfolder, rfl⟩
    · cases hwritable
  · rintro ⟨folder, text, hdestination, hfolder, rfl⟩
    refine ⟨folder ++ [text], ?_, rfl⟩
    rw [hdestination]
    exact if_neg (mt isFolder_iff.1 hfolder)

/-- Where a folder is made. -/
theorem makeFolder_iff {tree after : FileTree} {current : Location} {path : Path} :
    tree.makeFolder current path = .ok after ↔
      ∃ folder text slash, tree.destination current path = .ok ⟨folder, .name text slash⟩ ∧
        tree.get? (folder ++ [text]) = none ∧ after = tree.set (folder ++ [text]) .folder := by
  unfold makeFolder
  constructor
  · intro h
    split at h
    · cases h
    · cases h
    · rename_i folder text slash hdestination
      split at h
      · cases h
      · rename_i hnone
        cases h
        exact ⟨folder, text, slash, hdestination, hnone, rfl⟩
  · rintro ⟨folder, text, slash, hdestination, hnone, rfl⟩
    rw [hdestination]
    simp only [hnone]

/-- From where and to where a file is moved. -/
theorem rename_iff {tree after : FileTree} {current : Location} {source target : Path} :
    tree.rename current source target = .ok after ↔
      ∃ spare bytes mtime folder text,
        tree.resolve current source = .ok (spare, .file bytes mtime) ∧
        tree.destination current target = .ok ⟨folder, .name text false⟩ ∧
        tree.get? (folder ++ [text]) ≠ some .folder ∧
        after = (tree.erase spare).set (folder ++ [text]) (.file bytes mtime) := by
  unfold rename
  constructor
  · intro h
    split at h
    · cases h
    · cases h
    · cases h
    · cases h
    · cases h
    · rename_i spare entry folder text hnotFolder hresolve hdestination
      dsimp only at h
      split at h
      · cases h
      · rename_i hfolder
        cases h
        cases entry with
        | folder => exact absurd rfl hnotFolder
        | file bytes mtime =>
            exact ⟨spare, bytes, mtime, folder, text, hresolve, hdestination,
              mt isFolder_iff.2 hfolder, rfl⟩
  · rintro ⟨spare, bytes, mtime, folder, text, hresolve, hdestination, hfolder, rfl⟩
    rw [hresolve, hdestination]
    exact if_neg (mt isFolder_iff.1 hfolder)

/-- From where a file is removed. -/
theorem removeFile_iff {tree after : FileTree} {current : Location} {path : Path} :
    tree.removeFile current path = .ok after ↔
      ∃ location bytes mtime, tree.resolve current path = .ok (location, .file bytes mtime) ∧
        after = tree.erase location := by
  unfold removeFile
  constructor
  · intro h
    split at h
    · cases h
    · cases h
    · rename_i location entry hnotFolder hresolve
      cases h
      cases entry with
      | folder => exact absurd rfl hnotFolder
      | file bytes mtime => exact ⟨location, bytes, mtime, hresolve, rfl⟩
  · rintro ⟨location, bytes, mtime, hresolve, rfl⟩
    rw [hresolve]

/-- At the root there is no file. -/
theorem ne_nil_of_file {tree : FileTree} {location : Location} {bytes : ByteArray} {mtime : Int}
    (h : tree.get? location = some (.file bytes mtime)) : location ≠ [] := by
  rintro rfl
  cases h

/-! ## Operations at absolute paths -/

theorem write_eq_ok {tree after : FileTree} {current : Location} {path : Path} {bytes : ByteArray}
    {mtime : Int} (h : path.isAbsolute) (hwrite : tree.write current path bytes mtime = .ok after) :
    place path ≠ [] ∧ after = tree.set (place path) (.file bytes mtime) ∧
      tree.get? (place path) ≠ some .folder ∧ tree.Leads path ∧
      ∀ location, OnWay path location → tree.get? location = some .folder := by
  obtain ⟨folder, text, hdestination, hfolder, rfl⟩ := write_iff.1 hwrite
  obtain ⟨hplace, hleads, hway⟩ := destination_eq_ok h hdestination
  rw [hplace]
  exact ⟨ne_nil_of_append, rfl, hfolder, hleads rfl, hway⟩

theorem exists_write {tree : FileTree} {path : Path} {pieces : List String} {name : String}
    (current : Location) (bytes : ByteArray) (mtime : Int) (h : path.isAbsolute)
    (hpieces : piecesOf path.body = pieces ++ [name])
    (hname : pieceComponent? name = some (.name name)) (hleads : tree.Leads path)
    (hfolder : tree.get? (place path) ≠ some .folder) :
    ∃ after, tree.write current path bytes mtime = .ok after := by
  obtain ⟨folder, hdestination, hplace⟩ := destination_of_leads current h hpieces hname hleads
  rw [hplace] at hfolder
  exact ⟨_, write_iff.2 ⟨folder, name, hdestination, hfolder, rfl⟩⟩

theorem makeFolder_eq_ok {tree after : FileTree} {current : Location} {path : Path}
    (h : path.isAbsolute) (hmake : tree.makeFolder current path = .ok after) :
    place path ≠ [] ∧ tree.get? (place path) = none ∧ after = tree.set (place path) .folder := by
  obtain ⟨folder, text, slash, hdestination, hnone, rfl⟩ := makeFolder_iff.1 hmake
  rw [(destination_eq_ok h hdestination).1]
  exact ⟨ne_nil_of_append, hnone, rfl⟩

theorem rename_eq_ok {tree after : FileTree} {current : Location} {source target : Path}
    (hsource : source.isAbsolute) (htarget : target.isAbsolute)
    (hrename : tree.rename current source target = .ok after) :
    ∃ bytes mtime, tree.get? (place source) = some (.file bytes mtime) ∧ place source ≠ [] ∧
      place target ≠ [] ∧ tree.get? (place target) ≠ some .folder ∧
      after = (tree.erase (place source)).set (place target) (.file bytes mtime) ∧
      tree.Leads target ∧
      ∀ location, OnWay target location → tree.get? location = some .folder := by
  obtain ⟨spare, bytes, mtime, folder, text, hresolve, hdestination, hfolder, rfl⟩ :=
    rename_iff.1 hrename
  obtain ⟨-, rfl, hentry⟩ := (resolve_eq_ok hsource).1 hresolve
  obtain ⟨hplace, hleads, hway⟩ := destination_eq_ok htarget hdestination
  rw [hplace]
  exact ⟨bytes, mtime, hentry, ne_nil_of_file hentry, ne_nil_of_append, hfolder, rfl, hleads rfl,
    hway⟩

theorem removeFile_eq_ok {tree after : FileTree} {current : Location} {path : Path}
    (h : path.isAbsolute) (hremove : tree.removeFile current path = .ok after) :
    place path ≠ [] ∧ tree.get? (place path) ≠ some .folder ∧ after = tree.erase (place path) := by
  obtain ⟨location, bytes, mtime, hresolve, rfl⟩ := removeFile_iff.1 hremove
  obtain ⟨-, rfl, hentry⟩ := (resolve_eq_ok h).1 hresolve
  refine ⟨ne_nil_of_file hentry, ?_, rfl⟩
  rw [hentry]
  nofun

/-! ## Missing folders -/

/-- Some folders that were missing at some locations have been made. -/
def Grown (way : Location → Prop) (tree after : FileTree) : Prop :=
  ∀ location, after.get? location = tree.get? location ∨
    tree.get? location = none ∧ after.get? location = some .folder ∧ way location

theorem Grown.refl (way : Location → Prop) (tree : FileTree) : Grown way tree tree :=
  fun _ => .inl rfl

theorem Grown.trans {way : Location → Prop} {first second third : FileTree}
    (h : Grown way first second) (h' : Grown way second third) : Grown way first third := by
  intro location
  rcases h location with heq | ⟨hnone, hfolder, hway⟩
  · rw [← heq]
    exact h' location
  · rcases h' location with heq | ⟨hnone', -, -⟩
    · exact .inr ⟨hnone, heq.trans hfolder, hway⟩
    · rw [hfolder] at hnone'
      cases hnone'

theorem Grown.mono {way more : Location → Prop} {tree after : FileTree} (h : Grown way tree after)
    (hmore : ∀ location, way location → more location) : Grown more tree after := by
  intro location
  rcases h location with heq | ⟨hnone, hfolder, hway⟩
  · exact .inl heq
  · exact .inr ⟨hnone, hfolder, hmore location hway⟩

theorem Grown.of_set {way : Location → Prop} {tree : FileTree} {location : Location}
    (hne : location ≠ []) (hnone : tree.get? location = none) (hway : way location) :
    Grown way tree (tree.set location .folder) := by
  intro other
  rw [get?_set _ hne]
  by_cases hother : other = location
  · subst hother
    exact .inr ⟨hnone, if_pos rfl, hway⟩
  · exact .inl (if_neg hother)

theorem grown_of_makeFolder {tree after : FileTree} {current : Location} {path : Path}
    (h : path.isAbsolute) (hmake : tree.makeFolder current path = .ok after) :
    Grown (fun location => location = place path ∨ OnWay path location) tree after := by
  obtain ⟨hne, hnone, rfl⟩ := makeFolder_eq_ok h hmake
  exact .of_set hne hnone (.inl rfl)

/-- What the making of one folder keeps is kept by the making of all that are missing, which are
among the parents of the path.  By induction on the bound. -/
theorem makeFolders_keeps {current : Location} {keeps : FileTree → Prop} (among : Path → Prop)
    (hup : ∀ {path parent : Path}, among path → path.parent? = some parent → among parent)
    (hstep : ∀ {tree after : FileTree} {path : Path}, among path →
      tree.makeFolder current path = .ok after → keeps tree → keeps after)
    (bound : Nat) {tree : FileTree} {path : Path} (hpath : among path) (htree : keeps tree) :
    keeps (makeFolders current bound tree path).2 := by
  induction bound generalizing path with
  | zero => exact htree
  | succ bound ih =>
      rw [makeFolders]
      split
      · exact htree
      · split
        · rename_i hmake
          exact hstep hpath hmake htree
        · split
          · exact htree
          · rename_i parent hparent
            have hmade := ih (hup hpath hparent)
            split
            · rename_i hreply
              rw [hreply] at hmade
              exact hmade
            · rename_i hreply
              rw [hreply] at hmade
              split
              · rename_i hmake
                exact hstep hpath hmake hmade
              · exact hmade
        · exact htree

/-- Missing folders are made at a path and on the way to it; nothing else is changed. -/
theorem createFolders_made (tree : FileTree) (current : Location) {path : Path}
    (h : path.isAbsolute) :
    Grown (fun location => location = place path ∨ OnWay path location) tree
      (tree.createFolders current path).2 := by
  -- a folder is made at the path or at a parent, and what leads to a parent leads to the path
  refine makeFolders_keeps
    (fun other => other.isAbsolute ∧ ∀ location,
      location = place other ∨ OnWay other location → location = place path ∨ OnWay path location)
    ?_ ?_ _ ⟨h, fun _ => id⟩ (Grown.refl _ tree)
  · rintro other parent ⟨habsolute, hway⟩ hparent
    exact ⟨(Path.steps_parent habsolute hparent).1, fun location hlocation =>
      hway location (.inr (onWay_of_parent habsolute hparent hlocation))⟩
  · rintro before after other ⟨habsolute, hway⟩ hmake hgrown
    exact hgrown.trans ((grown_of_makeFolder habsolute hmake).mono hway)

end FileTree

end KeysetBundle.Files
