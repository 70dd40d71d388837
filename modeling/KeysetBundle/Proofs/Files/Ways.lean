import KeysetBundle.Proofs.Files.Writing

/-!
# The way to a file

On the way along an absolute path the tree is asked at one stop after the other.
What it answers decides whether the folders on the way to a file can be made:
they can unless a file is at one of the stops.  If they cannot, all that comes
before the first file is made, so that another attempt would make nothing.

Main results.

- `walk_eq_error`: why a walk ends before its last piece.
- `made_makeFolders`, `made_makeWay`: what is there after folders were made, or
  could not be made.
- `run_makeWay_open`, `run_makeWay_blocked`: where nothing has to be made, or
  can be made.
-/

namespace KeysetBundle.Files

open KeysetBundle.Path (Component pieceComponent? piecesOf stepsOf)

/-! ## Stops -/

/-- Where one is after some of the steps from a location. -/
def stopFrom (start : Location) (steps : List Component) (n : Nat) : Location :=
  (steps.take n).foldl walk start

/-- Where one is after some of the steps of an absolute path. -/
def stop (path : Path) (n : Nat) : Location := stopFrom [] path.steps n

@[simp] theorem stopFrom_zero (start : Location) (steps : List Component) :
    stopFrom start steps 0 = start := rfl

theorem stopFrom_append_left (start : Location) {steps : List Component} (more : List Component)
    {n : Nat} (h : n ≤ steps.length) :
    stopFrom start (steps ++ more) n = stopFrom start steps n := by
  rw [stopFrom, stopFrom, List.take_append_of_le_length h]

theorem stopFrom_append_right (start : Location) (steps more : List Component) (n : Nat) :
    stopFrom start (steps ++ more) (steps.length + n) =
      stopFrom (steps.foldl walk start) more n := by
  rw [stopFrom, stopFrom, List.take_append, List.take_of_length_le (by omega), List.foldl_append,
    Nat.add_sub_cancel_left]

theorem stopFrom_length (start : Location) (steps : List Component) :
    stopFrom start steps steps.length = steps.foldl walk start := by
  rw [stopFrom, List.take_length]

theorem stop_length {path : Path} (h : path.isAbsolute) : stop path path.steps.length =
    place path := by
  rw [stop, stopFrom_length, place_eq h]

/-- The stops on the way to a file are those of the folder above it. -/
theorem steps_length_parent {path parent : Path} (h : path.isAbsolute)
    (hparent : path.parent? = some parent) :
    path.steps.length = parent.steps.length + 1 ∧
      ∀ n, n ≤ parent.steps.length → stop parent n = stop path n := by
  obtain ⟨-, component, hcomponent⟩ := Path.steps_parent h hparent
  refine ⟨by rw [hcomponent, List.length_append, List.length_singleton], fun n hn => ?_⟩
  rw [stop, stop, hcomponent, stopFrom_append_left _ _ hn]

/-- Whoever is below a folder on the way of an absolute path has been at that folder. -/
theorem exists_stopFrom_dropLast (steps : List Component) (n : Nat) :
    ∃ m, m ≤ n ∧ stopFrom [] steps m = (stopFrom [] steps n).dropLast := by
  induction n using Nat.strongRecOn with
  | _ n ih =>
      cases n with
      | zero => exact ⟨0, Nat.le_refl 0, rfl⟩
      | succ n =>
          by_cases hn : n < steps.length
          · have hnext : stopFrom [] steps (n + 1) = walk (stopFrom [] steps n) steps[n] := by
              rw [stopFrom, List.take_succ_eq_append_getElem hn, List.foldl_append]
              rfl
            rw [hnext]
            cases steps[n] with
            | root => exact ⟨0, Nat.zero_le _, rfl⟩
            | current =>
                obtain ⟨m, hm, heq⟩ := ih n (Nat.lt_succ_self n)
                exact ⟨m, by omega, heq⟩
            | parent =>
                obtain ⟨m, hm, heq⟩ := ih n (Nat.lt_succ_self n)
                obtain ⟨m', hm', heq'⟩ := ih m (by omega)
                exact ⟨m', by omega, heq'.trans (congrArg List.dropLast heq)⟩
            | name text =>
                exact ⟨n, Nat.le_succ n, by rw [walk, List.dropLast_concat]⟩
          · have hlast : stopFrom [] steps (n + 1) = stopFrom [] steps n := by
              rw [stopFrom, stopFrom, List.take_of_length_le (by omega),
                List.take_of_length_le (by omega)]
            obtain ⟨m, hm, heq⟩ := ih n (Nat.lt_succ_self n)
            exact ⟨m, by omega, by rw [hlast, heq]⟩

namespace FileTree

variable {tree other : FileTree} {pieces : List String} {start : Location} {current : Location}
  {path : Path}

/-! ## Walks that fail -/

/-- What a walk can find in its way: nothing, or a file. -/
inductive Obstacle : Failure → Option Entry → Prop
  /-- There is nothing. -/
  | missing : Obstacle .notFound none
  /-- There is a file. -/
  | file (bytes : ByteArray) (mtime : Int) : Obstacle .notDirectory (some (.file bytes mtime))

theorem step_eq_error {location : Location} {piece : String} {failure : Failure}
    (h : tree.step location piece = .error failure) : Obstacle failure (tree.get? location) := by
  unfold step at h
  split at h
  · rename_i hentry
    cases h
    rw [hentry]
    exact .missing
  · rename_i bytes mtime hentry
    cases h
    rw [hentry]
    exact .file bytes mtime
  · split at h
    · cases h
    · split at h <;> cases h

/-- **A walk fails at the first stop that is no folder.** -/
theorem walk_eq_error {failure : Failure} (h : pieces.foldlM tree.step start = .error failure) :
    ∃ n, n ≤ (stepsOf pieces).length ∧
      (∀ m, m < n → tree.get? (stopFrom start (stepsOf pieces) m) = some .folder) ∧
      Obstacle failure (tree.get? (stopFrom start (stepsOf pieces) n)) := by
  induction pieces generalizing start with
  | nil => cases h
  | cons piece pieces ih =>
      rw [List.foldlM_cons] at h
      rcases bind_eq_error.1 h with hstep | ⟨next, hstep, hrest⟩
      · exact ⟨0, Nat.zero_le _, fun m hm => absurd hm (Nat.not_lt_zero m), step_eq_error hstep⟩
      · obtain ⟨hfolder, rfl⟩ := step_eq_ok hstep
        obtain ⟨n, hn, hbefore, hobstacle⟩ := ih hrest
        refine ⟨(stepsOf [piece]).length + n, ?_, ?_, ?_⟩
        · rw [Path.stepsOf_cons piece pieces, List.length_append]
          omega
        · intro m hm
          rw [Path.stepsOf_cons piece pieces]
          have hone := Path.length_stepsOf_singleton piece
          by_cases hfirst : m < (stepsOf [piece]).length
          · have hzero : m = 0 := by omega
            rw [hzero, stopFrom_zero]
            exact hfolder
          · obtain ⟨k, rfl⟩ := Nat.exists_eq_add_of_le (Nat.le_of_not_lt hfirst)
            rw [stopFrom_append_right]
            exact hbefore k (by omega)
        · rw [Path.stepsOf_cons piece pieces, stopFrom_append_right]
          exact hobstacle

/-- A walk over folders succeeds. -/
theorem exists_walk
    (h : ∀ n, n ≤ (stepsOf pieces).length →
      tree.get? (stopFrom start (stepsOf pieces) n) = some .folder) :
    pieces.foldlM tree.step start = .ok ((stepsOf pieces).foldl walk start) := by
  cases hwalk : pieces.foldlM tree.step start with
  | ok last => rw [(walk_eq_ok hwalk).1]
  | error failure =>
      obtain ⟨n, hn, -, hobstacle⟩ := walk_eq_error hwalk
      rw [h n hn] at hobstacle
      cases hobstacle

/-! ## Walks in trees that look the same -/

/-- Whether a folder is at a location, if there is anything. -/
def kindAt (tree : FileTree) (location : Location) : Option Bool :=
  (tree.get? location).map fun entry => entry.stat.isFolder

theorem kindAt_eq_folder {location : Location} :
    tree.kindAt location = some true ↔ tree.get? location = some .folder := by
  unfold kindAt
  rcases tree.get? location with _ | _ | _ <;> simp [Entry.stat, Stat.isFolder]

theorem isFolder_congr {location : Location} (h : tree.kindAt location = other.kindAt location) :
    tree.isFolder location = other.isFolder location := by
  rw [Bool.eq_iff_iff, isFolder_iff, isFolder_iff, ← kindAt_eq_folder, ← kindAt_eq_folder, h]

theorem step_congr {location : Location} (piece : String)
    (h : tree.kindAt location = other.kindAt location) :
    tree.step location piece = other.step location piece := by
  unfold kindAt at h
  unfold step
  cases hentry : tree.get? location with
  | none =>
      rw [hentry, Option.map_none] at h
      rw [Option.map_eq_none_iff.1 h.symm]
  | some entry =>
      rw [hentry] at h
      obtain ⟨entry', hentry', hkind⟩ := Option.map_eq_some_iff.1 h.symm
      rw [hentry']
      cases entry <;> cases entry' <;> first | rfl | cases hkind

/-- A walk asks for nothing but what is at its stops. -/
theorem walk_congr
    (h : ∀ n, n ≤ (stepsOf pieces).length →
      tree.kindAt (stopFrom start (stepsOf pieces) n) =
        other.kindAt (stopFrom start (stepsOf pieces) n)) :
    pieces.foldlM tree.step start = pieces.foldlM other.step start := by
  induction pieces generalizing start with
  | nil => rfl
  | cons piece pieces ih =>
      have hfirst : tree.kindAt start = other.kindAt start := h 0 (Nat.zero_le _)
      rw [List.foldlM_cons, List.foldlM_cons, ← step_congr piece hfirst]
      cases hstep : tree.step start piece with
      | error failure => rfl
      | ok next =>
          obtain ⟨-, rfl⟩ := step_eq_ok hstep
          refine ih fun n hn => ?_
          have hnext := h ((stepsOf [piece]).length + n) (by
            rw [Path.stepsOf_cons piece pieces, List.length_append]
            omega)
          rw [Path.stepsOf_cons piece pieces, stopFrom_append_right] at hnext
          exact hnext

/-! ## Stops that are open -/

/-- The first stops of a path are folders. -/
def OpenTo (tree : FileTree) (path : Path) (n : Nat) : Prop :=
  ∀ m, m < n → tree.get? (stop path m) = some .folder

/-- The first stop of a path that is no folder is a file. -/
structure BlockedAt (tree : FileTree) (path : Path) (n : Nat) : Prop where
  /-- What comes before are folders. -/
  isOpen : tree.OpenTo path n
  /-- There is a file. -/
  isFile : ∃ bytes mtime, tree.get? (stop path n) = some (.file bytes mtime)

theorem OpenTo.mono {n m : Nat} (h : tree.OpenTo path n) (hm : m ≤ n) : tree.OpenTo path m :=
  fun k hk => h k (by omega)

theorem OpenTo.of_folder {n : Nat} (h : tree.OpenTo path n)
    (hkeep : ∀ location, tree.get? location = some .folder → other.get? location = some .folder) :
    other.OpenTo path n := fun m hm => hkeep _ (h m hm)

theorem openTo_iff_onWay : tree.OpenTo path path.steps.length ↔
    ∀ location, OnWay path location → tree.get? location = some .folder := by
  constructor
  · rintro h location ⟨n, hn, rfl⟩
    exact h n hn
  · exact fun h n hn => h _ ⟨n, hn, rfl⟩

/-- A way cannot be both open and blocked. -/
theorem BlockedAt.lt_of_openTo {n m : Nat} (h : tree.BlockedAt path n)
    (hopen : tree.OpenTo path m) : m ≤ n := by
  refine Nat.le_of_not_lt fun hn => ?_
  obtain ⟨bytes, mtime, hfile⟩ := h.isFile
  rw [hopen n hn] at hfile
  cases hfile

/-- The first stop that is no folder is where the way is blocked. -/
theorem BlockedAt.eq_of_obstacle {n m : Nat} {failure : Failure} (h : tree.BlockedAt path n)
    (hopen : tree.OpenTo path m) (hobstacle : Obstacle failure (tree.get? (stop path m))) :
    m = n := by
  have hle := h.lt_of_openTo hopen
  refine Nat.le_antisymm hle (Nat.le_of_not_lt fun hlt => ?_)
  rw [h.isOpen m hlt] at hobstacle
  cases hobstacle

/-- A way that is open up to its end leads there. -/
theorem leads_of_openTo (h : path.isAbsolute) (hopen : tree.OpenTo path (path.steps.length + 1)) :
    tree.Leads path ∧ tree.get? (place path) = some .folder := by
  have hwalk : (piecesOf path.body).foldlM tree.step [] = .ok (path.steps.foldl walk []) :=
    exists_walk fun n hn => hopen n (Nat.lt_succ_of_le hn)
  refine ⟨leads_of_walk h hwalk, ?_⟩
  rw [← stop_length h]
  exact hopen _ (Nat.lt_succ_self _)

/-- The way to a name in a folder can be gone. -/
theorem leads_joinText {folder : Path} {name : String} (h : folder.isAbsolute)
    (hname : Path.IsName name) (hopen : tree.OpenTo folder (folder.steps.length + 1)) :
    tree.Leads (folder.joinText name) := by
  obtain ⟨pieces, hpieces⟩ := Path.exists_piecesOf_joinText h hname
  have hfront : stepsOf pieces = folder.steps := by
    have hsteps := Path.steps_joinText_of_isName h hname
    have hlast : stepsOf [name] = [.name name] := by
      rw [stepsOf, List.filterMap_cons, hname.component]
      rfl
    rw [Path.steps, hpieces, Path.stepsOf_append, hlast] at hsteps
    exact List.append_cancel_right hsteps
  have hwalk : pieces.foldlM tree.step [] = .ok (place folder) := by
    rw [place_eq h, ← hfront]
    refine exists_walk fun n hn => ?_
    rw [hfront] at hn ⊢
    exact hopen n (Nat.lt_succ_of_le hn)
  have hfolder : tree.get? (place folder) = some .folder := (leads_of_openTo h hopen).2
  refine leads_of_walk (Path.isAbsolute_joinText _ h)
    (show _ = Except.ok (place folder ++ [name]) from ?_)
  rw [hpieces]
  exact walk_concat.2 ⟨place folder, hwalk, step_of_name hfolder hname.component⟩

/-- Where the way leads, all but the last stop are folders. -/
theorem openTo_of_leads (hleads : tree.Leads path) : tree.OpenTo path path.steps.length :=
  (walk_eq_ok hleads).2

theorem leadsToFolder_iff (h : path.isAbsolute) :
    tree.leadsToFolder current path ↔ tree.Leads path ∧ tree.get? (place path) = some .folder := by
  unfold leadsToFolder stat
  constructor
  · intro hfolder
    split at hfolder
    · rename_i found hfound
      obtain ⟨⟨location, entry⟩, hresolve, hstat⟩ := map_eq_ok.1 hfound
      obtain ⟨hleads, -, hentry⟩ := (resolve_eq_ok h).1 hresolve
      refine ⟨hleads, ?_⟩
      dsimp only at hstat
      subst hstat
      cases entry with
      | folder => exact hentry
      | file bytes mtime => cases hfolder
    · cases hfolder
  · rintro ⟨hleads, hentry⟩
    rw [(resolve_eq_ok h).2 ⟨hleads, rfl, hentry⟩]
    rfl

/-! ## Destinations of absolute paths -/

theorem leadingPieces_append (pieces : List String) :
    ∃ rest, pieces = leadingPieces pieces ++ rest := by
  have hsuffix : (pieces.reverse.dropWhile (· == "")).reverse <+: pieces := by
    have h := List.reverse_prefix.2 (List.dropWhile_suffix (l := pieces.reverse) (· == ""))
    rwa [List.reverse_reverse] at h
  obtain ⟨rest, hrest⟩ := (List.dropLast_prefix _).trans hsuffix
  exact ⟨rest, hrest.symm⟩

/-- The steps of the leading pieces come first. -/
theorem steps_leadingPieces (path : Path) :
    ∃ rest, path.steps = stepsOf (leadingPieces (piecesOf path.body)) ++ rest := by
  obtain ⟨rest, hrest⟩ := leadingPieces_append (piecesOf path.body)
  exact ⟨stepsOf rest, by rw [← Path.stepsOf_append, ← hrest, Path.steps]⟩

theorem stepsOf_point (pieces : List String) : stepsOf (pieces ++ ["."]) = stepsOf pieces := by
  have hpoint : stepsOf ["."] = [] := rfl
  rw [Path.stepsOf_append, hpoint, List.append_nil]

/-- A destination depends on what is at the stops only. -/
theorem destination_congr (current : Location) (h : path.isAbsolute)
    (hkinds : ∀ n, n ≤ path.steps.length →
      tree.kindAt (stop path n) = other.kindAt (stop path n)) :
    tree.destination current path = other.destination current path := by
  obtain ⟨rest, hsteps⟩ := steps_leadingPieces path
  rw [destination_of_isAbsolute tree current h, destination_of_isAbsolute other current h,
    walk_congr fun n hn => ?_]
  rw [stepsOf_point] at hn ⊢
  have hsame := hkinds n (by rw [hsteps, List.length_append]; omega)
  rw [stop, hsteps, stopFrom_append_left _ _ hn] at hsame
  exact hsame

/-- There is no destination where a stop is no folder. -/
theorem obstacle_of_destination {failure : Failure} (h : path.isAbsolute)
    (hdestination : tree.destination current path = .error failure) :
    ∃ n, n ≤ path.steps.length ∧ tree.OpenTo path n ∧
      Obstacle failure (tree.get? (stop path n)) := by
  rw [destination_of_isAbsolute tree current h] at hdestination
  split at hdestination
  · rename_i failure' hwalk
    cases hdestination
    obtain ⟨n, hn, hbefore, hobstacle⟩ := walk_eq_error hwalk
    rw [stepsOf_point] at hn hbefore hobstacle
    obtain ⟨rest, hsteps⟩ := steps_leadingPieces path
    have hstops : ∀ m, m ≤ n → stopFrom [] (stepsOf (leadingPieces (piecesOf path.body))) m =
        stop path m := by
      intro m hm
      rw [stop, hsteps, stopFrom_append_left _ _ (by omega)]
    refine ⟨n, by rw [hsteps, List.length_append]; omega, ?_, ?_⟩
    · intro m hm
      rw [← hstops m (by omega)]
      exact hbefore m hm
    · rw [← hstops n (Nat.le_refl n)]
      exact hobstacle
  · cases hdestination

/-! ## Paths that end with their last step -/

/-- The spelling of an absolute path ends with its last step. -/
def Ends (path : Path) : Prop :=
  path.steps = [] ∨ ∃ front last, piecesOf path.body = front ++ [last] ∧ ¬Path.isIdle last

theorem ends_parent {parent : Path} (h : path.isAbsolute) (hparent : path.parent? = some parent) :
    Ends parent := by
  rw [Path.parent?, Path.decompose_of_isAbsolute h] at hparent
  dsimp only at hparent
  split at hparent
  · cases hparent
  · cases hparent
    have hslash : Path.Lead.root.text.toList = ['/'] := by decide
    have hbody : ∀ trimmed : List String, (Path.mk (Path.Lead.root.text ++
        Path.joinPieces trimmed)).body = (Path.joinPieces trimmed).toList := by
      intro trimmed
      refine Path.body_of_text ?_
      rw [String.toList_append, hslash]
      rfl
    by_cases htrimmed : Path.trimRight (Path.trimRight (piecesOf path.body)).dropLast = []
    · left
      rw [Path.steps, hbody, htrimmed]
      rfl
    · right
      refine ⟨(Path.trimRight (Path.trimRight (piecesOf path.body)).dropLast).dropLast, _, ?_,
        Path.not_isIdle_getLast_trimRight htrimmed⟩
      rw [hbody, List.dropLast_concat_getLast, Path.piecesOf_joinPieces htrimmed]
      intro piece hpiece
      exact Path.not_mem_of_mem_piecesOf
        (Path.mem_of_mem_trimRight (List.dropLast_subset _ (Path.mem_of_mem_trimRight hpiece)))

theorem lastPiece_concat (front : List String) {last : String} (hidle : ¬Path.isIdle last) :
    leadingPieces (front ++ [last]) = front ∧
      lastPiece (front ++ [last]) = if last = ".." then .relative else .name last false := by
  have hempty : last ≠ "" := by
    rintro rfl
    exact hidle rfl
  have hpoint : last ≠ "." := by
    rintro rfl
    exact hidle rfl
  have hdrop : (front ++ [last]).reverse.dropWhile (· == "") = last :: front.reverse := by
    rw [List.reverse_append, List.reverse_singleton, List.singleton_append, List.dropWhile_cons,
      beq_eq_false_iff_ne.2 hempty]
    rfl
  constructor
  · rw [leadingPieces, hdrop, List.reverse_cons, List.dropLast_concat, List.reverse_reverse]
  · rw [lastPiece, hdrop]
    dsimp only
    rw [List.getLast?_concat, Option.some_beq_some, beq_eq_false_iff_ne.2 hempty]
    by_cases hup : last = ".."
    · rw [if_pos hup, if_pos (.inr hup)]
    · rw [if_neg hup, if_neg (not_or.2 ⟨hpoint, hup⟩)]

/-- What the last piece is, and which steps come before it. -/
theorem Ends.last (h : Ends path) (hsteps : path.steps ≠ []) :
    ∃ component, path.steps = stepsOf (leadingPieces (piecesOf path.body)) ++ [component] ∧
      (component = .parent ∧ lastPiece (piecesOf path.body) = .relative ∨
        ∃ text, component = .name text ∧ lastPiece (piecesOf path.body) = .name text false) := by
  rcases h with hnil | ⟨front, last, hpieces, hidle⟩
  · exact absurd hnil hsteps
  · obtain ⟨hlead, hlast⟩ := lastPiece_concat front hidle
    have hone : path.steps = stepsOf front ++ stepsOf [last] := by
      rw [Path.steps, hpieces, Path.stepsOf_append]
    rw [hone, hpieces, hlead, hlast]
    rw [stepsOf, stepsOf, List.filterMap_cons, List.filterMap_nil, pieceComponent?, if_neg hidle]
    by_cases hup : last = ".."
    · refine ⟨.parent, ?_, .inl ⟨rfl, if_pos hup⟩⟩
      rw [if_pos (beq_iff_eq.2 hup)]
    · refine ⟨.name last, ?_, .inr ⟨last, rfl, if_neg hup⟩⟩
      rw [if_neg (mt beq_iff_eq.1 hup)]

/-- What the destination of a path is, if its way is open. -/
theorem Ends.destination (h : Ends path) (current : Location) (habsolute : path.isAbsolute)
    (hopen : tree.OpenTo path path.steps.length) :
    ∃ folder, tree.destination current path =
      .ok ⟨folder, lastPiece (piecesOf path.body)⟩ := by
  have hwalk : ∃ folder, (leadingPieces (piecesOf path.body) ++ ["."]).foldlM tree.step [] =
      .ok folder := by
    refine ⟨_, exists_walk fun n hn => ?_⟩
    rw [stepsOf_point] at hn ⊢
    by_cases hsteps : path.steps = []
    · -- the root is a folder, and there are no other stops
      obtain ⟨rest, hrest⟩ := steps_leadingPieces path
      have hnil : stepsOf (leadingPieces (piecesOf path.body)) = [] := by
        rw [hrest] at hsteps
        exact (List.append_eq_nil_iff.1 hsteps).1
      rw [hnil, stopFrom, List.take_nil]
      rfl
    · obtain ⟨component, hlast, -⟩ := h.last hsteps
      have hstop := hopen n (by rw [hlast, List.length_append]; simp; omega)
      rw [stop, hlast, stopFrom_append_left _ _ hn] at hstop
      exact hstop
  obtain ⟨folder, hfolder⟩ := hwalk
  refine ⟨folder, ?_⟩
  rw [destination_of_isAbsolute tree current habsolute, hfolder]

/-- Where there is a destination, the way is open. -/
theorem Ends.openTo_of_destination (h : Ends path) (habsolute : path.isAbsolute)
    {destination : Destination} (hdestination : tree.destination current path = .ok destination) :
    tree.OpenTo path path.steps.length := by
  intro m hm
  have hsteps : path.steps ≠ [] := by
    intro hnil
    rw [hnil] at hm
    cases hm
  obtain ⟨component, hcomponent, -⟩ := h.last hsteps
  rw [hcomponent, List.length_append, List.length_singleton] at hm
  rw [stop, hcomponent, stopFrom_append_left _ _ (by omega)]
  obtain ⟨hlead, hfolder, -⟩ := (destination_iff_of_isAbsolute habsolute).1 hdestination
  obtain ⟨hmiddle, hbefore⟩ := walk_eq_ok hlead
  by_cases hlast : m < (stepsOf (leadingPieces (piecesOf path.body))).length
  · exact hbefore m hlast
  · have heq : m = (stepsOf (leadingPieces (piecesOf path.body))).length := by omega
    rw [heq, stopFrom_length, ← hmiddle]
    exact hfolder

/-- A path that ends with a `..` leads to a stop before it. -/
theorem get?_place_of_parent {steps : List Component} (habsolute : path.isAbsolute)
    (hsteps : path.steps = steps ++ [.parent]) (hopen : tree.OpenTo path path.steps.length) :
    tree.get? (place path) = some .folder := by
  have hplace : place path = (stopFrom [] path.steps steps.length).dropLast := by
    rw [place_eq habsolute, hsteps, stopFrom_append_left _ _ (Nat.le_refl _), stopFrom_length,
      List.foldl_append]
    rfl
  obtain ⟨m, hm, hstop⟩ := exists_stopFrom_dropLast path.steps steps.length
  rw [hplace, ← hstop]
  exact hopen m (by rw [hsteps, List.length_append]; simp; omega)

/-! ## Making folders -/

theorem makeFolders_of_error {bound : Nat} {failure : Failure} (habsolute : path.isAbsolute)
    (h : tree.makeFolder current path = .error failure) (hne : failure ≠ .notFound) :
    makeFolders current (bound + 1) tree path =
      (if tree.leadsToFolder current path then .ok () else .error failure, tree) := by
  rw [makeFolders, if_neg (Path.text_ne_empty habsolute), h]
  cases failure <;> first | rfl | exact absurd rfl hne

theorem makeFolder_open (current : Location) (habsolute : path.isAbsolute) (hends : Ends path)
    (hopen : tree.OpenTo path (path.steps.length + 1)) :
    tree.makeFolder current path = .error .alreadyExists := by
  obtain ⟨-, hfolder⟩ := leads_of_openTo habsolute hopen
  obtain ⟨folder, hdestination⟩ :=
    hends.destination current habsolute (hopen.mono (Nat.le_succ _))
  unfold makeFolder
  rw [hdestination]
  cases hlast : lastPiece (piecesOf path.body) with
  | relative => rfl
  | name text slash =>
      rw [hlast] at hdestination
      rw [(destination_eq_ok habsolute hdestination).1] at hfolder
      simp only [hfolder]

/-- No folder is made where there are folders. -/
theorem makeFolders_open (bound : Nat) (current : Location) (habsolute : path.isAbsolute)
    (hends : Ends path) (hopen : tree.OpenTo path (path.steps.length + 1)) :
    makeFolders current (bound + 1) tree path = (.ok (), tree) := by
  rw [makeFolders_of_error habsolute (makeFolder_open current habsolute hends hopen) nofun,
    if_pos ((leadsToFolder_iff habsolute).2 (leads_of_openTo habsolute hopen))]

/-- No folder is made behind a file. -/
theorem makeFolders_blocked (bound : Nat) (habsolute : path.isAbsolute) (hends : Ends path)
    {n : Nat} (hn : n ≤ path.steps.length) (h : tree.BlockedAt path n) :
    makeFolders current (bound + 1) tree path =
      (.error (if n < path.steps.length then .notDirectory else .alreadyExists), tree) := by
  obtain ⟨bytes, mtime, hfile⟩ := h.isFile
  have hleads : ¬tree.leadsToFolder current path := by
    intro hfolder
    obtain ⟨hway, hplace⟩ := (leadsToFolder_iff habsolute).1 hfolder
    have hlast := h.lt_of_openTo (openTo_of_leads hway)
    have heq : n = path.steps.length := by omega
    rw [heq, stop_length habsolute, hplace] at hfile
    cases hfile
  have hsteps : path.steps ≠ [] := by
    intro hnil
    rw [stop, hnil, stopFrom, List.take_nil] at hfile
    cases hfile
  obtain ⟨component, hcomponent, hlast⟩ := hends.last hsteps
  by_cases hfirst : n < path.steps.length
  · have hmake : tree.makeFolder current path = .error .notDirectory := by
      unfold makeFolder
      cases hdestination : tree.destination current path with
      | ok destination =>
          have hlast := h.lt_of_openTo (hends.openTo_of_destination habsolute hdestination)
          omega
      | error failure =>
          obtain ⟨m, -, hopen, hobstacle⟩ := obstacle_of_destination habsolute hdestination
          rw [h.eq_of_obstacle hopen hobstacle, hfile] at hobstacle
          cases hobstacle
          rfl
    rw [makeFolders_of_error habsolute hmake nofun, if_neg hleads, if_pos hfirst]
  · have heq : n = path.steps.length := by omega
    have hmake : tree.makeFolder current path = .error .alreadyExists := by
      obtain ⟨folder, hdestination⟩ :=
        hends.destination current habsolute (heq ▸ h.isOpen)
      unfold makeFolder
      rw [hdestination]
      rcases hlast with ⟨-, hlast⟩ | ⟨text, -, hlast⟩
      · rw [hlast]
      · rw [hlast] at hdestination ⊢
        rw [heq, stop_length habsolute, (destination_eq_ok habsolute hdestination).1] at hfile
        simp only [hfile]
    rw [makeFolders_of_error habsolute hmake nofun, if_neg hleads, if_neg hfirst]

/-- How the making of folders comes out: the way is open up to its end, or a file is in it and all
that comes before is there. -/
structure Made (path : Path) (result : Except Failure Unit × FileTree) : Prop where
  /-- The way is open. -/
  isOpen : result.1 = .ok () → result.2.OpenTo path (path.steps.length + 1)
  /-- A file is in the way. -/
  isBlocked : ∀ failure, result.1 = .error failure →
    ∃ n, n ≤ path.steps.length ∧ result.2.BlockedAt path n

/-- Makes a folder unless there is one. -/
def makeLast (current : Location) (tree : FileTree) (path : Path) :
    Except Failure Unit × FileTree :=
  match tree.makeFolder current path with
  | .ok tree => (.ok (), tree)
  | .error failure => (if tree.leadsToFolder current path then .ok () else .error failure, tree)

theorem openTo_succ (habsolute : path.isAbsolute) (hopen : tree.OpenTo path path.steps.length)
    (hplace : tree.get? (place path) = some .folder) :
    tree.OpenTo path (path.steps.length + 1) := by
  intro m hm
  by_cases hlast : m < path.steps.length
  · exact hopen m hlast
  · have heq : m = path.steps.length := by omega
    rw [heq, stop_length habsolute, hplace]

/-- The last folder is there or made, if the way to it is open. -/
theorem made_of_openTo (habsolute : path.isAbsolute) (hends : Ends path)
    (hopen : tree.OpenTo path path.steps.length) : Made path (makeLast current tree path) := by
  obtain ⟨folder, hdestination⟩ := hends.destination current habsolute hopen
  unfold makeLast
  cases hmake : tree.makeFolder current path with
  | ok after =>
      obtain ⟨hne, hnone, rfl⟩ := makeFolder_eq_ok habsolute hmake
      refine ⟨fun _ => ?_, fun _ herror => nomatch herror⟩
      refine openTo_succ habsolute (hopen.of_folder fun location hfolder => ?_) ?_
      · exact get?_set_folder hne (by rw [hnone]; nofun) hfolder
      · rw [get?_set _ hne, if_pos rfl]
  | error failure =>
      dsimp only
      cases hplace : tree.get? (place path) with
      | none =>
          -- a folder could have been made there
          exfalso
          unfold makeFolder at hmake
          rw [hdestination] at hmake
          cases hlast : lastPiece (piecesOf path.body) with
          | relative =>
              by_cases hsteps : path.steps = []
              · rw [place_eq habsolute, hsteps] at hplace
                cases hplace
              · obtain ⟨component, hcomponent, ⟨rfl, -⟩ | ⟨text, -, hname⟩⟩ := hends.last hsteps
                · rw [get?_place_of_parent habsolute hcomponent hopen] at hplace
                  cases hplace
                · rw [hlast] at hname
                  cases hname
          | name text slash =>
              rw [hlast] at hdestination hmake
              rw [(destination_eq_ok habsolute hdestination).1] at hplace
              simp only [hplace] at hmake
              cases hmake
      | some entry =>
          cases entry with
          | folder =>
              have hall := openTo_succ habsolute hopen hplace
              rw [if_pos ((leadsToFolder_iff habsolute).2 (leads_of_openTo habsolute hall))]
              exact ⟨fun _ => hall, fun _ herror => nomatch herror⟩
          | file bytes mtime =>
              have hleads : ¬tree.leadsToFolder current path := by
                intro hfolder
                rw [((leadsToFolder_iff habsolute).1 hfolder).2] at hplace
                cases hplace
              rw [if_neg hleads]
              refine ⟨nofun, fun _ _ => ⟨path.steps.length, Nat.le_refl _, hopen, bytes, mtime, ?_⟩⟩
              rw [stop_length habsolute, hplace]

/-- If the last folder is not found, folders before it are missing; otherwise it is known what
becomes of it. -/
theorem made_of_found (habsolute : path.isAbsolute) (hends : Ends path)
    (h : tree.makeFolder current path ≠ .error .notFound) :
    Made path (makeLast current tree path) := by
  cases hdestination : tree.destination current path with
  | ok destination =>
      exact made_of_openTo habsolute hends (hends.openTo_of_destination habsolute hdestination)
  | error failure =>
      have hmake : tree.makeFolder current path = .error failure := by
        unfold makeFolder
        rw [hdestination]
      obtain ⟨n, hn, hopen, hobstacle⟩ := obstacle_of_destination habsolute hdestination
      generalize hentry : tree.get? (stop path n) = entry at hobstacle
      cases hobstacle with
      | missing => exact absurd hmake h
      | file bytes mtime =>
          have hblocked : tree.BlockedAt path n := ⟨hopen, bytes, mtime, hentry⟩
          have hleads : ¬tree.leadsToFolder current path := by
            intro hfolder
            obtain ⟨hway, hplace⟩ := (leadsToFolder_iff habsolute).1 hfolder
            have hlast := hblocked.lt_of_openTo
              (openTo_succ habsolute (openTo_of_leads hway) hplace)
            omega
          unfold makeLast
          rw [hmake]
          dsimp only
          rw [if_neg hleads]
          exact ⟨nofun, fun _ _ => ⟨n, hn, hblocked⟩⟩

/-- The root is not missing. -/
theorem steps_ne_nil_of_notFound (habsolute : path.isAbsolute) (hends : Ends path)
    (h : tree.makeFolder current path = .error .notFound) : path.steps ≠ [] := by
  intro hnil
  have hroot : tree.OpenTo path path.steps.length := by
    intro m hm
    rw [hnil] at hm
    cases hm
  have hplace : tree.get? (place path) = some .folder := by
    rw [place_eq habsolute, hnil]
    rfl
  rw [makeFolder_open current habsolute hends (openTo_succ habsolute hroot hplace)] at h
  cases h

/-- **Making folders.**  By induction on the bound, which is above the number of steps. -/
theorem made_makeFolders {bound : Nat} (habsolute : path.isAbsolute) (hends : Ends path)
    (hbound : path.steps.length < bound) : Made path (makeFolders current bound tree path) := by
  induction bound generalizing path with
  | zero => exact absurd hbound (Nat.not_lt_zero _)
  | succ bound ih =>
      have htext := Path.text_ne_empty habsolute
      by_cases hfound : tree.makeFolder current path = .error .notFound
      · obtain ⟨parent, hparent⟩ := Option.isSome_iff_exists.1
          (Path.parent?_isSome habsolute (steps_ne_nil_of_notFound habsolute hends hfound))
        obtain ⟨habsolute', -⟩ := Path.steps_parent habsolute hparent
        obtain ⟨hlength, hstops⟩ := steps_length_parent habsolute hparent
        have hmade := ih habsolute' (ends_parent habsolute hparent) (by omega)
        rw [makeFolders, if_neg htext, hfound]
        simp only [hparent]
        generalize makeFolders current bound tree parent = reply at hmade
        obtain ⟨result, between⟩ := reply
        cases result with
        | error failure =>
            refine ⟨fun hok => absurd hok (by simp), fun _ _ => ?_⟩
            obtain ⟨n, hn, hopen, hfile⟩ := hmade.isBlocked failure rfl
            refine ⟨n, by omega, fun m hm => ?_, ?_⟩
            · rw [← hstops m (by omega)]
              exact hopen m hm
            · rw [← hstops n hn]
              exact hfile
        | ok made =>
            refine made_of_openTo habsolute hends fun m hm => ?_
            rw [← hstops m (by omega)]
            exact hmade.isOpen rfl m (by omega)
      · have hmade := made_of_found habsolute hends hfound
        rw [makeFolders, if_neg htext]
        unfold makeLast at hmade
        cases hmake : tree.makeFolder current path with
        | ok after =>
            rw [hmake] at hmade
            exact hmade
        | error failure =>
            rw [hmake] at hmade hfound
            cases failure <;> first | exact hmade | exact absurd rfl hfound

end FileTree

/-! ## The way to a file -/

open FileTree

theorem run_makeWay_parent (world : World) {path parent : Path} (h : path.isAbsolute)
    (hparent : path.parent? = some parent) :
    world.run (makeWay path) =
      ((world.tree.createFolders world.current parent).1,
        { world with tree := (world.tree.createFolders world.current parent).2 }) := by
  have hempty := Path.isEmpty_text (Path.steps_parent h hparent).1
  unfold makeWay
  simp only [hparent, hempty, Bool.false_eq_true, if_false]
  rfl

theorem lt_components {path : Path} (h : path.isAbsolute) :
    path.steps.length < path.components.length + 1 := by
  rw [Path.components_of_isAbsolute h, List.length_cons]
  omega

/-- **The way to a file is open after it was made**; if it could not be made, it is blocked by a
file. -/
theorem made_makeWay (world : World) {path : Path} (h : path.isAbsolute) :
    ((world.run (makeWay path)).1 = .ok () →
      (world.run (makeWay path)).2.tree.OpenTo path path.steps.length) ∧
    ∀ failure, (world.run (makeWay path)).1 = .error failure →
      ∃ n, n < path.steps.length ∧ (world.run (makeWay path)).2.tree.BlockedAt path n := by
  cases hparent : path.parent? with
  | none =>
      have hsteps : path.steps = [] := by
        refine Classical.byContradiction fun hne => ?_
        have hsome := Path.parent?_isSome h hne
        rw [hparent] at hsome
        cases hsome
      have hrun : world.run (makeWay path) = (.ok (), world) := by
        unfold makeWay
        rw [hparent]
        rfl
      rw [hrun, hsteps]
      exact ⟨fun _ m hm => absurd hm (Nat.not_lt_zero m), fun _ herror => nomatch herror⟩
  | some parent =>
      obtain ⟨hlength, hstops⟩ := steps_length_parent h hparent
      have habsolute := (Path.steps_parent h hparent).1
      have hmade : Made parent (world.tree.createFolders world.current parent) :=
        made_makeFolders habsolute (ends_parent h hparent) (lt_components habsolute)
      rw [run_makeWay_parent world h hparent]
      constructor
      · intro hok m hm
        rw [← hstops m (by omega)]
        exact hmade.isOpen hok m (by omega)
      · intro failure herror
        obtain ⟨n, hn, hopen, hfile⟩ := hmade.isBlocked failure herror
        refine ⟨n, by omega, fun m hm => ?_, ?_⟩
        · rw [← hstops m (by omega)]
          exact hopen m hm
        · rw [← hstops n hn]
          exact hfile

/-- Nothing is made on a way that is open. -/
theorem run_makeWay_open (world : World) {path : Path} (h : path.isAbsolute)
    (hopen : world.tree.OpenTo path path.steps.length) :
    world.run (makeWay path) = (.ok (), world) := by
  cases hparent : path.parent? with
  | none =>
      unfold makeWay
      rw [hparent]
      rfl
  | some parent =>
      obtain ⟨hlength, hstops⟩ := steps_length_parent h hparent
      have habsolute := (Path.steps_parent h hparent).1
      have hnone : world.tree.createFolders world.current parent = (.ok (), world.tree) := by
        refine makeFolders_open _ _ habsolute (ends_parent h hparent) fun m hm => ?_
        rw [hstops m (by omega)]
        exact hopen m (by omega)
      rw [run_makeWay_parent world h hparent, hnone]

/-- Nothing can be made on a way that is blocked; why it cannot depends on the path and on where the
file is. -/
theorem run_makeWay_blocked (world : World) {path : Path} (h : path.isAbsolute) {n : Nat}
    (hn : n < path.steps.length) (hblocked : world.tree.BlockedAt path n) :
    world.run (makeWay path) =
      (.error (if n + 1 < path.steps.length then .notDirectory else .alreadyExists), world) := by
  have hsteps : path.steps ≠ [] := by
    intro hnil
    rw [hnil] at hn
    cases hn
  obtain ⟨parent, hparent⟩ := Option.isSome_iff_exists.1 (Path.parent?_isSome h hsteps)
  obtain ⟨hlength, hstops⟩ := steps_length_parent h hparent
  have habsolute := (Path.steps_parent h hparent).1
  have hblocked' : world.tree.BlockedAt parent n := by
    refine ⟨fun m hm => ?_, ?_⟩
    · rw [hstops m (by omega)]
      exact hblocked.isOpen m hm
    · rw [hstops n (by omega)]
      exact hblocked.isFile
  have hnone : world.tree.createFolders world.current parent =
      (.error (if n < parent.steps.length then .notDirectory else .alreadyExists), world.tree) :=
    makeFolders_blocked _ habsolute (ends_parent h hparent) (by omega) hblocked'
  rw [run_makeWay_parent world h hparent, hnone, hlength]
  simp only [Nat.add_lt_add_iff_right]

end KeysetBundle.Files
