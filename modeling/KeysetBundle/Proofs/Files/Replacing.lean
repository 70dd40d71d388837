import KeysetBundle.Proofs.Files.Ways

/-!
# When a file can be replaced

Once the way to a file is open, its neighbour can be written unless it is a
folder, and moved unless the file is one or its path does not end in a name.
So it is known what writing a file leaves behind, whether it succeeds or not.

Main results.

- `run_replaceFile_folder`, `run_replaceFile_free`: the outcomes where the way
  is open.
- `replaceFile_congr`: the outcome depends on the stops of the path and on its
  neighbour only.
-/

namespace KeysetBundle.Files

open KeysetBundle.Path (Component pieceComponent? piecesOf stepsOf)
open FileTree

/-! ## The way to the neighbour -/

theorem parent_or_name {path : Path} {step : Component} (h : step ∈ path.steps) :
    step = .parent ∨ ∃ name, step = .name name := by
  obtain ⟨piece, -, hcomponent⟩ := List.mem_filterMap.1 h
  rw [pieceComponent?] at hcomponent
  split at hcomponent
  · cases hcomponent
  · split at hcomponent
    · cases hcomponent
      exact .inl rfl
    · cases hcomponent
      exact .inr ⟨piece, rfl⟩

/-- A path without a last name is the root or goes up at its end. -/
theorem steps_of_no_fileName {path : Path} (h : path.isAbsolute) (hname : path.fileName? = none) :
    path.steps = [] ∨ ∃ steps, path.steps = steps ++ [.parent] := by
  rcases List.eq_nil_or_concat path.steps with hnil | ⟨steps, last, hlast⟩
  · exact .inl hnil
  · rw [List.concat_eq_append] at hlast
    refine .inr ⟨steps, ?_⟩
    have hcomponents : path.components.getLast? = some last := by
      rw [Path.components_of_isAbsolute h, hlast, ← List.cons_append, List.getLast?_concat]
    rcases parent_or_name (show last ∈ path.steps by rw [hlast]; simp) with rfl | ⟨name, rfl⟩
    · exact hlast
    · rw [Path.fileName?, hcomponents] at hname
      cases hname

theorem steps_neighbour {path : Path} (h : path.isAbsolute) : (neighbour path).steps =
    (if path.fileName?.isSome then path.steps.dropLast else path.steps) ++
      [.name ((path.fileName?).getD "" ++ ".tmp")] :=
  (Path.steps_withFileName h (isName_neighbour path)).2

theorem ends_neighbour {path : Path} (h : path.isAbsolute) : Ends (neighbour path) := by
  have hname := isName_neighbour path
  have hidle := (name_of_component hname.component).1
  right
  unfold neighbour Path.withFileName
  cases hlast : path.fileName? with
  | none =>
      rw [hlast] at hname
      obtain ⟨pieces, hpieces⟩ := Path.exists_piecesOf_joinText h hname
      rw [hlast] at hidle
      exact ⟨pieces, _, hpieces, hidle⟩
  | some name =>
      rw [hlast] at hname hidle
      have hsteps := Path.fileName?_eq_some h hlast
      have hsome := Path.parent?_isSome h (by rw [hsteps]; simp)
      obtain ⟨parent, hparent⟩ := Option.isSome_iff_exists.1 hsome
      obtain ⟨pieces, hpieces⟩ :=
        Path.exists_piecesOf_joinText (Path.steps_parent h hparent).1 hname
      rw [hparent]
      exact ⟨pieces, _, hpieces, hidle⟩

namespace FileTree

variable {tree other : FileTree} {current : Location} {path : Path}

/-- The way to the neighbour is open where the way to the file is. -/
theorem OpenTo.neighbour (h : tree.OpenTo path path.steps.length) (habsolute : path.isAbsolute) :
    tree.OpenTo (neighbour path) (neighbour path).steps.length := by
  intro m hm
  rw [stop, steps_neighbour habsolute]
  rw [steps_neighbour habsolute, List.length_append, List.length_singleton] at hm
  rw [stopFrom_append_left _ _ (by omega)]
  cases hname : path.fileName? with
  | some name =>
      have hsteps := Path.fileName?_eq_some habsolute hname
      have hlength := congrArg List.length hsteps
      rw [List.length_append, List.length_singleton] at hlength
      rw [hname, Option.isSome_some, if_pos rfl] at hm
      have hstop := h m (by omega)
      rw [stop, hsteps, stopFrom_append_left _ _ (by omega)] at hstop
      exact hstop
  | none =>
      rw [hname, Option.isSome_none, if_neg Bool.false_ne_true] at hm
      by_cases hlast : m < path.steps.length
      · exact h m hlast
      · have heq : m = path.steps.length := by omega
        show tree.get? (stop path m) = some .folder
        rw [heq, stop_length habsolute]
        rcases steps_of_no_fileName habsolute hname with hnil | ⟨steps, hsteps⟩
        · rw [place_eq habsolute, hnil]
          rfl
        · exact get?_place_of_parent habsolute hsteps h

/-! ## The neighbour is written and moved -/

/-- The neighbour can be written unless it is a folder. -/
theorem write_neighbour (current : Location) (bytes : ByteArray) (mtime : Int)
    (habsolute : path.isAbsolute) (h : tree.OpenTo path path.steps.length) :
    tree.write current (neighbour path) bytes mtime =
      if tree.isFolder (place (neighbour path)) then .error .isDirectory
      else .ok (tree.set (place (neighbour path)) (.file bytes mtime)) := by
  have habsolute' := isAbsolute_neighbour habsolute
  obtain ⟨folder, hdestination⟩ := (ends_neighbour habsolute).destination current
    habsolute' (h.neighbour habsolute)
  have hsteps : (neighbour path).steps ≠ [] := by
    rw [steps_neighbour habsolute]
    simp
  obtain ⟨component, hcomponent, hlast⟩ := (ends_neighbour habsolute).last hsteps
  have hname : ∃ name, lastPiece (piecesOf (neighbour path).body) = .name name false := by
    rcases hlast with ⟨rfl, -⟩ | ⟨name, -, hname⟩
    · rw [steps_neighbour habsolute] at hcomponent
      cases (List.append_inj' hcomponent rfl).2
    · exact ⟨name, hname⟩
  obtain ⟨name, hname⟩ := hname
  rw [hname] at hdestination
  unfold write writable
  rw [hdestination, (destination_eq_ok habsolute' hdestination).1]
  dsimp only
  split <;> rfl

/-- The spelling of a path ends in a name. -/
def Plain (path : Path) : Prop := ∃ name, lastPiece (piecesOf path.body) = .name name false

theorem Plain.ends (h : Plain path) : Ends path := by
  obtain ⟨name, hname⟩ := h
  exact .inr ⟨_, name, pieces_of_lastPiece hname,
    (name_of_component (lastPiece_eq_name hname).1).1⟩

theorem Plain.destination (h : Plain path) (current : Location) (habsolute : path.isAbsolute)
    (hopen : tree.OpenTo path path.steps.length) :
    ∃ folder name, tree.destination current path = .ok ⟨folder, .name name false⟩ ∧
      place path = folder ++ [name] := by
  obtain ⟨folder, hdestination⟩ := h.ends.destination current habsolute hopen
  obtain ⟨name, hname⟩ := h
  rw [hname] at hdestination
  exact ⟨folder, name, hdestination, (destination_eq_ok habsolute hdestination).1⟩

/-- What the destination of an absolute path is named. -/
theorem last_of_destination {destination : Destination} (habsolute : path.isAbsolute)
    (h : tree.destination current path = .ok destination) :
    destination.last = lastPiece (piecesOf path.body) :=
  ((destination_iff_of_isAbsolute habsolute).1 h).2.2

/-- **A file can be moved to a path** that ends in a name, if no folder is there. -/
theorem exists_rename {source : Path} {location : Location} {entry : Entry}
    (habsolute : path.isAbsolute)
    (hsource : tree.resolve current source = .ok (location, entry)) (hentry : entry ≠ .folder)
    (hopen : tree.OpenTo path path.steps.length) :
    (∃ after, tree.rename current source path = .ok after) ↔
      Plain path ∧ tree.get? (place path) ≠ some .folder := by
  constructor
  · rintro ⟨after, hrename⟩
    obtain ⟨_, bytes, mtime, folder, name, -, hdestination, hfolder, rfl⟩ := rename_iff.1 hrename
    refine ⟨⟨name, (last_of_destination habsolute hdestination).symm⟩, ?_⟩
    rw [(destination_eq_ok habsolute hdestination).1]
    exact hfolder
  · rintro ⟨hplain, hfolder⟩
    obtain ⟨folder, name, hdestination, hplace⟩ :=
      hplain.destination current habsolute hopen
    rw [hplace] at hfolder
    cases entry with
    | folder => exact absurd rfl hentry
    | file bytes mtime =>
        exact ⟨_, rename_iff.2
          ⟨location, bytes, mtime, folder, name, hsource, hdestination, hfolder, rfl⟩⟩

/-- Whether a file can be moved, and why not, depends on the stops of the path only. -/
theorem rename_congr {source : Path} {location location' : Location} {entry entry' : Entry}
    (habsolute : path.isAbsolute)
    (hsource : tree.resolve current source = .ok (location, entry)) (hentry : entry ≠ .folder)
    (hsource' : other.resolve current source = .ok (location', entry')) (hentry' : entry' ≠ .folder)
    (hkinds : ∀ n, n ≤ path.steps.length →
      tree.kindAt (stop path n) = other.kindAt (stop path n)) :
    (tree.rename current source path).map (fun _ => ()) =
      (other.rename current source path).map fun _ => () := by
  have hplaces : tree.kindAt (place path) = other.kindAt (place path) := by
    rw [← stop_length habsolute]
    exact hkinds _ (Nat.le_refl _)
  unfold rename
  rw [hsource, hsource', ← destination_congr current habsolute hkinds]
  cases hdestination : tree.destination current path with
  | error failure => rfl
  | ok destination =>
      obtain ⟨folder, last⟩ := destination
      cases last with
      | relative => rfl
      | name name slash =>
          have hplace := (destination_eq_ok habsolute hdestination).1
          rw [hplace] at hplaces
          cases entry with
          | folder => exact absurd rfl hentry
          | file bytes mtime =>
              cases entry' with
              | folder => exact absurd rfl hentry'
              | file bytes' mtime' =>
                  cases slash with
                  | true => rfl
                  | false =>
                      dsimp only
                      rw [isFolder_congr hplaces]
                      split <;> rfl

end FileTree

/-! ## The outcomes where the way is open -/

variable {world : World} {path : Path} {text : String}

/-- The tree in which the neighbour of a file was written. -/
def spared (world : World) (path : Path) (text : String) : FileTree :=
  world.tree.set (place (neighbour path)) (.file text.toUTF8 world.clock)

theorem place_neighbour_ne_nil (h : path.isAbsolute) : place (neighbour path) ≠ [] := by
  rw [place_neighbour h]
  simp

theorem openTo_spared (text : String) (habsolute : path.isAbsolute)
    (hopen : world.tree.OpenTo path path.steps.length)
    (hfree : world.tree.get? (place (neighbour path)) ≠ some .folder) :
    (spared world path text).OpenTo path path.steps.length :=
  hopen.of_folder fun _ => get?_set_folder (place_neighbour_ne_nil habsolute) hfree

theorem resolve_spared (text : String) (habsolute : path.isAbsolute)
    (hopen : world.tree.OpenTo path path.steps.length)
    (hfree : world.tree.get? (place (neighbour path)) ≠ some .folder) :
    (spared world path text).resolve world.current (neighbour path) =
      .ok (place (neighbour path), .file text.toUTF8 world.clock) := by
  have hwrite := write_neighbour world.current text.toUTF8 world.clock habsolute hopen
  rw [if_neg (mt isFolder_iff.1 hfree)] at hwrite
  obtain ⟨hne, -, -, hleads, -⟩ := write_eq_ok (isAbsolute_neighbour habsolute) hwrite
  refine (resolve_eq_ok (isAbsolute_neighbour habsolute)).2 ⟨?_, rfl, ?_⟩
  · exact hleads.mono fun _ => get?_set_folder hne hfree
  · rw [spared, get?_set _ hne, if_pos rfl]

/-- Nothing is written where the neighbour is a folder. -/
theorem run_replaceFile_folder (habsolute : path.isAbsolute)
    (hopen : world.tree.OpenTo path path.steps.length)
    (hfolder : world.tree.get? (place (neighbour path)) = some .folder) :
    world.run (replaceFile path text) = (.error .isDirectory, world) := by
  rw [run_replaceFile_eq, write_neighbour world.current text.toUTF8 world.clock habsolute hopen,
    if_pos (isFolder_iff.2 hfolder)]

/-- Otherwise the neighbour is moved over the file, or removed if it cannot be moved. -/
theorem run_replaceFile_free (habsolute : path.isAbsolute)
    (hopen : world.tree.OpenTo path path.steps.length)
    (hfree : world.tree.get? (place (neighbour path)) ≠ some .folder) :
    world.run (replaceFile path text) =
      match (spared world path text).rename world.current (neighbour path) path with
      | .ok tree => (.ok (), { world with tree, clock := world.clock + 1 })
      | .error failure => (.error failure, { world with
          tree := (spared world path text).erase (place (neighbour path)),
          clock := world.clock + 1 }) := by
  have hwrite := write_neighbour world.current text.toUTF8 world.clock habsolute hopen
  rw [if_neg (mt isFolder_iff.1 hfree)] at hwrite
  obtain ⟨hne, -, -, hleads, -⟩ := write_eq_ok (isAbsolute_neighbour habsolute) hwrite
  rw [run_replaceFile_eq, hwrite]
  unfold spared
  dsimp only
  cases (world.tree.set (place (neighbour path)) (.file text.toUTF8 world.clock)).rename
      world.current (neighbour path) path with
  | ok tree => rfl
  | error failure =>
      rw [removeFile_set (isAbsolute_neighbour habsolute) hne hfree hleads]
      rfl

theorem run_writeWhole_of_makeWay (world : World) (path : Path) (text : String) :
    world.run (writeWhole path text) =
      match world.run (makeWay path) with
      | (.error failure, after) => (.error failure, after)
      | (.ok (), after) => after.run (replaceFile path text) := by
  rw [writeWhole_eq, World.run_bind]
  generalize world.run (makeWay path) = reply
  obtain ⟨made, after⟩ := reply
  cases made <;> rfl

/-- On a way that is open nothing is made before a file is replaced. -/
theorem run_writeWhole_open (habsolute : path.isAbsolute)
    (hopen : world.tree.OpenTo path path.steps.length) :
    world.run (writeWhole path text) = world.run (replaceFile path text) := by
  rw [run_writeWhole_of_makeWay, run_makeWay_open world habsolute hopen]

/-- **The outcome depends on what is at the stops of the path and at its neighbour.** -/
theorem replaceFile_congr {other : World} (habsolute : path.isAbsolute)
    (hcurrent : world.current = other.current)
    (hopen : world.tree.OpenTo path path.steps.length)
    (hkinds : ∀ n, n ≤ path.steps.length →
      world.tree.kindAt (stop path n) = other.tree.kindAt (stop path n))
    (hspare : world.tree.kindAt (place (neighbour path)) =
      other.tree.kindAt (place (neighbour path))) :
    (world.run (replaceFile path text)).1 = (other.run (replaceFile path text)).1 := by
  have hopen' : other.tree.OpenTo path path.steps.length := by
    intro m hm
    rw [← kindAt_eq_folder, ← hkinds m (by omega), kindAt_eq_folder]
    exact hopen m hm
  by_cases hfolder : world.tree.get? (place (neighbour path)) = some .folder
  · have hfolder' : other.tree.get? (place (neighbour path)) = some .folder := by
      rw [← kindAt_eq_folder, ← hspare, kindAt_eq_folder]
      exact hfolder
    rw [run_replaceFile_folder habsolute hopen hfolder,
      run_replaceFile_folder habsolute hopen' hfolder']
  · have hfree' : other.tree.get? (place (neighbour path)) ≠ some .folder := by
      rw [Ne, ← kindAt_eq_folder, ← hspare, kindAt_eq_folder]
      exact hfolder
    have hne := place_neighbour_ne_nil habsolute
    have hkinds' : ∀ n, n ≤ path.steps.length → (spared world path text).kindAt (stop path n) =
        (spared other path text).kindAt (stop path n) := by
      intro n hn
      unfold kindAt spared
      rw [get?_set _ hne, get?_set _ hne]
      split
      · rfl
      · exact hkinds n hn
    have hresolve := resolve_spared text habsolute hopen hfolder
    have hresolve' := resolve_spared text habsolute hopen' hfree'
    rw [← hcurrent] at hresolve'
    have hrename := rename_congr habsolute hresolve (fun h => nomatch h) hresolve'
      (fun h => nomatch h) hkinds'
    rw [run_replaceFile_free habsolute hopen hfolder,
      run_replaceFile_free habsolute hopen' hfree', ← hcurrent]
    cases hfirst : (spared world path text).rename world.current (neighbour path) path <;>
      cases hsecond : (spared other path text).rename world.current (neighbour path) path <;>
      rw [hfirst, hsecond] at hrename <;> cases hrename <;> rfl

end KeysetBundle.Files
