import KeysetBundle.Files.World
import KeysetBundle.Freshness.Record
import KeysetBundle.Proofs.Except
import KeysetBundle.Proofs.Files.Place
import KeysetBundle.Proofs.Files.Program

/-!
# Fingerprints on worlds

A fingerprint is taken of what a world has at a path, and holds as long as what
is there has the same size and time.  Whether the *content* is still the same
is not asked: that a fingerprint stands for a content is an assumption on the
world, which is stated here as `Determined`.

Main result.

- `readText_of_holds`: where a fingerprint that was taken of a text holds, the
  same text is read.
-/

namespace KeysetBundle.Freshness

open Files

/-! ## Taking fingerprints -/

/-- The fingerprint of what a world has at a path. -/
def printIn (world : World) (path : Path) : Except Failure Fingerprint :=
  (world.tree.stat world.current path).map (Fingerprint.ofStat path)

theorem run_read (world : World) (path : Path) :
    world.run (Fingerprint.read path) = (printIn world path, world) := rfl

theorem run_readAll (world : World) (paths : List Path) :
    world.run (Fingerprint.readAll paths) = (paths.mapM (printIn world), world) := by
  induction paths with
  | nil => rfl
  | cons path paths ih =>
      rw [Fingerprint.readAll, World.run_bind, run_read, List.mapM_cons]
      cases printIn world path with
      | error failure => rfl
      | ok fingerprint =>
          dsimp only
          rw [World.run_bind, ih]
          cases paths.mapM (printIn world) <;> rfl

/-- Whether a fingerprint is that of what a world has at a path. -/
def holdsIn (world : World) (fingerprint : Fingerprint) (path : Path) : Bool :=
  match printIn world path with
  | .ok now => fingerprint.same now
  | .error _ => false

theorem holdsIn_iff_printIn {world : World} {fingerprint : Fingerprint} {path : Path} :
    holdsIn world fingerprint path ↔
      ∃ now, printIn world path = .ok now ∧ fingerprint.same now := by
  unfold holdsIn
  cases printIn world path <;> simp

theorem Fingerprint.path_ofStat (path : Path) (stat : Stat) : (ofStat path stat).path = path := by
  cases stat <;> rfl

/-- A fingerprint that is found at a path has this path. -/
theorem path_of_printIn {world : World} {path : Path} {fingerprint : Fingerprint}
    (h : printIn world path = .ok fingerprint) : fingerprint.path = path := by
  obtain ⟨stat, -, rfl⟩ := map_eq_ok.1 h
  exact Fingerprint.path_ofStat path stat

theorem run_holds (world : World) (fingerprint : Fingerprint) (path : Path) :
    world.run (fingerprint.holds path) = (holdsIn world fingerprint path, world) := by
  rw [Fingerprint.holds, World.run_bind, run_read]
  unfold holdsIn
  cases printIn world path <;> rfl

/-- Whether fingerprints are those of what a world has at the paths, one by one. -/
def allHoldIn (world : World) : List Fingerprint → List Path → Bool
  | [], [] => true
  | fingerprint :: fingerprints, path :: paths =>
    holdsIn world fingerprint path && allHoldIn world fingerprints paths
  | _, _ => false

theorem run_allHold (world : World) (fingerprints : List Fingerprint) (paths : List Path) :
    world.run (Record.allHold fingerprints paths) =
      (allHoldIn world fingerprints paths, world) := by
  induction fingerprints generalizing paths with
  | nil => cases paths <;> rfl
  | cons fingerprint fingerprints ih =>
      cases paths with
      | nil => rfl
      | cons path paths =>
          have hrest := ih paths
          rw [Record.allHold, World.run_bind, run_holds, allHoldIn]
          cases holdsIn world fingerprint path with
          | false => rfl
          | true =>
              rw [Bool.true_and]
              exact hrest

/-! ## Contents -/

/-- The bytes of a file; a folder has none. -/
def contentOf : Entry → Option ByteArray
  | .folder => none
  | .file bytes _ => some bytes

/-- In certain trees an entry at a location is determined by its fingerprint. -/
def Determined (seen : FileTree → Prop) (location : Location) : Prop :=
  ∀ tree other, seen tree → seen other → ∀ entry entry' path path',
    tree.get? location = some entry → other.get? location = some entry' →
    (Fingerprint.ofStat path entry.stat).size = (Fingerprint.ofStat path' entry'.stat).size →
    (Fingerprint.ofStat path entry.stat).mtime = (Fingerprint.ofStat path' entry'.stat).mtime →
    contentOf entry = contentOf entry'

theorem stat_eq_ok {world : World} {path : Path} {stat : Stat} (h : path.isAbsolute) :
    world.tree.stat world.current path = .ok stat ↔
      world.tree.Leads path ∧
        ∃ entry, world.tree.get? (place path) = some entry ∧ entry.stat = stat := by
  rw [FileTree.stat_iff]
  constructor
  · rintro ⟨location, entry, hresolve, hstat⟩
    obtain ⟨hleads, -, hentry⟩ := (FileTree.resolve_eq_ok h).1 hresolve
    exact ⟨hleads, entry, hentry, hstat⟩
  · rintro ⟨hleads, entry, hentry, hstat⟩
    exact ⟨place path, entry, (FileTree.resolve_eq_ok h).2 ⟨hleads, rfl, hentry⟩, hstat⟩

theorem readText_eq_ok {tree : FileTree} {current : Location} {path : Path} {text : String}
    (h : path.isAbsolute) :
    tree.readText current path = .ok text ↔
      tree.Leads path ∧ ∃ bytes mtime, tree.get? (place path) = some (.file bytes mtime) ∧
        String.fromUTF8? bytes = some text := by
  rw [FileTree.readText_iff]
  constructor
  · rintro ⟨location, bytes, mtime, hresolve, htext⟩
    obtain ⟨hleads, -, hentry⟩ := (FileTree.resolve_eq_ok h).1 hresolve
    exact ⟨hleads, bytes, mtime, hentry, htext⟩
  · rintro ⟨hleads, bytes, mtime, hentry, htext⟩
    exact ⟨place path, bytes, mtime, (FileTree.resolve_eq_ok h).2 ⟨hleads, rfl, hentry⟩, htext⟩

/-- **Where a fingerprint holds, the text is the same.** -/
theorem readText_of_holds {seen : FileTree → Prop} {world other : World} {path path' : Path}
    {fingerprint : Fingerprint} {text : String} (habsolute : path.isAbsolute)
    (habsolute' : path'.isAbsolute) (hdetermined : Determined seen (place path))
    (hseen : seen world.tree) (hseen' : seen other.tree)
    (hprint : printIn world path = .ok fingerprint) (hholds : holdsIn other fingerprint path')
    (hread : world.tree.readText world.current path = .ok text) :
    other.tree.readText other.current path' = .ok text := by
  obtain ⟨stat, hstat, rfl⟩ := map_eq_ok.1 hprint
  obtain ⟨-, entry, hentry, rfl⟩ := (stat_eq_ok habsolute).1 hstat
  obtain ⟨now, hnow, hsame⟩ := holdsIn_iff_printIn.1 hholds
  obtain ⟨stat', hstat', rfl⟩ := map_eq_ok.1 hnow
  obtain ⟨hleads', entry', hentry', rfl⟩ := (stat_eq_ok habsolute').1 hstat'
  unfold Fingerprint.same at hsame
  rw [Bool.and_eq_true, Bool.and_eq_true, beq_iff_eq, beq_iff_eq, Fingerprint.path_ofStat,
    Fingerprint.path_ofStat] at hsame
  obtain ⟨⟨hpath, hsize⟩, hmtime⟩ := hsame
  have hplace := place_eq_of_same hpath
  obtain ⟨-, bytes, mtime, hfile, htext⟩ := (readText_eq_ok habsolute).1 hread
  rw [hfile] at hentry
  cases hentry
  rw [← hplace] at hentry'
  have hcontent := hdetermined _ _ hseen hseen' _ _ path path' hfile hentry' hsize hmtime
  cases entry' with
  | folder => cases hcontent
  | file bytes' mtime' =>
      cases hcontent
      rw [hplace] at hentry'
      exact (readText_eq_ok habsolute').2 ⟨hleads', bytes, mtime', hentry', htext⟩

end KeysetBundle.Freshness
