import KeysetBundle.Files.World
import KeysetBundle.Proofs.Files.Writing
import KeysetBundle.Proofs.Freshness.Fingerprint
import KeysetBundle.Proofs.Freshness.Ledger

/-!
# Ledgers in trees

What a tree holds at the place of a ledger is a ledger too: the empty one if
nothing that can be read is there.  Loading a ledger finds no record that the
tree does not hold, and what is written of a ledger holds no record that was not
in it.

Main results.

- `run_load`, `get?_loadedIn`: loading a ledger.
- `run_save`, `loadedIn_save`: saving a ledger, and loading it again.
-/

namespace KeysetBundle.Freshness

open Files
open KeysetBundle.Path (piecesOf)

/-- The ledger that an entry of a tree holds. -/
def ledgerOf : Option Entry → Ledger
  | some (.file bytes _) => ((String.fromUTF8? bytes).bind Ledger.ofText?).getD .empty
  | _ => .empty

/-- The ledger that a tree holds at the place of a file. -/
def ledgerIn (tree : FileTree) (file : Path) : Ledger := ledgerOf (tree.get? (place file))

@[simp] theorem get?_empty (target : Path) : Ledger.empty.get? target = none := rfl

/-- What is read of a ledger in a world. -/
def loadedIn (world : World) (file : Path) : Ledger :=
  match world.tree.readText world.current file with
  | .ok text => (Ledger.ofText? text).getD .empty
  | .error _ => .empty

theorem run_load (world : World) (file : Path) :
    world.run (Ledger.load file) = (loadedIn world file, world) := by
  unfold Ledger.load loadedIn
  rw [World.run_bind, World.run_readText]
  cases world.tree.readText world.current file <;> rfl

/-- No record is found that the tree does not hold. -/
theorem get?_loadedIn {world : World} {file target : Path} {record : Record}
    (habsolute : file.isAbsolute) (h : (loadedIn world file).get? target = some record) :
    (ledgerIn world.tree file).get? target = some record := by
  unfold loadedIn at h
  split at h
  · rename_i text hread
    obtain ⟨-, bytes, mtime, hentry, htext⟩ := (readText_eq_ok habsolute).1 hread
    unfold ledgerIn
    rw [hentry, ledgerOf, htext]
    exact h
  · cases h

/-- No record is held that was not written. -/
theorem get?_ledgerOf_render {ledger : Ledger} {mtime : Int} {target : Path} {record : Record}
    (h : (ledgerOf (some (.file ledger.render.toUTF8 mtime))).get? target = some record) :
    ledger.get? target = some record := by
  rw [ledgerOf, fromUTF8?_toUTF8, Option.bind_some] at h
  cases hread : Ledger.ofText? ledger.render with
  | none =>
      rw [hread] at h
      cases h
  | some found =>
      rw [hread, Option.getD_some, eq_of_ofText?_render hread] at h
      exact h

/-- What is held after a ledger has been written. -/
theorem ledgerOf_render (ledger : Ledger) (mtime : Int) :
    ledgerOf (some (.file ledger.render.toUTF8 mtime)) =
      (Ledger.ofJson? ledger.toJson).getD .empty := by
  rw [ledgerOf, fromUTF8?_toUTF8, Option.bind_some, Ledger.ofText?, Ledger.render,
    Json.parse_pretty (printed_ledger ledger), Option.bind_some]

/-- Where the way can be gone, what is read is what the tree holds. -/
theorem loadedIn_of_leads {world : World} {file : Path} (habsolute : file.isAbsolute)
    (h : world.tree.Leads file) : loadedIn world file = ledgerIn world.tree file := by
  have hresolve : ∀ entry, world.tree.get? (place file) = some entry →
      world.tree.resolve world.current file = .ok (place file, entry) :=
    fun entry hentry => (FileTree.resolve_eq_ok habsolute).2 ⟨h, rfl, hentry⟩
  unfold loadedIn ledgerIn FileTree.readText
  cases hentry : world.tree.get? (place file) with
  | none =>
      cases hfound : world.tree.resolve world.current file with
      | error failure => rfl
      | ok found =>
          obtain ⟨-, -, hsome⟩ := (FileTree.resolve_eq_ok habsolute).1 hfound
          rw [hentry] at hsome
          cases hsome
  | some entry =>
      rw [hresolve entry hentry]
      cases entry with
      | folder => rfl
      | file bytes mtime =>
          dsimp only [ledgerOf]
          cases String.fromUTF8? bytes <;> rfl

/-- What is put elsewhere plays no role, if the way can still be gone. -/
theorem loadedIn_set {world : World} {file : Path} {location : Location} {entry : Entry}
    (habsolute : file.isAbsolute) (hne : location ≠ []) (helsewhere : place file ≠ location)
    (h : world.tree.Leads file) (h' : (world.tree.set location entry).Leads file) :
    loadedIn { world with tree := world.tree.set location entry } file = loadedIn world file := by
  rw [loadedIn_of_leads habsolute h, loadedIn_of_leads habsolute h', ledgerIn, ledgerIn,
    FileTree.get?_set _ hne, if_neg helsewhere]

theorem run_save_eq (world : World) (ledger : Ledger) (file : Path) :
    world.run (ledger.save file) =
      match world.tree.write world.current file ledger.render.toUTF8 world.clock with
      | .ok tree => (.ok (), { world with tree, clock := world.clock + 1 })
      | .error failure => (.error ⟨file, failure⟩, world) := by
  change world.run (writeText file ledger.render >>= _) = _
  rw [World.run_bind, run_writeText]
  cases world.tree.write world.current file ledger.render.toUTF8 world.clock with
  | error failure => rfl
  | ok tree => rfl

/-- A ledger is saved by writing its text. -/
theorem exists_write_of_save {world : World} {file : Path} {ledger : Ledger}
    (h : (world.run (ledger.save file)).1 = .ok ()) :
    ∃ tree, world.tree.write world.current file ledger.render.toUTF8 world.clock = .ok tree ∧
      (world.run (ledger.save file)).2 = { world with tree, clock := world.clock + 1 } := by
  rw [run_save_eq] at h ⊢
  cases hwrite : world.tree.write world.current file ledger.render.toUTF8 world.clock with
  | error failure =>
      rw [hwrite] at h
      cases h
  | ok tree => exact ⟨tree, rfl, rfl⟩

/-- **Saving a ledger.**  If it succeeds, the tree has a new file for the ledger, where no folder
was and to which the way can be gone. -/
theorem run_save (world : World) {file : Path} {ledger : Ledger} (habsolute : file.isAbsolute)
    (h : (world.run (ledger.save file)).1 = .ok ()) :
    (world.run (ledger.save file)).2 = { world with
        tree := world.tree.set (place file) (.file ledger.render.toUTF8 world.clock),
        clock := world.clock + 1 } ∧
      place file ≠ [] ∧ world.tree.get? (place file) ≠ some .folder ∧ world.tree.Leads file := by
  obtain ⟨tree, hwrite, hrun⟩ := exists_write_of_save h
  obtain ⟨hne, rfl, hfolder, hleads, -⟩ := FileTree.write_eq_ok habsolute hwrite
  exact ⟨hrun, hne, hfolder, hleads⟩

/-- A ledger can be saved where the way can be gone and no folder is. -/
theorem run_save_eq_ok (world : World) {file : Path} {pieces : List String} {name : String}
    (ledger : Ledger) (habsolute : file.isAbsolute)
    (hpieces : piecesOf file.body = pieces ++ [name])
    (hname : Path.IsName name) (hleads : world.tree.Leads file)
    (hfolder : world.tree.get? (place file) ≠ some .folder) :
    (world.run (ledger.save file)).1 = .ok () := by
  obtain ⟨tree, hwrite⟩ := FileTree.exists_write world.current ledger.render.toUTF8 world.clock
    habsolute hpieces hname.component hleads hfolder
  rw [run_save_eq, hwrite]

section Saved

variable {world : World} {file : Path} {ledger : Ledger} (habsolute : file.isAbsolute)
  (h : (world.run (ledger.save file)).1 = .ok ())

include habsolute h

theorem get?_save (location : Location) :
    (world.run (ledger.save file)).2.tree.get? location =
      if location = place file then some (.file ledger.render.toUTF8 world.clock)
      else world.tree.get? location := by
  obtain ⟨hworld, hne, -, -⟩ := run_save world habsolute h
  rw [hworld]
  exact FileTree.get?_set _ hne _ _

/-- A ledger that has been saved can be loaded, as far as its records can be read back. -/
theorem loadedIn_save : loadedIn (world.run (ledger.save file)).2 file =
    (Ledger.ofJson? ledger.toJson).getD .empty := by
  obtain ⟨hworld, hne, hfolder, hleads⟩ := run_save world habsolute h
  have hway : (world.run (ledger.save file)).2.tree.Leads file := by
    rw [hworld]
    exact hleads.mono fun _ => FileTree.get?_set_folder hne hfolder
  rw [loadedIn_of_leads habsolute hway, ledgerIn, get?_save habsolute h, if_pos rfl,
    ledgerOf_render]

end Saved

end KeysetBundle.Freshness
