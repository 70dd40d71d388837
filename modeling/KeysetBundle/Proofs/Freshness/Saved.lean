import KeysetBundle.Proofs.Config.RoundTrip
import KeysetBundle.Proofs.Files.Atomic
import KeysetBundle.Proofs.Freshness.Measured

/-!
# Saved data is loaded as it was

A ledger whose numbers have 64 bits is read back from its text (`ofText?_render`).
Saving it puts this text where the path of its file leads, from the working
directory if the path is relative, so the ledger is found there again
(`readText_save`).  As long as the file stays as it was saved, loading it gives
the ledger itself, and so whatever is asked of the ledger has the same answer as
if it had never been written.

Main result.

- `saved_readsBack`: this, and the like for the text of a configuration.
-/

namespace KeysetBundle.Freshness

open Files

/-- The text of a ledger reads back. -/
theorem Ledger.ofText?_render {ledger : Ledger} (h : ledger.Fits) :
    ofText? ledger.render = some ledger := by
  unfold ofText? render
  rw [Json.parse_pretty (printed_ledger ledger), Option.bind_some, ofJson?_toJson h]

/-- A ledger that was saved can be read where its path leads. -/
theorem readText_save {world : World} {file : Path} {ledger : Ledger}
    (h : (world.run (ledger.save file)).1 = .ok ()) :
    (world.run (ledger.save file)).2.tree.readText (world.run (ledger.save file)).2.current file =
      .ok ledger.render := by
  obtain ⟨tree, hwrite, hrun⟩ := exists_write_of_save h
  obtain ⟨folder, name, rfl, -, hfolder, hlocate⟩ := exists_destination_of_write hwrite
  have hresolve := resolve_set (.file ledger.render.toUTF8 world.clock)
    FileTree.ne_nil_of_append hfolder hlocate
  rw [hrun]
  exact FileTree.readText_iff.2 ⟨folder ++ [name], ledger.render.toUTF8, world.clock, hresolve,
    fromUTF8?_toUTF8 ledger.render⟩

/-- The ledger in a file that can be read. -/
theorem run_load_of_readText {world : World} {file : Path} {ledger : Ledger} (hfits : ledger.Fits)
    (h : world.tree.readText world.current file = .ok ledger.render) :
    world.run (Ledger.load file) = (ledger, world) := by
  rw [run_load, loadedIn, h]
  dsimp only
  rw [Ledger.ofText?_render hfits, Option.getD_some]

/-- **What was saved reads back unchanged.**

* A ledger with numbers of 64 bits that was saved is loaded as it was, in any world in which the
  file can be read as it could when the ledger was saved.  Nothing is changed by loading, and
  whatever is asked, be it of the ledger or of the world, has the answer that it has with the
  ledger as it was.
* The text of a configuration, whether it has a runtime class and a base name or not, is read as
  the configuration. -/
theorem saved_readsBack :
    (∀ (world : World) (file : Path) (ledger : Ledger), ledger.Fits →
      (world.run (ledger.save file)).1 = .ok () →
      ∀ later : World,
        later.tree.readText later.current file =
          (world.run (ledger.save file)).2.tree.readText (world.run (ledger.save file)).2.current
            file →
        later.run (Ledger.load file) = (ledger, later) ∧
          ∀ question : Ledger → Program Bool,
            later.run (Ledger.load file >>= question) = later.run (question ledger)) ∧
      ∀ config : Config, Config.ofText? config.render = some config := by
  refine ⟨fun world file ledger hfits hsave later hread => ?_, Config.ofText?_render⟩
  rw [readText_save hsave] at hread
  have hload := run_load_of_readText hfits hread
  refine ⟨hload, fun question => ?_⟩
  rw [World.run_bind, hload]

/-- A ledger with the largest numbers, and with quotes, line breaks and characters beyond the basic
plane in its names, paths and settings. -/
def edgeLedger : Ledger :=
  let print : Fingerprint := ⟨⟨"a \"\\\" b/\u2028.js"⟩, 18446744073709551615, 18446744073709551615⟩
  Ledger.empty.set ⟨"\u0001/😀.js"⟩
    ⟨Dictionary.empty.insert "i18n-file" print, Dictionary.empty.insert "\n" [print, print],
      Dictionary.empty.insert "" "\\u0041"⟩

theorem fits_edgeLedger : edgeLedger.Fits := by
  have hprint : (Fingerprint.mk ⟨"a \"\\\" b/\u2028.js"⟩ 18446744073709551615
      18446744073709551615).Fits := ⟨by decide, by decide⟩
  intro name record hrecord
  rw [edgeLedger, Ledger.set, Dictionary.get?_insert] at hrecord
  split at hrecord
  · cases hrecord
    constructor
    · intro name fingerprint hget
      rw [Dictionary.get?_insert] at hget
      split at hget
      · cases hget
        exact hprint
      · cases hget
    · intro name fingerprints hget fingerprint hmem
      rw [Dictionary.get?_insert] at hget
      split at hget
      · cases hget
        simp only [List.mem_cons, List.not_mem_nil, or_false, or_self] at hmem
        exact hmem ▸ hprint
      · cases hget
  · cases hrecord

theorem saved_readsBack_edgeLedger :
    let world : World := ⟨.empty, [], 0, .empty⟩
    let after := (world.run (edgeLedger.save ⟨"cache.json"⟩)).2
    edgeLedger.Fits ∧ (world.run (edgeLedger.save ⟨"cache.json"⟩)).1 = .ok () ∧
      after.run (Ledger.load ⟨"cache.json"⟩) = (edgeLedger, after) ∧
      Config.ofText? { Config.default with base := some "b" }.render =
        some { Config.default with base := some "b" } := by
  intro world after
  have hsave : (world.run (edgeLedger.save ⟨"cache.json"⟩)).1 = .ok () := by
    rw [run_save_eq]
    rfl
  exact ⟨fits_edgeLedger, hsave,
    (saved_readsBack.1 world ⟨"cache.json"⟩ edgeLedger fits_edgeLedger hsave after rfl).1,
    saved_readsBack.2 _⟩

end KeysetBundle.Freshness
