import KeysetBundle.Proofs.Bundle.Inputs
import KeysetBundle.Proofs.Files.Forgetting

/-!
# Passes on one host

A host keeps its module cache from one bundle to the next.  All modules that
go into a bundle are dropped before they are looked up, so what the cache held
before is never seen: neither by one pass after the other (`passes`), whatever
happens to the files in between, nor by the parts of a pass when they run side
by side (`Recipe.parts`).

Main results.

- `dropsFirst_make`: making a bundle drops modules before it looks them up.
- `passes_eq_fresh`: each pass gives what a fresh host would give.
-/

namespace KeysetBundle.Bundle

open Artifact (RuntimeSource)
open Files Template Program

variable {dropped : List Path}

/-! ## Loading drops first -/

/-- To load a keyset file is to read its module anew. -/
theorem loadFile_eq_reload (path : Path) :
    loadFile path = (fun reply => collectionIn (fun _ => reply) path) <$> reload path := by
  unfold loadFile reload
  rw [map_bind]
  refine bind_congr fun _ => ?_
  rw [map_eq_pure_bind]
  refine bind_congr fun reply => ?_
  cases reply with
  | error failure => rfl
  | ok source => rfl

/-- What comes after a drop may look up the module. -/
theorem dropsFirst_loadFile (path : Path) : (loadFile path).DropsFirst dropped := by
  have hlook : IsDropped (path :: dropped) path := ⟨path, by simp, Path.same_refl path⟩
  refine ⟨trivial, fun _ => ⟨hlook, fun (cached : Option String) => ?_⟩⟩
  cases cached with
  | some text => exact trivial
  | none =>
      refine ⟨trivial, fun (reply : Except Files.Failure String) => ?_⟩
      cases reply with
      | error failure => exact trivial
      | ok text => exact ⟨trivial, fun _ => trivial⟩

theorem dropsFirst_loadFiles (paths : List Path) : (loadFiles paths).DropsFirst dropped := by
  induction paths with
  | nil => exact trivial
  | cons path paths ih =>
      refine dropsFirst_bind (dropsFirst_loadFile path) fun loaded => ?_
      cases loaded with
      | error cause => exact trivial
      | ok collection =>
          refine dropsFirst_bind ih fun rest => ?_
          cases rest with
          | error cause => exact trivial
          | ok collections => exact trivial

/-- The runtime class is read past the module cache. -/
theorem dropsFirst_read (runtime : RuntimeSource) : runtime.read.DropsFirst dropped := by
  cases runtime with
  | bundled => exact trivial
  | file path =>
      refine ⟨trivial, fun (reply : Except Files.Failure String) => ?_⟩
      cases reply with
      | error failure => exact trivial
      | ok text => exact trivial

/-- **Making a bundle** drops modules before it looks them up. -/
theorem dropsFirst_make (compactor : Compactor) (recipe : Recipe) :
    (make compactor recipe).DropsFirst dropped := by
  refine dropsFirst_bind (dropsFirst_read recipe.runtime) fun classSource => ?_
  refine dropsFirst_bind (dropsFirst_loadFiles recipe.sources) fun loaded => ?_
  cases loaded with
  | error cause => exact trivial
  | ok collections =>
      cases classSource with
      | error cause => exact trivial
      | ok text =>
          dsimp only
          cases ofCollections compactor recipe text collections with
          | error cause => exact trivial
          | ok bundle => exact trivial

/-! ## The parts of a pass -/

/-- What a part of a pass gives. -/
inductive Part
  /-- The runtime class. -/
  | runtime (read : Except (Path × Files.Failure) String)
  /-- The collection of a keyset file. -/
  | source (loaded : Except LoadError Collection)

/-- The parts of a pass, which may run side by side: the runtime class is read, and each keyset
file is loaded. -/
def Recipe.parts (recipe : Recipe) : List (Program Part) :=
  (Part.runtime <$> recipe.runtime.read) ::
    recipe.sources.map fun path => Part.source <$> loadFile path

theorem dropsFirst_map {α β : Type} {program : Program α} {f : α → β}
    (h : program.DropsFirst dropped) : (f <$> program).DropsFirst dropped := by
  rw [map_eq_pure_bind]
  exact dropsFirst_bind h fun _ => trivial

theorem dropsFirst_parts (recipe : Recipe) :
    ∀ part ∈ recipe.parts, part.DropsFirst dropped := by
  intro part hpart
  rcases List.mem_cons.1 hpart with rfl | hpart
  · exact dropsFirst_map (dropsFirst_read recipe.runtime)
  · obtain ⟨path, -, rfl⟩ := List.mem_map.1 hpart
    exact dropsFirst_map (dropsFirst_loadFile path)

/-! ## One pass after the other -/

/-- The results of passes on one host.  Before each of them the files are changed. -/
def passes (compactor : Compactor) : World → List (FileTree × Recipe) →
    List (Except Failure Bundle)
  | _, [] => []
  | world, (tree, recipe) :: rest =>
    let pass := { world with tree }.run (make compactor recipe)
    pass.1 :: passes compactor pass.2 rest

theorem run_make_forget (world : World) (compactor : Compactor) (recipe : Recipe) :
    (world.run (make compactor recipe)).1 = (world.forget.run (make compactor recipe)).1 :=
  (run_of_dropsFirst (dropsFirst_make compactor recipe)
    (sameFor_nil world.forget world.modules)).1

theorem passes_forget (compactor : Compactor) (world : World) (edits : List (FileTree × Recipe)) :
    passes compactor world edits = edits.map fun edit =>
      ({ world.forget with tree := edit.1 }.run (make compactor edit.2)).1 := by
  induction edits generalizing world with
  | nil => rfl
  | cons edit edits ih =>
      obtain ⟨tree, recipe⟩ := edit
      obtain ⟨modules, hrun⟩ := run_make { world with tree } compactor recipe
      have hresult := run_make_forget { world with tree } compactor recipe
      rw [passes, List.map_cons]
      dsimp only
      rw [hresult, ih, hrun]
      rfl

/-- **What the module cache held before is never seen.**  A pass gives the same as with an empty
module cache, passes one after the other give what fresh hosts would give, and the parts of a pass
come side by side, with edits in between, to the same as on a fresh host. -/
theorem passes_eq_fresh (compactor : Compactor) (world : World) :
    (∀ recipe : Recipe, (world.run (make compactor recipe)).1 =
      (world.forget.run (make compactor recipe)).1) ∧
    (∀ edits : List (FileTree × Recipe), passes compactor world edits = edits.map fun edit =>
      ({ world.forget with tree := edit.1 }.run (make compactor edit.2)).1) ∧
    ∀ (recipe : Recipe) (times : List World) (rest : List (Program Part)),
      Crew.Shows ⟨world, recipe.parts⟩ times rest ↔
        Crew.Shows ⟨world.forget, recipe.parts⟩ times rest :=
  ⟨run_make_forget world compactor, passes_forget compactor world,
    fun recipe => Crew.shows_forget (dropsFirst_parts recipe) world⟩

end KeysetBundle.Bundle
