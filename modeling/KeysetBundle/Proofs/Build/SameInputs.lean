import KeysetBundle.Proofs.Build.Freshness

/-!
# Worlds with the same inputs

What is made for a language, the record that is taken of it, and whether an old
record is fresh depend only on what is found at the paths of the inputs.

Main results.

- `SameInputs.bundleIn`, `SameInputs.recordIn`, `SameInputs.isFreshIn`: worlds
  with the same inputs give the same.
- `isFreshIn_of_recordIn`: a record is fresh in the world that it was taken in.
-/

namespace KeysetBundle.Build.Context

open KeysetBundle.Bundle (classIn collectionIn inWorld)
open Files
open Freshness

variable {world other : World} {context : Context} {language : Language} {record : Record}

/-- The same is found at the paths of all inputs of a language. -/
structure SameInputs (context : Context) (language : Language) (world other : World) : Prop where
  /-- The texts. -/
  text : ∀ path ∈ context.inputs language, inWorld world path = inWorld other path
  /-- What is known without reading. -/
  stat : ∀ path ∈ context.inputs language,
    world.tree.stat world.current path = other.tree.stat other.current path

instance (context : Context) (language : Language) (world other : World) :
    Decidable (SameInputs context language world other) :=
  decidable_of_iff
    ((∀ path ∈ context.inputs language, inWorld world path = inWorld other path) ∧
      ∀ path ∈ context.inputs language,
        world.tree.stat world.current path = other.tree.stat other.current path)
    ⟨fun ⟨htext, hstat⟩ => ⟨htext, hstat⟩, fun h => ⟨h.text, h.stat⟩⟩

theorem mapM_congr {α β ε : Type} {f g : α → Except ε β} {items : List α}
    (h : ∀ item ∈ items, f item = g item) : items.mapM f = items.mapM g := by
  induction items with
  | nil => rfl
  | cons item items ih =>
      rw [List.mapM_cons, List.mapM_cons, h item (by simp),
        ih fun other hother => h other (by simp [hother])]

namespace SameInputs

theorem symm (h : SameInputs context language world other) :
    SameInputs context language other world :=
  ⟨fun path hpath => (h.text path hpath).symm, fun path hpath => (h.stat path hpath).symm⟩

theorem trans {third : World} (h : SameInputs context language world other)
    (h' : SameInputs context language other third) : SameInputs context language world third :=
  ⟨fun path hpath => (h.text path hpath).trans (h'.text path hpath),
    fun path hpath => (h.stat path hpath).trans (h'.stat path hpath)⟩

theorem runtime_mem {file : Path} (h : context.runtime.file? = some file) :
    file ∈ context.inputs language := by
  simp [inputs, h]

theorem source_mem {path : Path} (h : path ∈ (context.recipe language).sources) :
    path ∈ context.inputs language := List.mem_append_right _ h

/-- **The same bundle is made.** -/
theorem bundleIn (h : SameInputs context language world other)
    (compactor : Template.Compactor) :
    Bundle.bundleIn (inWorld world) compactor (context.recipe language) =
      Bundle.bundleIn (inWorld other) compactor (context.recipe language) := by
  have hsources : (context.recipe language).sources.mapM (collectionIn (inWorld world)) =
      (context.recipe language).sources.mapM (collectionIn (inWorld other)) := by
    refine mapM_congr fun path hpath => ?_
    unfold collectionIn
    rw [h.text path (source_mem hpath)]
  have hclass : classIn (inWorld world) (context.recipe language).runtime =
      classIn (inWorld other) (context.recipe language).runtime := by
    unfold classIn
    split
    · rfl
    · rename_i path hruntime
      have hfile : context.runtime.file? = some path := Artifact.RuntimeSource.file?_eq_some.2 hruntime
      rw [h.text path (runtime_mem hfile)]
  unfold Bundle.bundleIn
  rw [hsources, hclass]

theorem printIn (h : SameInputs context language world other) {path : Path}
    (hpath : path ∈ context.inputs language) :
    Freshness.printIn world path = Freshness.printIn other path := by
  unfold Freshness.printIn
  rw [h.stat path hpath]

/-- **The same record is taken.** -/
theorem recordIn (h : SameInputs context language world other) :
    Context.recordIn world context (context.recipe language).sources =
      Context.recordIn other context (context.recipe language).sources := by
  have hruntime : runtimeRecordIn world context context.settingsRecord =
      runtimeRecordIn other context context.settingsRecord := by
    unfold runtimeRecordIn
    split
    · rename_i file hfile
      rw [h.printIn (runtime_mem hfile)]
    · rfl
  have hsources : (context.recipe language).sources.mapM (Freshness.printIn world) =
      (context.recipe language).sources.mapM (Freshness.printIn other) :=
    mapM_congr fun path hpath => h.printIn (source_mem hpath)
  unfold Context.recordIn
  rw [hruntime, hsources]

theorem allHoldIn {fingerprints : List Fingerprint} {paths : List Path}
    (h : ∀ path ∈ paths, Freshness.printIn world path = Freshness.printIn other path) :
    Freshness.allHoldIn world fingerprints paths = Freshness.allHoldIn other fingerprints paths := by
  induction paths generalizing fingerprints with
  | nil => cases fingerprints <;> rfl
  | cons path paths ih =>
      cases fingerprints with
      | nil => rfl
      | cons fingerprint fingerprints =>
          unfold Freshness.allHoldIn holdsIn
          rw [h path (by simp), ih fun other hother => h other (by simp [hother])]

/-- **The same records are fresh.** -/
theorem isFreshIn (h : SameInputs context language world other) (record : Record) :
    Context.isFreshIn world context language record =
      Context.isFreshIn other context language record := by
  have hruntime : hasRuntimeIn world context record = hasRuntimeIn other context record := by
    unfold hasRuntimeIn
    split
    · rename_i file hfile
      split
      · unfold holdsIn
        rw [h.printIn (runtime_mem hfile)]
      · rfl
    · rfl
  have hsources : hasSourcesIn world record (context.recipe language).sources =
      hasSourcesIn other record (context.recipe language).sources := by
    unfold hasSourcesIn
    split
    · exact allHoldIn fun path hpath => h.printIn (source_mem hpath)
    · rfl
  unfold Context.isFreshIn
  rw [hruntime, hsources]

end SameInputs

/-! ## New records -/

theorem holdsIn_of_printIn {path : Path} {fingerprint : Fingerprint}
    (h : printIn world path = .ok fingerprint) : holdsIn world fingerprint path := by
  refine holdsIn_iff_printIn.2 ⟨fingerprint, h, ?_⟩
  simp [Fingerprint.same, Path.same]

theorem allHoldIn_of_mapM {paths : List Path} {fingerprints : List Fingerprint}
    (h : paths.mapM (printIn world) = .ok fingerprints) : allHoldIn world fingerprints paths := by
  induction paths generalizing fingerprints with
  | nil =>
      cases h
      rfl
  | cons path paths ih =>
      obtain ⟨fingerprint, rest, hprint, hrest, rfl⟩ := mapM_cons_eq_ok.1 h
      unfold allHoldIn
      rw [holdsIn_of_printIn hprint, ih hrest]
      rfl

/-- **A new record is fresh.** -/
theorem isFreshIn_of_recordIn
    (h : recordIn world context (context.recipe language).sources = some record) :
    isFreshIn world context language record := by
  obtain ⟨hsettings, hruntime, fingerprints, hlist, hprints⟩ := recordIn_eq_some h
  have hidentity := (hasSetting_iff hsettings context.runtime.identity).1.2 rfl
  have hmodule := (hasSetting_iff hsettings context.moduleName).2.2 rfl
  have hfile : hasRuntimeIn world context record := by
    unfold hasRuntimeIn
    split
    · rename_i file hfile
      obtain ⟨fingerprint, hrecorded, hprint⟩ := hruntime file hfile
      rw [hrecorded]
      exact holdsIn_of_printIn hprint
    · rfl
  have hsources : hasSourcesIn world record (context.recipe language).sources := by
    unfold hasSourcesIn
    rw [hlist]
    exact allHoldIn_of_mapM hprints
  unfold isFreshIn
  rw [hidentity, hmodule, hfile, hsources]
  rfl

end KeysetBundle.Build.Context
