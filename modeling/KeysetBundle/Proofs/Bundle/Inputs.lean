import KeysetBundle.Files.World
import KeysetBundle.Proofs.Bundle.Contents

/-!
# What a bundle depends on

On a world a bundle is made from the texts of its keyset files and of the
runtime class, as they are when it is made: what the module cache held before
plays no role.  So a bundle is a function of a reader of texts (`bundleIn`),
and two readers that give the same texts give the same bundle.

Main results.

- `run_make`: making a bundle on a world.
- `bundleIn_of_follows`: where the inputs have the same texts, the bundle has
  the same text.
-/

namespace KeysetBundle.Bundle

open Artifact (RuntimeSource)
open Files Template

/-! ## Bundles of a reader -/

/-- What is read at each path. -/
abbrev Reader := Path → Except Files.Failure String

/-- The collection of a keyset file. -/
def collectionIn (read : Reader) (path : Path) : Except LoadError Collection :=
  match read path with
  | .error failure => .error (.read path failure)
  | .ok source => Collection.ofSource source path

/-- The text of the runtime class. -/
def classIn (read : Reader) : RuntimeSource → Except (Path × Files.Failure) String
  | .bundled => .ok Artifact.bundledClass
  | .file path =>
    match read path with
    | .ok text => .ok text
    | .error failure => .error (path, failure)

theorem classIn_file {read : Reader} {path : Path} {text : String} :
    classIn read (.file path) = .ok text ↔ read path = .ok text := by
  unfold classIn
  cases hread : read path with
  | error failure => simp [hread]
  | ok found => simp [hread]

/-- The bundle that is made from what is read. -/
def bundleIn (read : Reader) (compactor : Compactor) (recipe : Recipe) : Except Failure Bundle :=
  match recipe.sources.mapM (collectionIn read), classIn read recipe.runtime with
  | .error cause, _ => .error (.load cause)
  | .ok _, .error (path, cause) => .error (.runtime path cause)
  | .ok collections, .ok classSource =>
    match ofCollections compactor recipe classSource collections with
    | .error cause => .error (.compaction cause)
    | .ok bundle => .ok bundle

theorem bundleIn_eq_ok {read : Reader} {compactor : Compactor} {recipe : Recipe}
    {bundle : Bundle} :
    bundleIn read compactor recipe = .ok bundle ↔
      ∃ classSource collections, classIn read recipe.runtime = .ok classSource ∧
        recipe.sources.mapM (collectionIn read) = .ok collections ∧
        ofCollections compactor recipe classSource collections = .ok bundle := by
  unfold bundleIn
  constructor
  · intro h
    split at h
    · cases h
    · cases h
    · rename_i collections classSource hcollections hclass
      split at h
      · cases h
      · rename_i hmade
        cases h
        exact ⟨classSource, collections, hclass, hcollections, hmade⟩
  · rintro ⟨classSource, collections, hclass, hcollections, hmade⟩
    rw [hclass, hcollections]
    simp only [hmade]

theorem readText_of_collectionIn {read : Reader} {paths : List Path}
    {collections : List Collection} (h : paths.mapM (collectionIn read) = .ok collections) :
    ∀ path ∈ paths, ∃ text, read path = .ok text := by
  induction paths generalizing collections with
  | nil => exact fun path hpath => nomatch hpath
  | cons path paths ih =>
      obtain ⟨collection, rest, hcollection, hrest, -⟩ := mapM_cons_eq_ok.1 h
      intro other hother
      rcases List.mem_cons.1 hother with rfl | hother
      · unfold collectionIn at hcollection
        split at hcollection
        · cases hcollection
        · rename_i text htext
          exact ⟨text, htext⟩
      · exact ih hrest other hother

/-- Where a bundle is made, all that goes into it is read. -/
theorem readText_of_bundleIn {read : Reader} {compactor : Compactor} {recipe : Recipe}
    {bundle : Bundle} (h : bundleIn read compactor recipe = .ok bundle) :
    ∀ path ∈ recipe.runtime.file?.toList ++ recipe.sources, ∃ text, read path = .ok text := by
  obtain ⟨classSource, collections, hclass, hcollections, -⟩ := bundleIn_eq_ok.1 h
  intro path hpath
  rcases List.mem_append.1 hpath with hruntime | hsource
  · have hfile := RuntimeSource.file?_eq_some.1 (Option.mem_toList.1 hruntime)
    rw [hfile] at hclass
    exact ⟨classSource, classIn_file.1 hclass⟩
  · exact readText_of_collectionIn hcollections path hsource

/-! ## Readers with the same texts -/

/-- What the first reader finds at the first paths, the second one finds at the second paths. -/
def Follows (read other : Reader) : List Path → List Path → Prop
  | [], [] => True
  | path :: paths, path' :: paths' =>
    (∀ text, read path = .ok text → other path' = .ok text) ∧ Follows read other paths paths'
  | _, _ => False

theorem follows_self {read other : Reader} {paths : List Path}
    (h : ∀ path ∈ paths, ∀ text, read path = .ok text → other path = .ok text) :
    Follows read other paths paths := by
  induction paths with
  | nil => trivial
  | cons path paths ih =>
      exact ⟨h path (by simp), ih fun other hother => h other (by simp [hother])⟩

/-- The collection of a text does not depend on the path of its file. -/
theorem ofSource_path {source : String} {path other : Path} {collection : Collection}
    (h : Collection.ofSource source path = .ok collection) :
    Collection.ofSource source other = .ok collection := by
  unfold Collection.ofSource at h ⊢
  split at h
  · cases h
  · split at h
    · cases h
    · cases h
    · cases h
      rfl

theorem mapM_collectionIn_of_follows {read other : Reader} {paths paths' : List Path}
    {collections : List Collection} (h : Follows read other paths paths')
    (hread : paths.mapM (collectionIn read) = .ok collections) :
    paths'.mapM (collectionIn other) = .ok collections := by
  induction paths generalizing paths' collections with
  | nil =>
      cases paths' with
      | nil => exact hread
      | cons path' paths' => exact h.elim
  | cons path paths ih =>
      cases paths' with
      | nil => exact h.elim
      | cons path' paths' =>
          obtain ⟨hhead, htail⟩ := h
          obtain ⟨collection, rest, hcollection, hrest, rfl⟩ := mapM_cons_eq_ok.1 hread
          refine mapM_cons_eq_ok.2 ⟨collection, rest, ?_, ih htail hrest, rfl⟩
          unfold collectionIn at hcollection ⊢
          split at hcollection
          · cases hcollection
          · rename_i source hsource
            rw [hhead source hsource]
            exact ofSource_path hcollection

/-- **Inputs with the same texts make the same bundle**, apart from the spellings of the paths of
its sources. -/
theorem bundleIn_of_follows {read other : Reader} {compactor : Compactor}
    {recipe recipe' : Recipe} {bundle : Bundle} (hlanguage : recipe'.language = recipe.language)
    (hmodule : recipe'.moduleName = recipe.moduleName)
    (hsources : Follows read other recipe.sources recipe'.sources)
    (hclass : ∀ text, classIn read recipe.runtime = .ok text →
      classIn other recipe'.runtime = .ok text)
    (h : bundleIn read compactor recipe = .ok bundle) :
    bundleIn other compactor recipe' = .ok { bundle with sources := recipe'.sources } := by
  obtain ⟨classSource, collections, hsource, hcollections, hmade⟩ := bundleIn_eq_ok.1 h
  refine bundleIn_eq_ok.2 ⟨classSource, collections, hclass _ hsource,
    mapM_collectionIn_of_follows hsources hcollections, ?_⟩
  obtain ⟨keysets, hkeysets, hbundle⟩ := bind_eq_ok.1 hmade
  cases hbundle
  unfold ofCollections
  rw [hlanguage, hmodule]
  exact bind_eq_ok.2 ⟨keysets, hkeysets, rfl⟩

theorem sources_of_bundleIn {read : Reader} {compactor : Compactor} {recipe : Recipe}
    {bundle : Bundle} (h : bundleIn read compactor recipe = .ok bundle) :
    bundle.sources = recipe.sources := by
  obtain ⟨classSource, collections, -, -, hmade⟩ := bundleIn_eq_ok.1 h
  obtain ⟨keysets, -, hbundle⟩ := bind_eq_ok.1 hmade
  cases hbundle
  rfl

/-- A reader that finds all inputs as they were makes the same bundle. -/
theorem bundleIn_of_reads {read other : Reader} {compactor : Compactor} {recipe : Recipe}
    {bundle : Bundle}
    (hreads : ∀ path ∈ recipe.runtime.file?.toList ++ recipe.sources, ∀ text,
      read path = .ok text → other path = .ok text)
    (h : bundleIn read compactor recipe = .ok bundle) :
    bundleIn other compactor recipe = .ok bundle := by
  have hsources := follows_self fun path hpath => hreads path (List.mem_append_right _ hpath)
  have hclass : ∀ text, classIn read recipe.runtime = .ok text →
      classIn other recipe.runtime = .ok text := by
    intro text htext
    cases hkind : recipe.runtime with
    | bundled =>
        rw [hkind] at htext
        exact htext
    | file path =>
        rw [hkind] at htext
        have hmem : path ∈ recipe.runtime.file?.toList ++ recipe.sources := by
          simp [RuntimeSource.file?_eq_some.2 hkind]
        exact classIn_file.2 (hreads path hmem text (classIn_file.1 htext))
  have hmade := bundleIn_of_follows rfl rfl hsources hclass h
  rw [← sources_of_bundleIn h] at hmade
  exact hmade

/-! ## Worlds -/

/-- What is read in a world. -/
def inWorld (world : World) : Reader := world.tree.readText world.current

/-- The module cache of a world has no part in what is read. -/
theorem inWorld_modules (world : World) (modules : ModuleCache) :
    inWorld { world with modules } = inWorld world := rfl

theorem get?_drop (modules : ModuleCache) (path : Path) : (modules.drop path).get? path = none := by
  unfold ModuleCache.get? ModuleCache.drop
  rw [Option.map_eq_none_iff, List.find?_eq_none]
  intro entry hentry
  simpa using (List.mem_filter.1 hentry).2

theorem run_loadFile (world : World) (path : Path) :
    ∃ modules, world.run (loadFile path) =
      (collectionIn (inWorld world) path, { world with modules }) := by
  unfold loadFile World.run
  rw [Program.run_bind_do, run_dropModule, Program.run_bind_do, run_readModule]
  have hdrop : World.answer (.cachedModule path) (World.answer (.dropModule path) world).2 =
      (none, { world with modules := world.modules.drop path }) := by
    simp only [World.answer, get?_drop]
    rfl
  rw [hdrop]
  unfold collectionIn inWorld
  simp only [World.answer]
  cases world.tree.readText world.current path with
  | error failure => exact ⟨_, rfl⟩
  | ok source => exact ⟨_, rfl⟩

theorem run_loadFiles (world : World) (paths : List Path) :
    ∃ modules, world.run (loadFiles paths) =
      (paths.mapM (collectionIn (inWorld world)), { world with modules }) := by
  induction paths generalizing world with
  | nil => exact ⟨world.modules, rfl⟩
  | cons path paths ih =>
      obtain ⟨modules, hhead⟩ := run_loadFile world path
      obtain ⟨modules', htail⟩ := ih { world with modules }
      rw [inWorld_modules] at htail
      rw [loadFiles, World.run_bind, hhead, List.mapM_cons]
      cases collectionIn (inWorld world) path with
      | error cause => exact ⟨modules, rfl⟩
      | ok collection =>
          dsimp only
          rw [World.run_bind, htail]
          refine ⟨modules', ?_⟩
          cases paths.mapM (collectionIn (inWorld world)) with
          | error cause => rfl
          | ok collections => rfl

theorem run_read (world : World) (runtime : RuntimeSource) :
    world.run runtime.read = (classIn (inWorld world) runtime, world) := by
  cases runtime with
  | bundled => rfl
  | file path =>
      unfold RuntimeSource.read
      rw [World.run_bind, World.run_readText]
      dsimp only [classIn, inWorld]
      cases world.tree.readText world.current path <;> rfl

/-- **Making a bundle on a world.**  The files and the working directory stay as they are. -/
theorem run_make (world : World) (compactor : Compactor) (recipe : Recipe) :
    ∃ modules, world.run (make compactor recipe) =
      (bundleIn (inWorld world) compactor recipe, { world with modules }) := by
  obtain ⟨modules, hload⟩ := run_loadFiles world recipe.sources
  unfold make bundleIn
  rw [World.run_bind, run_read]
  dsimp only
  rw [World.run_bind, hload]
  refine ⟨modules, ?_⟩
  cases recipe.sources.mapM (collectionIn (inWorld world)) with
  | error cause => rfl
  | ok collections =>
      cases classIn (inWorld world) recipe.runtime with
      | error cause => rfl
      | ok classSource =>
          dsimp only
          cases ofCollections compactor recipe classSource collections <;> rfl

end KeysetBundle.Bundle
