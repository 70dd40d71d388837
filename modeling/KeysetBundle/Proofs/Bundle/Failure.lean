import KeysetBundle.Proofs.Bundle.Contents

/-!
# When there is no bundle

Three things can go wrong when a bundle is made: a keyset file gives no
collection, the runtime class cannot be read, or a template cannot be compiled.
They count in this order.  Since templates are compiled after the merge, only
the last values of the keys matter (`Compiles`): a template that a later file
replaces may be as it likes.

Main result.

- `make_outcome`: when a bundle is made, and which error there is otherwise.
-/

namespace KeysetBundle.Bundle

open Files Template
open KeysetBundle.Collection (definedKeys lastValue? merge)

/-! ## Last values -/

/-- The last value of every key compiles. -/
def Compiles (compactor : Compactor) (collections : List Collection) : Prop :=
  ∀ name key template, lastValue? collections name key = some template →
    ∃ expression, compactor.compact template = .ok expression

/-- An error that is that of the first last value of a keyset that does not compile. -/
structure FirstFault (compactor : Compactor) (collections : List Collection)
    (e : CompactionError) : Prop where
  /-- The last value of the key does not compile, and the error says why. -/
  fault : ∃ template, lastValue? collections e.keyset e.key = some template ∧
    compactor.compact template = .error e.cause
  /-- The last values of the keys before it do. -/
  first : ∃ before after,
    Keyset.PropertyOrder (definedKeys collections e.keyset) (before ++ e.key :: after) ∧
    ∀ key ∈ before, ∃ template expression,
      lastValue? collections e.keyset key = some template ∧
        compactor.compact template = .ok expression

section Compiling

variable {compactor : Compactor} {collections : List Collection}

/-- A merged keyset lists the last values of its keys. -/
theorem mem_toList_of_merge {name key template : String} {keyset : Keyset}
    (h : (merge collections).get? name = some keyset) :
    (key, template) ∈ keyset.toList ↔ lastValue? collections name key = some template := by
  rw [← lookup_eq_some_iff_mem keyset.nodup_keys, keyset.lookup_toList,
    Collection.get?_get?_merge h]

/-- Where a key has a value, the merge has a keyset. -/
theorem exists_get?_merge {name key template : String}
    (h : lastValue? collections name key = some template) :
    ∃ keyset, (merge collections).get? name = some keyset := by
  obtain ⟨collection, hcollection, hvalue⟩ := List.mem_filterMap.1 (List.mem_of_getLast? h)
  obtain ⟨keyset, hkeyset, -⟩ := Option.bind_eq_some_iff.1 hvalue
  exact Option.isSome_iff_exists.1
    (Collection.get?_merge_isSome.2 ⟨collection, hcollection, by rw [hkeyset]; rfl⟩)

/-- A merge compiles exactly if the last values do. -/
theorem exists_compile_merge_iff :
    (∃ keysets, (merge collections).compile compactor = .ok keysets) ↔
      Compiles compactor collections := by
  rw [Collection.exists_compile_iff]
  constructor
  · intro h name key template hlast
    obtain ⟨keyset, hkeyset⟩ := exists_get?_merge hlast
    have hcompiles := h (name, keyset) ((merge collections).get?_eq_some_iff_mem.1 hkeyset)
    exact Keyset.exists_compile_iff.1 hcompiles (key, template)
      ((mem_toList_of_merge hkeyset).2 hlast)
  · intro h entry hentry
    have hkeyset := (merge collections).get?_eq_some_iff_mem.2 hentry
    refine Keyset.exists_compile_iff.2 fun pair hpair => ?_
    exact h entry.1 pair.1 pair.2 ((mem_toList_of_merge hkeyset).1 hpair)

/-- If a merge does not compile, the error is that of a last value. -/
theorem firstFault_of_compile_merge {e : CompactionError}
    (h : (merge collections).compile compactor = .error e) :
    FirstFault compactor collections e := by
  obtain ⟨keyset, hkeyset, hfault⟩ := Collection.compile_eq_error h
  obtain ⟨-, before, template, after, hlist, hbefore, hcause⟩ := Keyset.compile_eq_error hfault
  have hkeys : keyset.keys = before.map Prod.fst ++ e.key :: after.map Prod.fst := by
    rw [Keyset.keys, hlist, List.map_append, List.map_cons]
  constructor
  · exact ⟨template, (mem_toList_of_merge hkeyset).1 (by simp [hlist]), hcause⟩
  · refine ⟨before.map Prod.fst, after.map Prod.fst, ?_, ?_⟩
    · rw [← hkeys]
      exact Collection.propertyOrder_get?_merge hkeyset
    · intro key hkey
      obtain ⟨entry, hentry, rfl⟩ := List.mem_map.1 hkey
      obtain ⟨expression, hexpression⟩ := hbefore entry hentry
      exact ⟨entry.2, expression, (mem_toList_of_merge hkeyset).1 (by simp [hlist, hentry]),
        hexpression⟩

theorem ofCollections_eq_error {recipe : Recipe} {classSource : String} {e : CompactionError} :
    ofCollections compactor recipe classSource collections = .error e ↔
      (merge collections).compile compactor = .error e := by
  unfold ofCollections
  rw [bind_eq_error]
  constructor
  · rintro (h | ⟨keysets, -, h⟩)
    · exact h
    · cases h
  · exact .inl

theorem exists_ofCollections_iff {recipe : Recipe} {classSource : String} :
    (∃ bundle, ofCollections compactor recipe classSource collections = .ok bundle) ↔
      Compiles compactor collections := by
  rw [← exists_compile_merge_iff]
  constructor
  · intro ⟨bundle, h⟩
    obtain ⟨keysets, hkeysets, -⟩ := bind_eq_ok.1 h
    exact ⟨keysets, hkeysets⟩
  · intro ⟨keysets, hkeysets⟩
    exact ⟨_, bind_eq_ok.2 ⟨keysets, hkeysets, rfl⟩⟩

end Compiling

/-! ## Keyset files -/

section Making

variable {σ : Type} {answer : (request : Request) → σ → request.Answer × σ}

/-- Paths are loaded one after the other, up to one that gives no collection. -/
inductive LoadFails (answer : (request : Request) → σ → request.Answer × σ) :
    List Path → σ → LoadError → Prop
  /-- The first file gives none. -/
  | here {path : Path} {paths : List Path} {first : σ} {cause : LoadError}
      (h : ((loadFile path).run answer first).1 = .error cause) :
      LoadFails answer (path :: paths) first cause
  /-- The first file is loaded, and a later one gives none. -/
  | later {path : Path} {paths : List Path} {collection : Collection} {first second : σ}
      {cause : LoadError} (head : (loadFile path).run answer first = (.ok collection, second))
      (tail : LoadFails answer paths second cause) :
      LoadFails answer (path :: paths) first cause

/-- Files are loaded up to the first one that gives no collection. -/
theorem run_loadFiles_cons_fst (path : Path) (paths : List Path) (first : σ) :
    ((loadFiles (path :: paths)).run answer first).1 =
      match (loadFile path).run answer first with
      | (.error cause, _) => .error cause
      | (.ok collection, second) =>
        (((loadFiles paths).run answer second).1).map (collection :: ·) := by
  rw [loadFiles, Program.run_bind_do]
  generalize (loadFile path).run answer first = reply
  obtain ⟨loaded, second⟩ := reply
  cases loaded with
  | error cause => rfl
  | ok collection =>
      dsimp only
      rw [Program.run_bind_do]
      cases ((loadFiles paths).run answer second).1 <;> rfl

theorem run_loadFiles_eq_error {paths : List Path} {first : σ} {cause : LoadError} :
    ((loadFiles paths).run answer first).1 = .error cause ↔
      LoadFails answer paths first cause := by
  induction paths generalizing first with
  | nil => exact ⟨nofun, nofun⟩
  | cons path paths ih =>
      rw [run_loadFiles_cons_fst]
      cases hhead : (loadFile path).run answer first with
      | mk loaded second =>
          constructor
          · intro h
            cases loaded with
            | error failure =>
                have hcause : failure = cause := Except.error.inj h
                exact .here (by rw [hhead, hcause])
            | ok collection =>
                simp only [map_eq_error] at h
                exact .later hhead (ih.1 h)
          · intro h
            cases h with
            | here hfails =>
                rw [hhead] at hfails
                simp only at hfails
                simp only [hfails]
            | later head tail =>
                rw [hhead] at head
                cases head
                simp only [ih.2 tail]
                rfl

/-! ## Outcomes -/

/-- A bundle is made from what was loaded and read: the files count first, then the runtime class,
then the templates. -/
theorem run_make_fst (compactor : Compactor) (recipe : Recipe) (first : σ) :
    ((make compactor recipe).run answer first).1 =
      match ((loadFiles recipe.sources).run answer (recipe.runtime.read.run answer first).2).1,
        (recipe.runtime.read.run answer first).1 with
      | .error cause, _ => .error (.load cause)
      | .ok _, .error (path, cause) => .error (.runtime path cause)
      | .ok collections, .ok classSource =>
        match ofCollections compactor recipe classSource collections with
        | .error cause => .error (.compaction cause)
        | .ok bundle => .ok bundle := by
  unfold make
  rw [Program.run_bind_do, Program.run_bind_do]
  cases ((loadFiles recipe.sources).run answer (recipe.runtime.read.run answer first).2).1 with
  | error cause => rfl
  | ok collections =>
      cases (recipe.runtime.read.run answer first).1 with
      | error cause => rfl
      | ok classSource =>
          dsimp only
          cases ofCollections compactor recipe classSource collections <;> rfl

section Outcomes

variable {compactor : Compactor} {recipe : Recipe} {first : σ}

theorem exists_make_iff :
    (∃ bundle, ((make compactor recipe).run answer first).1 = .ok bundle) ↔
      ∃ classSource collections last,
        (recipe.runtime.read.run answer first).1 = .ok classSource ∧
        Loads answer recipe.sources (recipe.runtime.read.run answer first).2 collections last ∧
        Compiles compactor collections := by
  constructor
  · intro ⟨bundle, h⟩
    obtain ⟨classSource, collections, second, hread, hloads, hmade⟩ := make_eq_ok.1 (Prod.ext h rfl)
    rw [hread]
    exact ⟨classSource, collections, _, rfl, hloads, exists_ofCollections_iff.1 ⟨bundle, hmade⟩⟩
  · intro ⟨classSource, collections, last, hread, hloads, hcompiles⟩
    obtain ⟨bundle, hmade⟩ := exists_ofCollections_iff.2 hcompiles
    exact ⟨bundle, congrArg Prod.fst
      (make_eq_ok.2 ⟨classSource, collections, _, Prod.ext hread rfl, hloads, hmade⟩)⟩

theorem make_eq_load_iff {cause : LoadError} :
    ((make compactor recipe).run answer first).1 = .error (.load cause) ↔
      LoadFails answer recipe.sources (recipe.runtime.read.run answer first).2 cause := by
  rw [run_make_fst, ← run_loadFiles_eq_error]
  cases ((loadFiles recipe.sources).run answer (recipe.runtime.read.run answer first).2).1 with
  | error failure => simp
  | ok collections =>
      cases (recipe.runtime.read.run answer first).1 with
      | error failure => simp
      | ok classSource =>
          dsimp only
          cases ofCollections compactor recipe classSource collections <;> simp

theorem make_eq_runtime_iff {path : Path} {cause : Files.Failure} :
    ((make compactor recipe).run answer first).1 = .error (.runtime path cause) ↔
      (∃ collections last, Loads answer recipe.sources (recipe.runtime.read.run answer first).2
        collections last) ∧
      (recipe.runtime.read.run answer first).1 = .error (path, cause) := by
  rw [run_make_fst]
  cases hloaded : ((loadFiles recipe.sources).run answer
      (recipe.runtime.read.run answer first).2).1 with
  | error failure =>
      constructor
      · intro h
        cases h
      · intro ⟨⟨collections, last, hloads⟩, _⟩
        rw [hloads.run_loadFiles] at hloaded
        cases hloaded
  | ok collections =>
      have hloads := loads_of_run (Prod.ext hloaded rfl)
      have hexists : ∃ collections last, Loads answer recipe.sources
          (recipe.runtime.read.run answer first).2 collections last := ⟨collections, _, hloads⟩
      cases (recipe.runtime.read.run answer first).1 with
      | error failure =>
          obtain ⟨file, reason⟩ := failure
          simp [hexists]
      | ok classSource =>
          dsimp only
          cases ofCollections compactor recipe classSource collections <;> simp

theorem firstFault_of_make {e : CompactionError}
    (h : ((make compactor recipe).run answer first).1 = .error (.compaction e)) :
    ∃ classSource collections last,
      (recipe.runtime.read.run answer first).1 = .ok classSource ∧
      Loads answer recipe.sources (recipe.runtime.read.run answer first).2 collections last ∧
      FirstFault compactor collections e := by
  rw [run_make_fst] at h
  split at h
  · cases h
  · cases h
  · rename_i collections classSource hloaded hread
    refine ⟨classSource, collections, _, hread, loads_of_run (Prod.ext hloaded rfl), ?_⟩
    split at h
    · rename_i cause hcause
      cases h
      exact firstFault_of_compile_merge (ofCollections_eq_error.1 hcause)
    · cases h

theorem make_ne_write {path : Path} {cause : Files.Failure} :
    ((make compactor recipe).run answer first).1 ≠ .error (.write path cause) := by
  rw [run_make_fst]
  split
  · nofun
  · nofun
  · split <;> nofun

end Outcomes

/-- **When a bundle is made.**  On any host there is a bundle exactly if every keyset file of the
language is loaded, the runtime class is read and the last value of every key compiles. Otherwise
there is the error of a file that gives no collection; if there is none, that of the runtime class;
and if that is read, the error of a last value that does not compile, the first one of its keyset.
No other error is possible. -/
theorem make_outcome (answer : (request : Request) → σ → request.Answer × σ)
    (compactor : Compactor) (recipe : Recipe) (first : σ) :
    let sources := selectFiles recipe.dirs recipe.language
    let read := recipe.runtime.read.run answer first
    let result := ((make compactor recipe).run answer first).1
    ((∃ bundle, result = .ok bundle) ↔
      ∃ classSource collections last, read.1 = .ok classSource ∧
        Loads answer sources read.2 collections last ∧ Compiles compactor collections) ∧
    (∀ cause, result = .error (.load cause) ↔ LoadFails answer sources read.2 cause) ∧
    (∀ path cause, result = .error (.runtime path cause) ↔
      (∃ collections last, Loads answer sources read.2 collections last) ∧
        read.1 = .error (path, cause)) ∧
    (∀ e, result = .error (.compaction e) →
      ∃ classSource collections last, read.1 = .ok classSource ∧
        Loads answer sources read.2 collections last ∧ FirstFault compactor collections e) ∧
    ∀ path cause, result ≠ .error (.write path cause) :=
  ⟨exists_make_iff, fun _ => make_eq_load_iff, fun _ _ => make_eq_runtime_iff,
    fun _ => firstFault_of_make, fun _ _ => make_ne_write⟩

end Making

end KeysetBundle.Bundle
