import Mathlib.Algebra.GroupWithZero.Nat
import KeysetBundle.Collection.Compiled
import KeysetBundle.Proofs.Collection.Merge
import KeysetBundle.Proofs.Except

/-!
# Compiled collections

Compiling a collection keeps its names and keys with their order, and the
expression of a key is that of its template.  It succeeds exactly if every
template compiles; otherwise the error names the first template of a keyset
that does not.
-/

namespace KeysetBundle

open Template (Compactor)

variable {compactor : Compactor}

/-- Compiling a keyset keeps its name and its keys, and compiles each template. -/
theorem Keyset.compile_eq_ok {name : String} {keyset : Keyset} {compiled : CompiledKeyset}
    (h : keyset.compile compactor name = .ok compiled) :
    compiled.name = name ∧ compiled.entries.map Prod.fst = keyset.keys ∧
      ∀ entry ∈ compiled.entries, ∃ template, keyset.get? entry.1 = some template ∧
        compactor.compact template = .ok entry.2 := by
  obtain ⟨entries, hentries, hcompiled⟩ := bind_eq_ok.1 h
  cases hcompiled
  refine ⟨rfl, ?_, ?_⟩
  · refine map_eq_of_mapM ?_ hentries
    rintro ⟨key, template⟩ entry hentry
    simp only at hentry
    split at hentry
    · cases hentry
      rfl
    · cases hentry
  · intro entry hentry
    obtain ⟨⟨key, template⟩, hmem, hstep⟩ := exists_of_mem_mapM hentries entry hentry
    simp only at hstep
    split at hstep
    · rename_i expression hexpression
      cases hstep
      refine ⟨template, ?_, hexpression⟩
      rw [← keyset.lookup_toList]
      exact (lookup_eq_some_iff_mem keyset.nodup_keys).2 hmem
    · cases hstep

theorem exists_compiled_iff {key name : String} {compiled : Except Template.Error String} :
    (∃ pair : String × String,
      (match compiled with
        | .ok expression => Except.ok (key, expression)
        | .error cause => Except.error (CompactionError.mk name key cause)) = .ok pair) ↔
      ∃ expression, compiled = .ok expression := by
  cases compiled <;> simp

/-- Compiling a keyset succeeds exactly if each of its templates compiles. -/
theorem Keyset.exists_compile_iff {name : String} {keyset : Keyset} :
    (∃ compiled, keyset.compile compactor name = .ok compiled) ↔
      ∀ entry ∈ keyset.toList, ∃ expression, compactor.compact entry.2 = .ok expression := by
  constructor
  · rintro ⟨compiled, h⟩ entry hmem
    obtain ⟨entries, hentries, -⟩ := bind_eq_ok.1 h
    exact exists_compiled_iff.1 (exists_mapM_iff.1 ⟨entries, hentries⟩ entry hmem)
  · intro h
    obtain ⟨entries, hentries⟩ :=
      exists_mapM_iff.2 fun entry hmem => exists_compiled_iff.2 (h entry hmem)
    exact ⟨⟨name, entries⟩, bind_eq_ok.2 ⟨entries, hentries, rfl⟩⟩

/-- If a keyset does not compile, the error is that of its first template that does not. -/
theorem Keyset.compile_eq_error {name : String} {keyset : Keyset} {e : CompactionError}
    (h : keyset.compile compactor name = .error e) :
    e.keyset = name ∧ ∃ before template after,
      keyset.toList = before ++ (e.key, template) :: after ∧
      (∀ entry ∈ before, ∃ expression, compactor.compact entry.2 = .ok expression) ∧
      compactor.compact template = .error e.cause := by
  rcases bind_eq_error.1 h with h | ⟨entries, -, h⟩
  · obtain ⟨before, ⟨key, template⟩, after, hlist, hbefore, hfault⟩ := mapM_eq_error.1 h
    simp only at hfault
    split at hfault
    · cases hfault
    · rename_i cause hcause
      cases hfault
      refine ⟨rfl, before, template, after, hlist, ?_, hcause⟩
      intro entry hentry
      obtain ⟨compiled, hcompiled⟩ := hbefore entry hentry
      cases hexpression : compactor.compact entry.2 with
      | ok expression => exact ⟨expression, rfl⟩
      | error cause =>
          simp only [hexpression] at hcompiled
          cases hcompiled
  · cases h

namespace Collection

variable {collection : Collection} {keysets : List CompiledKeyset}

/-- Compiling a collection succeeds exactly if each of its keysets compiles. -/
theorem exists_compile_iff :
    (∃ keysets, collection.compile compactor = .ok keysets) ↔
      ∀ entry ∈ collection.toList, ∃ compiled,
        entry.2.compile compactor entry.1 = .ok compiled :=
  exists_mapM_iff

/-- If a collection does not compile, neither does the keyset that the error names. -/
theorem compile_eq_error {e : CompactionError} (h : collection.compile compactor = .error e) :
    ∃ keyset, collection.get? e.keyset = some keyset ∧
      keyset.compile compactor e.keyset = .error e := by
  obtain ⟨before, ⟨name, keyset⟩, after, hlist, -, hfault⟩ := mapM_eq_error.1 h
  have hname : e.keyset = name := (Keyset.compile_eq_error hfault).1
  subst hname
  exact ⟨keyset, collection.get?_eq_some_iff_mem.2 (by simp [hlist]), hfault⟩

theorem names_compile (h : collection.compile compactor = .ok keysets) :
    keysets.map (·.name) = collection.toList.map Prod.fst := by
  refine map_eq_of_mapM ?_ h
  intro entry compiled hcompiled
  exact (Keyset.compile_eq_ok hcompiled).1

/-- A compiled keyset comes from the keyset of its name. -/
theorem mem_compile (h : collection.compile compactor = .ok keysets) :
    ∀ compiled ∈ keysets, ∃ keyset, collection.get? compiled.name = some keyset ∧
      compiled.entries.map Prod.fst = keyset.keys ∧
      ∀ entry ∈ compiled.entries, ∃ template, keyset.get? entry.1 = some template ∧
        compactor.compact template = .ok entry.2 := by
  intro compiled hcompiled
  obtain ⟨⟨name, keyset⟩, hmem, hstep⟩ := exists_of_mem_mapM h compiled hcompiled
  obtain ⟨hname, hkeys, hentries⟩ := Keyset.compile_eq_ok hstep
  refine ⟨keyset, ?_, hkeys, hentries⟩
  rw [hname]
  exact collection.get?_eq_some_iff_mem.2 hmem

/-- The number of keys does not change. -/
theorem keyCount_compile (h : collection.compile compactor = .ok keysets) :
    collection.keyCount = (keysets.map fun keyset => keyset.entries.length).sum := by
  have hlengths : keysets.map (fun keyset => keyset.entries.length) =
      collection.toList.map fun entry => entry.2.size := by
    refine map_eq_of_mapM ?_ h
    rintro ⟨name, keyset⟩ compiled hcompiled
    have hkeys := congrArg List.length (Keyset.compile_eq_ok hcompiled).2.1
    rw [List.length_map, Keyset.keys, List.length_map] at hkeys
    rw [hkeys]
    exact keyset.toList_perm.length_eq
  rw [hlengths, List.sum]
  unfold keyCount Dictionary.values Dictionary.toList
  rw [List.map_map]
  rfl

end Collection

end KeysetBundle
