import KeysetBundle.Dictionary
import KeysetBundle.Keyset.ArrayIndex

/-!
# Keysets

A keyset maps keys to message templates. It behaves as an object of a script does: a key keeps the
place of its first insertion when its value is replaced, and a listing gives the array indices in
numeric order before all other keys in order of insertion.

Beside the entries a keyset has an index of their places, so that a key is not searched for. The
index and the entries agree in every keyset (`Keyset.Indexes`).

* `insert_of_some`, `insert_of_none` — an insertion replaces a value in its place or adds an entry
  at the end.
* `get?_insert` — a look-up after an insertion.
-/

namespace KeysetBundle

namespace Keyset

/-- An index leads from each key to the place of its entry, and from nothing else to any place. -/
def Indexes (index : Dictionary Nat) (entries : List (String × String)) : Prop :=
  ∀ key place, index.get? key = some place ↔ (entries.map (·.1))[place]? = some key

theorem indexes_nil : Indexes .empty [] := by
  intro key place
  simp

/-- The value of an entry plays no role. -/
theorem Indexes.congr {index : Dictionary Nat} {entries others : List (String × String)}
    (h : Indexes index entries) (hkeys : others.map (·.1) = entries.map (·.1)) :
    Indexes index others := by
  intro key place
  rw [hkeys]
  exact h key place

/-- A new key has its place behind all others. -/
theorem Indexes.concat {index : Dictionary Nat} {entries : List (String × String)}
    (h : Indexes index entries) {key : String} (hkey : index.get? key = none) (value : String) :
    Indexes (index.insert key entries.length) (entries ++ [(key, value)]) := by
  intro other place
  have hother := h other place
  have hnot : (entries.map (·.1))[place]? ≠ some key := by
    intro hplace
    rw [(h key place).2 hplace] at hkey
    cases hkey
  rw [Dictionary.get?_insert, List.map_append, List.getElem?_append]
  grind

/-- Where an index leads to each key, the keys are distinct. -/
theorem Indexes.nodup {index : Dictionary Nat} {entries : List (String × String)}
    (h : Indexes index entries) : (entries.map (·.1)).Nodup := by
  rw [List.nodup_iff_pairwise_ne, List.pairwise_iff_getElem]
  intro i j hi hj hij heq
  have hfirst := (h _ i).2 (List.getElem?_eq_getElem hi)
  have hsecond := (h _ j).2 (List.getElem?_eq_getElem hj)
  rw [heq, hsecond] at hfirst
  cases hfirst
  exact Nat.lt_irrefl _ hij

end Keyset

/-- Keys with their templates, in order of first insertion. -/
structure Keyset where
  /-- Keys with values. -/
  entries : List (String × String)
  /-- The places of the keys among the entries. -/
  index : Dictionary Nat
  /-- The index and the entries agree. -/
  indexes : Keyset.Indexes index entries
  deriving DecidableEq

namespace Keyset

/-- Each key stands in one entry. -/
theorem nodup (keyset : Keyset) : (keyset.entries.map (·.1)).Nodup := keyset.indexes.nodup

/-! ## Insertion -/

/-- The entries with another value in one of them. -/
def setValue (entries : List (String × String)) (place : Nat) (value : String) :
    List (String × String) :=
  entries.modify place fun entry => (entry.1, value)

theorem map_fst_setValue (entries : List (String × String)) (place : Nat) (value : String) :
    (setValue entries place value).map (·.1) = entries.map (·.1) := by
  unfold setValue
  induction entries generalizing place with
  | nil => simp
  | cons entry entries ih => cases place <;> simp_all

/-- The keyset without keys. -/
def empty : Keyset := ⟨[], .empty, indexes_nil⟩

instance : Inhabited Keyset := ⟨empty⟩

/-- Sets the value of `key`; a key that is present stays in its place. -/
def insert (keyset : Keyset) (key value : String) : Keyset :=
  match hkey : keyset.index.get? key with
  | some place =>
    ⟨setValue keyset.entries place value, keyset.index,
      keyset.indexes.congr (map_fst_setValue _ _ _)⟩
  | none =>
    ⟨keyset.entries ++ [(key, value)], keyset.index.insert key keyset.entries.length,
      keyset.indexes.concat hkey value⟩

/-! ## Operations -/

/-- The value of `key`. -/
def get? (keyset : Keyset) (key : String) : Option String :=
  match keyset.index.get? key with
  | some place => keyset.entries[place]?.map (·.2)
  | none => none

/-- The number of keys. -/
def size (keyset : Keyset) : Nat := keyset.entries.length

/-- Whether the keyset has no key. -/
def isEmpty (keyset : Keyset) : Bool := keyset.entries.isEmpty

/-- The entries whose keys are array indices, in insertion order, with their numbers. -/
def indexed (entries : List (String × String)) : List (Nat × (String × String)) :=
  entries.filterMap fun entry => (arrayIndex? entry.1).map (·, entry)

/-- The entries in property order: array indices ascending, then the others as inserted. -/
def toList (keyset : Keyset) : List (String × String) :=
  ((indexed keyset.entries).mergeSort (fun a b => a.1 ≤ b.1)).map (·.2) ++
    keyset.entries.filter (fun entry => (arrayIndex? entry.1).isNone)

/-- The keys in property order. -/
def keys (keyset : Keyset) : List String := keyset.toList.map (·.1)

/-- Inserts the pairs one after the other. -/
def insertAll (keyset : Keyset) (pairs : List (String × String)) : Keyset :=
  pairs.foldl (fun keyset pair => keyset.insert pair.1 pair.2) keyset

/-- The keyset of the pairs, inserted one after the other. -/
def ofList (pairs : List (String × String)) : Keyset := empty.insertAll pairs

/-! ## Equations -/

/-- An insertion replaces the value of a key that is present. -/
theorem insert_of_some {keyset : Keyset} {key : String} {place : Nat}
    (h : keyset.index.get? key = some place) (value : String) :
    (keyset.insert key value).entries = setValue keyset.entries place value ∧
      (keyset.insert key value).index = keyset.index := by
  unfold insert
  split
  · rename_i found hfound
    cases hfound.symm.trans h
    exact ⟨rfl, rfl⟩
  · rename_i hnone
    cases hnone.symm.trans h

/-- An insertion adds a key that is new at the end. -/
theorem insert_of_none {keyset : Keyset} {key : String}
    (h : keyset.index.get? key = none) (value : String) :
    (keyset.insert key value).entries = keyset.entries ++ [(key, value)] ∧
      (keyset.insert key value).index = keyset.index.insert key keyset.entries.length := by
  unfold insert
  split
  · rename_i hfound
    cases hfound.symm.trans h
  · exact ⟨rfl, rfl⟩

/-- The index has the keys of the entries. -/
theorem index_eq_none_iff (keyset : Keyset) (key : String) :
    keyset.index.get? key = none ↔ key ∉ keyset.entries.map (·.1) := by
  constructor
  · intro hnone hmem
    obtain ⟨place, hplace⟩ := List.mem_iff_getElem?.1 hmem
    rw [(keyset.indexes key place).2 hplace] at hnone
    cases hnone
  · intro hnot
    cases hkey : keyset.index.get? key with
    | none => rfl
    | some place =>
      exact absurd (List.mem_of_getElem? ((keyset.indexes key place).1 hkey)) hnot

theorem map_fst_insert (keyset : Keyset) (key value : String) :
    (keyset.insert key value).entries.map (·.1) =
      if key ∈ keyset.entries.map (·.1) then keyset.entries.map (·.1)
      else keyset.entries.map (·.1) ++ [key] := by
  cases hkey : keyset.index.get? key with
  | some place =>
    have hmem : key ∈ keyset.entries.map (·.1) :=
      List.mem_of_getElem? ((keyset.indexes key place).1 hkey)
    rw [(insert_of_some hkey value).1, map_fst_setValue, if_pos hmem]
  | none =>
    rw [(insert_of_none hkey value).1, if_neg ((keyset.index_eq_none_iff key).1 hkey),
      List.map_append]
    rfl

/-- The entry to which the index leads has the key. -/
theorem exists_entry {keyset : Keyset} {key : String} {place : Nat}
    (h : keyset.index.get? key = some place) :
    ∃ value, keyset.entries[place]? = some (key, value) := by
  have hkey := (keyset.indexes key place).1 h
  rw [List.getElem?_map, Option.map_eq_some_iff] at hkey
  obtain ⟨entry, hentry, rfl⟩ := hkey
  exact ⟨entry.2, hentry⟩

theorem get?_insert (keyset : Keyset) (key value other : String) :
    (keyset.insert key value).get? other =
      if other = key then some value else keyset.get? other := by
  cases hkey : keyset.index.get? key with
  | some place =>
    obtain ⟨hentries, hindex⟩ := insert_of_some hkey value
    obtain ⟨old, hold⟩ := exists_entry hkey
    unfold get?
    rw [hentries, hindex]
    by_cases hother : other = key
    · subst hother
      simp [hkey, setValue, hold]
    · rw [if_neg hother]
      cases hplace : keyset.index.get? other with
      | none => rfl
      | some otherPlace =>
        -- two keys do not have one place
        have hne : place ≠ otherPlace := by
          rintro rfl
          obtain ⟨_, hentry⟩ := exists_entry hplace
          cases hold.symm.trans hentry
          exact hother rfl
        simp [setValue, hne]
  | none =>
    obtain ⟨hentries, hindex⟩ := insert_of_none hkey value
    unfold get?
    rw [hentries, hindex, Dictionary.get?_insert]
    by_cases hother : other = key
    · simp [hother]
    · rw [if_neg hother, if_neg hother]
      cases hplace : keyset.index.get? other with
      | none => rfl
      | some place =>
        obtain ⟨_, hentry⟩ := exists_entry hplace
        have hlt : place < keyset.entries.length := (List.getElem?_eq_some_iff.1 hentry).1
        simp only [List.getElem?_append_left hlt]

end Keyset

end KeysetBundle
