import KeysetBundle.Proofs.Keyset.ArrayIndex
import KeysetBundle.Proofs.Keyset.Listing

/-!
# Keysets are objects of a script

Whatever is inserted into a keyset, it has the properties that an object of a
script would have after the same assignments, and its index leads to them
(`ofList_objectModel`).

A number is the array index of one key only, so the numbers of the array
indices ascend strictly in a listing (`pairwise_indices`).  The look-ups of a
keyset and the order of the keys that are no array indices therefore say all
about its listing (`toList_congr`).
-/

namespace KeysetBundle.Keyset

/-- A key is an array index if it is written for a number up to the largest one. -/
theorem isIndex_iff {key : String} : isIndex key ↔ ∃ n ≤ 4294967294, key = toString n := by
  unfold isIndex
  rw [Option.isSome_iff_exists]
  constructor
  · rintro ⟨n, hn⟩
    obtain ⟨hlimit, hkey⟩ := arrayIndex?_eq_some_iff.1 hn
    exact ⟨n, Nat.le_of_lt_succ hlimit, hkey⟩
  · rintro ⟨n, hlimit, hkey⟩
    exact ⟨n, arrayIndex?_eq_some_iff.2 ⟨Nat.lt_succ_of_le hlimit, hkey⟩⟩

/-! ## The numbers of a listing -/

/-- The numbers of the array indices of a keyset, as they are listed. -/
def indices (keyset : Keyset) : List Nat :=
  ((indexed keyset.entries).mergeSort fun a b => a.1 ≤ b.1).map Prod.fst

/-- The numbers are those of the keys. -/
theorem indices_perm (keyset : Keyset) :
    keyset.indices.Perm ((keyset.entries.map Prod.fst).filterMap arrayIndex?) := by
  have hnumbers : (indexed keyset.entries).map Prod.fst =
      (keyset.entries.map Prod.fst).filterMap arrayIndex? := by
    unfold indexed
    rw [List.map_filterMap, List.filterMap_map]
    congr 1
    funext entry
    cases hindex : arrayIndex? entry.1 <;> simp [hindex]
  rw [← hnumbers]
  exact (List.mergeSort_perm _ _).map Prod.fst

theorem mem_indices {keyset : Keyset} {n : Nat} :
    n ∈ keyset.indices ↔ n ≤ 4294967294 ∧ toString n ∈ keyset.entries.map Prod.fst := by
  rw [keyset.indices_perm.mem_iff, List.mem_filterMap]
  constructor
  · rintro ⟨key, hkey, hn⟩
    obtain ⟨hlimit, rfl⟩ := arrayIndex?_eq_some_iff.1 hn
    exact ⟨Nat.le_of_lt_succ hlimit, hkey⟩
  · rintro ⟨hlimit, hkey⟩
    exact ⟨_, hkey, arrayIndex?_eq_some_iff.2 ⟨Nat.lt_succ_of_le hlimit, rfl⟩⟩

/-- **The numbers of a listing ascend strictly.** -/
theorem pairwise_indices (keyset : Keyset) : keyset.indices.Pairwise (· < ·) := by
  have hnodup : keyset.indices.Nodup := by
    rw [keyset.indices_perm.nodup_iff, List.nodup_iff_pairwise_ne, List.pairwise_filterMap]
    refine keyset.nodup.imp fun hne m hm n hn heq => ?_
    rw [heq] at hm
    exact hne (arrayIndex?_injective hm hn)
  have hsorted : keyset.indices.Pairwise (· ≤ ·) := by
    unfold indices
    rw [List.pairwise_map]
    exact (pairwise_sortIndexed keyset.entries).imp of_decide_eq_true
  exact (hsorted.and hnodup).imp fun h => Nat.lt_of_le_of_ne h.1 h.2

/-- The keys as they are listed: the array indices as they are written, then the others. -/
theorem keys_eq (keyset : Keyset) : keyset.keys =
    keyset.indices.map toString ++ (keyset.entries.map Prod.fst).filter fun key => !isIndex key := by
  have hwritten : ((indexed keyset.entries).mergeSort fun a b => a.1 ≤ b.1).map
      (fun item => item.2.1) = keyset.indices.map toString := by
    unfold indices
    rw [List.map_map]
    refine List.map_congr_left fun item hitem => ?_
    exact (arrayIndex?_eq_some_iff.1 (arrayIndex?_of_mem_indexed (List.mem_mergeSort.1 hitem))).2
  unfold keys toList
  rw [filter_isNone, List.map_append, List.map_map, List.filter_map, ← hwritten]
  rfl

theorem filter_keys (keyset : Keyset) : (keyset.keys.filter fun key => !isIndex key) =
    (keyset.entries.map Prod.fst).filter fun key => !isIndex key := by
  have hindices : ((keyset.indices.map toString).filter fun key => !isIndex key) = [] := by
    rw [List.filter_eq_nil_iff]
    intro key hkey
    obtain ⟨n, hn, rfl⟩ := List.mem_map.1 hkey
    have hindex : isIndex (toString n) := isIndex_iff.2 ⟨n, (mem_indices.1 hn).1, rfl⟩
    rw [hindex]
    nofun
  rw [keys_eq, List.filter_append, hindices, List.nil_append, List.filter_filter]
  simp

/-! ## What is listed -/

theorem get?_isSome_iff {keyset : Keyset} {key : String} :
    (keyset.get? key).isSome ↔ key ∈ keyset.entries.map Prod.fst := by
  rw [get?_eq_lookup]
  exact lookup_isSome_iff_mem

theorem get?_eq_some_iff_mem {keyset : Keyset} {key value : String} :
    keyset.get? key = some value ↔ (key, value) ∈ keyset.toList := by
  rw [← lookup_toList]
  exact lookup_eq_some_iff_mem keyset.nodup_keys

/-- **What a listing depends on**: the look-ups, and the order of the keys that are no array
indices. -/
theorem toList_congr {keyset other : Keyset} (hget : ∀ key, keyset.get? key = other.get? key)
    (hothers : (keyset.keys.filter fun key => !isIndex key) =
      other.keys.filter fun key => !isIndex key) : keyset.toList = other.toList := by
  have hindices : keyset.indices = other.indices := by
    have hmem : ∀ n, n ∈ keyset.indices ↔ n ∈ other.indices := by
      intro n
      rw [mem_indices, mem_indices, ← get?_isSome_iff, ← get?_isSome_iff, hget]
    have hnodup : ∀ any : Keyset, any.indices.Nodup := fun any =>
      any.pairwise_indices.imp Nat.ne_of_lt
    have hperm := (List.perm_ext_iff_of_nodup (hnodup keyset) (hnodup other)).2 hmem
    refine hperm.eq_of_pairwise ?_ keyset.pairwise_indices other.pairwise_indices
    exact fun a b _ _ hab hba => absurd hab (Nat.lt_asymm hba)
  have hkeys : keyset.toList.map Prod.fst = other.toList.map Prod.fst := by
    show keyset.keys = other.keys
    rw [filter_keys, filter_keys] at hothers
    rw [keys_eq, keys_eq, hindices, hothers]
  refine eq_of_lookup_eq hkeys keyset.nodup_keys fun key => ?_
  rw [lookup_toList, lookup_toList, hget]

/-- **A keyset is an object of a script.**  After any insertions

* the keys are in the entries, each in one, in the order of their first insertion, and the index
  leads from each key to its entry and from nothing else anywhere;
* the value of a key is the one that was inserted last, and the size is the number of different
  keys;
* what is listed are all keys with their values, each key once: first the array indices, the
  numbers up to `2 ^ 32 - 2` as they are written, strictly ascending, and then the others in the
  order of their first insertion. -/
theorem ofList_objectModel (pairs : List (String × String)) :
    (ofList pairs).entries.map Prod.fst = (pairs.map Prod.fst).eraseDups ∧
      ((ofList pairs).entries.map Prod.fst).Nodup ∧
      (∀ key place, (ofList pairs).index.get? key = some place ↔
        ∃ value, (ofList pairs).entries[place]? = some (key, value)) ∧
      (∀ key, (ofList pairs).get? key = pairs.reverse.lookup key) ∧
      (ofList pairs).size = (pairs.map Prod.fst).eraseDups.length ∧
      (∀ key value, (key, value) ∈ (ofList pairs).toList ↔ (ofList pairs).get? key = some value) ∧
      ((ofList pairs).toList.map Prod.fst).Nodup ∧
      (∃ numbers : List Nat,
        (ofList pairs).toList.map Prod.fst = numbers.map toString ++
          ((pairs.map Prod.fst).eraseDups.filter fun key => !isIndex key) ∧
        numbers.Pairwise (· < ·) ∧
        ∀ n, n ∈ numbers ↔ n ≤ 4294967294 ∧ toString n ∈ pairs.map Prod.fst) ∧
      ∀ key, isIndex key ↔ ∃ n ≤ 4294967294, key = toString n := by
  have hkeys := map_fst_ofList pairs
  refine ⟨hkeys, (ofList pairs).nodup, ?index, get?_ofList pairs, ?size, ?listed,
    (ofList pairs).nodup_keys, ⟨(ofList pairs).indices, ?order, (ofList pairs).pairwise_indices,
      ?numbers⟩, fun key => isIndex_iff⟩
  case index =>
    intro key place
    rw [(ofList pairs).indexes key place, List.getElem?_map, Option.map_eq_some_iff]
    exact ⟨fun ⟨entry, hentry, hkey⟩ => ⟨entry.2, hkey ▸ hentry⟩,
      fun ⟨value, hentry⟩ => ⟨_, hentry, rfl⟩⟩
  case size =>
    rw [← hkeys, List.length_map]
    rfl
  case listed => exact fun key value => get?_eq_some_iff_mem.symm
  case order =>
    rw [← hkeys]
    exact (ofList pairs).keys_eq
  case numbers =>
    intro n
    rw [mem_indices, hkeys, List.mem_eraseDups]

example : (ofList [("b", "x"), ("10", "ten"), ("2", "two"), ("01", "padded"),
    ("4294967295", "max"), ("b", "y"), ("4294967294", "last"), ("0", "zero")]).toList =
    [("0", "zero"), ("2", "two"), ("10", "ten"), ("4294967294", "last"), ("b", "y"),
      ("01", "padded"), ("4294967295", "max")] := by cbv

end KeysetBundle.Keyset
