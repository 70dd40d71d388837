import KeysetBundle.Keyset.Basic
import KeysetBundle.Proofs.Dictionary

/-!
# How a keyset lists its keys

Whatever is inserted into a keyset, each key is listed once: the array indices
by their numbers, then the other keys in the order of their first insertion
(`propertyOrder_keys`).  The value of a key is the one inserted last
(`get?_ofList`).

A listing leaves nothing out, so the listing of a keyset has the look-ups of
the keyset (`lookup_toList`).  A keyset with the same listing is made by
inserting the keys as they are listed (`toList_inPropertyOrder`).
-/

namespace KeysetBundle.Keyset

/-- Whether a key is an array index. -/
def isIndex (key : String) : Bool := (arrayIndex? key).isSome

/-- The order of keys that were inserted one after the other: each of them
once, the array indices by their numbers before all others, and the others by
their first insertion. -/
def PropertyOrder (inserted keys : List String) : Prop :=
  ∃ indices others, keys = indices ++ others ∧
    indices.Perm (inserted.eraseDups.filter isIndex) ∧
    (indices.Pairwise fun key later =>
      ∀ m n, arrayIndex? key = some m → arrayIndex? later = some n → m ≤ n) ∧
    others = inserted.eraseDups.filter fun key => !isIndex key

/-! ## Insertion -/

theorem eraseDups_removeAll_cons {key : String} {keys present : List String}
    (hkey : key ∉ present) : ((key :: keys).removeAll present).eraseDups =
      key :: (keys.removeAll (present ++ [key])).eraseDups := by
  have hfirst : (key :: keys).removeAll present = key :: keys.removeAll present := by
    simp [List.removeAll, hkey]
  have hrest : keys.removeAll (present ++ [key]) =
      (keys.removeAll present).filter fun other => !other == key := by
    rw [List.removeAll, List.removeAll, List.filter_filter]
    congr 1
    funext other
    simp only [List.elem_eq_mem, List.mem_append, List.mem_singleton, Bool.decide_or,
      Bool.not_or]
    rw [Bool.and_comm]
    rfl
  rw [hfirst, List.eraseDups_cons, hrest]

/-- An insertion keeps the places of the keys that are present and adds the
others behind them, each once. -/
theorem map_fst_insertAll (keyset : Keyset) (pairs : List (String × String)) :
    (keyset.insertAll pairs).entries.map Prod.fst =
      keyset.entries.map Prod.fst ++
        ((pairs.map Prod.fst).removeAll (keyset.entries.map Prod.fst)).eraseDups := by
  induction pairs generalizing keyset with
  | nil => simp [insertAll, List.removeAll]
  | cons pair pairs ih =>
      have hinsert : (keyset.insert pair.1 pair.2).entries.map Prod.fst = _ :=
        keyset.map_fst_insert pair.1 pair.2
      have hstep : (keyset.insertAll (pair :: pairs)).entries.map Prod.fst = _ :=
        ih (keyset.insert pair.1 pair.2)
      rw [hstep, hinsert]
      by_cases hkey : pair.1 ∈ keyset.entries.map Prod.fst
      · rw [if_pos hkey]
        have hdrop : (pair.1 :: pairs.map Prod.fst).removeAll (keyset.entries.map Prod.fst) =
            (pairs.map Prod.fst).removeAll (keyset.entries.map Prod.fst) := by
          simp only [List.removeAll, List.filter_cons, List.elem_eq_mem, hkey, decide_true,
            Bool.not_true, Bool.false_eq_true, if_false]
        rw [List.map_cons, hdrop]
      · rw [if_neg hkey, List.map_cons, eraseDups_removeAll_cons hkey, List.append_assoc]
        rfl

theorem map_fst_ofList (pairs : List (String × String)) :
    (ofList pairs).entries.map Prod.fst = (pairs.map Prod.fst).eraseDups := by
  have hnone : (pairs.map Prod.fst).removeAll [] = pairs.map Prod.fst := List.removeAll_nil
  have h : (ofList pairs).entries.map Prod.fst =
      [] ++ ((pairs.map Prod.fst).removeAll []).eraseDups :=
    map_fst_insertAll empty pairs
  rw [h, hnone]
  rfl

theorem get?_insertAll (keyset : Keyset) (pairs : List (String × String)) (key : String) :
    (keyset.insertAll pairs).get? key = (pairs.reverse.lookup key).or (keyset.get? key) :=
  get_foldl_insert get?_insert keyset pairs key

/-- The value of a key is the last one that was inserted. -/
theorem get?_ofList (pairs : List (String × String)) (key : String) :
    (ofList pairs).get? key = pairs.reverse.lookup key := by
  have h : (ofList pairs).get? key = (pairs.reverse.lookup key).or none :=
    get?_insertAll empty pairs key
  rw [h, Option.or_none]

/-! ## The index -/

/-- The index leads to the entry that a search finds. -/
theorem get?_eq_lookup (keyset : Keyset) (key : String) :
    keyset.get? key = keyset.entries.lookup key := by
  unfold get?
  cases hplace : keyset.index.get? key with
  | none =>
      have habsent := (keyset.index_eq_none_iff key).1 hplace
      cases hlookup : keyset.entries.lookup key with
      | none => rfl
      | some value => exact absurd (lookup_isSome_iff_mem.1 (by rw [hlookup]; rfl)) habsent
  | some place =>
      obtain ⟨value, hentry⟩ := exists_entry hplace
      have hlookup := (lookup_eq_some_iff_mem keyset.nodup).2 (List.mem_of_getElem? hentry)
      simp only [hentry, Option.map_some, hlookup]

/-- The entries of a keyset determine its index. -/
theorem eq_of_entries_eq {keyset other : Keyset} (h : keyset.entries = other.entries) :
    keyset = other := by
  have hindex : keyset.index = other.index := by
    apply Dictionary.ext_get?
    intro key
    apply Option.ext
    intro place
    rw [keyset.indexes, other.indexes, h]
  cases keyset
  cases other
  cases h
  cases hindex
  rfl

/-! ## Listings -/

theorem perm_indexed (entries : List (String × String)) :
    ((indexed entries).map Prod.snd).Perm (entries.filter fun entry => isIndex entry.1) := by
  induction entries with
  | nil => exact List.Perm.refl _
  | cons entry entries ih =>
      unfold indexed at ih ⊢
      cases hindex : arrayIndex? entry.1 with
      | none => simpa [List.filterMap_cons, hindex, isIndex] using ih
      | some n => simpa [List.filterMap_cons, hindex, isIndex] using ih.cons entry

theorem filter_isNone (entries : List (String × String)) :
    (entries.filter fun entry => (arrayIndex? entry.1).isNone) =
      entries.filter fun entry => !isIndex entry.1 := by
  congr 1
  funext entry
  unfold isIndex
  cases arrayIndex? entry.1 <;> rfl

/-- A listing is a rearrangement of the entries. -/
theorem toList_perm (keyset : Keyset) : keyset.toList.Perm keyset.entries := by
  have hindices : (((indexed keyset.entries).mergeSort fun a b => a.1 ≤ b.1).map Prod.snd).Perm
      (keyset.entries.filter fun entry => isIndex entry.1) :=
    ((List.mergeSort_perm _ _).map Prod.snd).trans (perm_indexed _)
  unfold toList
  rw [filter_isNone]
  exact (hindices.append_right _).trans (List.filter_append_perm _ _)

theorem nodup_keys (keyset : Keyset) : (keyset.toList.map Prod.fst).Nodup :=
  (keyset.toList_perm.map Prod.fst).nodup_iff.2 keyset.nodup

theorem lookup_toList (keyset : Keyset) (key : String) :
    keyset.toList.lookup key = keyset.get? key := by
  rw [get?_eq_lookup]
  exact lookup_eq_of_perm keyset.toList_perm keyset.nodup_keys key

/-- The number of an indexed entry is that of its key. -/
theorem arrayIndex?_of_mem_indexed {entries : List (String × String)}
    {item : Nat × (String × String)} (h : item ∈ indexed entries) :
    arrayIndex? item.2.1 = some item.1 := by
  obtain ⟨entry, _, hentry⟩ := List.mem_filterMap.1 h
  obtain ⟨n, hn, rfl⟩ := Option.map_eq_some_iff.1 hentry
  exact hn

theorem pairwise_sortIndexed (entries : List (String × String)) :
    ((indexed entries).mergeSort fun a b => a.1 ≤ b.1).Pairwise
      fun a b => decide (a.1 ≤ b.1) = true := by
  apply List.pairwise_mergeSort
  · intro a b c hab hbc
    simp only [decide_eq_true_eq] at hab hbc ⊢
    exact Nat.le_trans hab hbc
  · intro a b
    simp only [Bool.or_eq_true, decide_eq_true_eq]
    exact Nat.le_total a.1 b.1

/-- Array indices that were inserted in their order are listed as they were inserted. -/
theorem toList_of_pairwise {keyset : Keyset}
    (h : (indexed keyset.entries).Pairwise fun a b => decide (a.1 ≤ b.1) = true) :
    keyset.toList = (indexed keyset.entries).map Prod.snd ++
      keyset.entries.filter fun entry => (arrayIndex? entry.1).isNone := by
  rw [toList, List.mergeSort_of_pairwise h]

/-- A keyset lists its keys in property order. -/
theorem propertyOrder_keys (keyset : Keyset) {inserted : List String}
    (h : keyset.entries.map Prod.fst = inserted.eraseDups) :
    PropertyOrder inserted keyset.keys := by
  refine ⟨((indexed keyset.entries).mergeSort fun a b => a.1 ≤ b.1).map fun item => item.2.1,
    (keyset.entries.filter fun entry => !isIndex entry.1).map Prod.fst, ?_, ?_, ?_, ?_⟩
  · unfold keys toList
    rw [filter_isNone, List.map_append, List.map_map]
    rfl
  · have hperm := ((List.mergeSort_perm (indexed keyset.entries) fun a b => a.1 ≤ b.1).map
      Prod.snd).trans (perm_indexed keyset.entries)
    have hkeys := hperm.map Prod.fst
    rw [List.map_map] at hkeys
    rw [← h, List.filter_map]
    exact hkeys
  · rw [List.pairwise_map]
    refine (pairwise_sortIndexed keyset.entries).imp_of_mem ?_
    intro a b ha hb hle m n hm hn
    rw [arrayIndex?_of_mem_indexed (List.mem_mergeSort.1 ha)] at hm
    rw [arrayIndex?_of_mem_indexed (List.mem_mergeSort.1 hb)] at hn
    cases hm
    cases hn
    simpa using hle
  · rw [← h, List.filter_map]
    rfl

/-! ## Keysets in property order -/

theorem eraseDups_of_nodup {keys : List String} (h : keys.Nodup) : keys.eraseDups = keys := by
  induction keys with
  | nil => rfl
  | cons key keys ih =>
      obtain ⟨hkey, hrest⟩ := List.nodup_cons.1 h
      have hkeep : (keys.filter fun other => !other == key) = keys := by
        rw [List.filter_eq_self]
        intro other hother
        simpa using fun heq : other = key => hkey (heq ▸ hother)
      rw [List.eraseDups_cons, hkeep, ih hrest]

/-- Pairs with distinct keys stay as they are. -/
theorem entries_ofList {pairs : List (String × String)} (hnodup : (pairs.map Prod.fst).Nodup) :
    (ofList pairs).entries = pairs := by
  refine eq_of_lookup_eq ?_ (ofList pairs).nodup fun key => ?_
  · rw [map_fst_ofList, eraseDups_of_nodup hnodup]
  · rw [← get?_eq_lookup, get?_ofList]
    exact (lookup_eq_of_perm (List.reverse_perm pairs).symm hnodup key).symm

/-- The keyset with its keys inserted in property order. -/
def inPropertyOrder (keyset : Keyset) : Keyset := ofList keyset.toList

/-- The entries of indexed items are indexed as these items. -/
theorem indexed_map_snd {items : List (Nat × (String × String))}
    (h : ∀ item ∈ items, arrayIndex? item.2.1 = some item.1) :
    indexed (items.map Prod.snd) = items := by
  induction items with
  | nil => rfl
  | cons item items ih =>
      have hitem := h item List.mem_cons_self
      have hrest := ih fun other hother => h other (List.mem_cons_of_mem _ hother)
      rw [indexed] at hrest
      rw [indexed, List.map_cons, List.filterMap_cons, hitem, hrest]
      rfl

/-- **A listing is in property order already.** -/
theorem toList_inPropertyOrder (keyset : Keyset) :
    keyset.inPropertyOrder.toList = keyset.toList := by
  have hindices : ∀ item ∈ (indexed keyset.entries).mergeSort fun a b => a.1 ≤ b.1,
      arrayIndex? item.2.1 = some item.1 :=
    fun item hitem => arrayIndex?_of_mem_indexed (List.mem_mergeSort.1 hitem)
  have hindexed : indexed keyset.toList =
      (indexed keyset.entries).mergeSort fun a b => a.1 ≤ b.1 := by
    have hothers : (keyset.entries.filter fun entry => (arrayIndex? entry.1).isNone).filterMap
        (fun entry => (arrayIndex? entry.1).map (·, entry)) = [] := by
      rw [List.filterMap_eq_nil_iff]
      intro entry hentry
      rw [Option.isNone_iff_eq_none.1 (List.mem_filter.1 hentry).2]
      rfl
    have happend := indexed_map_snd hindices
    unfold indexed at happend ⊢
    rw [toList, List.filterMap_append, hothers, List.append_nil]
    exact happend
  have hothers : (keyset.toList.filter fun entry => (arrayIndex? entry.1).isNone) =
      keyset.entries.filter fun entry => (arrayIndex? entry.1).isNone := by
    have hnone : (((indexed keyset.entries).mergeSort fun a b => a.1 ≤ b.1).map Prod.snd).filter
        (fun entry => (arrayIndex? entry.1).isNone) = [] := by
      rw [List.filter_eq_nil_iff]
      intro entry hentry
      obtain ⟨item, hitem, rfl⟩ := List.mem_map.1 hentry
      simp [hindices item hitem]
    rw [toList, List.filter_append, hnone, List.filter_filter]
    simp
  have hentries : keyset.inPropertyOrder.entries = keyset.toList := entries_ofList keyset.nodup_keys
  have hsorted := pairwise_sortIndexed keyset.entries
  rw [← hindexed, ← hentries] at hsorted
  rw [toList_of_pairwise hsorted, hentries, hindexed, hothers]
  rfl

end KeysetBundle.Keyset
