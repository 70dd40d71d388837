import KeysetBundle.Collection.Basic
import KeysetBundle.Proofs.Dictionary
import KeysetBundle.Proofs.Keyset.Listing

/-!
# What a merge of collections holds

A merge has a keyset for each name that one of the collections has
(`get?_merge_isSome`).  The keyset lists its keys in property order, the others
in the order in which the collections first list them
(`propertyOrder_get?_merge`), and a key has the value of the last collection
that gives it one (`get?_get?_merge`).

These three facts say all about a merge: collections that list the same keys
and whose last values agree have the same merge (`merge_congr`), so a value
that a later collection replaces plays no role.
-/

namespace KeysetBundle.Collection

/-- The keys that the collections list in their keysets of a name, one
collection behind the other. -/
def definedKeys (collections : List Collection) (name : String) : List String :=
  collections.flatMap fun collection => ((collection.get? name).map Keyset.keys).getD []

/-- The value that the last collection with a value gives to a key of a keyset. -/
def lastValue? (collections : List Collection) (name key : String) : Option String :=
  (collections.filterMap fun collection => (collection.get? name).bind (·.get? key)).getLast?

/-- The pairs that the collections list in their keysets of a name. -/
def definedPairs (collections : List Collection) (name : String) : List (String × String) :=
  collections.flatMap fun collection => ((collection.get? name).map Keyset.toList).getD []

/-- Whether one of the collections has a keyset of the name. -/
def defines (collections : List Collection) (name : String) : Bool :=
  collections.any fun collection => (collection.get? name).isSome

/-! ## Look-ups in a merge -/

theorem definedPairs_of_not_defines {collections : List Collection} {name : String}
    (h : ¬defines collections name) : definedPairs collections name = [] := by
  have hnone : ∀ collection ∈ collections, collection.get? name = none := by
    simpa [defines] using h
  unfold definedPairs
  rw [List.flatMap_eq_nil_iff]
  intro collection hcollection
  rw [hnone collection hcollection]
  rfl

theorem get?_mergeKeyset (collection : Collection) (name other : String) (keyset : Keyset) :
    (collection.mergeKeyset name keyset).get? other =
      if other = name then
        some (((collection.get? name).getD .empty).insertAll keyset.toList)
      else collection.get? other :=
  Dictionary.get?_insert _ _ _ _

theorem get?_foldl_mergeKeyset {entries : List (String × Keyset)}
    (hnodup : (entries.map Prod.fst).Nodup) (collection : Collection) (name : String) :
    (entries.foldl (fun collection entry => collection.mergeKeyset entry.1 entry.2)
      collection).get? name =
      match entries.lookup name with
      | none => collection.get? name
      | some keyset => some (((collection.get? name).getD .empty).insertAll keyset.toList) := by
  induction entries generalizing collection with
  | nil => rfl
  | cons entry entries ih =>
      obtain ⟨hfirst, hrest⟩ := List.nodup_cons.1 hnodup
      rw [List.foldl_cons, ih hrest, List.lookup_cons]
      by_cases hname : name = entry.1
      · subst hname
        have hnone : entries.lookup entry.1 = none := by
          cases hlookup : entries.lookup entry.1 with
          | none => rfl
          | some keyset =>
              exact absurd (lookup_isSome_iff_mem.1 (by rw [hlookup]; rfl)) hfirst
        rw [hnone, beq_self_eq_true]
        show (collection.mergeKeyset entry.1 entry.2).get? entry.1 = _
        rw [get?_mergeKeyset, if_pos rfl]
      · have hbeq : (name == entry.1) = false := beq_eq_false_iff_ne.2 hname
        have hother :
            (collection.mergeKeyset entry.1 entry.2).get? name = collection.get? name := by
          rw [get?_mergeKeyset, if_neg hname]
        rw [hbeq, hother]

theorem get?_mergeWith (collection later : Collection) (name : String) :
    (collection.mergeWith later).get? name =
      match later.get? name with
      | none => collection.get? name
      | some keyset => some (((collection.get? name).getD .empty).insertAll keyset.toList) :=
  get?_foldl_mergeKeyset later.nodup_keys collection name

/-- A merge inserts the pairs of all collections into the keyset that is there. -/
theorem get?_foldl_mergeWith (collections : List Collection) (collection : Collection)
    (name : String) :
    (collections.foldl mergeWith collection).get? name =
      if defines collections name then
        some (((collection.get? name).getD .empty).insertAll (definedPairs collections name))
      else collection.get? name := by
  induction collections generalizing collection with
  | nil => rfl
  | cons first collections ih =>
      rw [List.foldl_cons, ih, get?_mergeWith]
      cases hfirst : first.get? name with
      | none =>
          have hdefines : defines (first :: collections) name = defines collections name := by
            simp [defines, hfirst]
          have hpairs :
              definedPairs (first :: collections) name = definedPairs collections name := by
            simp [definedPairs, hfirst]
          rw [hdefines, hpairs]
      | some keyset =>
          have hdefines : defines (first :: collections) name = true := by
            simp [defines, hfirst]
          have hpairs : definedPairs (first :: collections) name =
              keyset.toList ++ definedPairs collections name := by
            simp [definedPairs, hfirst]
          have hinsert : ∀ start : Keyset,
              (start.insertAll keyset.toList).insertAll (definedPairs collections name) =
                start.insertAll (keyset.toList ++ definedPairs collections name) := by
            intro start
            unfold Keyset.insertAll
            rw [List.foldl_append]
          rw [if_pos hdefines, hpairs, ← hinsert]
          by_cases hrest : defines collections name
          · rw [if_pos hrest]
            rfl
          · rw [if_neg hrest, definedPairs_of_not_defines hrest]
            rfl

theorem get?_merge (collections : List Collection) (name : String) :
    (merge collections).get? name =
      if defines collections name then some (.ofList (definedPairs collections name)) else none :=
  get?_foldl_mergeWith collections .empty name

/-! ## What the merge says of a name -/

/-- A merge has the names of all collections. -/
theorem get?_merge_isSome {collections : List Collection} {name : String} :
    ((merge collections).get? name).isSome ↔
      ∃ collection ∈ collections, (collection.get? name).isSome := by
  rw [get?_merge]
  cases hdefines : defines collections name with
  | false => simpa [defines] using hdefines
  | true => simpa [defines] using hdefines

theorem map_fst_definedPairs (collections : List Collection) (name : String) :
    (definedPairs collections name).map Prod.fst = definedKeys collections name := by
  unfold definedPairs definedKeys
  rw [List.map_flatMap]
  congr 1
  funext collection
  cases collection.get? name <;> rfl

theorem lookup_definedPairs (collections : List Collection) (name key : String) :
    (definedPairs collections name).reverse.lookup key = lastValue? collections name key := by
  induction collections with
  | nil => rfl
  | cons collection collections ih =>
      cases hname : collection.get? name with
      | none =>
          have hpairs : definedPairs (collection :: collections) name =
              definedPairs collections name := by
            simp [definedPairs, hname]
          have hvalue : lastValue? (collection :: collections) name key =
              lastValue? collections name key := by
            simp [lastValue?, hname]
          rw [hpairs, hvalue, ih]
      | some keyset =>
          have hpairs : definedPairs (collection :: collections) name =
              keyset.toList ++ definedPairs collections name := by
            simp [definedPairs, hname]
          have hreverse : keyset.toList.reverse.lookup key = keyset.get? key := by
            rw [← keyset.lookup_toList]
            apply lookup_eq_of_perm (List.reverse_perm _)
            rw [List.map_reverse]
            exact (List.reverse_perm _).nodup_iff.2 keyset.nodup_keys
          rw [hpairs, List.reverse_append, List.lookup_append, ih, hreverse]
          unfold lastValue?
          cases hkey : keyset.get? key with
          | none => simp [hname, hkey]
          | some value =>
              simp only [List.filterMap_cons, hname, Option.bind_some, hkey]
              rw [List.getLast?_cons]
              cases (collections.filterMap fun collection =>
                (collection.get? name).bind (·.get? key)).getLast? <;> rfl

/-- The keys of a merged keyset stand in property order. -/
theorem propertyOrder_get?_merge {collections : List Collection} {name : String} {keyset : Keyset}
    (h : (merge collections).get? name = some keyset) :
    Keyset.PropertyOrder (definedKeys collections name) keyset.keys := by
  rw [get?_merge] at h
  split at h
  · cases h
    apply Keyset.propertyOrder_keys
    rw [Keyset.map_fst_ofList, map_fst_definedPairs]
  · cases h

/-- A key of a merged keyset has the value of the last collection that gives it one. -/
theorem get?_get?_merge {collections : List Collection} {name : String} {keyset : Keyset}
    (h : (merge collections).get? name = some keyset) (key : String) :
    keyset.get? key = lastValue? collections name key := by
  rw [get?_merge] at h
  split at h
  · cases h
    rw [Keyset.get?_ofList, lookup_definedPairs]
  · cases h

/-! ## Values that are replaced -/

/-- The names of a collection with the keys of their keysets. -/
def outline (collection : Collection) : List (String × List String) :=
  collection.toList.map fun entry => (entry.1, entry.2.keys)

theorem lookup_outline (collection : Collection) (name : String) :
    (outline collection).lookup name = (collection.get? name).map Keyset.keys :=
  lookup_map_snd Keyset.keys collection.toList name

/-- **Only the last values of a merge count**: collections with the same
outlines have the same merge if they agree on them. -/
theorem merge_congr {collections others : List Collection}
    (houtline : collections.map outline = others.map outline)
    (hlast : ∀ name key, lastValue? collections name key = lastValue? others name key) :
    merge collections = merge others := by
  have hlookups : ∀ name, (collections.map fun c => (c.get? name).map Keyset.keys) =
      others.map fun c => (c.get? name).map Keyset.keys := by
    intro name
    have h := congrArg (List.map fun names => names.lookup name) houtline
    rw [List.map_map, List.map_map] at h
    simpa [Function.comp_def, lookup_outline] using h
  have hkeys : ∀ name, definedKeys collections name = definedKeys others name := by
    intro name
    have h := congrArg (List.flatMap fun keys => keys.getD []) (hlookups name)
    rw [List.flatMap_map, List.flatMap_map] at h
    exact h
  have hdefines : ∀ name, defines collections name = defines others name := by
    intro name
    have h := congrArg (List.any · Option.isSome) (hlookups name)
    simpa [List.any_map, Function.comp_def, defines] using h
  apply Dictionary.ext_get?
  intro name
  rw [get?_merge, get?_merge, hdefines name]
  split
  · refine congrArg some (Keyset.eq_of_entries_eq (eq_of_lookup_eq ?_ (Keyset.nodup _) ?_))
    · rw [Keyset.map_fst_ofList, Keyset.map_fst_ofList, map_fst_definedPairs,
        map_fst_definedPairs, hkeys name]
    · intro key
      rw [← Keyset.get?_eq_lookup, ← Keyset.get?_eq_lookup, Keyset.get?_ofList,
        Keyset.get?_ofList, lookup_definedPairs, lookup_definedPairs,
        hlast name key]
  · rfl

end KeysetBundle.Collection
