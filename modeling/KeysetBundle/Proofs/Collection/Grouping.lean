import KeysetBundle.Proofs.Collection.Merge
import KeysetBundle.Proofs.Collection.Source
import KeysetBundle.Proofs.Keyset.ObjectModel

/-!
# Merging in groups

A merge says for each name and key what the last collection says that defines
the two (`value?_merge`), and its keys that are no array indices stand in the
order in which the collections list them first (`otherKeys_merge`).  A listing
depends on nothing else (`listing_congr`).

Merging therefore needs not be done at once: the merge of the merges of some
groups lists what the merge of all collections lists
(`listing_merge_flatten`), and so does a merge in which collections are
repeated (`listing_merge_append_self`).  The two merges need not be equal as
they are stored: the merge of a group lists its array indices first, and the
next merge takes them in this order.

* `merge_lastWins_grouping`: all of this in one statement.
-/

namespace KeysetBundle

/-! ## First occurrences -/

theorem eraseDups_filter (p : String → Bool) (keys : List String) :
    (keys.filter p).eraseDups = keys.eraseDups.filter p := by
  cases keys with
  | nil => rfl
  | cons key rest =>
      have hrest := eraseDups_filter p (rest.filter fun other => !other == key)
      rw [List.filter_cons, List.eraseDups_cons, List.filter_cons]
      cases hkey : p key with
      | true =>
          rw [if_pos rfl, if_pos rfl, List.eraseDups_cons, ← hrest, List.filter_filter,
            List.filter_filter]
          simp only [Bool.and_comm]
      | false =>
          -- the key does not pass, so it makes no difference that it is left out of the rest
          have hdrop : rest.filter p = (rest.filter fun other => !other == key).filter p := by
            rw [List.filter_filter]
            refine List.filter_congr fun other _ => ?_
            by_cases hother : other = key
            · simp [hother, hkey]
            · simp [hother]
          rw [if_neg nofun, if_neg nofun, hdrop, hrest]
termination_by keys.length
decreasing_by
  have hlength := List.length_filter_le (fun other => !other == key) rest
  rw [List.length_cons]
  omega

/-- What stands behind counts by its first occurrences only. -/
theorem eraseDups_append_congr {keys others behind beyond : List String}
    (hkeys : keys.eraseDups = others.eraseDups) (hbehind : behind.eraseDups = beyond.eraseDups) :
    (keys ++ behind).eraseDups = (others ++ beyond).eraseDups := by
  have hremove : behind.removeAll keys = behind.removeAll others := by
    refine List.filter_congr fun key _ => ?_
    have hmem : key ∈ keys ↔ key ∈ others := by
      rw [← List.mem_eraseDups, hkeys, List.mem_eraseDups]
    simp [hmem]
  have hrest : (behind.removeAll others).eraseDups = (beyond.removeAll others).eraseDups := by
    rw [List.removeAll, List.removeAll, eraseDups_filter, eraseDups_filter, hbehind]
  rw [List.eraseDups_append, List.eraseDups_append, hkeys, hremove, hrest]

namespace Collection

/-! ## What a collection says of a name -/

/-- The value of a key in the keyset of a name. -/
def value? (collection : Collection) (name key : String) : Option String :=
  (collection.get? name).bind (·.get? key)

/-- The keys of the keyset of a name as they are listed, without the array indices. -/
def otherKeys (collection : Collection) (name : String) : List String :=
  (((collection.get? name).map Keyset.keys).getD []).filter fun key => !Keyset.isIndex key

/-- The keys that are no array indices, one collection behind the other. -/
def definedOtherKeys (collections : List Collection) (name : String) : List String :=
  collections.flatMap fun collection => collection.otherKeys name

theorem nodup_otherKeys (collection : Collection) (name : String) :
    (collection.otherKeys name).Nodup := by
  refine List.Nodup.sublist List.filter_sublist ?_
  cases collection.get? name with
  | none => exact List.nodup_nil
  | some keyset => exact keyset.nodup_keys

theorem lookup_listing (collection : Collection) (name : String) :
    collection.listing.lookup name = (collection.get? name).map Keyset.toList :=
  lookup_map_snd Keyset.toList collection.toList name

/-- **What a listing depends on**: the names, the values of the keys, and the order of the keys
that are no array indices. -/
theorem listing_congr {collection other : Collection}
    (hnames : ∀ name, (collection.get? name).isSome = (other.get? name).isSome)
    (hvalues : ∀ name key, collection.value? name key = other.value? name key)
    (hothers : ∀ name, collection.otherKeys name = other.otherKeys name) :
    collection.listing = other.listing := by
  have hlists : ∀ name, (collection.get? name).map Keyset.toList =
      (other.get? name).map Keyset.toList := by
    intro name
    have hname := hnames name
    have hvalue := hvalues name
    have hother := hothers name
    unfold value? at hvalue
    unfold otherKeys at hother
    cases hleft : collection.get? name with
    | none =>
        rw [hleft] at hname
        have hright : other.get? name = none := Option.isSome_eq_false_iff.1 hname.symm |>
          Option.isNone_iff_eq_none.1
        rw [hright]
    | some keyset =>
        rw [hleft] at hname hvalue hother
        obtain ⟨keyset', hright⟩ := Option.isSome_iff_exists.1 hname.symm
        rw [hright] at hvalue hother ⊢
        exact congrArg some (Keyset.toList_congr hvalue hother)
  have hascending : ∀ any : Collection, any.listing.Pairwise fun a b => a.1 < b.1 := by
    intro any
    unfold listing
    rw [List.pairwise_map]
    exact any.ascending
  let listed (any : Collection) : Dictionary (List (String × String)) :=
    ⟨any.listing, hascending any⟩
  have heq : listed collection = listed other := by
    refine Dictionary.ext_get? fun name => ?_
    show collection.listing.lookup name = other.listing.lookup name
    rw [lookup_listing, lookup_listing, hlists]
  exact congrArg Dictionary.entries heq

/-! ## What a merge says of a name -/

theorem lastValue?_eq (collections : List Collection) (name key : String) :
    lastValue? collections name key =
      collections.reverse.findSome? fun collection => collection.value? name key :=
  List.getLast?_filterMap

theorem lastValue?_append (collections others : List Collection) (name key : String) :
    lastValue? (collections ++ others) name key =
      (lastValue? others name key).or (lastValue? collections name key) := by
  rw [lastValue?_eq, lastValue?_eq, lastValue?_eq, List.reverse_append, List.findSome?_append]

/-- A merge has the value of the last collection that defines a name and a key. -/
theorem value?_merge (collections : List Collection) (name key : String) :
    (merge collections).value? name key = lastValue? collections name key := by
  unfold value?
  cases hmerge : (merge collections).get? name with
  | some keyset => exact get?_get?_merge hmerge key
  | none =>
      have hnone : ∀ collection ∈ collections, collection.value? name key = none := by
        intro collection hcollection
        cases hname : collection.get? name with
        | none => rw [value?, hname, Option.bind_none]
        | some keyset =>
            have hsome := get?_merge_isSome.2 ⟨collection, hcollection, by rw [hname]; rfl⟩
            rw [hmerge] at hsome
            nomatch hsome
      rw [lastValue?_eq, eq_comm, Option.bind_none, List.findSome?_eq_none_iff]
      exact fun collection hcollection => hnone collection (List.mem_reverse.1 hcollection)

theorem definedOtherKeys_eq (collections : List Collection) (name : String) :
    definedOtherKeys collections name =
      (definedKeys collections name).filter fun key => !Keyset.isIndex key := by
  unfold definedOtherKeys definedKeys otherKeys
  rw [List.filter_flatMap]

/-- A merge lists the keys that are no array indices as the collections list them first. -/
theorem otherKeys_merge (collections : List Collection) (name : String) :
    (merge collections).otherKeys name = (definedOtherKeys collections name).eraseDups := by
  rw [definedOtherKeys_eq, eraseDups_filter]
  unfold otherKeys
  rw [get?_merge]
  split
  · rw [Option.map_some, Option.getD_some, Keyset.filter_keys, Keyset.map_fst_ofList,
      map_fst_definedPairs]
  · rename_i hdefines
    rw [← map_fst_definedPairs, definedPairs_of_not_defines hdefines]
    rfl

/-! ## Groups -/

theorem lastValue?_map_merge (groups : List (List Collection)) (name key : String) :
    lastValue? (groups.map merge) name key = lastValue? groups.flatten name key := by
  induction groups with
  | nil => rfl
  | cons group groups ih =>
      have hfirst : lastValue? [merge group] name key = lastValue? group name key := by
        rw [← value?_merge group, lastValue?_eq]
        cases hvalue : (merge group).value? name key <;> simp [hvalue]
      have hrest : lastValue? ([merge group] ++ groups.map merge) name key = _ :=
        lastValue?_append [merge group] (groups.map merge) name key
      rw [List.flatten_cons, lastValue?_append, ← ih, ← hfirst]
      exact hrest

theorem definedOtherKeys_map_merge (groups : List (List Collection)) (name : String) :
    (definedOtherKeys (groups.map merge) name).eraseDups =
      (definedOtherKeys groups.flatten name).eraseDups := by
  induction groups with
  | nil => rfl
  | cons group groups ih =>
      have hfirst : ((merge group).otherKeys name).eraseDups =
          (definedOtherKeys group name).eraseDups := by
        rw [← otherKeys_merge, Keyset.eraseDups_of_nodup ((merge group).nodup_otherKeys name)]
      have hflatten : definedOtherKeys (group :: groups).flatten name =
          definedOtherKeys group name ++ definedOtherKeys groups.flatten name :=
        List.flatMap_append
      rw [hflatten]
      exact eraseDups_append_congr hfirst ih

/-- **Merging in groups** lists what merging all at once lists. -/
theorem listing_merge_flatten (groups : List (List Collection)) :
    (merge (groups.map merge)).listing = (merge groups.flatten).listing := by
  refine listing_congr (fun name => ?_) (fun name key => ?_) (fun name => ?_)
  · rw [Bool.eq_iff_iff, get?_merge_isSome, get?_merge_isSome]
    simp only [List.mem_map, List.mem_flatten, exists_exists_and_eq_and, get?_merge_isSome]
    exact ⟨fun ⟨group, hgroup, c, hc, hname⟩ => ⟨c, ⟨group, hgroup, hc⟩, hname⟩,
      fun ⟨c, ⟨group, hgroup, hc⟩, hname⟩ => ⟨group, hgroup, c, hc, hname⟩⟩
  · rw [value?_merge, value?_merge, lastValue?_map_merge]
  · rw [otherKeys_merge, otherKeys_merge, definedOtherKeys_map_merge]

/-- **Repetition**: collections that are merged again at the end change nothing. -/
theorem listing_merge_append_self (collections : List Collection) :
    (merge (collections ++ collections)).listing = (merge collections).listing := by
  refine listing_congr (fun name => ?_) (fun name key => ?_) (fun name => ?_)
  · rw [Bool.eq_iff_iff, get?_merge_isSome, get?_merge_isSome]
    simp only [List.mem_append, or_self]
  · rw [value?_merge, value?_merge, lastValue?_append]
    cases lastValue? collections name key <;> rfl
  · have happend : definedOtherKeys (collections ++ collections) name =
        definedOtherKeys collections name ++ definedOtherKeys collections name :=
      List.flatMap_append
    have hremove : ∀ keys : List String, keys.removeAll keys = [] := fun keys =>
      List.filter_eq_nil_iff.2 fun key hkey => by simp [hkey]
    rw [otherKeys_merge, otherKeys_merge, happend, List.eraseDups_append, hremove,
      List.eraseDups_nil, List.append_nil]

/-- **The law of merges.**

* A merge has the names of all collections.
* The value of a key is that of the last collection that defines the name and the key; there is
  none if no collection defines them.
* The keys that are no array indices stand in the order in which the collections list them first,
  one collection behind the other.
* Whether the collections are merged at once or in two groups, and whether they are merged once or
  twice, the names are the same and each keyset lists the same keys and values in the same order. -/
theorem merge_lastWins_grouping (collections : List Collection) :
    (∀ name, ((merge collections).get? name).isSome ↔
        ∃ collection ∈ collections, (collection.get? name).isSome) ∧
      (∀ name key value, (merge collections).value? name key = some value ↔
        ∃ before collection after, collections = before ++ collection :: after ∧
          collection.value? name key = some value ∧
          ∀ later ∈ after, later.value? name key = none) ∧
      (∀ name key, (merge collections).value? name key = none ↔
        ∀ collection ∈ collections, collection.value? name key = none) ∧
      (∀ name, (merge collections).otherKeys name =
        (collections.flatMap fun collection => collection.otherKeys name).eraseDups) ∧
      (∀ others, (merge (collections ++ others)).listing =
        (merge [merge collections, merge others]).listing) ∧
      (merge (collections ++ collections)).listing = (merge collections).listing := by
  refine ⟨fun name => get?_merge_isSome, fun name key value => ?last, fun name key => ?absent,
    otherKeys_merge collections, fun others => ?groups, listing_merge_append_self collections⟩
  case last =>
    rw [value?_merge, lastValue?_eq, List.findSome?_eq_some_iff]
    constructor
    · rintro ⟨after, collection, before, hsplit, hvalue, hnone⟩
      refine ⟨before.reverse, collection, after.reverse, ?_, hvalue, ?_⟩
      · rw [← List.reverse_reverse collections, hsplit]
        simp
      · exact fun later hlater => hnone later (List.mem_reverse.1 hlater)
    · rintro ⟨before, collection, after, rfl, hvalue, hnone⟩
      refine ⟨after.reverse, collection, before.reverse, by simp, hvalue, ?_⟩
      exact fun later hlater => hnone later (List.mem_reverse.1 hlater)
  case absent =>
    rw [value?_merge, lastValue?_eq, List.findSome?_eq_none_iff]
    simp only [List.mem_reverse]
  case groups =>
    have h := listing_merge_flatten [collections, others]
    rw [List.flatten_cons, List.flatten_cons, List.flatten_nil, List.append_nil] at h
    exact h.symm

example :
    let first : Collection := .ofList [("s", .ofList [("b", "1"), ("10", "2")])]
    let second : Collection := .ofList [("s", .ofList [("2", "3"), ("b", "4")])]
    let stored (collection : Collection) := (collection.get? "s").map (·.entries)
    stored (merge [first, second]) = some [("10", "2"), ("b", "4"), ("2", "3")] ∧
      stored (merge [merge [first, second]]) = some [("2", "3"), ("10", "2"), ("b", "4")] := by
  cbv

end Collection

end KeysetBundle
