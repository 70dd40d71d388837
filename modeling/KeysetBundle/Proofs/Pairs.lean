/-!
# Lists of pairs as maps

Where the keys of a list of pairs are distinct, looking a key up finds its only
pair.  The order of the pairs then plays no role for look-ups
(`lookup_eq_of_perm`), and keys and look-ups together determine the list
(`eq_of_lookup_eq`).
-/

namespace KeysetBundle

universe u v

variable {α : Type u} {β : Type v} [DecidableEq α]

omit [DecidableEq α] in
/-- Elements with distinct keys are known by their keys. -/
theorem eq_of_nodup_map {γ : Type v} {f : γ → α} {items : List γ} {a b : γ}
    (hnodup : (items.map f).Nodup) (ha : a ∈ items) (hb : b ∈ items) (heq : f a = f b) : a = b := by
  induction items with
  | nil => cases ha
  | cons item items ih =>
      obtain ⟨hitem, hrest⟩ := List.nodup_cons.1 hnodup
      have hne : ∀ other ∈ items, f item ≠ f other := by
        intro other hother hsame
        exact hitem (List.mem_map.2 ⟨other, hother, hsame.symm⟩)
      rcases List.mem_cons.1 ha with ha | ha
      · rcases List.mem_cons.1 hb with hb | hb
        · rw [ha, hb]
        · rw [ha] at heq
          exact absurd heq (hne b hb)
      · rcases List.mem_cons.1 hb with hb | hb
        · rw [hb] at heq
          exact absurd heq.symm (hne a ha)
        · exact ih hrest ha hb

omit [DecidableEq α] in
theorem lookup_eq_some_iff_mem [BEq α] [LawfulBEq α] {pairs : List (α × β)}
    (hnodup : (pairs.map Prod.fst).Nodup) {key : α} {value : β} :
    pairs.lookup key = some value ↔ (key, value) ∈ pairs := by
  induction pairs with
  | nil => simp
  | cons pair pairs ih =>
      obtain ⟨first, other⟩ := pair
      obtain ⟨hfirst, hrest⟩ := List.nodup_cons.1 hnodup
      rw [List.lookup_cons]
      by_cases hkey : key = first
      · subst hkey
        have habsent : ∀ v, (key, v) ∉ pairs :=
          fun v hv => hfirst (List.mem_map.2 ⟨_, hv, rfl⟩)
        simp [habsent, eq_comm]
      · have hbeq : (key == first) = false := beq_eq_false_iff_ne.2 hkey
        simp [hbeq, ih hrest, hkey]

theorem lookup_eq_of_perm {pairs others : List (α × β)} (hperm : pairs.Perm others)
    (hnodup : (pairs.map Prod.fst).Nodup) (key : α) : pairs.lookup key = others.lookup key := by
  have hothers : (others.map Prod.fst).Nodup := (hperm.map Prod.fst).nodup_iff.1 hnodup
  apply Option.ext
  intro value
  rw [lookup_eq_some_iff_mem hnodup, lookup_eq_some_iff_mem hothers]
  exact hperm.mem_iff

theorem lookup_isSome_iff_mem {pairs : List (α × β)} {key : α} :
    (pairs.lookup key).isSome ↔ key ∈ pairs.map Prod.fst := by
  induction pairs with
  | nil => simp
  | cons pair pairs ih =>
      rw [List.lookup_cons]
      by_cases hkey : key = pair.1
      · simp [hkey]
      · have hbeq : (key == pair.1) = false := beq_eq_false_iff_ne.2 hkey
        simp [hbeq, ih, hkey]

/-- Lists with the same distinct keys and the same values are the same. -/
theorem eq_of_lookup_eq {pairs others : List (α × β)}
    (hkeys : pairs.map Prod.fst = others.map Prod.fst)
    (hnodup : (pairs.map Prod.fst).Nodup)
    (hlookup : ∀ key, pairs.lookup key = others.lookup key) : pairs = others := by
  induction pairs generalizing others with
  | nil =>
      cases others with
      | nil => rfl
      | cons other others => cases hkeys
  | cons pair pairs ih =>
      cases others with
      | nil => cases hkeys
      | cons other others =>
          obtain ⟨key, value⟩ := pair
          obtain ⟨key', value'⟩ := other
          obtain ⟨hkey, hrest⟩ := List.cons.inj hkeys
          obtain ⟨hfirst, hnodup⟩ := List.nodup_cons.1 hnodup
          change key = key' at hkey
          subst hkey
          have hvalue := hlookup key
          rw [List.lookup_cons_self, List.lookup_cons_self] at hvalue
          cases hvalue
          have htail : ∀ other, pairs.lookup other = others.lookup other := by
            intro other
            by_cases heq : other = key
            · have hnone : ∀ list : List (α × β), key ∉ list.map Prod.fst →
                  list.lookup key = none := by
                intro list habsent
                cases hcase : list.lookup key with
                | none => rfl
                | some found => exact absurd (lookup_isSome_iff_mem.1 (by simp [hcase])) habsent
              rw [heq, hnone pairs hfirst, hnone others (hrest ▸ hfirst)]
            · have hother := hlookup other
              have hbeq : (other == key) = false := beq_eq_false_iff_ne.2 heq
              rw [List.lookup_cons, List.lookup_cons] at hother
              simpa [hbeq] using hother
          rw [ih hrest hnodup htail]

/-- What is inserted last is found, in anything from which an insertion is read back. -/
theorem get_foldl_insert {γ : Type v} {get : γ → α → Option β} {insert : γ → α → β → γ}
    (h : ∀ store key value other,
      get (insert store key value) other = if other = key then some value else get store other)
    (store : γ) (pairs : List (α × β)) (key : α) :
    get (pairs.foldl (fun store pair => insert store pair.1 pair.2) store) key =
      (pairs.reverse.lookup key).or (get store key) := by
  induction pairs generalizing store with
  | nil => rfl
  | cons pair pairs ih =>
      obtain ⟨first, value⟩ := pair
      rw [List.foldl_cons, ih, h, List.reverse_cons, List.lookup_append, Option.or_assoc,
        List.lookup_cons]
      by_cases hkey : key = first
      · simp [hkey]
      · have hbeq : (key == first) = false := beq_eq_false_iff_ne.2 hkey
        simp [hkey, hbeq]

/-- The pairs of a list that are found under a key agree with a look-up. -/
theorem lookup_map_snd {γ : Type v} (f : β → γ) (pairs : List (α × β)) (key : α) :
    (pairs.map fun pair => (pair.1, f pair.2)).lookup key = (pairs.lookup key).map f := by
  induction pairs with
  | nil => rfl
  | cons pair pairs ih =>
      rw [List.map_cons, List.lookup_cons, List.lookup_cons]
      split
      · rfl
      · exact ih

end KeysetBundle
