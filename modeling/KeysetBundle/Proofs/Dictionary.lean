import KeysetBundle.Dictionary
import KeysetBundle.Proofs.Pairs

/-!
# Dictionaries are determined by their look-ups

The keys of a dictionary ascend strictly, so each of them occurs once and the
entries stand in the only order they can have.  Two dictionaries with the same
look-ups are therefore equal (`ext_get?`).
-/

namespace KeysetBundle.Dictionary

universe u

variable {α : Type u}

theorem nodup_keys (d : Dictionary α) : (d.entries.map Prod.fst).Nodup := by
  rw [List.nodup_iff_pairwise_ne, List.pairwise_map]
  refine d.ascending.imp ?_
  intro a b hlt heq
  rw [heq] at hlt
  exact String.lt_irrefl _ hlt

theorem get?_eq_some_iff_mem (d : Dictionary α) {key : String} {value : α} :
    d.get? key = some value ↔ (key, value) ∈ d.toList :=
  lookup_eq_some_iff_mem d.nodup_keys

theorem get?_isSome_iff_mem (d : Dictionary α) {key : String} :
    (d.get? key).isSome ↔ key ∈ d.toList.map Prod.fst :=
  lookup_isSome_iff_mem

/-- The value of a key is the last one that was inserted. -/
theorem get?_ofList (pairs : List (String × α)) (key : String) :
    (ofList pairs).get? key = pairs.reverse.lookup key := by
  have h : (ofList pairs).get? key = (pairs.reverse.lookup key).or none :=
    get_foldl_insert (fun d key value other => get?_insert d key other value) empty pairs key
  rw [h, Option.or_none]

/-- **A dictionary is determined by its look-ups.** -/
theorem ext_get? {c d : Dictionary α} (h : ∀ key, c.get? key = d.get? key) : c = d := by
  have hnodup : ∀ e : Dictionary α, e.entries.Nodup := by
    intro e
    have hkeys := e.nodup_keys
    rw [List.nodup_iff_pairwise_ne, List.pairwise_map] at hkeys
    exact hkeys.imp fun hne heq => hne (congrArg Prod.fst heq)
  have hperm : c.entries.Perm d.entries := by
    rw [List.perm_ext_iff_of_nodup (hnodup c) (hnodup d)]
    rintro ⟨key, value⟩
    have hc : c.get? key = some value ↔ _ := c.get?_eq_some_iff_mem
    have hd : d.get? key = some value ↔ _ := d.get?_eq_some_iff_mem
    rw [h key] at hc
    exact hc.symm.trans hd
  apply ext
  refine hperm.eq_of_pairwise ?_ c.ascending d.ascending
  intro a b _ _ hlt hgt
  exact absurd hgt (String.lt_asymm hlt)

end KeysetBundle.Dictionary
