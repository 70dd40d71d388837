import KeysetBundle.Files.World

/-!
# Look-ups in module caches

A module cache answers by the components of a path, so all spellings of a path
share one text (`get?_of_same`).  Dropping a path and putting a text for it
change the answers for its spellings and for no other path (`get?_drop`,
`get?_put`).
-/

namespace KeysetBundle

namespace Path

variable {path other third : Path}

theorem same_refl (path : Path) : path.same path = true := beq_self_eq_true _

theorem same_symm (h : path.same other = true) : other.same path = true :=
  beq_iff_eq.2 (beq_iff_eq.1 h).symm

theorem same_trans (h : path.same other = true) (h' : other.same third = true) :
    path.same third = true :=
  beq_iff_eq.2 ((beq_iff_eq.1 h).trans (beq_iff_eq.1 h'))

end Path

namespace Files.ModuleCache

variable (cache : ModuleCache) (text : String)

theorem get?_of_same {path other : Path} (h : path.same other = true) :
    cache.get? path = cache.get? other := by
  unfold get?
  congr 2
  funext entry
  rw [Path.same, Path.same, beq_iff_eq.1 h]

/-- A look-up after a path was dropped. -/
theorem get?_drop (path other : Path) :
    (cache.drop path).get? other = if path.same other then none else cache.get? other := by
  unfold get? drop
  rw [List.find?_filter]
  split
  · rename_i hsame
    rw [Option.map_eq_none_iff, List.find?_eq_none]
    intro entry _ hentry
    obtain ⟨hkept, hother⟩ := of_decide_eq_true hentry
    rw [Path.same_trans hother (Path.same_symm hsame)] at hkept
    cases hkept
  · rename_i hother
    congr 2
    funext entry
    by_cases hentry : entry.1.same other = true
    · have hkept : entry.1.same path = false := by
        rw [← Bool.not_eq_true]
        exact fun hsame => hother (Path.same_trans (Path.same_symm hsame) hentry)
      rw [hentry, hkept]
      rfl
    · rw [Bool.not_eq_true] at hentry
      rw [hentry]
      simp

/-- A look-up after a text was put for a path. -/
theorem get?_put (path other : Path) :
    (cache.put path text).get? other = if path.same other then some text else cache.get? other := by
  have hput : (cache.put path text).get? other =
      if path.same other then some text else (cache.drop path).get? other := by
    unfold get? put
    rw [List.find?_cons]
    cases path.same other <;> rfl
  rw [hput, get?_drop]
  split
  · rfl
  · rfl

end Files.ModuleCache

end KeysetBundle
