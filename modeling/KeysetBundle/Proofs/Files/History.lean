import Mathlib.Data.List.Induction
import Mathlib.Data.Set.Card
import KeysetBundle.Proofs.Files.ModuleCache
import KeysetBundle.Proofs.Files.Program

/-!
# What a module cache holds after a history

A history is a list of events: modules are read and dropped, texts are read, and
in between the files are changed from outside.  The cache begins empty.  What it
holds for a path in the end is what the history says: the content that the file
had when the module was read for the first time after the last drop.  Paths with
the same components are one path here.

Main results.

- `isSome_get?_through`: for which paths a copy is held.
- `get?_through_eq_some_iff`: which text the copy has.
- `ModuleCache.encard_held`: the number of texts in a cache.
- `readModule_history`: what reading gives after any history.
-/

namespace KeysetBundle.Files

/-! ## Histories -/

/-- What can happen to the files and the module cache of a world. -/
inductive ModuleEvent
  /-- The files are changed from outside: written, removed or both. -/
  | edit (tree : FileTree)
  /-- A module is read. -/
  | read (path : Path)
  /-- A module is dropped from the cache. -/
  | drop (path : Path)
  /-- A text is read. -/
  | readText (path : Path)

/-- The world after an event. -/
def ModuleEvent.effect (world : World) : ModuleEvent → World
  | .edit tree => { world with tree }
  | .read path => (world.run (readModule path)).2
  | .drop path => (world.run (dropModule path)).2
  | .readText path => (world.run (Files.readText path)).2

/-- The world after a history. -/
def World.through (world : World) (events : List ModuleEvent) : World :=
  events.foldl ModuleEvent.effect world

/-- The text that a path has in a world. -/
def World.textAt (world : World) (path : Path) : Except Failure String :=
  world.tree.readText world.current path

namespace ModuleEvent

/-- The event reads a module successfully, at a spelling of the path. -/
def Reads (world : World) (path : Path) (event : ModuleEvent) : Prop :=
  ∃ other text, event = .read other ∧ other.same path ∧
    (world.run (readModule other)).1 = .ok text

/-- The event drops a module, at a spelling of the path. -/
def Drops (path : Path) (event : ModuleEvent) : Prop :=
  ∃ other, event = .drop other ∧ other.same path

end ModuleEvent

section

variable (start : World) (events : List ModuleEvent) (path : Path)

/-- At a place of a history the module of the path is read successfully. -/
def ReadsAt (i : Nat) : Prop :=
  ∃ event, events[i]? = some event ∧ event.Reads (start.through (events.take i)) path

/-- At a place of a history the module of the path is dropped. -/
def DropsAt (i : Nat) : Prop := ∃ event, events[i]? = some event ∧ event.Drops path

/-- A module was read successfully and has not been dropped since. -/
def IsHeld : Prop := ∃ i, ReadsAt start events path i ∧ ∀ j, i < j → ¬DropsAt events path j

/-- At a place of a history the module was read successfully for the first time after the last
drop, and the file had this text then. -/
structure FirstRead (i : Nat) (text : String) : Prop where
  /-- The module was read. -/
  reads : ReadsAt start events path i
  /-- Whenever it was read before, it was dropped in between. -/
  first : ∀ j, j < i → ReadsAt start events path j → ∃ k, j < k ∧ k < i ∧ DropsAt events path k
  /-- It has not been dropped since. -/
  kept : ∀ j, i < j → ¬DropsAt events path j
  /-- The text of the file. -/
  content : ∃ other, events[i]? = some (.read other) ∧
    (start.through (events.take i)).textAt other = .ok text

end

variable {start world : World} {events : List ModuleEvent} {event : ModuleEvent}
  {path other : Path} {text : String} {i : Nat}

theorem through_append (world : World) (events more : List ModuleEvent) :
    world.through (events ++ more) = (world.through events).through more := List.foldl_append

theorem through_concat (world : World) (events : List ModuleEvent) (event : ModuleEvent) :
    world.through (events ++ [event]) = event.effect (world.through events) :=
  List.foldl_concat _ _ _ _

/-! ## One event -/

theorem run_readModule_of_some (h : world.modules.get? path = some text) :
    world.run (readModule path) = (.ok text, world) := by
  have hcached : World.answer (.cachedModule path) world = (some text, world) :=
    congrArg (·, world) h
  rw [World.run, run_readModule, hcached]

theorem run_readModule_of_none (h : world.modules.get? path = none) :
    world.run (readModule path) =
      match world.textAt path with
      | .ok text => (.ok text, { world with modules := world.modules.put path text })
      | .error failure => (.error failure, world) := by
  have hcached : World.answer (.cachedModule path) world = (none, world) :=
    congrArg (·, world) h
  have hread : World.answer (.readText path) world = (world.textAt path, world) := rfl
  rw [World.run, run_readModule, hcached]
  dsimp only
  rw [hread]
  cases world.textAt path <;> rfl

/-- Reading gives a text exactly if the cache holds it afterwards. -/
theorem readModule_eq_ok_iff (world : World) (path : Path) (text : String) :
    (world.run (readModule path)).1 = .ok text ↔
      (world.run (readModule path)).2.modules.get? path = some text := by
  cases hget : world.modules.get? path with
  | some held =>
      rw [run_readModule_of_some hget, hget]
      exact ⟨fun h => by cases h; rfl, fun h => by cases h; rfl⟩
  | none =>
      rw [run_readModule_of_none hget]
      cases world.textAt path with
      | error failure =>
          dsimp only
          rw [hget]
          exact ⟨nofun, nofun⟩
      | ok found =>
          dsimp only
          rw [ModuleCache.get?_put, if_pos (Path.same_refl path)]
          exact ⟨fun h => by cases h; rfl, fun h => by cases h; rfl⟩

/-- Reading fails exactly if no copy is held and the file cannot be read; then nothing changes. -/
theorem readModule_eq_error_iff (world : World) (path : Path) (failure : Failure) :
    (world.run (readModule path)).1 = .error failure ↔
      world.modules.get? path = none ∧ world.textAt path = .error failure := by
  cases hget : world.modules.get? path with
  | some held =>
      rw [run_readModule_of_some hget]
      exact ⟨nofun, nofun⟩
  | none =>
      rw [run_readModule_of_none hget]
      cases world.textAt path with
      | error cause => exact ⟨fun h => by cases h; exact ⟨rfl, rfl⟩, fun h => by cases h.2; rfl⟩
      | ok found => exact ⟨nofun, nofun⟩

/-! ## The cache after an event -/

/-- A text stays in the cache until its module is dropped. -/
theorem get?_effect_of_some (hdrop : ¬event.Drops path) (h : world.modules.get? path = some text) :
    (event.effect world).modules.get? path = some text := by
  cases event with
  | edit tree => exact h
  | readText other => exact h
  | drop other =>
      have hother : ¬other.same path := fun hsame => hdrop ⟨other, rfl, hsame⟩
      show (world.modules.drop other).get? path = some text
      rw [ModuleCache.get?_drop, if_neg hother, h]
  | read other =>
      show (world.run (readModule other)).2.modules.get? path = some text
      cases hget : world.modules.get? other with
      | some held => rw [run_readModule_of_some hget, h]
      | none =>
          have hother : ¬other.same path := by
            intro hsame
            rw [ModuleCache.get?_of_same _ hsame, h] at hget
            cases hget
          rw [run_readModule_of_none hget]
          cases world.textAt other with
          | error failure => exact h
          | ok found =>
              show (world.modules.put other found).get? path = some text
              rw [ModuleCache.get?_put, if_neg hother, h]

/-- Reading a module leaves the texts of other paths as they are. -/
theorem get?_readModule_of_not_same (hother : ¬other.same path) :
    (world.run (readModule other)).2.modules.get? path = world.modules.get? path := by
  cases hget : world.modules.get? other with
  | some held => rw [run_readModule_of_some hget]
  | none =>
      rw [run_readModule_of_none hget]
      cases world.textAt other with
      | error failure => rfl
      | ok found =>
          show (world.modules.put other found).get? path = _
          rw [ModuleCache.get?_put, if_neg hother]

/-- A module comes into the cache only by being read. -/
theorem isSome_get?_effect_of_none (h : world.modules.get? path = none) :
    ((event.effect world).modules.get? path).isSome ↔ event.Reads world path := by
  cases event with
  | edit tree =>
      show (world.modules.get? path).isSome ↔ _
      rw [h]
      exact ⟨nofun, fun ⟨_, _, hread, _⟩ => nomatch hread⟩
  | readText other =>
      show (world.modules.get? path).isSome ↔ _
      rw [h]
      exact ⟨nofun, fun ⟨_, _, hread, _⟩ => nomatch hread⟩
  | drop other =>
      show ((world.modules.drop other).get? path).isSome ↔ _
      rw [ModuleCache.get?_drop, h, ite_self]
      exact ⟨nofun, fun ⟨_, _, hread, _⟩ => nomatch hread⟩
  | read other =>
      show ((world.run (readModule other)).2.modules.get? path).isSome ↔ _
      by_cases hsame : other.same path
      · rw [← ModuleCache.get?_of_same _ hsame, Option.isSome_iff_exists]
        constructor
        · rintro ⟨text, htext⟩
          exact ⟨other, text, rfl, hsame, (readModule_eq_ok_iff world other text).2 htext⟩
        · rintro ⟨_, text, hread, -, htext⟩
          cases hread
          exact ⟨text, (readModule_eq_ok_iff world other text).1 htext⟩
      · rw [get?_readModule_of_not_same hsame, h]
        refine ⟨nofun, ?_⟩
        rintro ⟨_, _, hread, hsame', -⟩
        cases hread
        exact absurd hsame' hsame

/-- **After an event a copy is held** if the event has read the module, or if one was held before
and the event has not dropped it. -/
theorem isSome_get?_effect : ((event.effect world).modules.get? path).isSome ↔
    event.Reads world path ∨ (world.modules.get? path).isSome ∧ ¬event.Drops path := by
  cases hget : world.modules.get? path with
  | none =>
      rw [isSome_get?_effect_of_none hget]
      exact ⟨.inl, fun h => h.resolve_right fun hheld => nomatch hheld.1⟩
  | some text =>
      by_cases hdrop : event.Drops path
      · obtain ⟨other, rfl, hsame⟩ := hdrop
        show ((world.modules.drop other).get? path).isSome ↔ _
        rw [ModuleCache.get?_drop, if_pos hsame]
        refine ⟨nofun, ?_⟩
        rintro (⟨_, _, hread, -⟩ | ⟨-, hnot⟩)
        · cases hread
        · exact absurd ⟨other, rfl, hsame⟩ hnot
      · rw [get?_effect_of_some hdrop hget]
        exact ⟨fun _ => .inr ⟨rfl, hdrop⟩, fun _ => rfl⟩

/-! ## The cache after a history -/

/-- A text stays in the cache as long as its module is not dropped. -/
theorem get?_through_of_some (hdrop : ∀ event ∈ events, ¬event.Drops path)
    (h : world.modules.get? path = some text) :
    (world.through events).modules.get? path = some text := by
  induction events generalizing world with
  | nil => exact h
  | cons event events ih =>
      exact ih (fun other hother => hdrop other (List.mem_cons_of_mem _ hother))
        (get?_effect_of_some (hdrop event List.mem_cons_self) h)

theorem ReadsAt.lt (h : ReadsAt start events path i) : i < events.length := by
  obtain ⟨event, hevent, -⟩ := h
  exact (List.getElem?_eq_some_iff.1 hevent).1

theorem readsAt_append {more : List ModuleEvent} (hi : i < events.length) :
    ReadsAt start (events ++ more) path i ↔ ReadsAt start events path i := by
  unfold ReadsAt
  rw [List.getElem?_append_left hi, List.take_append_of_le_length (Nat.le_of_lt hi)]

theorem dropsAt_append {more : List ModuleEvent} (hi : i < events.length) :
    DropsAt (events ++ more) path i ↔ DropsAt events path i := by
  unfold DropsAt
  rw [List.getElem?_append_left hi]

theorem readsAt_last :
    ReadsAt start (events ++ [event]) path events.length ↔
      event.Reads (start.through events) path := by
  unfold ReadsAt
  rw [List.getElem?_concat_length, List.take_left' rfl]
  exact ⟨fun ⟨_, hevent, hreads⟩ => Option.some.inj hevent ▸ hreads, fun h => ⟨event, rfl, h⟩⟩

theorem dropsAt_last : DropsAt (events ++ [event]) path events.length ↔ event.Drops path := by
  unfold DropsAt
  rw [List.getElem?_concat_length]
  exact ⟨fun ⟨_, hevent, hdrops⟩ => Option.some.inj hevent ▸ hdrops, fun h => ⟨event, rfl, h⟩⟩

theorem DropsAt.lt (h : DropsAt events path i) : i < events.length := by
  obtain ⟨event, hevent, -⟩ := h
  exact (List.getElem?_eq_some_iff.1 hevent).1

/-- The last event decides what is held, together with what was held before it. -/
theorem isHeld_concat : IsHeld start (events ++ [event]) path ↔
    event.Reads (start.through events) path ∨ IsHeld start events path ∧ ¬event.Drops path := by
  constructor
  · rintro ⟨i, hreads, hkept⟩
    have hi := hreads.lt
    rw [List.length_append, List.length_singleton] at hi
    by_cases hlast : i = events.length
    · rw [hlast] at hreads
      exact .inl (readsAt_last.1 hreads)
    · have hbefore : i < events.length := by omega
      refine .inr ⟨⟨i, (readsAt_append hbefore).1 hreads, fun j hj hdrops => ?_⟩, fun hdrops => ?_⟩
      · exact hkept j hj ((dropsAt_append hdrops.lt).2 hdrops)
      · exact hkept events.length hbefore (dropsAt_last.2 hdrops)
  · rintro (hreads | ⟨⟨i, hreads, hkept⟩, hdrop⟩)
    · refine ⟨events.length, readsAt_last.2 hreads, fun j hj hdrops => ?_⟩
      have hlt := hdrops.lt
      rw [List.length_append, List.length_singleton] at hlt
      omega
    · refine ⟨i, (readsAt_append hreads.lt).2 hreads, fun j hj hdrops => ?_⟩
      have hlt := hdrops.lt
      rw [List.length_append, List.length_singleton] at hlt
      by_cases hlast : j = events.length
      · rw [hlast] at hdrops
        exact hdrop (dropsAt_last.1 hdrops)
      · exact hkept j hj ((dropsAt_append (by omega)).1 hdrops)

/-- **A copy is held of the modules that were read and have not been dropped since.** -/
theorem isSome_get?_through (hempty : start.modules = .empty) (events : List ModuleEvent)
    (path : Path) :
    ((start.through events).modules.get? path).isSome ↔ IsHeld start events path := by
  induction events using List.reverseRecOn with
  | nil =>
      show (start.modules.get? path).isSome ↔ _
      rw [hempty]
      exact ⟨nofun, fun ⟨_, hreads, _⟩ => absurd hreads.lt (Nat.not_lt_zero _)⟩
  | append_singleton events event ih =>
      rw [through_concat, isSome_get?_effect, isHeld_concat, ih]

/-! ## The first reading after the last drop -/

/-- Before its first reading after the last drop a module is not held. -/
theorem not_isHeld_take (hi : i < events.length)
    (hfirst : ∀ j, j < i → ReadsAt start events path j →
      ∃ k, j < k ∧ k < i ∧ DropsAt events path k) : ¬IsHeld start (events.take i) path := by
  rintro ⟨j, hreads, hkept⟩
  have hlength : (events.take i).length = i := List.length_take_of_le (Nat.le_of_lt hi)
  have hj := hreads.lt
  rw [hlength] at hj
  have hreads' : ReadsAt start events path j := by
    rw [← List.take_append_drop i events]
    exact (readsAt_append hreads.lt).2 hreads
  obtain ⟨k, hjk, hki, hdrops⟩ := hfirst j hj hreads'
  rw [← List.take_append_drop i events] at hdrops
  exact hkept k hjk ((dropsAt_append (hlength.symm ▸ hki)).1 hdrops)

/-- What was read first after the last drop is what the cache holds. -/
theorem FirstRead.get?_through (h : FirstRead start events path i text)
    (hempty : start.modules = .empty) :
    (start.through events).modules.get? path = some text := by
  obtain ⟨other, hevent, htext⟩ := h.content
  obtain ⟨event, hevent', _, _, rfl, hsame, -⟩ := h.reads
  cases hevent.symm.trans hevent'
  obtain ⟨hi, hat⟩ := List.getElem?_eq_some_iff.1 hevent
  have hnone : (start.through (events.take i)).modules.get? path = none := by
    rw [← Option.not_isSome_iff_eq_none, isSome_get?_through hempty]
    exact not_isHeld_take hi h.first
  have hread : ((ModuleEvent.read other).effect (start.through (events.take i))).modules.get? path =
      some text := by
    rw [← ModuleCache.get?_of_same _ hsame] at hnone ⊢
    show (World.run _ (readModule other)).2.modules.get? other = some text
    rw [← readModule_eq_ok_iff, run_readModule_of_none hnone, htext]
  have hsplit : events = events.take i ++ .read other :: events.drop (i + 1) := by
    rw [← hat, ← List.drop_eq_getElem_cons hi, List.take_append_drop]
  rw [hsplit, through_append]
  show (World.through (ModuleEvent.effect _ (.read other)) _).modules.get? path = some text
  refine get?_through_of_some (fun event hbehind hdrops => ?_) hread
  -- what is behind the reading has a place in the history
  obtain ⟨n, hn⟩ := List.getElem?_of_mem hbehind
  rw [List.getElem?_drop] at hn
  exact h.kept (i + 1 + n) (by omega) ⟨event, hn, hdrops⟩

/-- A module that is held was read for the first time after the last drop. -/
theorem IsHeld.exists_firstRead (h : IsHeld start events path) (hempty : start.modules = .empty) :
    ∃ i text, FirstRead start events path i text := by
  classical
  obtain ⟨hreads, hkept⟩ := Nat.find_spec h
  have hleast : ∀ j, j < Nat.find h → ¬(ReadsAt start events path j ∧
      ∀ k, j < k → ¬DropsAt events path k) := fun j hj => Nat.find_min h hj
  generalize Nat.find h = i at hreads hkept hleast
  have hevent := hreads
  obtain ⟨_, hevent, other, text, rfl, hsame, hread⟩ := hevent
  have hfirst : ∀ j, j < i → ReadsAt start events path j →
      ∃ k, j < k ∧ k < i ∧ DropsAt events path k := by
    intro j hj hearlier
    obtain ⟨k, hjk, hdrops⟩ : ∃ k, j < k ∧ DropsAt events path k := by
      refine Classical.byContradiction fun hnone => hleast j hj ⟨hearlier, fun k hjk hdrops => ?_⟩
      exact hnone ⟨k, hjk, hdrops⟩
    refine ⟨k, hjk, ?_, hdrops⟩
    -- it is dropped before the reading, which is no drop itself
    refine Nat.lt_of_le_of_ne (Nat.le_of_not_lt fun hik => hkept k hik hdrops) ?_
    rintro rfl
    obtain ⟨_, hdrop, _, rfl, -⟩ := hdrops
    cases hevent.symm.trans hdrop
  have hnone : (start.through (events.take i)).modules.get? other = none := by
    rw [ModuleCache.get?_of_same _ hsame, ← Option.not_isSome_iff_eq_none,
      isSome_get?_through hempty]
    exact not_isHeld_take hreads.lt hfirst
  refine ⟨i, text, hreads, hfirst, hkept, other, hevent, ?_⟩
  rw [run_readModule_of_none hnone] at hread
  cases htext : (start.through (events.take i)).textAt other with
  | error failure =>
      rw [htext] at hread
      cases hread
  | ok found =>
      rw [htext] at hread
      cases hread
      rfl

/-- **The copy of a module** is what its file was when it was read for the first time after the
last drop. -/
theorem get?_through_eq_some_iff (hempty : start.modules = .empty) :
    (start.through events).modules.get? path = some text ↔
      ∃ i, FirstRead start events path i text := by
  constructor
  · intro h
    have hheld := (isSome_get?_through hempty events path).1 (Option.isSome_of_eq_some h)
    obtain ⟨i, first, hfirst⟩ := hheld.exists_firstRead hempty
    rw [hfirst.get?_through hempty] at h
    cases h
    exact ⟨i, hfirst⟩
  · rintro ⟨i, hfirst⟩
    exact hfirst.get?_through hempty

/-! ## The number of copies -/

namespace ModuleCache

variable {cache : ModuleCache}

/-- No two texts of a cache have paths with the same components. -/
def Distinct (cache : ModuleCache) : Prop := (cache.entries.map (·.1.components)).Nodup

theorem Distinct.drop (h : cache.Distinct) (path : Path) : (cache.drop path).Distinct :=
  h.sublist (List.filter_sublist.map _)

theorem Distinct.put (h : cache.Distinct) (path : Path) (text : String) :
    (cache.put path text).Distinct := by
  refine List.nodup_cons.2 ⟨?_, h.drop path⟩
  intro hmem
  obtain ⟨entry, hentry, hcomponents⟩ := List.mem_map.1 hmem
  obtain ⟨-, hkept⟩ := List.mem_filter.1 hentry
  rw [Path.same, hcomponents, beq_self_eq_true] at hkept
  cases hkept

theorem isSome_get?_iff (cache : ModuleCache) (path : Path) :
    (cache.get? path).isSome ↔ path.components ∈ cache.entries.map (·.1.components) := by
  unfold get?
  rw [Option.isSome_map, List.find?_isSome, List.mem_map]
  simp only [Path.same, beq_iff_eq]

/-- **The number of texts in a cache** is that of the paths with a text. -/
theorem encard_held (h : cache.Distinct) :
    (Path.components '' {path | (cache.get? path).isSome}).encard = cache.size := by
  have hheld : Path.components '' {path | (cache.get? path).isSome} =
      {components | components ∈ cache.entries.map (·.1.components)} := by
    ext components
    constructor
    · rintro ⟨path, hpath, rfl⟩
      exact (cache.isSome_get?_iff path).1 hpath
    · intro hcomponents
      obtain ⟨entry, -, rfl⟩ := List.mem_map.1 hcomponents
      exact ⟨entry.1, (cache.isSome_get?_iff entry.1).2 hcomponents, rfl⟩
  rw [hheld, ← List.coe_toFinset, Set.encard_coe_eq_coe_finsetCard,
    List.toFinset_card_of_nodup h, List.length_map]
  rfl

end ModuleCache

theorem distinct_effect (h : world.modules.Distinct) (event : ModuleEvent) :
    (event.effect world).modules.Distinct := by
  cases event with
  | edit tree => exact h
  | readText path => exact h
  | drop path => exact h.drop path
  | read path =>
      show (world.run (readModule path)).2.modules.Distinct
      cases hget : world.modules.get? path with
      | some held =>
          rw [run_readModule_of_some hget]
          exact h
      | none =>
          rw [run_readModule_of_none hget]
          cases world.textAt path with
          | error failure => exact h
          | ok found => exact h.put path found

theorem distinct_through (h : world.modules.Distinct) (events : List ModuleEvent) :
    (world.through events).modules.Distinct := by
  induction events generalizing world with
  | nil => exact h
  | cons event events ih => exact ih (distinct_effect h event)

/-! ## Reading after a history -/

/-- **Reading after any history.**  A module that is read successfully has the text that its file
had when it was read for the first time after the last drop, which may be now.  Reading fails
exactly if no copy is held and the file cannot be read, and then nothing changes.  A text is always
read from its file.  The cache counts the paths of the modules that are held. -/
theorem readModule_history (tree : FileTree) (current : Location) (clock : Nat)
    (events : List ModuleEvent) (path : Path) :
    let start : World := ⟨tree, current, clock, .empty⟩
    let now := start.through events
    let count : Nat := (now.run (Program.request .cachedModuleCount)).1
    (∀ text, (now.run (readModule path)).1 = .ok text ↔
      ∃ i, FirstRead start (events ++ [.read path]) path i text) ∧
    (∀ failure, (now.run (readModule path)).1 = .error failure ↔
      (∀ i text, ¬FirstRead start events path i text) ∧ now.textAt path = .error failure) ∧
    (∀ failure, (now.run (readModule path)).1 = .error failure →
      (now.run (readModule path)).2 = now) ∧
    now.run (Files.readText path) = (now.textAt path, now) ∧
    (Path.components '' {other | IsHeld start events other}).encard = count := by
  intro start now count
  have hempty : start.modules = .empty := rfl
  refine ⟨fun text => ?_, fun failure => ?_, fun failure h => ?_, rfl, ?_⟩
  · rw [readModule_eq_ok_iff, ← get?_through_eq_some_iff hempty, through_concat]
    rfl
  · rw [readModule_eq_error_iff, Option.eq_none_iff_forall_ne_some, and_congr_left_iff]
    intro _
    rw [forall_comm]
    refine forall_congr' fun text => ?_
    rw [Ne, get?_through_eq_some_iff hempty, not_exists]
  · obtain ⟨hnone, htext⟩ := (readModule_eq_error_iff now path failure).1 h
    rw [run_readModule_of_none hnone, htext]
  · have hheld : {other | IsHeld start events other} =
        {other | (now.modules.get? other).isSome} := by
      ext other
      exact (isSome_get?_through hempty events other).symm
    have hdistinct : start.modules.Distinct := List.nodup_nil
    rw [hheld]
    exact ModuleCache.encard_held (distinct_through hdistinct events)

end KeysetBundle.Files
