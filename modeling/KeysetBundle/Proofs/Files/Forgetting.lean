import KeysetBundle.Proofs.Files.ModuleCache
import KeysetBundle.Proofs.Files.SideBySide

/-!
# Programs that drop before they look

A program that looks up only modules that it has dropped cannot tell what was
in the module cache when it began (`Program.DropsFirst`).  The argument
compares two worlds whose module caches agree on what has been dropped
(`SameFor`): a request of such a program has the same answer in both, and
afterwards they agree on what has been dropped by then.

For programs that run side by side the caches agree on what any of them has
dropped, and so each run from one cache has a twin from the other.

Main results.

- `run_of_dropsFirst`: the result and the files after a run do not depend on
  the module cache.
- `Crew.Run.twin`: each run side by side is also there with another module
  cache.
- `Crew.shows_forget`: what such programs come to does not depend on it.
-/

namespace KeysetBundle.Files

variable {α β : Type} {dropped : List Path} {world other : World}

/-! ## Worlds that agree on what has been dropped -/

/-- A spelling of the path is among the dropped paths. -/
def IsDropped (dropped : List Path) (path : Path) : Prop :=
  ∃ earlier ∈ dropped, earlier.same path = true

/-- Worlds that differ at most in modules that have not been dropped. -/
structure SameFor (dropped : List Path) (world other : World) : Prop where
  /-- The files are the same. -/
  tree : other.tree = world.tree
  /-- The working directory is the same. -/
  current : other.current = world.current
  /-- The clock is the same. -/
  clock : other.clock = world.clock
  /-- What has been dropped is the same in both module caches. -/
  modules : ∀ path, IsDropped dropped path →
    other.modules.get? path = world.modules.get? path

/-- At first the module caches are arbitrary. -/
theorem sameFor_nil (world : World) (modules : ModuleCache) :
    SameFor [] world { world with modules } := by
  refine ⟨rfl, rfl, rfl, ?_⟩
  rintro path ⟨earlier, hearlier, -⟩
  cases hearlier

/-- The world with an empty module cache. -/
def World.forget (world : World) : World := { world with modules := .empty }

theorem SameFor.forget (h : SameFor dropped world other) : other.forget = world.forget := by
  obtain ⟨tree, current, clock, modules⟩ := world
  obtain ⟨htree, hcurrent, hclock, -⟩ := h
  unfold World.forget
  rw [htree, hcurrent, hclock]

/-! ## Requests -/

/-- A request that looks up at most a module that has been dropped. -/
def Minds (dropped : List Path) : Request → Prop
  | .cachedModule path => IsDropped dropped path
  | .cachedModuleCount => False
  | _ => True

/-- What has been dropped after a request. -/
def Request.dropping (dropped : List Path) : Request → List Path
  | .dropModule path => path :: dropped
  | _ => dropped

theorem Request.subset_dropping (dropped : List Path) (request : Request) :
    dropped ⊆ request.dropping dropped := by
  cases request with
  | dropModule path => exact List.subset_cons_self path dropped
  | _ => exact List.Subset.refl dropped

theorem IsDropped.mono {more : List Path} {path : Path} (h : IsDropped dropped path)
    (hmore : dropped ⊆ more) : IsDropped more path := by
  obtain ⟨earlier, hearlier, hsame⟩ := h
  exact ⟨earlier, hmore hearlier, hsame⟩

theorem Minds.mono {more : List Path} {request : Request} (h : Minds dropped request)
    (hmore : dropped ⊆ more) : Minds more request := by
  cases request with
  | cachedModule path => exact IsDropped.mono h hmore
  | cachedModuleCount => exact h
  | _ => trivial

/-- The change of a tree is the same in both worlds. -/
theorem SameFor.change (h : SameFor dropped world other) (result : Except Failure FileTree) :
    (other.change result).1 = (world.change result).1 ∧
      SameFor dropped (world.change result).2 (other.change result).2 := by
  cases result with
  | ok tree => exact ⟨rfl, rfl, h.current, h.clock, h.modules⟩
  | error failure => exact ⟨rfl, h⟩

/-- **A request that looks up at most what has been dropped** has the same answer in both worlds. -/
theorem SameFor.answer {request : Request} (h : SameFor dropped world other)
    (hminds : Minds dropped request) :
    (World.answer request other).1 = (World.answer request world).1 ∧
      SameFor (request.dropping dropped) (World.answer request world).2
        (World.answer request other).2 := by
  obtain ⟨tree, current, clock, modules⟩ := world
  obtain ⟨tree', current', clock', modules'⟩ := other
  have hmodules := h.modules
  cases h.tree
  cases h.current
  cases h.clock
  cases request with
  | stat path => exact ⟨rfl, h⟩
  | readText path => exact ⟨rfl, h⟩
  | listing path => exact ⟨rfl, h⟩
  | canonicalize path => exact ⟨rfl, h⟩
  | workingDirectory => exact ⟨rfl, h⟩
  | createFolders path => exact ⟨rfl, rfl, rfl, rfl, hmodules⟩
  | rename source target => exact h.change _
  | removeFile path => exact h.change _
  | writeText path text =>
      unfold World.answer
      dsimp only
      split
      · exact ⟨rfl, rfl, rfl, rfl, hmodules⟩
      · exact ⟨rfl, h⟩
  | cachedModule path => exact ⟨hmodules path hminds, h⟩
  | cachedModuleCount => exact hminds.elim
  | cacheModule path text =>
      refine ⟨rfl, rfl, rfl, rfl, fun found hfound => ?_⟩
      show (modules'.put path text).get? found = (modules.put path text).get? found
      rw [ModuleCache.get?_put, ModuleCache.get?_put]
      split
      · rfl
      · exact hmodules found hfound
  | dropModule path =>
      refine ⟨rfl, rfl, rfl, rfl, fun found hfound => ?_⟩
      show (modules'.drop path).get? found = (modules.drop path).get? found
      rw [ModuleCache.get?_drop, ModuleCache.get?_drop]
      split
      · rfl
      · rename_i hnot
        obtain ⟨earlier, hearlier, hsame⟩ := hfound
        rcases List.mem_cons.1 hearlier with rfl | hearlier
        · exact absurd hsame hnot
        · exact hmodules found ⟨earlier, hearlier, hsame⟩

/-! ## Programs -/

namespace Program

/-- Of the modules the program looks up only those that are dropped by then. -/
def DropsFirst (dropped : List Path) : Program α → Prop
  | .done _ => True
  | .ask request next =>
    Minds dropped request ∧ ∀ reply, (next reply).DropsFirst (request.dropping dropped)

theorem DropsFirst.mono {more : List Path} {program : Program α}
    (h : program.DropsFirst dropped) (hmore : dropped ⊆ more) : program.DropsFirst more := by
  induction program generalizing dropped more with
  | done result => trivial
  | ask request next ih =>
      obtain ⟨hminds, hnext⟩ := h
      refine ⟨hminds.mono hmore, fun reply => ih reply (hnext reply) ?_⟩
      cases request with
      | dropModule path => exact List.cons_subset_cons path hmore
      | _ => exact hmore

theorem dropsFirst_bind {program : Program α} {f : α → Program β}
    (h : program.DropsFirst dropped) (hf : ∀ a, (f a).DropsFirst dropped) :
    (program >>= f).DropsFirst dropped := by
  show (program.bind f).DropsFirst dropped
  induction program generalizing dropped with
  | done result => exact hf result
  | ask request next ih =>
      obtain ⟨hminds, hnext⟩ := h
      exact ⟨hminds, fun reply => ih reply (hnext reply) fun a =>
        (hf a).mono (request.subset_dropping dropped)⟩

/-- **A program that drops before it looks** cannot tell what else is in the module cache. -/
theorem run_of_dropsFirst {program : Program α} (hprogram : program.DropsFirst dropped)
    (h : SameFor dropped world other) :
    (other.run program).1 = (world.run program).1 ∧
      (other.run program).2.forget = (world.run program).2.forget := by
  induction program generalizing dropped world other with
  | done result => exact ⟨rfl, h.forget⟩
  | ask request next ih =>
      obtain ⟨hminds, hnext⟩ := hprogram
      obtain ⟨hreply, hafter⟩ := h.answer hminds
      have hrest := ih (World.answer request world).1 (hnext _) hafter
      unfold World.run at hrest ⊢
      rw [run_ask, run_ask, hreply]
      exact hrest

end Program

/-! ## Programs side by side -/

namespace Crew

/-- Programs that drop before they look, on two worlds that differ at most in other modules. -/
structure Twins (dropped : List Path) (crew other : Crew α) : Prop where
  /-- The programs are the same. -/
  programs : other.programs = crew.programs
  /-- The worlds are the same but for modules that have not been dropped. -/
  worlds : SameFor dropped crew.world other.world
  /-- What any of the programs has dropped counts as dropped for all of them. -/
  careful : ∀ program ∈ crew.programs, program.DropsFirst dropped

theorem Twins.step {crew other after : Crew α} (h : Twins dropped crew other)
    (hstep : Step crew after) :
    ∃ dropped after', Step other after' ∧ Twins dropped after after' := by
  obtain ⟨world', programs'⟩ := other
  obtain ⟨hprograms, hworlds, hcareful⟩ := h
  cases hstep with
  | edit _ tree =>
      exact ⟨dropped, _, .edit _ tree, hprograms, ⟨rfl, hworlds.current, hworlds.clock,
        hworlds.modules⟩, hcareful⟩
  | turn hturn =>
      cases hturn with
      | @answered world programs request next hprogram =>
          cases hprograms
          obtain ⟨hminds, hnext⟩ := hcareful _ (List.mem_of_getElem? hprogram)
          obtain ⟨hreply, hafter⟩ := hworlds.answer hminds
          refine ⟨_, _, .turn (.answered _ hprogram), ?_, hafter, fun program hmem => ?_⟩
          · dsimp only
            rw [hreply]
          · rcases List.mem_or_eq_of_mem_set hmem with hmem | rfl
            · exact (hcareful program hmem).mono (request.subset_dropping dropped)
            · exact hnext _

/-- **A run of programs that drop before they look** is also there with another module cache: the
programs get as far, and the files are the same at all times. -/
theorem Run.twin {crew other last : Crew α} {moments : List World} (hrun : Run crew moments last)
    (h : Twins dropped crew other) :
    ∃ moments' last', Run other moments' last' ∧ last'.programs = last.programs ∧
      moments'.map World.forget = moments.map World.forget := by
  induction hrun generalizing dropped other with
  | done crew => exact ⟨[], other, .done other, h.programs, rfl⟩
  | step hstep hrest ih =>
      obtain ⟨dropped, second, hstep', htwins⟩ := h.step hstep
      obtain ⟨moments', last', hrun', hprograms, hmoments⟩ := ih htwins
      refine ⟨second.world :: moments', last', .step hstep' hrun', hprograms, ?_⟩
      rw [List.map_cons, List.map_cons, hmoments, htwins.worlds.forget]

/-- In some run the crew comes to these programs, and the files at all times are these. -/
def Shows (crew : Crew α) (times : List World) (programs : List (Program α)) : Prop :=
  ∃ moments last, Run crew moments last ∧ moments.map World.forget = times ∧
    last.programs = programs

theorem Shows.twin {crew other : Crew α} {times : List World} {programs : List (Program α)}
    (h : Twins dropped crew other) (hshows : crew.Shows times programs) :
    other.Shows times programs := by
  obtain ⟨moments, last, hrun, rfl, rfl⟩ := hshows
  obtain ⟨moments', last', hrun', hprograms, hmoments⟩ := hrun.twin h
  exact ⟨moments', last', hrun', hmoments, hprograms⟩

/-- What programs that drop before they look come to does not depend on the module cache. -/
theorem shows_forget {programs : List (Program α)}
    (hcareful : ∀ program ∈ programs, program.DropsFirst []) (world : World)
    (times : List World) (rest : List (Program α)) :
    Shows ⟨world, programs⟩ times rest ↔ Shows ⟨world.forget, programs⟩ times rest := by
  constructor
  · exact Shows.twin ⟨rfl, sameFor_nil world .empty, hcareful⟩
  · exact Shows.twin ⟨rfl, sameFor_nil world.forget world.modules, hcareful⟩

end Crew

end KeysetBundle.Files
