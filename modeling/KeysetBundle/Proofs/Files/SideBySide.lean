import KeysetBundle.Files.World

/-!
# Programs side by side

Several programs may run on one world at the same time.  A request is one step,
so a run is any interleaving of their requests, and in between someone else may
change the files (`Crew.Run`).  A run shows the worlds that it goes through,
which are the moments at which the files can be looked at.

The programs of interest here are those that read a module anew: they drop it
from the module cache and then read it through the cache (`reload`).  Such a
program is always at one of a few stages, and what a turn of it does is one
relation between the stages (`Stage.Moves`).

Main results.

- `Crew.Run.keeps`: what all steps keep, a run keeps.
- `Crew.turn_iff`: the turns of a program that reads a module anew.
-/

namespace KeysetBundle.Files

variable {α : Type}

/-! ## Crews -/

/-- Programs and the world on which they run. -/
structure Crew (α : Type) where
  /-- The world. -/
  world : World
  /-- What is left of each program. -/
  programs : List (Program α)

namespace Crew

/-- The program at a place in the list gets the answer to its request. -/
inductive Turn (i : Nat) : Crew α → Crew α → Prop
  /-- It goes on with the answer. -/
  | answered (world : World) {programs : List (Program α)} {request : Request}
      {next : request.Answer → Program α} (h : programs[i]? = some (.ask request next)) :
      Turn i ⟨world, programs⟩
        ⟨(World.answer request world).2, programs.set i (next (World.answer request world).1)⟩

/-- What may happen at any time. -/
inductive Step : Crew α → Crew α → Prop
  /-- One of the programs has its turn. -/
  | turn {i : Nat} {first second : Crew α} (h : Turn i first second) : Step first second
  /-- Someone changes the files. -/
  | edit (crew : Crew α) (tree : FileTree) :
      Step crew { crew with world := { crew.world with tree } }

/-- The runs of a crew, with the world after each step. -/
inductive Run : Crew α → List World → Crew α → Prop
  /-- Nothing happens any more. -/
  | done (crew : Crew α) : Run crew [] crew
  /-- Something happens first. -/
  | step {first second last : Crew α} {moments : List World} (h : Step first second)
      (hrest : Run second moments last) : Run first (second.world :: moments) last

/-- **What all steps keep, a run keeps.**  Something may be known of the worlds in which the steps
are made. -/
theorem Run.keeps {P : Crew α → Prop} (known : World → Prop) {first last : Crew α}
    {moments : List World} (h : Run first moments last)
    (hstep : ∀ before after, Step before after → known before.world → P before → P after)
    (hknown : ∀ moment ∈ first.world :: moments, known moment) (hfirst : P first) : P last := by
  induction h with
  | done crew => exact hfirst
  | step h hrest ih =>
      have hnow := hknown _ List.mem_cons_self
      exact ih (fun moment hmoment => hknown moment (List.mem_cons_of_mem _ hmoment))
        (hstep _ _ h hnow hfirst)

/-- What happens later is put behind. -/
theorem Run.trans {first second last : Crew α} {moments later : List World}
    (h : Run first moments second) (hlater : Run second later last) :
    Run first (moments ++ later) last := by
  induction h with
  | done crew => exact hlater
  | step h hrest ih => exact .step h (ih hlater)

end Crew

/-! ## Reading a module anew -/

/-- Drops a module and reads it through the module cache. -/
def reload (path : Path) : Program (Except Failure String) := do
  dropModule path
  readModule path

/-- Puts a text that was read into the module cache. -/
def storing (path : Path) (text : String) : Program (Except Failure String) := do
  let _ : Unit ← Program.request (.cacheModule path text)
  return .ok text

/-- Reads a file that the module cache does not have. -/
def fetching (path : Path) : Program (Except Failure String) := do
  match ← readText path with
  | .error failure => return .error failure
  | .ok text => storing path text

/-- How far a program that reads a module anew has got. -/
inductive Stage
  /-- It has not begun. -/
  | waiting
  /-- It has dropped the module. -/
  | dropped
  /-- The module cache did not have the module. -/
  | missed
  /-- It has read the file and has not put the text into the module cache. -/
  | holding (text : String)
  /-- It has ended. -/
  | ended (result : Except Failure String)

namespace Stage

/-- What is left of the program at a stage. -/
def program (path : Path) : Stage → Program (Except Failure String)
  | .waiting => reload path
  | .dropped => readModule path
  | .missed => fetching path
  | .holding text => storing path text
  | .ended result => .done result

/-- What a turn does, to the world and to the stage. -/
inductive Moves (path : Path) : World → Stage → World → Stage → Prop
  /-- The module is dropped. -/
  | drop (world : World) :
      Moves path world .waiting { world with modules := world.modules.drop path } .dropped
  /-- The module cache has the module. -/
  | hit {world : World} {text : String} (h : world.modules.get? path = some text) :
      Moves path world .dropped world (.ended (.ok text))
  /-- The module cache does not have the module. -/
  | miss {world : World} (h : world.modules.get? path = none) :
      Moves path world .dropped world .missed
  /-- The file is read. -/
  | read {world : World} {text : String}
      (h : world.tree.readText world.current path = .ok text) :
      Moves path world .missed world (.holding text)
  /-- The file cannot be read. -/
  | fail {world : World} {failure : Failure}
      (h : world.tree.readText world.current path = .error failure) :
      Moves path world .missed world (.ended (.error failure))
  /-- The text is put into the module cache. -/
  | store (world : World) (text : String) :
      Moves path world (.holding text)
        { world with modules := world.modules.put path text } (.ended (.ok text))

/-- The requests of the stages, and what comes after them. -/
theorem program_dropped (path : Path) : program path .dropped =
    .ask (.cachedModule path) fun (cached : Option String) =>
      match cached with
      | some text => program path (.ended (.ok text))
      | none => program path .missed := rfl

theorem program_missed (path : Path) : program path .missed =
    .ask (.readText path) fun (reply : Except Failure String) =>
      match reply with
      | .error failure => program path (.ended (.error failure))
      | .ok text => program path (.holding text) := rfl

end Stage

section Turns

variable {i : Nat} {path : Path} {stage next : Stage} {world : World}
  {first second : Crew (Except Failure String)}
  (hstage : first.programs[i]? = some (stage.program path))

include hstage

theorem Crew.turn_of_moves (h : Stage.Moves path first.world stage world next) :
    Turn i first ⟨world, first.programs.set i (next.program path)⟩ := by
  obtain ⟨now, programs⟩ := first
  cases h with
  | drop => exact .answered now hstage
  | store => exact .answered now hstage
  | hit h =>
      have hturn := Turn.answered now hstage
      simp only [World.answer, h] at hturn
      exact hturn
  | miss h =>
      have hturn := Turn.answered now hstage
      simp only [World.answer, h] at hturn
      exact hturn
  | read h =>
      have hturn := Turn.answered now hstage
      simp only [World.answer, h] at hturn
      exact hturn
  | fail h =>
      have hturn := Turn.answered now hstage
      simp only [World.answer, h] at hturn
      exact hturn

theorem Crew.moves_of_turn (h : Turn i first second) :
    ∃ world next, Stage.Moves path first.world stage world next ∧
      second = ⟨world, first.programs.set i (next.program path)⟩ := by
  cases h with
  | @answered now programs request rest h =>
      have hprogram := Option.some.inj (h.symm.trans hstage)
      cases stage with
      | waiting =>
          cases hprogram
          exact ⟨_, .dropped, .drop now, rfl⟩
      | dropped =>
          rw [Stage.program_dropped] at hprogram
          cases hprogram
          cases hcached : now.modules.get? path with
          | some text =>
              refine ⟨now, .ended (.ok text), .hit hcached, ?_⟩
              simp only [World.answer, hcached]
          | none =>
              refine ⟨now, .missed, .miss hcached, ?_⟩
              simp only [World.answer, hcached]
      | missed =>
          rw [Stage.program_missed] at hprogram
          cases hprogram
          cases hread : now.tree.readText now.current path with
          | error failure =>
              refine ⟨now, .ended (.error failure), .fail hread, ?_⟩
              simp only [World.answer, hread]
          | ok text =>
              refine ⟨now, .holding text, .read hread, ?_⟩
              simp only [World.answer, hread]
      | holding text =>
          cases hprogram
          exact ⟨_, .ended (.ok text), .store now text, rfl⟩
      | ended result => cases hprogram

/-- **A turn of a program that reads a module anew** moves it from its stage to the next one. -/
theorem Crew.turn_iff : Turn i first second ↔
    ∃ world next, Stage.Moves path first.world stage world next ∧
      second = ⟨world, first.programs.set i (next.program path)⟩ := by
  constructor
  · exact moves_of_turn hstage
  · rintro ⟨world, next, hmoves, rfl⟩
    exact turn_of_moves hstage hmoves

end Turns

end KeysetBundle.Files
