import KeysetBundle.Files.World

/-!
# Running programs

What the runs of `do` blocks and of the basic programs over files do, for any
interpreter of requests.
-/

namespace KeysetBundle.Files

variable {α β σ : Type} (answer : (request : Request) → σ → request.Answer × σ)

namespace Program

@[simp] theorem run_pure (result : α) (state : σ) :
    (pure result : Program α).run answer state = (result, state) := rfl

@[simp] theorem run_bind_do (program : Program α) (f : α → Program β) (state : σ) :
    (program >>= f).run answer state =
      (f (program.run answer state).1).run answer (program.run answer state).2 :=
  run_bind answer program f state

@[simp] theorem run_request (request : Request) (state : σ) :
    (Program.request request).run answer state = answer request state := rfl

/-- A request at the start of a `do` block. -/
theorem run_request_bind (request : Request) (f : request.Answer → Program β) (state : σ) :
    (Program.request request >>= f).run answer state =
      (f (answer request state).1).run answer (answer request state).2 := rfl

end Program

@[simp] theorem World.run_pure (world : World) (result : α) :
    world.run (pure result : Program α) = (result, world) := rfl

/-- On a world a `do` block runs one program after another. -/
@[simp] theorem World.run_bind (world : World) (program : Program α) (f : α → Program β) :
    world.run (program >>= f) = (world.run program).2.run (f (world.run program).1) :=
  Program.run_bind_do World.answer program f world

@[simp] theorem run_readText (path : Path) (state : σ) :
    (readText path).run answer state = answer (.readText path) state := rfl

@[simp] theorem run_dropModule (path : Path) (state : σ) :
    (dropModule path).run answer state = answer (.dropModule path) state := rfl

theorem World.run_readText (world : World) (path : Path) :
    world.run (readText path) = (world.tree.readText world.current path, world) := rfl

/-- A module is read from the module cache, or else from its file. -/
theorem run_readModule (path : Path) (state : σ) :
    (readModule path).run answer state =
      match answer (.cachedModule path) state with
      | (some text, state) => (.ok text, state)
      | (none, state) =>
        match answer (.readText path) state with
        | (.error failure, state) => (.error failure, state)
        | (.ok text, state) => (.ok text, (answer (.cacheModule path text) state).2) := by
  unfold readModule
  refine (Program.run_request_bind answer _ _ _).trans ?_
  generalize answer (.cachedModule path) state = reply
  obtain ⟨cached, second⟩ := reply
  cases (cached : Option String) with
  | some text => rfl
  | none =>
      refine (Program.run_bind_do answer (readText path) _ second).trans ?_
      rw [run_readText]
      dsimp only
      generalize answer (.readText path) second = reply
      obtain ⟨text, third⟩ := reply
      cases (text : Except Failure String) with
      | error failure => rfl
      | ok text => rfl

end KeysetBundle.Files
