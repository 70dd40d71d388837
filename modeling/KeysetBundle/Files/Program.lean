import KeysetBundle.Files.Tree

/-!
# Programs over files

A program asks for one file operation after the other and goes on with the answers. What the
operations do is left to an interpreter: a program can be run on a tree of files in memory, on a
shelf of texts, or on the disk. Because a request is one step, a program can also be interleaved
with changes from outside.

Scripts that are loaded are kept in a module cache, which requests can look into and change.

* `Program.bind_assoc` — programs are put together as in any monad.
-/

namespace KeysetBundle.Files

/-- A file operation that a program asks for. -/
inductive Request
  /-- What is at a path? -/
  | stat (path : Path)
  /-- What is the text of a file? -/
  | readText (path : Path)
  /-- What is below a folder? -/
  | listing (path : Path)
  /-- Write a text to a file. -/
  | writeText (path : Path) (text : String)
  /-- Make a folder and all folders above it that are missing. -/
  | createFolders (path : Path)
  /-- Move a file over another path. -/
  | rename (source target : Path)
  /-- Remove a file. -/
  | removeFile (path : Path)
  /-- What is the path from the root of what is at a path? -/
  | canonicalize (path : Path)
  /-- What is the working directory? -/
  | workingDirectory
  /-- Which text does the module cache hold for a path? -/
  | cachedModule (path : Path)
  /-- Put a text into the module cache. -/
  | cacheModule (path : Path) (text : String)
  /-- Drop what the module cache holds for a path. -/
  | dropModule (path : Path)
  /-- How many texts does the module cache hold? -/
  | cachedModuleCount

/-- What the answer to a request is. -/
def Request.Answer : Request → Type
  | .stat _ => Except Failure Stat
  | .readText _ => Except Failure String
  | .listing _ => List (Location × Stat)
  | .writeText .. => Except Failure Unit
  | .createFolders _ => Except Failure Unit
  | .rename .. => Except Failure Unit
  | .removeFile _ => Except Failure Unit
  | .canonicalize _ => Except Failure Path
  | .workingDirectory => Path
  | .cachedModule _ => Option String
  | .cacheModule .. => Unit
  | .dropModule _ => Unit
  | .cachedModuleCount => Nat

/-- A program with a result. -/
inductive Program (α : Type) : Type
  /-- The program has ended. -/
  | done (result : α)
  /-- The program goes on with the answer to a request. -/
  | ask (request : Request) (next : request.Answer → Program α)

namespace Program

variable {α β γ : Type}

/-- One program after the other. -/
def bind : Program α → (α → Program β) → Program β
  | .done result, f => f result
  | .ask request next, f => .ask request fun answer => (next answer).bind f

instance : Monad Program where
  pure := .done
  bind := bind

/-- The program of one request. -/
def request (request : Request) : Program request.Answer := .ask request .done

@[simp] theorem done_bind (result : α) (f : α → Program β) :
    (Program.done result).bind f = f result := rfl

@[simp] theorem ask_bind (request : Request) (next : request.Answer → Program α)
    (f : α → Program β) :
    (Program.ask request next).bind f = .ask request fun answer => (next answer).bind f := rfl

theorem bind_done (program : Program α) : program.bind .done = program := by
  induction program with
  | done => rfl
  | ask request next ih => simp [ih]

theorem bind_assoc (program : Program α) (f : α → Program β) (g : β → Program γ) :
    (program.bind f).bind g = program.bind fun a => (f a).bind g := by
  induction program with
  | done => rfl
  | ask request next ih => simp [ih]

instance : LawfulMonad Program :=
  LawfulMonad.mk' Program bind_done (fun _ _ => rfl) bind_assoc

/-- Runs a program on a state that answers requests. -/
def run {σ : Type} (answer : (request : Request) → σ → request.Answer × σ) :
    Program α → σ → α × σ
  | .done result, state => (result, state)
  | .ask request next, state =>
    let (reply, state) := answer request state
    (next reply).run answer state

@[simp] theorem run_done {σ : Type} (answer : (request : Request) → σ → request.Answer × σ)
    (result : α) (state : σ) : (Program.done result).run answer state = (result, state) := rfl

@[simp] theorem run_ask {σ : Type} (answer : (request : Request) → σ → request.Answer × σ)
    (request : Request) (next : request.Answer → Program α) (state : σ) :
    (Program.ask request next).run answer state =
      (next (answer request state).1).run answer (answer request state).2 := rfl

theorem run_bind {σ : Type} (answer : (request : Request) → σ → request.Answer × σ)
    (program : Program α) (f : α → Program β) (state : σ) :
    (program.bind f).run answer state =
      (f (program.run answer state).1).run answer (program.run answer state).2 := by
  induction program generalizing state with
  | done => rfl
  | ask request next ih => simp [ih]

end Program

/-! ## Requests with their results -/

/-- A program that may fail. -/
abbrev Attempt (ε : Type) := ExceptT ε Program

/-- Asks for what is at a path. -/
def stat? (path : Path) : Program (Option Stat) := do
  let answer : Except Failure Stat ← Program.request (.stat path)
  return answer.toOption

/-- Whether something is at a path. -/
def pathExists (path : Path) : Program Bool := do
  return (← stat? path).isSome

/-- Whether a folder is at a path. -/
def isFolder (path : Path) : Program Bool := do
  return (← stat? path).any Stat.isFolder

/-- Asks for the text of a file. -/
def readText (path : Path) : Program (Except Failure String) := Program.request (.readText path)

/-- Reads a module through the module cache. -/
def readModule (path : Path) : Program (Except Failure String) := do
  let cached : Option String ← Program.request (.cachedModule path)
  match cached with
  | some text => return .ok text
  | none =>
    match ← readText path with
    | .error failure => return .error failure
    | .ok text =>
      let _ : Unit ← Program.request (.cacheModule path text)
      return .ok text

/-- Drops a module from the module cache. -/
def dropModule (path : Path) : Program Unit := Program.request (.dropModule path)

/-- Writes a text to a file in one step for its readers: a neighbour of the file is written and
moved over it. The neighbour does not stay when it cannot be moved. -/
def writeWhole (path : Path) (text : String) : Program (Except Failure Unit) := do
  let neighbour := path.withFileName ((path.fileName?).getD "" ++ ".tmp")
  let made : Except Failure Unit ←
    match path.parent? with
    | some parent =>
      if parent.text.isEmpty then pure (.ok ()) else Program.request (.createFolders parent)
    | none => pure (.ok ())
  match made with
  | .error failure => return .error failure
  | .ok () =>
    let written : Except Failure Unit ← Program.request (.writeText neighbour text)
    match written with
    | .error failure => return .error failure
    | .ok () =>
      let moved : Except Failure Unit ← Program.request (.rename neighbour path)
      match moved with
      | .ok () => return .ok ()
      | .error failure =>
        let _ : Except Failure Unit ← Program.request (.removeFile neighbour)
        return .error failure

end KeysetBundle.Files
