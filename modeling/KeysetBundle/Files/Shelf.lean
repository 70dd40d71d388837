import KeysetBundle.Files.Program
import KeysetBundle.Path.Order

/-!
# Shelves of texts

A shelf holds texts by their paths and nothing else: there are no folders, nothing can be written
and no module is kept. It remembers which modules were dropped.
-/

namespace KeysetBundle.Files

/-- Texts by their paths. -/
structure Shelf where
  /-- The paths with the texts. -/
  texts : List (Path × String)
  /-- The paths of the modules that were dropped, in order. -/
  dropped : List Path

namespace Shelf

/-- The text of a path. -/
def text (shelf : Shelf) (path : Path) : Except Failure String :=
  match shelf.texts.find? fun entry => entry.1.same path with
  | some entry => .ok entry.2
  | none => .error .missing

/-- What a shelf answers to a request, and the shelf after it. -/
def answer (request : Request) (shelf : Shelf) : request.Answer × Shelf :=
  match request with
  | .stat _ => (.error .missing, shelf)
  | .readText path => (shelf.text path, shelf)
  | .listing _ => ([], shelf)
  | .writeText .. => (.error .missing, shelf)
  | .createFolders _ => (.error .missing, shelf)
  | .rename .. => (.error .missing, shelf)
  | .removeFile _ => (.error .missing, shelf)
  | .canonicalize _ => (.error .missing, shelf)
  | .workingDirectory => (⟨"/"⟩, shelf)
  | .cachedModule _ => (none, shelf)
  | .cacheModule .. => ((), shelf)
  | .dropModule path => ((), { shelf with dropped := shelf.dropped ++ [path] })
  | .cachedModuleCount => ((0 : Nat), shelf)

/-- Runs a program on a shelf. -/
def run {α : Type} (shelf : Shelf) (program : Program α) : α × Shelf :=
  program.run answer shelf

/-- The paths of the modules that were dropped, in the order of paths. -/
def droppedInOrder (shelf : Shelf) : List Path := shelf.dropped.mergeSort Path.le

end Shelf

end KeysetBundle.Files
