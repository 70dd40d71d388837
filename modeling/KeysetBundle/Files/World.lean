import KeysetBundle.Files.Program

/-!
# Worlds

A world is a tree of files with a working directory, a clock for the files that a program writes,
and a module cache. Running a program on a world gives its result and the world after it.
-/

namespace KeysetBundle.Files

/-! ## Module caches -/

/-- Texts of scripts by their paths; paths with the same components are the same. -/
structure ModuleCache where
  /-- The paths with the texts. -/
  entries : List (Path × String)

namespace ModuleCache

/-- The cache without texts. -/
def empty : ModuleCache := ⟨[]⟩

/-- The text of a path. -/
def get? (cache : ModuleCache) (path : Path) : Option String :=
  (cache.entries.find? fun entry => entry.1.same path).map (·.2)

/-- The cache without the text of a path. -/
def drop (cache : ModuleCache) (path : Path) : ModuleCache :=
  ⟨cache.entries.filter fun entry => !entry.1.same path⟩

/-- The cache with a text for a path. -/
def put (cache : ModuleCache) (path : Path) (text : String) : ModuleCache :=
  ⟨(path, text) :: (cache.drop path).entries⟩

/-- The number of paths with a text. -/
def size (cache : ModuleCache) : Nat := cache.entries.length

end ModuleCache

/-! ## Worlds -/

/-- A world in which programs run. -/
structure World where
  /-- The files. -/
  tree : FileTree
  /-- The working directory. -/
  current : Location
  /-- The time at which the next file is written. -/
  clock : Nat
  /-- The module cache. -/
  modules : ModuleCache

namespace World

/-- The world with the tree that a change of it gives, unless the change fails. -/
def change (world : World) (result : Except Failure FileTree) : Except Failure Unit × World :=
  match result with
  | .ok tree => (.ok (), { world with tree })
  | .error failure => (.error failure, world)

/-- What a world answers to a request, and the world after it. -/
def answer (request : Request) (world : World) : request.Answer × World :=
  match request with
  | .stat path => (world.tree.stat world.current path, world)
  | .readText path => (world.tree.readText world.current path, world)
  | .listing path => (world.tree.listing world.current path, world)
  | .writeText path text =>
    match world.tree.write world.current path text.toUTF8 world.clock with
    | .ok tree => (.ok (), { world with tree, clock := world.clock + 1 })
    | .error failure => (.error failure, world)
  | .createFolders path =>
    let (result, tree) := world.tree.createFolders world.current path
    (result, { world with tree })
  | .rename source target => world.change (world.tree.rename world.current source target)
  | .removeFile path => world.change (world.tree.removeFile world.current path)
  | .canonicalize path => (world.tree.canonicalize world.current path, world)
  | .workingDirectory => (FileTree.pathOf world.current, world)
  | .cachedModule path => (world.modules.get? path, world)
  | .cacheModule path text => ((), { world with modules := world.modules.put path text })
  | .dropModule path => ((), { world with modules := world.modules.drop path })
  | .cachedModuleCount => (world.modules.size, world)

/-- Runs a program on a world. -/
def run {α : Type} (world : World) (program : Program α) : α × World :=
  program.run answer world

end World

end KeysetBundle.Files
