import KeysetBundle.Proofs.Files.Listing
import KeysetBundle.Proofs.Scan

/-!
# Keyset files are there

The listing of a folder names what is below it.  In a sound tree all that is on
the way to an entry are folders, so whoever joins the names of a listing comes
to the entry.  A keyset file that a scan finds is thus a file that can be read.

Main results.

- `get?_of_mem_listing`: what a listing says of the tree.
- `Scan.finds_ofLevels`: the files of the keyset directories are there.
-/

namespace KeysetBundle

open Files

/-! ## Listings -/

namespace Files.FileTree

variable {tree : FileTree} {current : Location} {path : Path}

/-- **A listing names what is below a folder.** -/
theorem get?_of_mem_listing {names : Location} {stat : Stat} (h : path.isAbsolute)
    (hmem : (names, stat) ∈ tree.listing current path) :
    tree.Leads path ∧ tree.get? (place path) = some .folder ∧
      ∃ entry, tree.get? (place path ++ names) = some entry ∧ entry.stat = stat := by
  unfold listing at hmem
  split at hmem
  · rename_i location hresolve
    obtain ⟨hleads, rfl, hfolder⟩ := (resolve_eq_ok h).1 hresolve
    obtain ⟨⟨names', entry⟩, hbelow, heq⟩ := List.mem_map.1 hmem
    cases heq
    exact ⟨hleads, hfolder, entry, (mem_below.1 hbelow).2, rfl⟩
  · cases hmem

/-! ## Ways down -/

/-- A path leads to a file. -/
structure HasFile (tree : FileTree) (path : Path) : Prop where
  /-- The path is absolute. -/
  isAbsolute : path.isAbsolute
  /-- The way can be gone. -/
  leads : tree.Leads path
  /-- There is a file. -/
  isFile : ∃ bytes mtime, tree.get? (place path) = some (.file bytes mtime)

theorem place_joinText {folder : Path} {name : String} (h : folder.isAbsolute)
    (hname : Path.IsName name) : place (folder.joinText name) = place folder ++ [name] := by
  rw [place_eq (Path.isAbsolute_joinText _ h), Path.steps_joinText_of_isName h hname,
    List.foldl_append, ← place_eq h]
  rfl

/-- A way that is open goes on to the folders in the last one. -/
theorem OpenTo.joinText {folder : Path} {name : String}
    (hopen : tree.OpenTo folder (folder.steps.length + 1)) (h : folder.isAbsolute)
    (hname : Path.IsName name) (hfolder : tree.get? (place folder ++ [name]) = some .folder) :
    tree.OpenTo (folder.joinText name) ((folder.joinText name).steps.length + 1) := by
  refine openTo_succ (Path.isAbsolute_joinText _ h) (openTo_of_leads ?_) ?_
  · exact leads_joinText h hname hopen
  · rw [place_joinText h hname]
    exact hfolder

/-- In a sound tree the names of a file lead to it from a folder. -/
theorem Sound.hasFile (hsound : tree.Sound) {names : Location} {name : String} {bytes : ByteArray}
    {mtime : Int} (h : path.isAbsolute) (hopen : tree.OpenTo path (path.steps.length + 1))
    (hfile : tree.get? (place path ++ (names ++ [name])) = some (.file bytes mtime)) :
    tree.HasFile ((names.foldl Path.joinText path).joinText name) := by
  induction names generalizing path with
  | nil =>
      rw [List.nil_append] at hfile
      have hname : Path.IsName name := hsound.isName (place path) name (by rw [hfile]; nofun)
      refine ⟨Path.isAbsolute_joinText _ h, leads_joinText h hname hopen, bytes, mtime, ?_⟩
      exact (congrArg tree.get? (place_joinText h hname)).trans hfile
  | cons first names ih =>
      rw [List.cons_append, ← List.singleton_append, ← List.append_assoc] at hfile
      have hfolder : tree.get? (place path ++ [first]) = some .folder := by
        have hne : names ++ [name] ≠ [] := by simp
        refine hsound.folder_of_append hne ?_
        rw [hfile]
        nofun
      have hname : Path.IsName first := hsound.isName (place path) first (by rw [hfolder]; nofun)
      refine ih (Path.isAbsolute_joinText _ h) (hopen.joinText h hname hfolder) ?_
      rw [place_joinText h hname]
      exact hfile

end Files.FileTree

/-! ## Keyset directories -/

/-- The files of a directory are there. -/
def KeysetDir.HasFiles (dir : KeysetDir) (tree : FileTree) : Prop :=
  ∀ file ∈ dir.files, tree.HasFile file.path

/-- **The files that a listing gives are there.** -/
theorem KeysetDir.hasFiles_ofListing {tree : FileTree} {current : Location} {level : Path}
    (suffix : String) (hsound : tree.Sound) (h : level.isAbsolute) :
    ∀ dir ∈ ofListing suffix level (tree.listing current level), dir.HasFiles tree := by
  intro dir hdir file hfile
  obtain ⟨names, -, rfl⟩ := List.mem_map.1 hdir
  obtain ⟨name, hname, rfl⟩ := List.mem_map.1 hfile
  obtain ⟨⟨other, stat⟩, hmem, hbelow⟩ := List.mem_filterMap.1 hname
  dsimp only at hbelow
  split at hbelow
  · rename_i found hfound
    split at hbelow
    · cases hbelow
    · rename_i hstat
      cases hbelow
      obtain ⟨hleads, hfolder, entry, hentry, rfl⟩ := FileTree.get?_of_mem_listing h hmem
      rw [FileTree.below?_eq_some.1 hfound] at hentry
      have hopen := FileTree.openTo_succ h (FileTree.openTo_of_leads hleads) hfolder
      cases entry with
      | folder => exact absurd rfl hstat
      | file bytes mtime => exact hsound.hasFile h hopen hentry
  · cases hbelow

/-! ## Scans of a world -/

namespace Files.Program

variable {α β : Type} {world : World}

/-- A program leaves a world as it is, and what it finds there satisfies `post`. -/
structure Finds (world : World) (post : α → Prop) (program : Program α) : Prop where
  /-- The world stays. -/
  stays : (world.run program).2 = world
  /-- What is found. -/
  result : post (world.run program).1

theorem Looks.finds {post : α → Prop} {program : Program α} (h : program.Looks post)
    (world : World) : program.Finds world post :=
  ⟨(run_of_looks h world).2, (run_of_looks h world).1⟩

theorem finds_pure {post : α → Prop} {result : α} (h : post result) :
    (pure result : Program α).Finds world post := ⟨rfl, h⟩

theorem finds_bind {middle : α → Prop} {post : β → Prop} {program : Program α}
    {f : α → Program β} (h : program.Finds world middle)
    (hf : ∀ a, middle a → (f a).Finds world post) : (program >>= f).Finds world post := by
  have hrest := hf _ h.result
  have hrun : world.run (program >>= f) = world.run (f (world.run program).1) := by
    rw [World.run_bind, h.stays]
  exact ⟨hrun ▸ hrest.stays, hrun ▸ hrest.result⟩

theorem finds_mapM {post : β → Prop} {f : α → Program β} {items : List α}
    (hf : ∀ a ∈ items, (f a).Finds world post) :
    (items.mapM f).Finds world fun results => ∀ b ∈ results, post b := by
  induction items with
  | nil =>
      rw [List.mapM_nil]
      exact finds_pure nofun
  | cons item items ih =>
      rw [List.mapM_cons]
      refine finds_bind (hf item (by simp)) fun b hb => ?_
      refine finds_bind (ih fun a ha => hf a (by simp [ha])) fun bs hbs => ?_
      exact finds_pure (List.forall_mem_cons.2 ⟨hb, hbs⟩)

end Files.Program

namespace Scan

open Files.Program

variable {world : World}

theorem finds_ofLevel {base : Path} (suffix level : String) (hsound : world.tree.Sound)
    (h : base.isAbsolute) : (ofLevel base suffix level).Finds world fun scan =>
      ∀ dir ∈ scan.dirs, dir.HasFiles world.tree := by
  unfold ofLevel
  refine finds_bind ((Level.looks_folders level h).finds world) fun found hfound => ?_
  cases found with
  | error warning => exact finds_pure nofun
  | ok folders =>
      have hfolders : ∀ folder ∈ folders, (ofFolder suffix folder).Finds world fun dirs =>
          ∀ dir ∈ dirs, dir.HasFiles world.tree := fun folder hfolder =>
        ⟨rfl, KeysetDir.hasFiles_ofListing suffix hsound (hfound folders rfl folder hfolder)⟩
      refine finds_bind (finds_mapM hfolders) fun dirs hdirs => finds_pure fun dir hdir => ?_
      obtain ⟨some, hsome, hmem⟩ := List.mem_flatten.1 hdir
      exact hdirs some hsome dir hmem

/-- **The keyset files that a scan finds are there.** -/
theorem finds_ofLevels {base : Path} (levels : List String) (suffix : String)
    (hsound : world.tree.Sound) (h : base.isAbsolute) :
    (ofLevels base levels suffix).Finds world fun scan =>
      ∀ dir ∈ scan.dirs, dir.HasFiles world.tree :=
  finds_bind (finds_mapM fun level _ => finds_ofLevel suffix level hsound h) fun _ hscans =>
    finds_pure (forall_foldl hscans nofun)

end Scan

end KeysetBundle
