import KeysetBundle.Proofs.Files.Atomic

/-!
# Sound trees

A tree is sound if all its entries are in folders and have names that a path
can spell.  Nothing that a program asks for breaks this, so the tree that a
program leaves is sound if the one that it found was.

Main results.

- `Sound.folder_of_append`: all that is above an entry is a folder.
- `sound_answer`, `sound_run`: trees stay sound.
-/

namespace KeysetBundle

instance Path.decidableIsName (text : String) : Decidable (Path.IsName text) :=
  decidable_of_iff ('/' ∉ text.toList ∧ Path.pieceComponent? text = some (.name text))
    ⟨fun ⟨hslash, hcomponent⟩ => ⟨hslash, hcomponent⟩,
      fun h => ⟨h.noSlash, h.component⟩⟩

namespace Files

open KeysetBundle.Path (piecesOf)

namespace FileTree

variable {tree after : FileTree} {folder location current : Location} {name : String}
  {entry : Entry} {path : Path}

/-- Every entry is in a folder and has a name. -/
structure Sound (tree : FileTree) : Prop where
  /-- What an entry is in is a folder. -/
  parent : ∀ folder name, tree.get? (folder ++ [name]) ≠ none → tree.get? folder = some .folder
  /-- The last name of an entry is a name. -/
  isName : ∀ folder name, tree.get? (folder ++ [name]) ≠ none → Path.IsName name

theorem get?_ne_none (h : location ≠ []) :
    tree.get? location ≠ none ↔ location ∈ tree.entries.map (·.1) := by
  rw [get?_of_ne_nil _ h, Ne, List.lookup_eq_none_iff]
  constructor
  · intro hnot
    refine Classical.byContradiction fun hmem => hnot fun other hother => ?_
    rw [bne_iff_ne]
    rintro rfl
    exact hmem (List.mem_map.2 ⟨other, hother, rfl⟩)
  · intro hmem hnot
    obtain ⟨other, hother, rfl⟩ := List.mem_map.1 hmem
    exact absurd (hnot other hother) (by simp)

/-- Whether a tree is sound can be found out from its entries. -/
theorem sound_iff : tree.Sound ↔ ∀ location ∈ tree.entries.map (·.1), location = [] ∨
    tree.isFolder location.dropLast ∧ Path.IsName (location.getLast?.getD "") := by
  constructor
  · intro h location hlocation
    rcases List.eq_nil_or_concat location with hnil | ⟨folder, name, rfl⟩
    · exact .inl hnil
    · rw [List.concat_eq_append] at hlocation ⊢
      have hthere := (get?_ne_none (by simp)).2 hlocation
      refine .inr ⟨?_, ?_⟩
      · rw [List.dropLast_concat]
        exact isFolder_iff.2 (h.parent folder name hthere)
      · rw [List.getLast?_concat]
        exact h.isName folder name hthere
  · intro h
    have hentry : ∀ folder name, tree.get? (folder ++ [name]) ≠ none →
        tree.isFolder folder ∧ Path.IsName name := by
      intro folder name hthere
      rcases h _ ((get?_ne_none (by simp)).1 hthere) with hnil | hboth
      · simp at hnil
      · rwa [List.dropLast_concat, List.getLast?_concat, Option.getD_some] at hboth
    exact ⟨fun folder name hthere => isFolder_iff.1 (hentry folder name hthere).1,
      fun folder name hthere => (hentry folder name hthere).2⟩

instance (tree : FileTree) : Decidable tree.Sound := decidable_of_iff _ sound_iff.symm

/-- **All that is above an entry is a folder.** -/
theorem Sound.folder_of_append (h : tree.Sound) {names : List String} (hne : names ≠ [])
    (hthere : tree.get? (location ++ names) ≠ none) : tree.get? location = some .folder := by
  induction names generalizing location with
  | nil => exact absurd rfl hne
  | cons name names ih =>
      cases names with
      | nil => exact h.parent location name hthere
      | cons next rest =>
          have habove : tree.get? (location ++ [name]) = some .folder := by
            refine ih (by simp) ?_
            rwa [List.append_assoc]
          refine h.parent location name ?_
          rw [habove]
          nofun

/-! ## Changes of a tree -/

theorem Sound.set (h : tree.Sound) (hfolder : tree.get? folder = some .folder)
    (hname : Path.IsName name) (hfree : tree.get? (folder ++ [name]) ≠ some .folder)
    (entry : Entry) : (tree.set (folder ++ [name]) entry).Sound := by
  have hne : folder ++ [name] ≠ [] := by simp
  have hkeep : ∀ other, tree.get? other = some .folder →
      (tree.set (folder ++ [name]) entry).get? other = some .folder :=
    fun other => get?_set_folder hne hfree
  constructor
  · intro other last hthere
    by_cases hsame : other ++ [last] = folder ++ [name]
    · rw [(List.append_inj' hsame rfl).1]
      exact hkeep _ hfolder
    · rw [get?_set _ hne, if_neg hsame] at hthere
      exact hkeep _ (h.parent other last hthere)
  · intro other last hthere
    by_cases hsame : other ++ [last] = folder ++ [name]
    · rw [(List.cons.inj (List.append_inj' hsame rfl).2).1]
      exact hname
    · rw [get?_set _ hne, if_neg hsame] at hthere
      exact h.isName other last hthere

theorem Sound.erase (h : tree.Sound) (hfree : tree.get? location ≠ some .folder) :
    (tree.erase location).Sound := by
  have hne : location ≠ [] := by
    rintro rfl
    exact hfree rfl
  have hthere : ∀ other, (tree.erase location).get? other ≠ none → tree.get? other ≠ none := by
    intro other hother
    rw [get?_erase _ hne] at hother
    split at hother
    · exact absurd rfl hother
    · exact hother
  constructor
  · intro folder name hentry
    have hfolder := h.parent folder name (hthere _ hentry)
    rw [get?_erase _ hne, if_neg]
    · exact hfolder
    · rintro rfl
      exact hfree hfolder
  · exact fun folder name hentry => h.isName folder name (hthere _ hentry)

/-- Where something can be put there is a folder, and its name is one. -/
theorem folder_of_destination {slash : Bool}
    (h : tree.destination current path = .ok ⟨folder, .name name slash⟩) :
    tree.get? folder = some .folder ∧ Path.IsName name := by
  obtain ⟨-, hfolder, hlast⟩ := lead_of_destination h
  obtain ⟨hcomponent, -, hpieces⟩ := lastPiece_eq_name hlast
  refine ⟨hfolder, ?_, hcomponent⟩
  -- the name is one of the pieces, and there are no slashes in pieces
  have hmem : name ∈ (origin current path).2 := by
    have hdropped : name ∈ (origin current path).2.reverse.dropWhile (· == "") := by
      rw [hpieces]
      simp
    exact List.mem_reverse.1 ((List.dropWhile_sublist _).mem hdropped)
  unfold origin at hmem
  split at hmem
  · exact Path.not_mem_of_mem_piecesOf hmem
  · exact Path.not_mem_of_mem_piecesOf hmem

theorem Sound.write {bytes : ByteArray} {mtime : Int} (h : tree.Sound)
    (hwrite : tree.write current path bytes mtime = .ok after) : after.Sound := by
  obtain ⟨folder, name, hdestination, hfree, rfl⟩ := write_iff.1 hwrite
  obtain ⟨hfolder, hname⟩ := folder_of_destination hdestination
  exact h.set hfolder hname hfree _

theorem Sound.makeFolder (h : tree.Sound) (hmake : tree.makeFolder current path = .ok after) :
    after.Sound := by
  obtain ⟨folder, name, slash, hdestination, hnone, rfl⟩ := makeFolder_iff.1 hmake
  obtain ⟨hfolder, hname⟩ := folder_of_destination hdestination
  refine h.set hfolder hname ?_ _
  rw [hnone]
  nofun

theorem Sound.makeFolders (bound : Nat) (h : tree.Sound) :
    (makeFolders current bound tree path).2.Sound :=
  makeFolders_keeps (fun _ => True) (fun _ _ => trivial) (fun _ hmake hsound =>
    hsound.makeFolder hmake) bound trivial h

theorem Sound.rename {source target : Path} (h : tree.Sound)
    (hrename : tree.rename current source target = .ok after) : after.Sound := by
  obtain ⟨spare, bytes, mtime, folder, name, hresolve, hdestination, hfree, rfl⟩ :=
    rename_iff.1 hrename
  obtain ⟨hfolder, hname⟩ := folder_of_destination hdestination
  have hspare := (resolve_iff.1 hresolve).2
  have hsource : tree.get? spare ≠ some .folder := by
    rw [hspare]
    nofun
  refine (h.erase hsource).set ?_ hname ?_ _
  · rw [get?_erase _ (ne_nil_of_file hspare), if_neg]
    · exact hfolder
    · rintro rfl
      exact hsource hfolder
  · rw [get?_erase _ (ne_nil_of_file hspare)]
    split
    · nofun
    · exact hfree

theorem Sound.removeFile (h : tree.Sound) (hremove : tree.removeFile current path = .ok after) :
    after.Sound := by
  obtain ⟨location, bytes, mtime, hresolve, rfl⟩ := removeFile_iff.1 hremove
  refine h.erase ?_
  rw [(resolve_iff.1 hresolve).2]
  nofun

end FileTree

/-! ## Programs -/

/-- A request leaves a sound tree behind. -/
theorem sound_answer (request : Request) {world : World} (h : world.tree.Sound) :
    (World.answer request world).2.tree.Sound := by
  have hchange : ∀ result : Except Failure FileTree, (∀ tree, result = .ok tree → tree.Sound) →
      (world.change result).2.tree.Sound := by
    intro result hresult
    cases result with
    | error failure => exact h
    | ok tree => exact hresult tree rfl
  cases request with
  | writeText path text =>
      dsimp only [World.answer]
      split
      · rename_i hwrite
        exact h.write hwrite
      · exact h
  | createFolders path =>
      have hmade : (world.tree.createFolders world.current path).2.Sound := h.makeFolders _
      exact hmade
  | rename source target => exact hchange _ fun tree => h.rename
  | removeFile path => exact hchange _ fun tree => h.removeFile
  | stat path => exact h
  | readText path => exact h
  | listing path => exact h
  | canonicalize path => exact h
  | workingDirectory => exact h
  | cachedModule path => exact h
  | cacheModule path text => exact h
  | dropModule path => exact h
  | cachedModuleCount => exact h

/-- **A program leaves a sound tree behind.** -/
theorem sound_run {α : Type} (program : Program α) {world : World} (h : world.tree.Sound) :
    (world.run program).2.tree.Sound := by
  induction program generalizing world with
  | done result => exact h
  | ask request next ih => exact ih _ (sound_answer request h)

end Files

end KeysetBundle
