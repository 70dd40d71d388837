import KeysetBundle.Proofs.Files.ModuleCache
import KeysetBundle.Proofs.Freshness.Fingerprint
import Mathlib.Data.List.Forall2

/-!
# What a record says of a world

A record is asked about a file, a list of files or a setting, and takes them down.  An answer is
yes exactly if what the record has under the name is what the world has now, with no exception for
lists of different lengths, for files that cannot be read and for names that are not recorded.
What is taken down is what is asked about later, and it changes no other answer; if a file cannot
be read on the way, nothing is taken down.

Main results.

- `allHoldIn_iff`: a list of fingerprints holds if it is what is read, one by one.
- `Record.exact_and_atomic`: questions and answers, and what becomes of a record.
-/

namespace KeysetBundle.Freshness

open Files

/-! ## Reading fingerprints -/

/-- A fingerprint can be taken at a path, and this is the one. -/
def Reads (world : World) (path : Path) (now : Fingerprint) : Prop :=
  world.run (Fingerprint.read path) = (.ok now, world)

/-- What ends the reading of several files: the first of them that cannot be read. -/
def FailsFirst (world : World) (paths : List Path) (failure : Failure) : Prop :=
  ∃ before path after, paths = before ++ path :: after ∧
    (∀ earlier ∈ before, ∃ now, Reads world earlier now) ∧
    world.run (Fingerprint.read path) = (.error failure, world)

/-- Two fingerprints agree in the components of the path, in size and in time. -/
structure Fingerprint.Alike (known now : Fingerprint) : Prop where
  /-- The paths are the same, component by component. -/
  path : known.path.components = now.path.components
  /-- The sizes are the same. -/
  size : known.size = now.size
  /-- The times of modification are the same. -/
  mtime : known.mtime = now.mtime

theorem Fingerprint.same_iff {known now : Fingerprint} : known.same now ↔ known.Alike now := by
  rw [same, Bool.and_eq_true, Bool.and_eq_true, Path.same, beq_iff_eq, beq_iff_eq, beq_iff_eq]
  constructor
  · rintro ⟨⟨hpath, hsize⟩, hmtime⟩
    exact ⟨hpath, hsize, hmtime⟩
  · exact fun h => ⟨⟨h.path, h.size⟩, h.mtime⟩

theorem Fingerprint.Alike.refl (now : Fingerprint) : now.Alike now := ⟨rfl, rfl, rfl⟩

section Reading

variable {world : World} {path : Path} {paths : List Path} {known : Fingerprint}

theorem reads_iff {now : Fingerprint} : Reads world path now ↔ printIn world path = .ok now := by
  rw [Reads, run_read, Prod.mk.injEq]
  exact and_iff_left rfl

theorem holdsIn_iff : holdsIn world known path ↔ ∃ now, Reads world path now ∧ known.Alike now := by
  simp only [reads_iff, ← Fingerprint.same_iff]
  exact holdsIn_iff_printIn

/-- **A list of fingerprints holds if it is what is read**, one by one and in this order. -/
theorem allHoldIn_iff {knowns : List Fingerprint} : allHoldIn world knowns paths ↔
    ∃ nows, List.Forall₂ (Reads world) paths nows ∧
      List.Forall₂ Fingerprint.Alike knowns nows := by
  induction knowns generalizing paths with
  | nil =>
      cases paths with
      | nil => exact ⟨fun _ => ⟨[], .nil, .nil⟩, fun _ => rfl⟩
      | cons path paths =>
          refine ⟨nofun, ?_⟩
          rintro ⟨nows, hreads, halike⟩
          cases halike
          cases hreads
  | cons known knowns ih =>
      cases paths with
      | nil =>
          refine ⟨nofun, ?_⟩
          rintro ⟨nows, hreads, halike⟩
          cases hreads
          cases halike
      | cons path paths =>
          rw [allHoldIn, Bool.and_eq_true, holdsIn_iff, ih]
          constructor
          · rintro ⟨⟨now, hread, halike⟩, nows, hreads, halikes⟩
            exact ⟨now :: nows, .cons hread hreads, .cons halike halikes⟩
          · rintro ⟨nows, hreads, halikes⟩
            cases hreads with
            | cons hread hreads =>
                cases halikes with
                | cons halike halikes => exact ⟨⟨_, hread, halike⟩, _, hreads, halikes⟩

theorem forall₂_of_mapM {nows : List Fingerprint} (h : paths.mapM (printIn world) = .ok nows) :
    List.Forall₂ (Reads world) paths nows := by
  induction paths generalizing nows with
  | nil =>
      cases h
      exact .nil
  | cons path paths ih =>
      obtain ⟨now, rest, hread, hrest, rfl⟩ := mapM_cons_eq_ok.1 h
      exact .cons (reads_iff.2 hread) (ih hrest)

theorem failsFirst_iff {failure : Failure} :
    FailsFirst world paths failure ↔ paths.mapM (printIn world) = .error failure := by
  simp only [mapM_eq_error, FailsFirst, reads_iff, run_read, Prod.mk.injEq, and_true]

end Reading

/-! ## Questions and answers -/

/-- What can be taken down under a name. -/
inductive Item
  /-- A file. -/
  | file (path : Path)
  /-- Several files in order. -/
  | fileList (paths : List Path)
  /-- The value of a setting. -/
  | setting (value : String)

/-- The parts of a record. -/
inductive Kind
  /-- The files. -/
  | file
  /-- The lists of files. -/
  | fileList
  /-- The settings. -/
  | setting
  deriving DecidableEq

namespace Item

/-- The part of a record that an item belongs to. -/
def kind : Item → Kind
  | file _ => .file
  | fileList _ => .fileList
  | setting _ => .setting

/-- The files that have to be read for an item. -/
def paths : Item → List Path
  | file path => [path]
  | fileList paths => paths
  | setting _ => []

end Item

namespace Record

/-- Asks whether an item is recorded under a name and still the same. -/
def has (record : Record) (name : String) : Item → Program Bool
  | .file path => record.hasFile name path
  | .fileList paths => record.hasFileList name paths
  | .setting value => return record.hasSetting name value

/-- Takes down an item under a name. -/
def add (record : Record) (name : String) : Item → Program (Except Failure Record)
  | .file path => record.addFile name path
  | .fileList paths => record.addFileList name paths
  | .setting value => return .ok (record.addSetting name value)

/-- Takes down an item, and gives the record that one has afterwards: the old one if it fails. -/
def keep (record : Record) (name : String) (item : Item) :
    Program (Except Failure Unit × Record) := do
  match ← record.add name item with
  | .ok after => return (.ok (), after)
  | .error failure => return (.error failure, record)

/-- What a record has under a name is what the world has now. -/
def Matches (record : Record) (world : World) (name : String) : Item → Prop
  | .file path => ∃ known now, record.files.get? name = some known ∧
      Reads world path now ∧ known.Alike now
  | .fileList paths => ∃ knowns nows, record.fileLists.get? name = some knowns ∧
      List.Forall₂ (Reads world) paths nows ∧ List.Forall₂ Fingerprint.Alike knowns nows
  | .setting value => record.settings.get? name = some value

variable (record : Record) (name : String) (world : World)

/-- A question is answered by what is there. -/
theorem run_has (item : Item) : ∃ answer, world.run (record.has name item) = (answer, world) ∧
    (answer = true ↔ record.Matches world name item) := by
  cases item with
  | file path =>
      unfold has hasFile Matches
      cases hget : record.files.get? name with
      | none => exact ⟨false, rfl, by simp⟩
      | some known => exact ⟨_, run_holds world known path, by simpa using holdsIn_iff⟩
  | fileList paths =>
      unfold has hasFileList Matches
      cases hget : record.fileLists.get? name with
      | none => exact ⟨false, rfl, by simp⟩
      | some knowns => exact ⟨_, run_allHold world knowns paths, by simpa using allHoldIn_iff⟩
  | setting value => exact ⟨_, rfl, by rw [hasSetting, beq_iff_eq, Matches]⟩

/-- What a record becomes. -/
inductive Kept : Item → Record → Prop
  /-- A file is taken down. -/
  | file {path : Path} {now : Fingerprint} (h : Reads world path now) :
    Kept (.file path) { record with files := record.files.insert name now }
  /-- A list of files is taken down. -/
  | fileList {paths : List Path} {nows : List Fingerprint}
    (h : List.Forall₂ (Reads world) paths nows) :
    Kept (.fileList paths) { record with fileLists := record.fileLists.insert name nows }
  /-- A setting is taken down. -/
  | setting (value : String) : Kept (.setting value) (record.addSetting name value)

/-- Taking down an item ends with the item in the record, or with the record as it was. -/
theorem run_keep (item : Item) :
    (∃ after, world.run (record.keep name item) = ((.ok (), after), world) ∧
      Kept record name world item after) ∨
    ∃ failure, world.run (record.keep name item) = ((.error failure, record), world) ∧
      FailsFirst world item.paths failure := by
  unfold keep
  cases item with
  | file path =>
      have hread := run_read world path
      rw [World.run_bind, add, addFile, World.run_bind, hread]
      cases hprint : printIn world path with
      | ok now => exact .inl ⟨_, rfl, .file (reads_iff.2 hprint)⟩
      | error failure =>
          exact .inr ⟨failure, rfl, [], path, [], rfl, nofun, hprint ▸ run_read world path⟩
  | fileList paths =>
      have hread := run_readAll world paths
      rw [World.run_bind, add, addFileList, World.run_bind, hread]
      cases hprints : paths.mapM (printIn world) with
      | ok nows => exact .inl ⟨_, rfl, .fileList (forall₂_of_mapM hprints)⟩
      | error failure => exact .inr ⟨failure, rfl, failsFirst_iff.2 hprints⟩
  | setting value => exact .inl ⟨_, rfl, .setting value⟩

variable {record name world} {item : Item} {after : Record}

/-- What has been taken down is found again. -/
theorem Kept.matches (h : Kept record name world item after) : after.Matches world name item := by
  cases h with
  | file hread => exact ⟨_, _, Dictionary.get?_insert_self _ _ _, hread, .refl _⟩
  | fileList hreads =>
      exact ⟨_, _, Dictionary.get?_insert_self _ _ _, hreads,
        List.forall₂_same.2 fun now _ => .refl now⟩
  | setting value => exact Dictionary.get?_insert_self _ _ _

/-- Another name, or another part of the record, is asked about as before. -/
theorem Kept.has_eq (h : Kept record name world item after) {other : String} {thing : Item}
    (hother : other ≠ name ∨ thing.kind ≠ item.kind) :
    after.has other thing = record.has other thing := by
  cases h with
  | file =>
      cases thing with
      | file path =>
          have hne : other ≠ name := hother.resolve_right fun hkind => hkind rfl
          rw [has, has, hasFile, hasFile, Dictionary.get?_insert, if_neg hne]
      | fileList paths => rfl
      | setting value => rfl
  | fileList =>
      cases thing with
      | file path => rfl
      | fileList paths =>
          have hne : other ≠ name := hother.resolve_right fun hkind => hkind rfl
          rw [has, has, hasFileList, hasFileList, Dictionary.get?_insert, if_neg hne]
      | setting value => rfl
  | setting =>
      cases thing with
      | file path => rfl
      | fileList paths => rfl
      | setting value =>
          have hne : other ≠ name := hother.resolve_right fun hkind => hkind rfl
          rw [has, has, hasSetting, hasSetting, addSetting, Dictionary.get?_insert, if_neg hne]

/-- All files of an item that was taken down could be read. -/
theorem Kept.readable (h : Kept record name world item after) {path : Path}
    (hpath : path ∈ item.paths) : ∃ now, Reads world path now := by
  cases h with
  | file hread =>
      cases List.mem_singleton.1 hpath
      exact ⟨_, hread⟩
  | fileList hreads =>
      obtain ⟨i, hi, rfl⟩ := List.getElem_of_mem hpath
      exact ⟨_, hreads.get hi (hreads.length_eq ▸ hi)⟩
  | setting => cases hpath

/-- **Questions to a record are exact, and taking down is atomic.**  A question changes nothing and
is answered with yes exactly if what is recorded is what is read now.  An item that was taken down
is found again, and all other names and the other two parts answer as before, whatever has become of
the world; it is taken down exactly if all its files can be read, and if not, the first one that
cannot is reported and the record is what it was. -/
theorem exact_and_atomic (record : Record) (name : String) (item : Item) (world : World) :
    (∃ answer, world.run (record.has name item) = (answer, world) ∧
      (answer = true ↔ record.Matches world name item)) ∧
    (∀ after now, world.run (record.keep name item) = ((.ok (), after), now) →
      now = world ∧ world.run (after.has name item) = (true, world) ∧
      ∀ later other thing, other ≠ name ∨ thing.kind ≠ item.kind →
        World.run later (after.has other thing) = later.run (record.has other thing)) ∧
    (∀ failure after now, world.run (record.keep name item) = ((.error failure, after), now) →
      now = world ∧ after = record ∧ FailsFirst world item.paths failure) ∧
    ((∃ after, world.run (record.keep name item) = ((.ok (), after), world)) ↔
      ∀ path ∈ item.paths, ∃ now, Reads world path now) := by
  refine ⟨run_has record name world item, ?_⟩
  rcases run_keep record name world item with
    ⟨kept, hrun, hkept⟩ | ⟨failure, hrun, before, path, rest, hpaths, hbefore, hfails⟩
  · rw [hrun]
    refine ⟨?_, nofun, fun _ path hpath => hkept.readable hpath, fun _ => ⟨kept, rfl⟩⟩
    rintro after now heq
    cases heq
    obtain ⟨answer, hanswer, hiff⟩ := run_has kept name world item
    refine ⟨rfl, ?_, fun later other thing hother => by rw [hkept.has_eq hother]⟩
    rw [hanswer, hiff.2 hkept.matches]
  · rw [hrun]
    refine ⟨nofun, ?_, nofun, fun hreadable => ?_⟩
    · rintro cause after now heq
      cases heq
      exact ⟨rfl, rfl, before, path, rest, hpaths, hbefore, hfails⟩
    · obtain ⟨now, hnow⟩ := hreadable path (by rw [hpaths]; simp)
      rw [Reads, hfails] at hnow
      cases hnow

end Record

end KeysetBundle.Freshness
