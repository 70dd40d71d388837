import KeysetBundle.Proofs.Build.Account
import KeysetBundle.Proofs.Build.Layout

/-!
# The books of a project

After its turns a build writes the new records into its ledger.  If all records
of all ledgers were accounted for when it started, they are so when it ends
(`Books`), and what it reports of targets that are up to date is true of the
tree that it leaves.

Main results.

- `Project.closing`: how a build ends after its turns.
- `Start.reported`, `Start.filled`: what is true of the targets after a build.
- `Books.saved`, `Books.built`: a build keeps the books.
-/

namespace KeysetBundle.Build

open KeysetBundle.Bundle (bundleIn inWorld)
open Files
open Freshness
open Report (Outcome)

/-! ## Who made an artifact -/

/-- For which language the artifact at a path was made last, after some turns. -/
def makers (made : Path → Option Language) (turns : List Turn) (path : Path) : Option Language :=
  match turns.find? fun turn => turn.1.path == path && isBuilt turn.2.1 with
  | some turn => some turn.1.language
  | none => made path

theorem makers_of_not_built {made : Path → Option Language} {turns : List Turn} {path : Path}
    (h : ∀ turn ∈ turns, turn.1.path = path → isBuilt turn.2.1 = false) :
    makers made turns path = made path := by
  have hnone : (turns.find? fun turn => turn.1.path == path && isBuilt turn.2.1) = none := by
    rw [List.find?_eq_none]
    intro turn hturn hboth
    rw [Bool.and_eq_true, beq_iff_eq] at hboth
    rw [h turn hturn hboth.1] at hboth
    cases hboth.2
  rw [makers, hnone]

theorem makers_of_built {made : Path → Option Language} {turns : List Turn} {turn : Turn}
    (hnodup : (turns.map (·.1.path)).Nodup) (hturn : turn ∈ turns) (hbuilt : isBuilt turn.2.1) :
    makers made turns turn.1.path = some turn.1.language := by
  unfold makers
  split
  · rename_i other hother
    have hboth := List.find?_some hother
    rw [Bool.and_eq_true, beq_iff_eq] at hboth
    have hmem := List.mem_of_find?_eq_some hother
    rw [eq_of_nodup_map hnodup hmem hturn hboth.1]
  · rename_i hnone
    rw [List.find?_eq_none] at hnone
    exact absurd (by simp [hbuilt]) (hnone turn hturn)

/-! ## New records in a ledger -/

theorem get?_set (ledger : Ledger) (target path : Path) (record : Record) :
    (ledger.set target record).get? path =
      if path = target then some record else ledger.get? path := by
  have htext : path.text = target.text ↔ path = target := by
    cases path
    cases target
    simp
  unfold Ledger.set Ledger.get?
  rw [Dictionary.get?_insert]
  by_cases hpath : path = target
  · rw [if_pos hpath, if_pos (htext.2 hpath)]
  · rw [if_neg hpath, if_neg (mt htext.1 hpath)]

/-- A record that is found after some turns is a new one, or there is no new one. -/
theorem get?_recordAll {turns : List Turn} {ledger : Ledger} {path : Path} {record : Record}
    (h : (Project.recordAll ledger turns).get? path = some record) :
    (∃ turn ∈ turns, turn.1.path = path ∧ turn.2.2 = some record) ∨
      ledger.get? path = some record ∧
        ∀ turn ∈ turns, turn.1.path = path → turn.2.2 = none := by
  induction turns generalizing ledger with
  | nil => exact .inr ⟨h, nofun⟩
  | cons turn turns ih =>
      obtain ⟨target, outcome, taken⟩ := turn
      rcases ih h with ⟨other, hother, hpath, hrecord⟩ | ⟨hfound, hnone⟩
      · exact .inl ⟨other, by simp [hother], hpath, hrecord⟩
      · cases taken with
        | none =>
            refine .inr ⟨hfound, fun other hother hpath => ?_⟩
            rcases List.mem_cons.1 hother with rfl | hother
            · rfl
            · exact hnone other hother hpath
        | some taken =>
            change (ledger.set target.path taken).get? path = some record at hfound
            rw [get?_set] at hfound
            by_cases hpath : path = target.path
            · rw [if_pos hpath] at hfound
              exact .inl ⟨(target, outcome, some taken), by simp, hpath.symm, hfound⟩
            · rw [if_neg hpath] at hfound
              refine .inr ⟨hfound, fun other hother hother' => ?_⟩
              rcases List.mem_cons.1 hother with rfl | hother
              · exact absurd hother'.symm hpath
              · exact hnone other hother hother'

/-! ## Saving the ledger -/

theorem run_save_error {world : World} {ledger : Ledger} {file : Path}
    {cause : Ledger.SaveFailure} (h : (world.run (ledger.save file)).1 = .error cause) :
    (world.run (ledger.save file)).2 = world := by
  rw [run_save_eq] at h ⊢
  cases hwrite : world.tree.write world.current file ledger.render.toUTF8 world.clock with
  | error failure => rfl
  | ok tree =>
      rw [hwrite] at h
      cases h

/-- Nothing is written if there are no new records. -/
theorem run_saveLedger (world : World) (project : Project) (ledger : Ledger) (turns : List Turn) :
    world.run (project.saveLedger ledger turns) =
      if turns.any fun turn => turn.2.2.isSome then
        world.run ((Project.recordAll ledger turns).save project.ledgerFile)
      else (.ok (), world) := by
  unfold Project.saveLedger
  by_cases hany : turns.any fun turn => turn.2.2.isSome
  · rw [if_pos hany]
    have hsame : (turns.any fun (_, _, record) => record.isSome) = true := hany
    rw [if_pos hsame]
  · rw [if_neg hany]
    have hsame : ¬(turns.any fun (_, _, record) => record.isSome) = true := hany
    rw [if_neg hsame]
    rfl

theorem not_any_isSome {turns : List Turn} :
    (¬turns.any fun turn => turn.2.2.isSome) ↔ ∀ turn ∈ turns, turn.2.2 = none := by
  simp

/-- How a build ends after its turns. -/
inductive Closing (file : Path) (ledger : Ledger) (turns : List Turn) (world : World) :
    Except Ledger.SaveFailure Unit × World → Prop
  /-- There are no new records, and nothing is to be done. -/
  | idle (hnone : ∀ turn ∈ turns, turn.2.2 = none) : Closing file ledger turns world (.ok (), world)
  /-- The ledger cannot be written, and everything stays as it is. -/
  | refused (cause : Ledger.SaveFailure) : Closing file ledger turns world (.error cause, world)
  /-- The ledger is written with the new records. -/
  | written (hnew : ∃ turn, turn ∈ turns) (hne : place file ≠ [])
    (hfolder : world.tree.get? (place file) ≠ some .folder) (hleads : world.tree.Leads file) :
    Closing file ledger turns world (.ok (), { world with
      tree := world.tree.set (place file)
        (.file (Project.recordAll ledger turns).render.toUTF8 world.clock)
      clock := world.clock + 1 })

namespace Project

variable {world : World} {project : Project} {force : Bool}

/-- A build without new records ends with its turns. -/
theorem savedIn_of_no_records (h : ∀ turn ∈ (project.turnsIn world force).1, turn.2.2 = none) :
    project.savedIn world force = (.ok (), (project.turnsIn world force).2) :=
  (run_saveLedger _ _ _ _).trans (if_neg (not_any_isSome.2 h))

theorem savedIn_of_records
    (hany : (project.turnsIn world force).1.any fun turn => turn.2.2.isSome) :
    project.savedIn world force = (project.turnsIn world force).2.run
      ((recordAll (loadedIn world project.ledgerFile) (project.turnsIn world force).1).save
        project.ledgerFile) :=
  (run_saveLedger _ _ _ _).trans (if_pos hany)

/-- **The end of a build.** -/
theorem closing (habsolute : project.ledgerFile.isAbsolute) :
    Closing project.ledgerFile (loadedIn world project.ledgerFile) (project.turnsIn world force).1
      (project.turnsIn world force).2 (project.savedIn world force) := by
  by_cases hany : (project.turnsIn world force).1.any fun turn => turn.2.2.isSome
  · obtain ⟨turn, hturn, -⟩ := List.any_eq_true.1 hany
    have hrefused := @run_save_error (project.turnsIn world force).2
      (recordAll (loadedIn world project.ledgerFile) (project.turnsIn world force).1)
      project.ledgerFile
    have hwritten := @run_save (project.turnsIn world force).2 project.ledgerFile
      (recordAll (loadedIn world project.ledgerFile) (project.turnsIn world force).1) habsolute
    rw [← savedIn_of_records hany] at hrefused hwritten
    generalize project.savedIn world force = reply at hrefused hwritten ⊢
    obtain ⟨result, after⟩ := reply
    cases result with
    | error cause =>
        obtain rfl := hrefused rfl
        exact .refused cause
    | ok saved =>
        obtain ⟨rfl, hne, hfolder, hleads⟩ := hwritten rfl
        exact .written ⟨turn, hturn⟩ hne hfolder hleads
  · have hnone := not_any_isSome.1 hany
    rw [savedIn_of_no_records hnone]
    exact .idle hnone

/-- Nothing changes after the turns but the ledger, and without turns that does not either. -/
theorem get?_savedIn_of_turns (habsolute : project.ledgerFile.isAbsolute) {location : Location}
    (h : ∀ turn ∈ (project.turnsIn world force).1, location ≠ place project.ledgerFile) :
    (project.savedIn world force).2.tree.get? location =
      (project.turnsIn world force).2.tree.get? location := by
  have hclosing : Closing _ _ _ _ (project.savedIn world force) := closing habsolute
  generalize project.savedIn world force = reply at hclosing ⊢
  cases hclosing with
  | idle hnone => rfl
  | refused cause => rfl
  | written hnew hne hfolder hleads =>
      obtain ⟨turn, hturn⟩ := hnew
      dsimp only
      rw [FileTree.get?_set _ hne, if_neg (h turn hturn)]

theorem get?_savedIn_of_ne (habsolute : project.ledgerFile.isAbsolute) {location : Location}
    (h : location ≠ place project.ledgerFile) :
    (project.savedIn world force).2.tree.get? location =
      (project.turnsIn world force).2.tree.get? location :=
  get?_savedIn_of_turns habsolute fun _ _ => h

theorem folder_savedIn (habsolute : project.ledgerFile.isAbsolute) {location : Location}
    (hfolder : (project.turnsIn world force).2.tree.get? location = some .folder) :
    (project.savedIn world force).2.tree.get? location = some .folder := by
  have hclosing : Closing _ _ _ _ (project.savedIn world force) := closing habsolute
  generalize project.savedIn world force = reply at hclosing ⊢
  cases hclosing with
  | idle hnone => exact hfolder
  | refused cause => exact hfolder
  | written hnew hne hfree hleads => exact FileTree.get?_set_folder hne hfree hfolder

/-- A build that has new records saves them for the next one. -/
theorem loadedIn_savedIn (habsolute : project.ledgerFile.isAbsolute)
    (hany : (project.turnsIn world force).1.any fun turn => turn.2.2.isSome)
    (hsaved : (project.savedIn world force).1 = .ok ()) :
    loadedIn (project.savedIn world force).2 project.ledgerFile =
      (Ledger.ofJson? (recordAll (loadedIn world project.ledgerFile)
        (project.turnsIn world force).1).toJson).getD .empty := by
  rw [savedIn_of_records hany] at hsaved ⊢
  exact loadedIn_save habsolute hsaved

end Project

/-! ## The books -/

/-- All records of all ledgers are accounted for. -/
def Books (planned : Path → Target → Prop) (input : Location → Prop) (seen : FileTree → Prop)
    (made : Path → Option Language) (tree : FileTree) : Prop :=
  ∀ file target record, planned file target →
    (ledgerIn tree file).get? target.path = some record →
    Accounted planned input seen made tree target.path record

variable {planned : Path → Target → Prop} {input : Location → Prop} {seen : FileTree → Prop}
  {made : Path → Option Language}

theorem Accounted.of_same {tree after : FileTree} {path : Path} {record : Record}
    (h : Accounted planned input seen made tree path record)
    (hsame : after.get? (place path) = tree.get? (place path)) :
    Accounted planned input seen made after path record := by
  obtain ⟨language, hmade, hfile, text, horigin, hnotOnWay, hentry⟩ := h
  refine ⟨language, hmade, hfile, text, horigin, hnotOnWay, ?_⟩
  rw [hsame]
  exact hentry

/-- What a build starts from. -/
structure Start (planned : Path → Target → Prop) (input : Location → Prop)
    (seen : FileTree → Prop) (made : Path → Option Language) (world : World) (project : Project)
    (force : Bool) : Prop where
  /-- The files lie well. -/
  layout : Layout planned input
  /-- An input is determined by its fingerprint. -/
  determined : ∀ location, input location → Determined seen location
  /-- The ledger has an absolute path. -/
  isAbsolute : project.ledgerFile.isAbsolute
  /-- The targets are planned, and what goes into them is known. -/
  course : Course planned input project.ledgerFile (project.contextIn world force)
    (project.targetsIn world)
  /-- All trees between the turns are seen. -/
  seenThrough : SeenThrough seen (project.contextIn world force)
    (loadedIn world project.ledgerFile) (project.targetsIn world) world
  /-- The books are kept. -/
  books : Books planned input seen made world.tree

section Saving

variable {world : World} {project : Project} {force : Bool}

theorem isAbsolute_inputs (h : project.Usable) {language : Language} {path : Path}
    (hpath : path ∈ (project.contextIn world force).inputs language) : path.isAbsolute := by
  rcases List.mem_append.1 hpath with hruntime | hsource
  · have hfile : (project.config.runtime project.root).file? = some path :=
      Option.mem_toList.1 hruntime
    unfold Config.runtime at hfile
    split at hfile
    · cases hfile
      exact Path.isAbsolute_resolve _ h.isAbsolute
    · cases hfile
  · obtain ⟨file, hfile, rfl⟩ := List.mem_map.1 hsource
    obtain ⟨dir, hdir, hmem⟩ := List.mem_flatMap.1 (List.mem_filter.1 hfile).1
    have hscanned := Project.isScanned_of_mem h.isAbsolute hdir
    rw [hscanned.file file hmem]
    exact Path.isAbsolute_joinText _ hscanned.isAbsolute

/-- The targets of a usable project have what the targets of a build need. -/
theorem Course.of_usable (h : project.Usable)
    (hplanned : ∀ target ∈ project.targetsIn world, planned project.ledgerFile target)
    (hinput : ∀ target ∈ project.targetsIn world,
      ∀ path ∈ (project.contextIn world force).inputs target.language, input (place path)) :
    Course planned input project.ledgerFile (project.contextIn world force)
      (project.targetsIn world) := by
  refine ⟨hplanned, fun target htarget => ⟨?_, fun path hpath => ?_⟩, rfl, h.nodup_paths _, ?_⟩
  · exact fun dir hdir => Project.isScanned_of_mem h.isAbsolute hdir
  · exact ⟨isAbsolute_inputs h hpath, hinput target htarget path hpath⟩
  · exact fun target htarget other hother => h.neighbour_apart htarget hother

theorem Start.progress (h : Start planned input seen made world project force) :
    (project.turnsIn world force).1.map (·.1) = project.targetsIn world ∧
      Progress planned input seen made (project.contextIn world force) world
        (project.turnsIn world force).1 (project.turnsIn world force).2 := by
  have hdone : ∀ turn ∈ ([] : List Turn), turn.1 ∈ project.targetsIn world := nofun
  exact Progress.takeTurns h.course h.layout h.determined h.isAbsolute
    (fun target htarget => htarget) hdone h.course.nodup h.seenThrough (.of_start h.books)

theorem Start.mem_targets (h : Start planned input seen made world project force) {turn : Turn}
    (hturn : turn ∈ (project.turnsIn world force).1) : turn.1 ∈ project.targetsIn world := by
  rw [← h.progress.1]
  exact List.mem_map.2 ⟨turn, hturn, rfl⟩

/-- Saving the ledger keeps everything else. -/
theorem Start.keeps_saved (h : Start planned input seen made world project force) :
    Keeps (· ≠ place project.ledgerFile) (project.turnsIn world force).2.tree
      (project.savedIn world force).2.tree := by
  refine ⟨fun _ => Project.folder_savedIn h.isAbsolute, fun location bytes mtime hne hfile => ?_⟩
  rw [Project.get?_savedIn_of_ne h.isAbsolute hne]
  exact hfile

theorem Start.keeps_artifact (h : Start planned input seen made world project force)
    {target : Target} (htarget : target ∈ project.targetsIn world) :
    Keeps (· = place target.path) (project.turnsIn world force).2.tree
      (project.savedIn world force).2.tree := by
  refine h.keeps_saved.mono ?_
  rintro location rfl
  have hplanned := h.course.isPlanned _ htarget
  exact (h.layout.ledgerApart hplanned hplanned).1.symm

theorem Start.keeps_inputs (h : Start planned input seen made world project force)
    {target : Target} (htarget : target ∈ project.targetsIn world) :
    Keeps input (project.turnsIn world force).2.tree (project.savedIn world force).2.tree :=
  h.keeps_saved.mono fun _ hinput =>
    (h.layout.inputApart hinput (h.course.isPlanned _ htarget)).2.2

/-- **What is true of a target that is reported to be up to date.** -/
theorem Start.reported (h : Start planned input seen made world project force) {turn : Turn}
    (hturn : turn ∈ (project.turnsIn world force).1) (hupToDate : turn.2.1 = .upToDate) :
    Reported planned made (project.contextIn world force) (project.savedIn world force).2
      turn.1 := by
  have htarget := h.mem_targets hturn
  exact (h.progress.2.reported turn hturn hupToDate).of_keeps
    (h.layout.isAbsolute (h.course.isPlanned _ htarget)).2 (h.course.isKnown _ htarget)
    (h.keeps_artifact htarget) (h.keeps_inputs htarget)

/-- **What is true of a target that is built.** -/
theorem Start.filled (h : Start planned input seen made world project force) {turn : Turn}
    (hturn : turn ∈ (project.turnsIn world force).1) (hbuilt : isBuilt turn.2.1) :
    Filled (project.contextIn world force) (project.savedIn world force).2 turn.1 := by
  have htarget := h.mem_targets hturn
  exact (h.progress.2.filled turn hturn hbuilt).of_keeps
    (h.layout.isAbsolute (h.course.isPlanned _ htarget)).2 (h.course.isKnown _ htarget)
    (h.keeps_artifact htarget) (h.keeps_inputs htarget)

/-! ## Keeping the books -/

theorem Start.nodup_turns (h : Start planned input seen made world project force) :
    ((project.turnsIn world force).1.map (·.1.path)).Nodup := by
  have hnodup := h.course.nodup
  rw [← h.progress.1, List.map_map] at hnodup
  exact hnodup

/-- A record that stays is accounted for after the turns. -/
theorem Start.accounted_old (h : Start planned input seen made world project force)
    {file : Path} {target : Target} {record : Record} (hplanned : planned file target)
    (hrecord : (ledgerIn world.tree file).get? target.path = some record)
    (hnone : ∀ turn ∈ (project.turnsIn world force).1, turn.1.path = target.path →
      turn.2.2 = none) :
    Accounted planned input seen (makers made (project.turnsIn world force).1)
      (project.turnsIn world force).2.tree target.path record := by
  obtain ⟨-, hprogress⟩ := h.progress
  obtain ⟨language, hmade, hrest⟩ := hprogress.old file target record hplanned hrecord hnone
  refine ⟨language, ?_, hrest⟩
  rw [makers_of_not_built, hmade]
  intro turn hturn hpath
  rw [← hprogress.recorded turn hturn, hnone turn hturn hpath]
  rfl

/-- So is a new record. -/
theorem Start.accounted_new (h : Start planned input seen made world project force) {turn : Turn}
    {record : Record} (hturn : turn ∈ (project.turnsIn world force).1)
    (hrecord : turn.2.2 = some record) :
    Accounted planned input seen (makers made (project.turnsIn world force).1)
      (project.turnsIn world force).2.tree turn.1.path record := by
  obtain ⟨-, hprogress⟩ := h.progress
  have htarget := h.mem_targets hturn
  have hbuilt : isBuilt turn.2.1 := by
    rw [← hprogress.recorded turn hturn, hrecord]
    rfl
  exact ⟨turn.1.language, makers_of_built h.nodup_turns hturn hbuilt,
    ⟨project.ledgerFile, h.course.isPlanned _ htarget⟩, hprogress.new turn hturn record hrecord⟩

theorem ledgerIn_of_place {tree : FileTree} {file file' : Path} (h : place file = place file') :
    ledgerIn tree file = ledgerIn tree file' := by
  unfold ledgerIn
  rw [h]

/-- A target that was built has its record in the ledger of the build, and in no other one. -/
theorem Start.ledger_of_path (h : Start planned input seen made world project force)
    {file : Path} {target : Target} (hplanned : planned file target) {turn : Turn}
    (hturn : turn ∈ (project.turnsIn world force).1) (hpath : turn.1.path = target.path) :
    file = project.ledgerFile := by
  have hsame : place target.path = place turn.1.path := by rw [hpath]
  exact (h.layout.oneName hplanned (h.course.isPlanned _ (h.mem_targets hturn)) hsame).2

/-- Saving the ledger leaves the artifacts as they are. -/
theorem Start.artifact_saved (h : Start planned input seen made world project force)
    {file : Path} {target : Target} (hplanned : planned file target) :
    (project.savedIn world force).2.tree.get? (place target.path) =
      (project.turnsIn world force).2.tree.get? (place target.path) := by
  refine Project.get?_savedIn_of_turns h.isAbsolute fun turn hturn => ?_
  have hledger := h.course.isPlanned _ (h.mem_targets hturn)
  exact (h.layout.ledgerApart hledger hplanned).1.symm

/-- Where the records of the ledgers come from after a build: a new record was saved in the ledger
of the build, and if it could be saved, no old one of the same target stays. -/
theorem Start.record_cases (h : Start planned input seen made world project force)
    {file : Path} {target : Target} {record : Record} (hplanned : planned file target)
    (hrecord : (ledgerIn (project.savedIn world force).2.tree file).get? target.path =
      some record) :
    (∃ turn ∈ (project.turnsIn world force).1, turn.1.path = target.path ∧
      turn.2.2 = some record ∧ (project.turnsIn world force).2.tree.Leads project.ledgerFile) ∨
    (ledgerIn world.tree file).get? target.path = some record ∧
      ((project.savedIn world force).1 = .ok () → ∀ turn ∈ (project.turnsIn world force).1,
        turn.1.path = target.path → turn.2.2 = none) := by
  obtain ⟨-, hprogress⟩ := h.progress
  have hledgers := hprogress.ledgers file target hplanned
  have hclosing : Closing _ _ _ _ (project.savedIn world force) := Project.closing h.isAbsolute
  generalize project.savedIn world force = reply at hclosing hrecord ⊢
  cases hclosing with
  | idle hnone =>
      rw [hledgers] at hrecord
      exact .inr ⟨hrecord, fun _ turn hturn _ => hnone turn hturn⟩
  | refused cause =>
      rw [hledgers] at hrecord
      exact .inr ⟨hrecord, nofun⟩
  | written hnew hne hfolder hleads =>
      by_cases hplace : place file = place project.ledgerFile
      · rw [ledgerIn, FileTree.get?_set _ hne, if_pos hplace] at hrecord
        rw [ledgerIn_of_place hplace]
        rcases get?_recordAll (get?_ledgerOf_render hrecord) with
          ⟨turn, hturn, hpath, hnew⟩ | ⟨hold, hnone⟩
        · exact .inl ⟨turn, hturn, hpath, hnew, hleads⟩
        · exact .inr ⟨get?_loadedIn h.isAbsolute hold, fun _ => hnone⟩
      · rw [ledgerIn, FileTree.get?_set _ hne, if_neg hplace, ← ledgerIn, hledgers] at hrecord
        refine .inr ⟨hrecord, fun _ turn hturn hpath => ?_⟩
        rw [h.ledger_of_path hplanned hturn hpath] at hplace
        exact absurd rfl hplace

/-- A build keeps the books if it can write its ledger where there are old records of its
targets. -/
theorem Start.books_of_saved (h : Start planned input seen made world project force)
    (hsaved : ∀ file target record, planned file target →
      (ledgerIn world.tree file).get? target.path = some record →
      ∀ turn ∈ (project.turnsIn world force).1, turn.1.path = target.path →
        (project.savedIn world force).1 = .ok ()) :
    Books planned input seen (makers made (project.turnsIn world force).1)
      (project.savedIn world force).2.tree := by
  intro file target record hplanned hrecord
  rcases h.record_cases hplanned hrecord with ⟨turn, hturn, hpath, hnew, -⟩ | ⟨hold, hnone⟩
  · have haccounted := h.accounted_new hturn hnew
    rw [hpath] at haccounted
    exact haccounted.of_same (h.artifact_saved hplanned)
  · have haccounted := h.accounted_old hplanned hold fun turn hturn hpath =>
      hnone (hsaved _ _ _ hplanned hold turn hturn hpath) turn hturn hpath
    exact haccounted.of_same (h.artifact_saved hplanned)

/-- **A build that can write its ledger keeps the books.** -/
theorem Books.saved (h : Start planned input seen made world project force)
    (hsaved : (project.savedIn world force).1 = .ok ()) :
    Books planned input seen (makers made (project.turnsIn world force).1)
      (project.savedIn world force).2.tree :=
  h.books_of_saved fun _ _ _ _ _ _ _ _ => hsaved

/-! ## Ledgers that can be written again -/

/-- The way to every ledger that has a record can be gone. -/
def LedgersLead (planned : Path → Target → Prop) (tree : FileTree) : Prop :=
  ∀ file target record, planned file target →
    (ledgerIn tree file).get? target.path = some record → tree.Leads file

theorem not_folder_of_record {tree : FileTree} {file path : Path} {record : Record}
    (h : (ledgerIn tree file).get? path = some record) : tree.get? (place file) ≠ some .folder := by
  intro hfolder
  unfold ledgerIn at h
  rw [hfolder] at h
  cases h

/-- A ledger that is there can be written. -/
theorem Project.isSaved {project : Project} (husable : project.Usable)
    (hleads : (project.turnsIn world force).2.tree.Leads project.ledgerFile)
    (hfolder : (project.turnsIn world force).2.tree.get? (place project.ledgerFile) ≠
      some .folder) : (project.savedIn world force).1 = .ok () := by
  by_cases hany : (project.turnsIn world force).1.any fun turn => turn.2.2.isSome
  · obtain ⟨pieces, hpieces⟩ :=
      Path.exists_piecesOf_joinText husable.isAbsolute_outputPath Project.isName_fileName
    rw [savedIn_of_records hany]
    exact run_save_eq_ok _ _ husable.isAbsolute_ledgerFile hpieces Project.isName_fileName hleads
      hfolder
  · rw [savedIn_of_no_records (not_any_isSome.1 hany)]

/-- **A build keeps the books** where the ledgers can be written again. -/
theorem Books.built (h : Start planned input seen made world project force)
    (husable : project.Usable) (hledgers : LedgersLead planned world.tree) :
    Books planned input seen (makers made (project.turnsIn world force).1)
      (project.savedIn world force).2.tree := by
  obtain ⟨-, hprogress⟩ := h.progress
  refine h.books_of_saved fun file target record hplanned hold turn hturn hpath => ?_
  have hfile := h.ledger_of_path hplanned hturn hpath
  have hleads := hledgers _ _ _ hplanned hold
  rw [hfile] at hleads hold hplanned
  refine Project.isSaved husable (hleads.mono hprogress.folder) ?_
  rw [← hprogress.ledgers _ _ hplanned] at hold
  exact not_folder_of_record hold

theorem LedgersLead.built (h : Start planned input seen made world project force)
    (hledgers : LedgersLead planned world.tree) :
    LedgersLead planned (project.savedIn world force).2.tree := by
  obtain ⟨-, hprogress⟩ := h.progress
  intro file target record hplanned hrecord
  rcases h.record_cases hplanned hrecord with ⟨turn, hturn, hpath, -, hleads⟩ | ⟨hold, -⟩
  · rw [h.ledger_of_path hplanned hturn hpath]
    exact hleads.mono h.keeps_saved.folder
  · exact ((hledgers _ _ _ hplanned hold).mono hprogress.folder).mono h.keeps_saved.folder

end Saving

end KeysetBundle.Build
