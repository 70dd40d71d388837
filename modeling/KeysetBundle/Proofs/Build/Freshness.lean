import KeysetBundle.Build.Target
import KeysetBundle.Proofs.Bundle.Inputs
import KeysetBundle.Proofs.Freshness.Fingerprint
import Mathlib.Data.List.Forall2

/-!
# Records stand for bundles

A record is taken of the files and settings that went into a bundle.  If it
says in another world, for another build, that nothing has changed, then a
bundle of the same language made there has the same text.  The language is not
in the record: that it is the same has to be known from elsewhere.

Main results.

- `exists_recordIn`: where a bundle can be made its record can be taken.
- `Vouches.bundleIn`: a fresh record stands for the bundle that was made, even if
  its files were read and its fingerprints taken at different times.
- `bundleIn_of_isFresh`: the same for a record that was taken in one world.
-/

namespace KeysetBundle.Build.Context

open Artifact (RuntimeSource)
open KeysetBundle.Bundle (bundleIn classIn collectionIn inWorld)
open Files
open Freshness

/-- The files that go into the bundle of a language. -/
def inputs (context : Context) (language : Language) : List Path :=
  context.runtime.file?.toList ++ (context.recipe language).sources

/-! ## Taking a record -/

/-- The record of the settings. -/
def settingsRecord (context : Context) : Record :=
  (Record.empty.addSetting runtimeName context.runtime.identity).addSetting moduleNameName
    context.moduleName

/-- A record with the file of the runtime class, if there is one. -/
def runtimeRecordIn (world : World) (context : Context) (record : Record) :
    Except Files.Failure Record :=
  match context.runtime.file? with
  | some file => (printIn world file).map fun fingerprint =>
    { record with files := record.files.insert runtimeFileName fingerprint }
  | none => .ok record

/-- The record that is taken in a world. -/
def recordIn (world : World) (context : Context) (sources : List Path) : Option Record :=
  match runtimeRecordIn world context context.settingsRecord, sources.mapM (printIn world) with
  | .ok record, .ok fingerprints =>
    some { record with fileLists := record.fileLists.insert sourcesName fingerprints }
  | _, _ => none

theorem run_addRuntimeFile (world : World) (context : Context) (record : Record) :
    world.run (context.addRuntimeFile record) =
      (runtimeRecordIn world context record, world) := by
  unfold addRuntimeFile runtimeRecordIn
  cases context.runtime.file? with
  | none => rfl
  | some file =>
      dsimp only
      rw [Record.addFile, World.run_bind, run_read]
      cases printIn world file <;> rfl

theorem run_takeRecord (world : World) (context : Context) (sources : List Path) :
    world.run (context.takeRecord sources) = (recordIn world context sources, world) := by
  have hruntime := run_addRuntimeFile world context context.settingsRecord
  unfold settingsRecord at hruntime
  unfold takeRecord recordIn settingsRecord
  rw [World.run_bind, hruntime]
  cases runtimeRecordIn world context _ with
  | error failure => rfl
  | ok record =>
      dsimp only
      rw [Record.addFileList, World.run_bind, World.run_bind, run_readAll]
      cases sources.mapM (printIn world) <;> rfl

/-- What a record that was taken holds. -/
theorem recordIn_eq_some {world : World} {context : Context} {sources : List Path}
    {record : Record} (h : recordIn world context sources = some record) :
    record.settings = context.settingsRecord.settings ∧
      (∀ file, context.runtime.file? = some file → ∃ fingerprint,
        record.files.get? runtimeFileName = some fingerprint ∧
          printIn world file = .ok fingerprint) ∧
      ∃ fingerprints, record.fileLists.get? sourcesName = some fingerprints ∧
        sources.mapM (printIn world) = .ok fingerprints := by
  unfold recordIn at h
  split at h
  · rename_i base fingerprints hbase hsources
    cases h
    refine ⟨?_, ?_, fingerprints, Dictionary.get?_insert_self _ _ _, hsources⟩
    all_goals unfold runtimeRecordIn at hbase
    · split at hbase
      · obtain ⟨fingerprint, -, rfl⟩ := map_eq_ok.1 hbase
        rfl
      · cases hbase
        rfl
    · intro file hfile
      rw [hfile] at hbase
      obtain ⟨fingerprint, hprint, rfl⟩ := map_eq_ok.1 hbase
      exact ⟨fingerprint, Dictionary.get?_insert_self _ _ _, hprint⟩
  · cases h

theorem printIn_of_readText {world : World} {path : Path} {text : String}
    (habsolute : path.isAbsolute) (h : inWorld world path = .ok text) :
    ∃ fingerprint, printIn world path = .ok fingerprint := by
  obtain ⟨hleads, bytes, mtime, hentry, -⟩ := (readText_eq_ok habsolute).1 h
  exact ⟨_, map_eq_ok.2 ⟨_, (stat_eq_ok habsolute).2 ⟨hleads, _, hentry, rfl⟩, rfl⟩⟩

theorem exists_mapM_printIn {world : World} {paths : List Path}
    (habsolute : ∀ path ∈ paths, path.isAbsolute)
    (h : ∀ path ∈ paths, ∃ text, inWorld world path = .ok text) :
    ∃ fingerprints, paths.mapM (printIn world) = .ok fingerprints := by
  induction paths with
  | nil => exact ⟨[], rfl⟩
  | cons path paths ih =>
      obtain ⟨text, htext⟩ := h path (by simp)
      obtain ⟨fingerprint, hprint⟩ := printIn_of_readText (habsolute path (by simp)) htext
      obtain ⟨fingerprints, hrest⟩ := ih (fun other hother => habsolute other (by simp [hother]))
        (fun other hother => h other (by simp [hother]))
      exact ⟨_, mapM_cons_eq_ok.2 ⟨fingerprint, fingerprints, hprint, hrest, rfl⟩⟩

/-- **Where a bundle can be made its record can be taken.** -/
theorem exists_recordIn {world : World} {context : Context} {language : Language}
    {compactor : Template.Compactor} {bundle : Bundle}
    (habsolute : ∀ path ∈ context.inputs language, path.isAbsolute)
    (h : bundleIn (inWorld world) compactor (context.recipe language) = .ok bundle) :
    ∃ record, recordIn world context (context.recipe language).sources = some record := by
  obtain ⟨classSource, collections, hclass, hcollections, -⟩ := Bundle.bundleIn_eq_ok.1 h
  have hsources : ∀ path ∈ (context.recipe language).sources, path.isAbsolute :=
    fun path hpath => habsolute path (List.mem_append_right _ hpath)
  obtain ⟨fingerprints, hprints⟩ :=
    exists_mapM_printIn hsources (Bundle.readText_of_collectionIn hcollections)
  have hbase : ∃ base, runtimeRecordIn world context context.settingsRecord = .ok base := by
    unfold runtimeRecordIn
    change classIn (inWorld world) context.runtime = .ok classSource at hclass
    cases hruntime : context.runtime with
    | bundled => exact ⟨_, rfl⟩
    | file path =>
        rw [hruntime] at hclass
        have hpath : path.isAbsolute :=
          habsolute path (by simp [inputs, hruntime, RuntimeSource.file?])
        obtain ⟨fingerprint, hprint⟩ := printIn_of_readText hpath (Bundle.classIn_file.1 hclass)
        exact ⟨_, map_eq_ok.2 ⟨fingerprint, hprint, rfl⟩⟩
  obtain ⟨base, hbase⟩ := hbase
  unfold recordIn
  rw [hbase, hprints]
  exact ⟨_, rfl⟩

/-! ## Asking a record -/

/-- Whether a record says in a world that the file of the runtime class is the same. -/
def hasRuntimeIn (world : World) (context : Context) (record : Record) : Bool :=
  match context.runtime.file? with
  | some file =>
    match record.files.get? runtimeFileName with
    | some fingerprint => holdsIn world fingerprint file
    | none => false
  | none => true

/-- Whether a record says in a world that the keyset files are the same. -/
def hasSourcesIn (world : World) (record : Record) (sources : List Path) : Bool :=
  match record.fileLists.get? sourcesName with
  | some fingerprints => allHoldIn world fingerprints sources
  | none => false

/-- Whether a record says in a world that nothing has changed. -/
def isFreshIn (world : World) (context : Context) (language : Language) (record : Record) : Bool :=
  (record.hasSetting runtimeName context.runtime.identity &&
    record.hasSetting moduleNameName context.moduleName) &&
  (hasRuntimeIn world context record &&
    hasSourcesIn world record (context.recipe language).sources)

theorem run_hasRuntimeFile (world : World) (context : Context) (record : Record) :
    world.run (context.hasRuntimeFile record) = (hasRuntimeIn world context record, world) := by
  unfold hasRuntimeFile hasRuntimeIn
  cases context.runtime.file? with
  | none => rfl
  | some file =>
      dsimp only
      rw [Record.hasFile]
      cases record.files.get? runtimeFileName with
      | none => rfl
      | some fingerprint => exact run_holds world fingerprint file

theorem run_hasFileList (world : World) (record : Record) (sources : List Path) :
    world.run (record.hasFileList sourcesName sources) =
      (hasSourcesIn world record sources, world) := by
  unfold Record.hasFileList hasSourcesIn
  cases record.fileLists.get? sourcesName with
  | none => rfl
  | some fingerprints => exact run_allHold world fingerprints sources

theorem run_isFresh (world : World) (context : Context) (target : Target) (record : Record) :
    world.run (context.isFresh target record) =
      (isFreshIn world context target.language record, world) := by
  have hsources := run_hasFileList world record (context.recipe target.language).sources
  unfold isFresh isFreshIn
  by_cases hsettings : record.hasSetting runtimeName context.runtime.identity ∧
      record.hasSetting moduleNameName context.moduleName
  · rw [if_pos hsettings, World.run_bind, run_hasRuntimeFile, hsettings.1, hsettings.2]
    cases hasRuntimeIn world context record with
    | false => rfl
    | true => exact hsources
  · rw [if_neg hsettings]
    have hfalse : (record.hasSetting runtimeName context.runtime.identity &&
        record.hasSetting moduleNameName context.moduleName) = false := by
      rw [← Bool.not_eq_true, Bool.and_eq_true]
      exact hsettings
    rw [hfalse]
    rfl

/-! ## Fresh records -/

/-- A source of the runtime class is known by its identity. -/
theorem eq_of_identity {runtime other : RuntimeSource} (h : runtime.identity = other.identity) :
    runtime = other := by
  have hfirst : ("bundled@" : String).toList = 'b' :: ("undled@" : String).toList ∧
      ("file:" : String).toList = 'f' :: ("ile:" : String).toList := by decide
  have hne : ∀ path : Path,
      (RuntimeSource.bundled).identity ≠ (RuntimeSource.file path).identity := by
    intro path heq
    have hchars := congrArg String.toList heq
    unfold RuntimeSource.identity at hchars
    rw [String.toList_append, String.toList_append, hfirst.1, hfirst.2] at hchars
    exact absurd (List.cons.inj hchars).1 (by decide)
  cases runtime with
  | bundled =>
      cases other with
      | bundled => rfl
      | file path => exact absurd h (hne path)
  | file path =>
      cases other with
      | bundled => exact absurd h.symm (hne path)
      | file path' =>
          have htext : path.text = path'.text := (String.append_right_inj _).1 h
          rw [show path = path' from congrArg Path.mk htext]

/-- A fingerprint was taken of a file, in a tree that was seen, while the file had a text. -/
def Noted (seen : FileTree → Prop) (path : Path) (note : Fingerprint × String) : Prop :=
  ∃ world : World, seen world.tree ∧ printIn world path = .ok note.1 ∧
    inWorld world path = .ok note.2

/-- Where the fingerprint holds, the file has the text. -/
theorem Noted.read {seen : FileTree → Prop} {other : World} {path path' : Path}
    {note : Fingerprint × String} (h : Noted seen path note) (habsolute : path.isAbsolute)
    (habsolute' : path'.isAbsolute) (hdetermined : Determined seen (place path))
    (hseen : seen other.tree) (hholds : holdsIn other note.1 path') :
    inWorld other path' = .ok note.2 := by
  obtain ⟨world, hseen', hprint, htext⟩ := h
  exact readText_of_holds habsolute habsolute' hdetermined hseen' hseen hprint hholds htext

/-- A record was taken of what went into a bundle: of each file while it had the text that was
read of it. -/
structure Vouches (seen : FileTree → Prop) (context : Context) (language : Language)
    (compactor : Template.Compactor) (record : Record) (bundle : Bundle) (classSource : String)
    (notes : List (Fingerprint × String)) (collections : List Collection) : Prop where
  /-- The settings. -/
  settings : record.settings = context.settingsRecord.settings
  /-- The runtime class that comes with the program. -/
  bundled : context.runtime = .bundled → classSource = Artifact.bundledClass
  /-- The runtime class in a file. -/
  runtime : ∀ file, context.runtime = .file file → ∃ fingerprint,
    record.files.get? runtimeFileName = some fingerprint ∧
      Noted seen file (fingerprint, classSource)
  /-- The fingerprints of the keyset files. -/
  list : record.fileLists.get? sourcesName = some (notes.map (·.1))
  /-- The texts of the keyset files. -/
  sources : List.Forall₂ (Noted seen) (context.recipe language).sources notes
  /-- The collections of the texts. -/
  loaded : List.Forall₂ (fun note collection =>
    ∃ path, Collection.ofSource note.2 path = .ok collection) notes collections
  /-- The bundle. -/
  made : Bundle.ofCollections compactor (context.recipe language) classSource collections =
    .ok bundle

theorem mapM_collectionIn_of_allHoldIn {seen : FileTree → Prop} {other : World}
    {paths paths' : List Path} {notes : List (Fingerprint × String)}
    {collections : List Collection}
    (hpaths : ∀ path ∈ paths, path.isAbsolute ∧ Determined seen (place path))
    (hpaths' : ∀ path ∈ paths', path.isAbsolute) (hseen : seen other.tree)
    (hnotes : List.Forall₂ (Noted seen) paths notes)
    (hloaded : List.Forall₂ (fun note collection =>
      ∃ path, Collection.ofSource note.2 path = .ok collection) notes collections)
    (hholds : allHoldIn other (notes.map (·.1)) paths') :
    paths'.mapM (collectionIn (inWorld other)) = .ok collections := by
  induction hnotes generalizing paths' collections with
  | nil =>
      cases hloaded
      cases paths' with
      | nil => rfl
      | cons path' paths' => cases hholds
  | @cons path note paths notes hnote hnotes ih =>
      obtain - | ⟨⟨origin, hcollection⟩, hrest⟩ := hloaded
      cases paths' with
      | nil => cases hholds
      | cons path' paths' =>
          obtain ⟨hhead, htail⟩ := Bool.and_eq_true_iff.1 hholds
          obtain ⟨habsolute, hdetermined⟩ := hpaths path (by simp)
          have htext := hnote.read habsolute (hpaths' path' (by simp)) hdetermined hseen hhead
          refine mapM_cons_eq_ok.2 ⟨_, _, ?_, ih (fun other hother => hpaths other (by simp [hother]))
            (fun other hother => hpaths' other (by simp [hother])) hrest htail, rfl⟩
          unfold collectionIn
          rw [htext]
          exact Bundle.ofSource_path hcollection

section Fresh

variable {seen : FileTree → Prop} {world other : World} {context context' : Context}
  {language language' : Language} {sources : List Path} {record : Record}

/-- The runtime class and the module name of a record are those with which it was taken. -/
theorem hasSetting_iff (hsettings : record.settings = context.settingsRecord.settings)
    (value : String) :
    (record.hasSetting runtimeName value ↔ context.runtime.identity = value) ∧
      (record.hasSetting moduleNameName value ↔ context.moduleName = value) := by
  unfold Record.hasSetting
  rw [hsettings, settingsRecord, Record.addSetting, Record.addSetting, Dictionary.get?_insert,
    if_neg (by decide), Dictionary.get?_insert_self, Dictionary.get?_insert_self]
  simp

/-- A fresh record was taken with the same settings. -/
theorem settings_of_isFresh (hsettings : record.settings = context.settingsRecord.settings)
    (hfresh : isFreshIn other context' language' record) :
    context.runtime = context'.runtime ∧ context.moduleName = context'.moduleName := by
  unfold isFreshIn at hfresh
  rw [Bool.and_eq_true, Bool.and_eq_true] at hfresh
  obtain ⟨⟨hidentity, hmodule⟩, -⟩ := hfresh
  exact ⟨eq_of_identity ((hasSetting_iff hsettings _).1.1 hidentity),
    (hasSetting_iff hsettings _).2.1 hmodule⟩

/-- A fresh record has the fingerprints of the keyset files. -/
theorem sources_of_isFresh (hrecord : recordIn world context sources = some record)
    (hfresh : isFreshIn other context' language' record) :
    ∃ fingerprints, sources.mapM (printIn world) = .ok fingerprints ∧
      allHoldIn other fingerprints (context'.recipe language').sources := by
  obtain ⟨-, -, fingerprints, hlist, hprints⟩ := recordIn_eq_some hrecord
  unfold isFreshIn at hfresh
  rw [Bool.and_eq_true, Bool.and_eq_true, Bool.and_eq_true] at hfresh
  obtain ⟨-, -, hsources⟩ := hfresh
  unfold hasSourcesIn at hsources
  rw [hlist] at hsources
  exact ⟨fingerprints, hprints, hsources⟩

theorem notes_of_mapM {paths : List Path} {fingerprints : List Fingerprint}
    {collections : List Collection} (hseen : seen world.tree)
    (hprints : paths.mapM (printIn world) = .ok fingerprints)
    (hcollections : paths.mapM (collectionIn (inWorld world)) = .ok collections) :
    ∃ notes : List (Fingerprint × String), notes.map (·.1) = fingerprints ∧
      List.Forall₂ (Noted seen) paths notes ∧
      List.Forall₂ (fun note collection =>
        ∃ path, Collection.ofSource note.2 path = .ok collection) notes collections := by
  induction paths generalizing fingerprints collections with
  | nil =>
      cases hprints
      cases hcollections
      exact ⟨[], rfl, .nil, .nil⟩
  | cons path paths ih =>
      obtain ⟨fingerprint, fingerprints, hprint, hfirst, rfl⟩ := mapM_cons_eq_ok.1 hprints
      obtain ⟨collection, collections, hcollection, hrest, rfl⟩ :=
        mapM_cons_eq_ok.1 hcollections
      obtain ⟨notes, rfl, hnotes, hloaded⟩ := ih hfirst hrest
      unfold collectionIn at hcollection
      split at hcollection
      · cases hcollection
      · rename_i text htext
        exact ⟨(fingerprint, text) :: notes, rfl, .cons ⟨world, hseen, hprint, htext⟩ hnotes,
          .cons ⟨path, hcollection⟩ hloaded⟩

/-- A record vouches for a bundle that was made in the same world. -/
theorem vouches_of_recordIn {compactor : Template.Compactor} {bundle : Bundle}
    (hseen : seen world.tree)
    (hrecord : recordIn world context (context.recipe language).sources = some record)
    (hbundle : bundleIn (inWorld world) compactor (context.recipe language) = .ok bundle) :
    ∃ classSource notes collections, classIn (inWorld world) context.runtime = .ok classSource ∧
      Vouches seen context language compactor record bundle classSource notes collections := by
  obtain ⟨hsettings, hfile, fingerprints, hlist, hprints⟩ := recordIn_eq_some hrecord
  obtain ⟨classSource, collections, hclass, hcollections, hmade⟩ := Bundle.bundleIn_eq_ok.1 hbundle
  change classIn (inWorld world) context.runtime = _ at hclass
  obtain ⟨notes, rfl, hnotes, hloaded⟩ := notes_of_mapM hseen hprints hcollections
  refine ⟨classSource, notes, collections, hclass, hsettings, fun hbundled => ?_,
    fun file hruntime => ?_, hlist, hnotes, hloaded, hmade⟩
  · rw [hbundled] at hclass
    exact (Except.ok.inj hclass).symm
  · obtain ⟨fingerprint, hrecorded, hprint⟩ :=
      hfile file (RuntimeSource.file?_eq_some.2 hruntime)
    rw [hruntime] at hclass
    exact ⟨fingerprint, hrecorded, world, hseen, hprint, Bundle.classIn_file.1 hclass⟩

section Vouches

variable {compactor : Template.Compactor} {bundle : Bundle} {classSource : String}
  {notes : List (Fingerprint × String)} {collections : List Collection}
  (h : Vouches seen context language compactor record bundle classSource notes collections)
  (hinputs : ∀ path ∈ context.inputs language, path.isAbsolute ∧ Determined seen (place path))
  (hseen : seen other.tree)

include h hinputs hseen

/-- Where a record is fresh, the runtime class has the same text. -/
theorem Vouches.classIn (hfresh : isFreshIn other context' language' record) :
    classIn (inWorld other) context'.runtime = .ok classSource := by
  obtain ⟨hsame, -⟩ := settings_of_isFresh h.settings hfresh
  unfold isFreshIn at hfresh
  rw [Bool.and_eq_true, Bool.and_eq_true, Bool.and_eq_true] at hfresh
  obtain ⟨-, hfile, -⟩ := hfresh
  rw [← hsame]
  cases hkind : context.runtime with
  | bundled =>
      rw [h.bundled hkind]
      rfl
  | file path =>
      have hone := RuntimeSource.file?_eq_some.2 hkind
      obtain ⟨fingerprint, hrecorded, hnoted⟩ := h.runtime path hkind
      unfold hasRuntimeIn at hfile
      rw [← hsame, hone] at hfile
      simp only [hrecorded] at hfile
      obtain ⟨habsolute, hdetermined⟩ := hinputs path (by simp [inputs, hone])
      exact Bundle.classIn_file.2 (hnoted.read habsolute habsolute hdetermined hseen hfile)

/-- **A fresh record stands for the bundle for which it vouches.** -/
theorem Vouches.bundleIn (hinputs' : ∀ path ∈ context'.inputs language, path.isAbsolute)
    (hfresh : isFreshIn other context' language record) :
    bundleIn (inWorld other) compactor (context'.recipe language) =
      .ok { bundle with sources := (context'.recipe language).sources } := by
  obtain ⟨-, hmodule⟩ := settings_of_isFresh h.settings hfresh
  have hclass := h.classIn hinputs hseen hfresh
  unfold isFreshIn at hfresh
  rw [Bool.and_eq_true, Bool.and_eq_true, Bool.and_eq_true] at hfresh
  obtain ⟨-, -, hholds⟩ := hfresh
  unfold hasSourcesIn at hholds
  rw [h.list] at hholds
  refine Bundle.bundleIn_eq_ok.2 ⟨classSource, collections, hclass, ?_, ?_⟩
  · exact mapM_collectionIn_of_allHoldIn
      (fun path hpath => hinputs path (List.mem_append_right _ hpath))
      (fun path hpath => hinputs' path (List.mem_append_right _ hpath)) hseen h.sources h.loaded
      hholds
  · obtain ⟨keysets, hkeysets, hbundle⟩ := bind_eq_ok.1 h.made
    cases hbundle
    unfold Bundle.ofCollections recipe
    rw [hmodule]
    exact bind_eq_ok.2 ⟨keysets, hkeysets, rfl⟩

end Vouches

/-- **A fresh record stands for the bundle that was made.** -/
theorem bundleIn_of_isFresh {compactor : Template.Compactor} {bundle : Bundle}
    (hinputs : ∀ path ∈ context.inputs language,
      path.isAbsolute ∧ Determined seen (place path))
    (hinputs' : ∀ path ∈ context'.inputs language, path.isAbsolute)
    (hseen : seen world.tree) (hseen' : seen other.tree)
    (hrecord : recordIn world context (context.recipe language).sources = some record)
    (hbundle : bundleIn (inWorld world) compactor (context.recipe language) = .ok bundle)
    (hfresh : isFreshIn other context' language record) :
    bundleIn (inWorld other) compactor (context'.recipe language) =
      .ok { bundle with sources := (context'.recipe language).sources } := by
  obtain ⟨classSource, notes, collections, -, hvouches⟩ :=
    vouches_of_recordIn hseen hrecord hbundle
  exact hvouches.bundleIn hinputs hseen' hinputs' hfresh

end Fresh

end KeysetBundle.Build.Context
