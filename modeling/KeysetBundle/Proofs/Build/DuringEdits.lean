import KeysetBundle.Proofs.Build.Account
import KeysetBundle.Proofs.Files.InterleavedWriting

/-!
# Edits while a target is built

A target is built by a program that reads all files that go into the bundle,
writes the artifact, and then takes the fingerprints of the files.  Other
programs may edit the files in the meantime.  An edit between the reading of a
file and its fingerprint is lost, for then the record says of the new file that
the artifact was made from it.  All other edits are seen by the next build.

Main results.

- `make_inv`, `takeRecord_inv`: what is known of a bundle and of its record that
  were made during edits.
- `Backed.of_interleaved`: records stay backed by artifacts.
- `upToDate_after_edits`: what a report that a target is up to date means after
  a build during edits.
-/

namespace KeysetBundle.Build

open Artifact (RuntimeSource)
open Context (Noted Vouches existsIn isFreshIn recordIn)
open Files
open Freshness
open KeysetBundle.Bundle (bundleIn inWorld)
open Program (asks_bind asks_pure asks_request)
open Report (Outcome)

/-! ## Requests that leave all files as they are -/

theorem asks_read (path : Path) : (Fingerprint.read path).Asks Leaves :=
  asks_bind (asks_request (leaves_stat path)) fun _ => asks_pure _

theorem asks_holds (fingerprint : Fingerprint) (path : Path) :
    (fingerprint.holds path).Asks Leaves := by
  unfold Fingerprint.holds
  refine asks_bind (asks_read path) fun now => ?_
  cases now <;> exact asks_pure _

theorem asks_allHold (fingerprints : List Fingerprint) (paths : List Path) :
    (Record.allHold fingerprints paths).Asks Leaves := by
  induction fingerprints generalizing paths with
  | nil => cases paths <;> exact asks_pure _
  | cons fingerprint fingerprints ih =>
      cases paths with
      | nil => exact asks_pure _
      | cons path paths =>
          refine asks_bind (asks_holds fingerprint path) fun holds => ?_
          cases holds with
          | false => exact asks_pure _
          | true => exact ih paths

theorem asks_isFresh (context : Context) (target : Target) (record : Record) :
    (context.isFresh target record).Asks Leaves := by
  unfold Context.isFresh
  split
  · refine asks_bind ?_ fun same => ?_
    · unfold Context.hasRuntimeFile Record.hasFile
      split
      · split
        · exact asks_holds _ _
        · exact asks_pure _
      · exact asks_pure _
    · cases same with
      | false => exact asks_pure _
      | true =>
          change (record.hasFileList _ _).Asks Leaves
          unfold Record.hasFileList
          split
          · exact asks_allHold _ _
          · exact asks_pure _
  · exact asks_pure _

theorem asks_isUpToDate (context : Context) (target : Target) (record : Option Record) :
    (context.isUpToDate target record).Asks Leaves := by
  unfold Context.isUpToDate
  split
  · exact asks_pure _
  · refine asks_bind ?_ fun there => ?_
    · exact asks_bind (asks_bind (asks_request (leaves_stat _)) fun _ => asks_pure _)
        fun _ => asks_pure _
    · cases there with
      | false => exact asks_pure _
      | true =>
          cases record with
          | none => exact asks_pure _
          | some record => exact asks_isFresh context target record

theorem asks_loadFile (path : Path) : (Bundle.loadFile path).Asks Leaves := by
  unfold Bundle.loadFile readModule
  refine asks_bind (asks_request fun _ => ⟨rfl, rfl⟩) fun _ => asks_bind ?_ fun answer => ?_
  · refine asks_bind (asks_request fun _ => ⟨rfl, rfl⟩) fun cached => ?_
    cases (cached : Option String) with
    | some text => exact asks_pure _
    | none =>
        refine asks_bind (asks_request (leaves_readText path)) fun answer => ?_
        cases (answer : Except Files.Failure String) with
        | error failure => exact asks_pure _
        | ok text => exact asks_bind (asks_request fun _ => ⟨rfl, rfl⟩) fun _ => asks_pure _
  · cases answer <;> exact asks_pure _

theorem asks_loadFiles (paths : List Path) : (Bundle.loadFiles paths).Asks Leaves := by
  induction paths with
  | nil => exact asks_pure _
  | cons path paths ih =>
      refine asks_bind (asks_loadFile path) fun answer => ?_
      cases answer with
      | error cause => exact asks_pure _
      | ok collection =>
          refine asks_bind ih fun answer => ?_
          cases answer <;> exact asks_pure _

theorem asks_make (compactor : Template.Compactor) (recipe : Bundle.Recipe) :
    (Bundle.make compactor recipe).Asks Leaves := by
  unfold Bundle.make RuntimeSource.read
  refine asks_bind ?_ fun classSource => asks_bind (asks_loadFiles _) fun answer => ?_
  · split
    · exact asks_pure _
    · refine asks_bind (asks_request (leaves_readText _)) fun answer => ?_
      cases (answer : Except Files.Failure String) <;> exact asks_pure _
  · split
    · exact asks_pure _
    · exact asks_pure _
    · split <;> exact asks_pure _

theorem asks_readAll (paths : List Path) : (Fingerprint.readAll paths).Asks Leaves := by
  induction paths with
  | nil => exact asks_pure _
  | cons path paths ih =>
      unfold Fingerprint.readAll
      refine asks_bind (asks_read path) fun answer => ?_
      cases answer with
      | error failure => exact asks_pure _
      | ok fingerprint =>
          refine asks_bind ih fun answer => ?_
          cases answer <;> exact asks_pure _

theorem asks_addRuntimeFile (context : Context) (record : Record) :
    (context.addRuntimeFile record).Asks Leaves := by
  unfold Context.addRuntimeFile
  split
  · refine asks_bind (asks_read _) fun answer => ?_
    cases answer <;> exact asks_pure _
  · exact asks_pure _

theorem asks_takeRecord (context : Context) (sources : List Path) :
    (context.takeRecord sources).Asks Leaves := by
  refine asks_bind (asks_addRuntimeFile context _) fun answer => ?_
  cases answer with
  | error failure => exact asks_pure _
  | ok record =>
      refine asks_bind (asks_bind (asks_readAll sources) fun answer => ?_) fun _ => asks_pure _
      cases answer <;> exact asks_pure _

/-! ## Reading -/

section Reading

variable {input : Location → Prop} {seen : FileTree → Prop} {world last : World}
  {log : List Event}

/-- The text of a file that was loaded is known. -/
theorem loadFile_inv {path : Path} {collection : Collection} (habsolute : path.isAbsolute)
    (hinput : input (place path))
    (h : Interleaved input seen (Bundle.loadFile path) world log (.ok collection) last) :
    ∃ text, Known log last path text ∧ Collection.ofSource text path = .ok collection := by
  unfold Bundle.loadFile dropModule at h
  obtain ⟨dropping, first, rest, rfl, -, -, h⟩ := h.request_inv
  obtain ⟨answer, between, second, rest, rfl, hread, h⟩ := h.bind_inv
  unfold readModule at hread
  obtain ⟨looking, third, more, rfl, hbefore, -, hread⟩ := hread.request_inv
  -- the module cache is not edited
  have hnone : looking.modules.get? path = none :=
    hbefore.keeps (P := fun now => now.modules.get? path = none) trivial
      (fun _ _ _ _ _ hnow => hnow) (Bundle.get?_drop dropping.modules path)
  simp only [World.answer, hnone] at hread
  unfold readText at hread
  obtain ⟨reading, fourth, more, rfl, -, -, hread⟩ := hread.request_inv
  simp only [World.answer] at hread
  cases htext : reading.tree.readText reading.current path with
  | error failure =>
      rw [htext] at hread
      cases hread.result_of_done
      cases h.result_of_done
  | ok text =>
      rw [htext] at hread
      dsimp only at hread
      have hknown : Known (fourth ++ [.asked (.readText path)]) reading path text :=
        known_of_read htext
      have hrest : (Program.request (.cacheModule path text) >>= fun _ : Unit =>
          (pure (.ok text) : Program (Except Files.Failure String))).Asks (Spares input) :=
        asks_bind (asks_request fun _ => .of_tree rfl rfl) fun _ => asks_pure _
      replace hknown := hread.known hrest habsolute hinput hknown
      obtain ⟨caching, _, _, _, -, -, hread⟩ := hread.request_inv
      cases hread.result_of_done
      replace hknown := h.known (asks_pure _) habsolute hinput hknown
      replace hknown := hknown.append_left
        (first ++ .asked (.dropModule path) :: (third ++ [.asked (.cachedModule path)]))
      refine ⟨text, ?_, h.result_of_done.symm⟩
      simpa only [List.append_assoc, List.cons_append, List.nil_append] using hknown

theorem loadFiles_inv {paths : List Path} {collections : List Collection}
    (hpaths : ∀ path ∈ paths, path.isAbsolute ∧ input (place path))
    (h : Interleaved input seen (Bundle.loadFiles paths) world log (.ok collections) last) :
    ∃ texts, List.Forall₂ (Known log last) paths texts ∧
      List.Forall₂ (fun text collection => ∃ path, Collection.ofSource text path = .ok collection)
        texts collections := by
  induction paths generalizing world log collections last with
  | nil =>
      cases h.result_of_done
      exact ⟨[], .nil, .nil⟩
  | cons path paths ih =>
      obtain ⟨habsolute, hinput⟩ := hpaths path (by simp)
      have hothers : ∀ other ∈ paths, other.isAbsolute ∧ input (place other) :=
        fun other hother => hpaths other (by simp [hother])
      unfold Bundle.loadFiles at h
      obtain ⟨answer, between, first, rest, rfl, hfirst, h⟩ := h.bind_inv
      cases answer with
      | error cause => cases h.result_of_done
      | ok collection =>
          obtain ⟨text, hknown, hcollection⟩ := loadFile_inv habsolute hinput hfirst
          obtain ⟨answers, later, second, more, rfl, hsecond, h⟩ := h.bind_inv
          cases answers with
          | error cause => cases h.result_of_done
          | ok others =>
              cases h.result_of_done
              obtain ⟨texts, htexts, hcollections⟩ := ih hothers hsecond
              replace hknown := hsecond.known
                ((asks_loadFiles paths).mono fun _ hleaves => hleaves.spares input) habsolute
                hinput hknown
              replace hknown := h.known (asks_pure _) habsolute hinput hknown
              rw [List.append_assoc] at hknown
              replace htexts := h.known_all (asks_pure _) hothers htexts
              exact ⟨text :: texts,
                .cons hknown (htexts.imp fun _ _ hone => hone.append_left first),
                .cons ⟨path, hcollection⟩ hcollections⟩

/-- **What is known of a bundle that was made**: the texts of all files that went into it. -/
theorem make_inv {compactor : Template.Compactor} {recipe : Bundle.Recipe} {bundle : Bundle}
    (hinputs : ∀ path ∈ recipe.runtime.file?.toList ++ recipe.sources,
      path.isAbsolute ∧ input (place path))
    (h : Interleaved input seen (Bundle.make compactor recipe) world log (.ok bundle) last) :
    ∃ classSource texts collections,
      (recipe.runtime = .bundled → classSource = Artifact.bundledClass) ∧
      (∀ file, recipe.runtime = .file file → Known log last file classSource) ∧
      List.Forall₂ (Known log last) recipe.sources texts ∧
      List.Forall₂ (fun text collection => ∃ path, Collection.ofSource text path = .ok collection)
        texts collections ∧
      Bundle.ofCollections compactor recipe classSource collections = .ok bundle := by
  have hsources : ∀ path ∈ recipe.sources, path.isAbsolute ∧ input (place path) :=
    fun path hpath => hinputs path (List.mem_append_right _ hpath)
  unfold Bundle.make at h
  obtain ⟨class?, between, first, rest, rfl, hclass, h⟩ := h.bind_inv
  obtain ⟨answer, later, second, more, rfl, hload, hend⟩ := h.bind_inv
  cases answer with
  | error cause => cases hend.result_of_done
  | ok collections =>
      cases class? with
      | error cause => cases hend.result_of_done
      | ok classSource =>
          dsimp only at hend
          split at hend
          · cases hend.result_of_done
          · rename_i made hmade
            cases hend.result_of_done
            obtain ⟨texts, htexts, hcollections⟩ := loadFiles_inv hsources hload
            replace htexts := hend.known_all (asks_pure _) hsources htexts
            refine ⟨classSource, texts, collections, fun hbundled => ?_, fun file hfile => ?_,
              htexts.imp fun _ _ hone => hone.append_left first, hcollections, hmade⟩
            · rw [hbundled] at hclass
              exact Except.ok.inj hclass.result_of_done
            · obtain ⟨habsolute, hinput⟩ := hinputs file (by
                simp [RuntimeSource.file?_eq_some.2 hfile])
              rw [hfile] at hclass
              unfold RuntimeSource.read readText at hclass
              obtain ⟨reading, third, fourth, rfl, -, -, hclass⟩ := hclass.request_inv
              simp only [World.answer] at hclass
              cases htext : reading.tree.readText reading.current file with
              | error failure =>
                  rw [htext] at hclass
                  cases hclass.result_of_done
              | ok text =>
                  rw [htext] at hclass
                  dsimp only at hclass
                  cases hclass.result_of_done
                  have hknown : Known (third ++ [.asked (.readText file)]) reading file
                    classSource := known_of_read htext
                  replace hknown := hclass.known (asks_pure _) habsolute hinput hknown
                  replace hknown := hload.known
                    ((asks_loadFiles _).mono fun _ hleaves => hleaves.spares input) habsolute
                    hinput hknown
                  replace hknown := hend.known (asks_pure _) habsolute hinput hknown
                  simpa using hknown

end Reading

/-! ## Taking the record -/

/-- No edit of a file falls between its reading and its fingerprint. -/
def Careful (paths : List Path) (log : List Event) : Prop :=
  ∀ path ∈ paths, ∀ front back, log = front ++ .edited (place path) :: back →
    .asked (.readText path) ∈ front → .asked (.stat path) ∉ back

section Taking

variable {input : Location → Prop} {seen : FileTree → Prop} {world last : World}
  {past log more : List Event} {paths : List Path}

/-- When the fingerprint of a file is taken, the file still has the text that was read. -/
theorem text_of_careful {path : Path} {text : String} (more : List Event)
    (hcareful : Careful paths (past ++ .asked (.stat path) :: more)) (hpath : path ∈ paths)
    (hknown : Known past world path text) : inWorld world path = .ok text := by
  obtain ⟨front, back, rfl, htext⟩ := hknown
  refine htext fun hedited => ?_
  obtain ⟨before, after, rfl⟩ := List.append_of_mem hedited
  exact hcareful path hpath (front ++ .asked (.readText path) :: before)
    (after ++ .asked (.stat path) :: more) (by simp) (by simp) (by simp)

theorem read_inv {path : Path} {text : String} {answer : Except Files.Failure Fingerprint}
    (more : List Event) (hpath : path ∈ paths)
    (hpaths : ∀ path ∈ paths, path.isAbsolute ∧ input (place path))
    (hcareful : Careful paths (past ++ log ++ more)) (hknown : Known past world path text)
    (h : Interleaved input seen (Fingerprint.read path) world log answer last) :
    ∃ fingerprint, answer = .ok fingerprint ∧ Noted seen path (fingerprint, text) := by
  obtain ⟨habsolute, hinput⟩ := hpaths path hpath
  unfold Fingerprint.read at h
  obtain ⟨asking, first, rest, rfl, hedits, hseen, h⟩ := h.request_inv
  have hnow := hedits.known (asks_pure _) habsolute hinput hknown
  have htext := text_of_careful (rest ++ more) (by simpa using hcareful) hpath hnow
  obtain ⟨fingerprint, hprint⟩ := Context.printIn_of_readText habsolute htext
  refine ⟨fingerprint, ?_, asking, hseen, hprint, htext⟩
  rw [← hprint]
  exact h.result_of_done

theorem readAll_inv {sources : List Path} {texts : List String}
    {answer : Except Files.Failure (List Fingerprint)} (more : List Event)
    (hsources : ∀ path ∈ sources, path ∈ paths)
    (hpaths : ∀ path ∈ paths, path.isAbsolute ∧ input (place path))
    (hcareful : Careful paths (past ++ log ++ more))
    (hknown : List.Forall₂ (Known past world) sources texts)
    (h : Interleaved input seen (Fingerprint.readAll sources) world log answer last) :
    ∃ notes : List (Fingerprint × String), answer = .ok (notes.map (·.1)) ∧
      List.Forall₂ (Noted seen) sources notes ∧ notes.map (·.2) = texts := by
  induction sources generalizing past world last log more answer texts with
  | nil =>
      cases hknown
      cases h.result_of_done
      exact ⟨[], rfl, .nil, rfl⟩
  | cons path sources ih =>
      obtain - | ⟨hfirst, hrest⟩ := hknown
      have hothers : ∀ other ∈ sources, other ∈ paths :=
        fun other hother => hsources other (by simp [hother])
      unfold Fingerprint.readAll at h
      obtain ⟨print, between, first, rest, rfl, hread, h⟩ := h.bind_inv
      obtain ⟨fingerprint, rfl, hnoted⟩ := read_inv (rest ++ more)
        (hsources path (by simp)) hpaths (by simpa using hcareful) hfirst hread
      replace hrest := hread.known_all ((asks_read path).mono fun _ hleaves => hleaves.spares input)
        (fun other hother => hpaths other (hothers other hother)) hrest
      obtain ⟨prints, later, second, rest, rfl, hall, hend⟩ := h.bind_inv
      obtain ⟨notes, rfl, hnotes, rfl⟩ := ih (rest ++ more) hothers
        (by simpa using hcareful) hrest hall
      exact ⟨(fingerprint, _) :: notes, hend.result_of_done, .cons hnoted hnotes, rfl⟩

variable {context : Context} {language : Language} {classSource : String} {base : Record}

theorem addRuntimeFile_inv {answer : Except Files.Failure Record} (more : List Event)
    (hpaths : ∀ path ∈ context.inputs language, path.isAbsolute ∧ input (place path))
    (hcareful : Careful (context.inputs language) (past ++ log ++ more))
    (hknown : ∀ file, context.runtime = .file file → Known past world file classSource)
    (h : Interleaved input seen (context.addRuntimeFile base) world log answer last) :
    ∃ record, answer = .ok record ∧ record.settings = base.settings ∧
      ∀ file, context.runtime = .file file → ∃ fingerprint,
        record.files.get? Context.runtimeFileName = some fingerprint ∧
          Noted seen file (fingerprint, classSource) := by
  unfold Context.addRuntimeFile at h
  cases hruntime : context.runtime with
  | bundled =>
      rw [hruntime] at h
      exact ⟨base, h.result_of_done, rfl, nofun⟩
  | file file =>
      rw [hruntime] at h
      unfold Record.addFile at h
      have hmem : file ∈ context.inputs language := by
        simp [Context.inputs, RuntimeSource.file?_eq_some.2 hruntime]
      obtain ⟨print, between, first, rest, rfl, hread, hend⟩ := h.bind_inv
      obtain ⟨fingerprint, rfl, hnoted⟩ := read_inv (rest ++ more) hmem hpaths
        (by simpa using hcareful) (hknown file hruntime) hread
      refine ⟨_, hend.result_of_done, rfl, fun other hother => ?_⟩
      cases hother
      exact ⟨fingerprint, Dictionary.get?_insert_self _ _ _, hnoted⟩

/-- **What a record says that was taken during edits.** -/
theorem takeRecord_inv {texts : List String} {taken : Option Record} (past more : List Event)
    (hpaths : ∀ path ∈ context.inputs language, path.isAbsolute ∧ input (place path))
    (hcareful : Careful (context.inputs language) (past ++ log ++ more))
    (hruntime : ∀ file, context.runtime = .file file → Known past world file classSource)
    (hsources : List.Forall₂ (Known past world) (context.recipe language).sources texts)
    (h : Interleaved input seen (context.takeRecord (context.recipe language).sources) world log
      taken last) :
    ∃ record notes, taken = some record ∧ record.settings = context.settingsRecord.settings ∧
      (∀ file, context.runtime = .file file → ∃ fingerprint,
        record.files.get? Context.runtimeFileName = some fingerprint ∧
          Noted seen file (fingerprint, classSource)) ∧
      record.fileLists.get? Context.sourcesName = some (notes.map (·.1)) ∧
      List.Forall₂ (Noted seen) (context.recipe language).sources notes ∧
      notes.map (·.2) = texts := by
  have hmem : ∀ path ∈ (context.recipe language).sources, path ∈ context.inputs language :=
    fun path hpath => List.mem_append_right _ hpath
  unfold Context.takeRecord at h
  obtain ⟨answer, between, first, rest, rfl, hadd, h⟩ := h.bind_inv
  obtain ⟨base, rfl, hsettings, hfile⟩ := addRuntimeFile_inv (rest ++ more) hpaths
    (by simpa using hcareful) hruntime hadd
  dsimp only at h
  unfold Record.addFileList at h
  obtain ⟨added, later, second, rest, rfl, h, hend⟩ := h.bind_inv
  obtain ⟨prints, late, third, fourth, rfl, hall, h⟩ := h.bind_inv
  replace hsources := hadd.known_all
    ((asks_addRuntimeFile context _).mono fun _ hleaves => hleaves.spares input)
    (fun path hpath => hpaths path (hmem path hpath)) hsources
  obtain ⟨notes, rfl, hnotes, htexts⟩ := readAll_inv (fourth ++ rest ++ more) hmem hpaths
    (by simpa using hcareful) hsources hall
  cases h.result_of_done
  exact ⟨_, notes, hend.result_of_done, hsettings, hfile, Dictionary.get?_insert_self _ _ _, hnotes,
    htexts⟩

end Taking

/-! ## Artifacts and their records -/

/-- A record is backed: it vouches for a bundle, and the artifact holds the text of that bundle, or
is not there and not on the way to itself. -/
inductive Backed (input : Location → Prop) (seen : FileTree → Prop) (target : Target)
    (record : Record) (tree : FileTree) : Prop
  /-- The bundle and what it was made from. -/
  | intro {context : Context} {bundle : Bundle} {classSource : String}
    {notes : List (Fingerprint × String)} {collections : List Collection}
    (hinputs : ∀ path ∈ context.inputs target.language, path.isAbsolute ∧ input (place path))
    (hvouches : Vouches seen context target.language .localized record bundle classSource notes
      collections)
    (hartifact : (∃ mtime, tree.get? (place target.path) =
        some (.file bundle.text.toUTF8 mtime)) ∨
      tree.get? (place target.path) = none ∧ ¬OnWay target.path (place target.path)) :
    Backed input seen target record tree

/-- If a target was not built, its old record is backed. The old record of a target that was built
is of no account. -/
def OldBacked (input : Location → Prop) (seen : FileTree → Prop) (target : Target)
    (record : Option Record) (outcome : Outcome) (tree : FileTree) : Prop :=
  (∀ keysetCount keyCount sources, outcome ≠ .built keysetCount keyCount sources) →
    ∀ old, record = some old → Backed input seen target old tree

section Backed

variable {input : Location → Prop} {seen : FileTree → Prop} {context : Context} {target : Target}
  {record taken : Option Record} {world last : World} {log : List Event} {outcome : Outcome}

theorem oldBacked_none {tree : FileTree} : OldBacked input seen target none outcome tree :=
  fun _ => nofun

theorem Backed.of_same {stored : Record} {tree after : FileTree}
    (h : Backed input seen target stored tree)
    (hsame : after.get? (place target.path) = tree.get? (place target.path)) :
    Backed input seen target stored after := by
  obtain ⟨hinputs, hvouches, hartifact⟩ := h
  refine ⟨hinputs, hvouches, ?_⟩
  rw [hsame]
  exact hartifact

theorem Backed.notOnWay {stored : Record} {tree : FileTree}
    (h : Backed input seen target stored tree) (hnone : tree.get? (place target.path) = none) :
    ¬OnWay target.path (place target.path) := by
  obtain ⟨-, -, ⟨mtime, hfile⟩ | ⟨-, hway⟩⟩ := h
  · rw [hnone] at hfile
    cases hfile
  · exact hway

/-- **What a backed record says that is fresh**: the bundle can be made, and the artifact holds its
text. -/
theorem Backed.holds_of_isFresh {stored : Record} {other : World} {next : Context}
    (h : Backed input seen target stored other.tree) (habsolute : target.path.isAbsolute)
    (hdetermined : ∀ location, input location → Determined seen location)
    (hinputs : ∀ path ∈ next.inputs target.language, path.isAbsolute) (hseen : seen other.tree)
    (hexists : existsIn other target.path)
    (hfresh : isFreshIn other next target.language stored) :
    ∃ bundle, bundleIn (inWorld other) .localized (next.recipe target.language) = .ok bundle ∧
      inWorld other target.path = .ok bundle.text := by
  obtain ⟨hknown, hvouches, hartifact⟩ := h
  obtain ⟨hleads, hthere⟩ := (Context.existsIn_iff habsolute).1 hexists
  refine ⟨_, hvouches.bundleIn (fun path hpath => ?_) hseen hinputs hfresh, ?_⟩
  · obtain ⟨habsolute, hinput⟩ := hknown path hpath
    exact ⟨habsolute, hdetermined _ hinput⟩
  · rcases hartifact with ⟨mtime, hfile⟩ | ⟨hnone, -⟩
    · exact (readText_eq_ok habsolute).2 ⟨hleads, _, mtime, hfile, fromUTF8?_toUTF8 _⟩
    · exact absurd hnone hthere

theorem makeAndWrite_error {failure : Bundle.Failure} (hlayers : context.compactor = .localized)
    (habsolute : target.path.isAbsolute) (hplace : ¬input (place target.path))
    (hway : world.tree.get? (place target.path) = none →
      ¬OnWay target.path (place target.path))
    (h : Interleaved input seen (context.makeAndWrite target) world log (.error failure) last) :
    last.tree.get? (place target.path) = world.tree.get? (place target.path) := by
  unfold Context.makeAndWrite at h
  rw [hlayers] at h
  obtain ⟨made, between, first, rest, rfl, hmake, h⟩ := h.bind_inv
  have hsame := hmake.get?_of_leaves (asks_make _ _) hplace
  rw [← hsame] at hway ⊢
  cases made with
  | error failure => exact h.get?_of_leaves (asks_pure _) hplace
  | ok bundle =>
      obtain ⟨written, later, second, rest, rfl, hwrite, hend⟩ := h.bind_inv
      cases written with
      | ok written => cases hend.result_of_done
      | error failure =>
          exact (hend.get?_of_leaves (asks_pure _) hplace).trans
            (get?_of_writeWhole_error habsolute hplace hway hwrite)

/-- What is known of an artifact that was made and written. -/
theorem makeAndWrite_ok {bundle : Bundle} (hlayers : context.compactor = .localized)
    (habsolute : target.path.isAbsolute)
    (hinputs : ∀ path ∈ context.inputs target.language, path.isAbsolute ∧ input (place path))
    (hplace : ¬input (place target.path)) (hspare : ¬input (place (neighbour target.path)))
    (h : Interleaved input seen (context.makeAndWrite target) world log (.ok bundle) last) :
    ∃ classSource texts collections,
      (context.runtime = .bundled → classSource = Artifact.bundledClass) ∧
      (∀ file, context.runtime = .file file → Known log last file classSource) ∧
      List.Forall₂ (Known log last) (context.recipe target.language).sources texts ∧
      List.Forall₂ (fun text collection => ∃ path, Collection.ofSource text path = .ok collection)
        texts collections ∧
      Bundle.ofCollections .localized (context.recipe target.language) classSource collections =
        .ok bundle ∧
      ∃ mtime, last.tree.get? (place target.path) = some (.file bundle.text.toUTF8 mtime) := by
  unfold Context.makeAndWrite at h
  rw [hlayers] at h
  obtain ⟨made, between, first, rest, rfl, hmake, h⟩ := h.bind_inv
  cases made with
  | error failure => cases h.result_of_done
  | ok made =>
      obtain ⟨written, later, second, more, rfl, hwrite, hend⟩ := h.bind_inv
      cases written with
      | error failure => cases hend.result_of_done
      | ok written =>
          cases hend.result_of_done
          obtain ⟨classSource, texts, collections, hbundled, hruntime, hsources, hcollections,
            hmade⟩ := make_inv
              (show ∀ path ∈ (context.recipe target.language).runtime.file?.toList ++
              (context.recipe target.language).sources, _ from hinputs) hmake
          have hspares := asks_writeWhole habsolute hplace hspare bundle.text
          refine ⟨classSource, texts, collections, hbundled, fun file hfile => ?_, ?_, hcollections,
            hmade, ?_⟩
          · obtain ⟨habsolute, hinput⟩ := hinputs file (by
              simp [Context.inputs, RuntimeSource.file?_eq_some.2 hfile])
            have hknown := hwrite.known hspares habsolute hinput (hruntime file hfile)
            simpa using hend.known (asks_pure _) habsolute hinput hknown
          · have hpaths : ∀ path ∈ (context.recipe target.language).sources,
                path.isAbsolute ∧ input (place path) :=
              fun path hpath => hinputs path (List.mem_append_right _ hpath)
            have hknown := hwrite.known_all hspares hpaths hsources
            simpa using hend.known_all (asks_pure _) hpaths hknown
          · obtain ⟨mtime, hheld⟩ := held_of_writeWhole habsolute hplace hspare hwrite
            exact ⟨mtime, (hend.get?_of_leaves (asks_pure _) hplace).trans hheld⟩

/-- **A build during edits backs its record, and leaves an old one backed.** -/
theorem Backed.of_interleaved (hlayers : context.compactor = .localized)
    (habsolute : target.path.isAbsolute)
    (hinputs : ∀ path ∈ context.inputs target.language, path.isAbsolute ∧ input (place path))
    (hplace : ¬input (place target.path)) (hspare : ¬input (place (neighbour target.path)))
    (hcareful : Careful (context.inputs target.language) log)
    (hold : OldBacked input seen target record outcome world.tree)
    (h : Interleaved input seen (context.buildTarget target record) world log (outcome, taken) last)
    {stored : Record} (hstored : taken.or record = some stored) :
    Backed input seen target stored last.tree := by
  unfold Context.buildTarget at h
  obtain ⟨found, between, first, rest, rfl, hlook, h⟩ := h.bind_inv
  have hsame := hlook.get?_of_leaves (asks_isUpToDate context target record) hplace
  have hleft : (∀ keysetCount keyCount sources, outcome ≠ .built keysetCount keyCount sources) →
      ∀ {stored : Record} {later : World},
      later.tree.get? (place target.path) = between.tree.get? (place target.path) →
      record = some stored → Backed input seen target stored later.tree :=
    fun hnot _ _ hlater hrecord => (hold hnot _ hrecord).of_same (hlater.trans hsame)
  cases found with
  | true =>
      have hresult := h.result_of_done
      cases hresult
      rw [Option.none_or] at hstored
      exact hleft nofun (h.get?_of_leaves (asks_pure _) hplace) hstored
  | false =>
      rw [if_neg (by decide)] at h
      obtain ⟨made, written, second, more, rfl, hwrite, h⟩ := h.bind_inv
      cases made with
      | error failure =>
          have hresult := h.result_of_done
          cases hresult
          rw [Option.none_or] at hstored
          refine hleft nofun ((h.get?_of_leaves (asks_pure _) hplace).trans ?_) hstored
          refine makeAndWrite_error hlayers habsolute hplace (fun hnone => ?_) hwrite
          exact (hold nofun _ hstored).notOnWay (hsame.symm.trans hnone)
      | ok bundle =>
          obtain ⟨classSource, texts, collections, hbundled, hruntime, hsources, hcollections,
            hmade, mtime, hheld⟩ :=
            makeAndWrite_ok hlayers habsolute hinputs hplace hspare hwrite
          obtain ⟨answer, later, third, rest, rfl, htake, hend⟩ := h.bind_inv
          have hresult := hend.result_of_done
          cases hresult
          have hsame' : bundle.sources = (context.recipe target.language).sources := by
            obtain ⟨keysets, -, hbundle⟩ := bind_eq_ok.1 hmade
            cases hbundle
            rfl
          rw [hsame'] at htake
          obtain ⟨record, notes, rfl, hsettings, hfile, hlist, hnotes, rfl⟩ :=
            takeRecord_inv (first ++ second) rest hinputs
              (by simpa using hcareful) (fun file hfile => (hruntime file hfile).append_left first)
              (hsources.imp fun _ _ hknown => hknown.append_left first) htake
          cases hstored
          refine ⟨hinputs, ⟨hsettings, hbundled, hfile, hlist, hnotes,
            List.forall₂_map_left_iff.1 hcollections, hmade⟩, .inl ⟨mtime, ?_⟩⟩
          rw [hend.get?_of_leaves (asks_pure _) hplace,
            htake.get?_of_leaves (asks_takeRecord _ _) hplace]
          exact hheld

end Backed

/-! ## The next build -/

/-- A bundle can be made for a target, and the artifact holds its text. -/
def IsCurrent (context : Context) (target : Target) (world : World) : Prop :=
  ∃ bundle, (world.run (Bundle.make context.compactor (context.recipe target.language))).1 =
      .ok bundle ∧
    world.tree.readText world.current target.path = .ok bundle.text

/-- What is known before a target is built: the files that go into it are inputs, which are
determined by their fingerprints, and the neighbour of the artifact is no input. The next build may
have other settings. -/
structure Prepared (input : Location → Prop) (seen : FileTree → Prop) (context next : Context)
    (target : Target) : Prop where
  /-- The layers of the first build. -/
  layers : context.compactor = .localized
  /-- The layers of the next build. -/
  layers' : next.compactor = .localized
  /-- The artifact has an absolute path. -/
  isAbsolute : target.path.isAbsolute
  /-- The files that go into the bundle. -/
  inputs : ∀ path ∈ context.inputs target.language, path.isAbsolute ∧ input (place path)
  /-- The files that go into the next bundle. -/
  inputs' : ∀ path ∈ next.inputs target.language, path.isAbsolute
  /-- Inputs are determined by their fingerprints. -/
  determined : ∀ location, input location → Determined seen location
  /-- The neighbour is no input. -/
  spare : ¬input (place (neighbour target.path))

/-- **Edits that are not lost.**  Inputs are edited while a target is built, but no file between
its reading and its fingerprint. If the next build finds the target up to date, the artifact holds
the text of the bundle that can be made then. -/
theorem upToDate_after_edits {input : Location → Prop} {seen : FileTree → Prop}
    {context next : Context} {target : Target} {record taken : Option Record} {outcome : Outcome}
    {world last other : World} {log : List Event}
    (hprepared : Prepared input seen context next target)
    (hold : OldBacked input seen target record outcome world.tree)
    (hplace : ¬input (place target.path))
    (h : Interleaved input seen (context.buildTarget target record) world log (outcome, taken) last)
    (hcareful : Careful (context.inputs target.language) log)
    (hkept : other.tree.get? (place target.path) = last.tree.get? (place target.path))
    (hseen : seen other.tree)
    (hupToDate : (other.run (next.buildTarget target (taken.or record))).1.1 = .upToDate) :
    IsCurrent next target other := by
  obtain ⟨-, hending⟩ := Context.run_buildTarget other (taken.or record) hprepared.layers'
    hprepared.isAbsolute
  generalize (other.run (next.buildTarget target (taken.or record))).1 = reply at hending hupToDate
  obtain ⟨outcome', record'⟩ := reply
  obtain ⟨stored, hstored, hexists, hfresh, -⟩ := upToDate_of_ending hending hupToDate
  have hbacked := Backed.of_interleaved hprepared.layers hprepared.isAbsolute hprepared.inputs
    hplace hprepared.spare hcareful hold h hstored
  obtain ⟨bundle, hbundle, htext⟩ := (hbacked.of_same hkept).holds_of_isFresh hprepared.isAbsolute
    hprepared.determined hprepared.inputs' hseen hexists hfresh
  obtain ⟨modules, hmake⟩ := Bundle.run_make other .localized (next.recipe target.language)
  refine ⟨bundle, ?_, htext⟩
  rw [hprepared.layers', hmake]
  exact hbundle

/-! ## A runtime class that is edited -/

/-- A build with a runtime class in a file and no keyset files. -/
def classContext : Context where
  root := ⟨"/"⟩
  dirs := []
  runtime := .file ⟨"/r.js"⟩
  moduleName := "y-i18n"
  compactor := .localized
  force := false

/-- The artifact. -/
def classTarget : Target := ⟨.named "en", ⟨"/a.js"⟩⟩

/-- The place of the runtime class. -/
def classPlace (location : Location) : Prop := location = ["r.js"]

instance : DecidablePred classPlace := fun _ => inferInstanceAs (Decidable (_ = _))

/-- The runtime class before an edit. -/
def classEntry : Entry := .file "f".toUTF8 0

/-- The runtime class after an edit. -/
def editedEntry : Entry := .file "gg".toUTF8 5

/-- A world with the runtime class. -/
def classWorld : World where
  tree := FileTree.empty.set ["r.js"] classEntry
  current := []
  clock := 1
  modules := .empty

/-- The runtime class is one of two files. -/
def OneOf (first second : Entry) (tree : FileTree) : Prop :=
  tree.get? ["r.js"] = some first ∨ tree.get? ["r.js"] = some second

instance decidableEqEntry : DecidableEq Entry
  | .folder, .folder => isTrue rfl
  | .folder, .file .. => isFalse nofun
  | .file .., .folder => isFalse nofun
  | .file bytes mtime, .file bytes' mtime' =>
    decidable_of_iff (bytes.data = bytes'.data ∧ mtime = mtime') (by simp [ByteArray.ext_iff])

instance (first second : Entry) : DecidablePred (OneOf first second) :=
  fun tree => inferInstanceAs (Decidable (tree.get? ["r.js"] = some first ∨ _))

/-- Two files with different times are determined by their fingerprints. -/
theorem determined_oneOf {bytes bytes' : ByteArray} {mtime mtime' : Int}
    (h : mtime.toNat ≠ mtime'.toNat) {location : Location} (hinput : classPlace location) :
    Determined (OneOf (.file bytes mtime) (.file bytes' mtime')) location := by
  subst hinput
  rintro tree other hseen hseen' entry entry' path path' hentry hentry' - hmtime
  rcases hseen with hfirst | hfirst <;> rcases hseen' with hsecond | hsecond <;>
    rw [hfirst] at hentry <;> rw [hsecond] at hentry' <;> cases hentry <;> cases hentry'
  · rfl
  · exact absurd hmtime h
  · exact absurd hmtime.symm h
  · rfl

theorem prepared_class {target : Target} {first second : Entry}
    (habsolute : target.path.isAbsolute)
    (hdetermined : ∀ location, classPlace location → Determined (OneOf first second) location)
    (hspare : ¬classPlace (place (neighbour target.path))) :
    Prepared classPlace (OneOf first second) classContext classContext target := by
  refine ⟨rfl, rfl, habsolute, fun path hpath => ?_, fun path hpath => ?_, hdetermined, hspare⟩
  · have hclass : path = ⟨"/r.js"⟩ := List.mem_singleton.1 hpath
    rw [hclass]
    exact ⟨by decide +kernel, by decide +kernel⟩
  · have hclass : path = ⟨"/r.js"⟩ := List.mem_singleton.1 hpath
    rw [hclass]
    decide +kernel

/-- An edit of the runtime class. -/
theorem touched_class {tree : FileTree} (h : tree.get? ["r.js"] = some classEntry) :
    Touched ["r.js"] tree (tree.set ["r.js"] editedEntry) := by
  refine ⟨fun other hother => ?_, ?_, ?_⟩
  · rw [FileTree.get?_set _ (by decide +kernel), if_neg hother]
  · rw [h]
    nofun
  · rw [FileTree.get?_set _ (by decide +kernel), if_pos rfl]
    nofun

/-- The world with another runtime class. -/
def editedWorld : World :=
  { classWorld with tree := classWorld.tree.set ["r.js"] editedEntry }

/-- An edit before a build is seen. -/
theorem upToDate_after_edits_first : ∃ log taken last,
    Interleaved classPlace (OneOf classEntry editedEntry)
      (classContext.buildTarget classTarget none) classWorld log taken last ∧
    .edited ["r.js"] ∈ log ∧ IsCurrent classContext classTarget last := by
  have hseen : (classContext.buildTarget classTarget none).SeenIn (OneOf classEntry editedEntry)
      editedWorld := by decide +kernel
  obtain ⟨log, hlog, hrun⟩ := Interleaved.of_run classPlace hseen
  have htouched : Touched ["r.js"] classWorld.tree editedWorld.tree := touched_class rfl
  have hedit := Interleaved.edit (show classPlace ["r.js"] from rfl) htouched hrun
  refine ⟨_, _, _, hedit, by simp, ?_⟩
  have hprepared : Prepared classPlace (OneOf classEntry editedEntry) classContext classContext
      classTarget :=
    prepared_class (by decide +kernel) (fun location => determined_oneOf (by decide +kernel))
      (by decide +kernel)
  have hupToDate : ((editedWorld.run (classContext.buildTarget classTarget none)).2.run
      (classContext.buildTarget classTarget ((editedWorld.run
        (classContext.buildTarget classTarget none)).1.2.or none))).1.1 = .upToDate := by
    decide +kernel
  refine upToDate_after_edits hprepared oldBacked_none (by decide +kernel) hedit ?_ rfl
    (by decide +kernel) hupToDate
  -- nothing was read before the edit
  rintro path hpath front back hsplit hread
  cases front with
  | nil => cases hread
  | cons event front =>
      have hrest := (List.cons.inj hsplit).2
      exact absurd (hrest ▸ by simp) (hlog (place path))

/-! ## Edits that are lost -/

/-- An artifact that is current is as long as the text of the bundle. -/
theorem IsCurrent.size {context : Context} {target : Target} {world : World}
    (h : IsCurrent context target world) (habsolute : target.path.isAbsolute) :
    ((world.tree.get? (place target.path)).bind contentOf).map (·.size) =
      (world.run (Bundle.make context.compactor
        (context.recipe target.language))).1.toOption.map (·.text.utf8ByteSize) := by
  obtain ⟨bundle, hbundle, htext⟩ := h
  obtain ⟨-, bytes, mtime, hentry, hbytes⟩ := (readText_eq_ok habsolute).1 htext
  rw [hbundle, hentry]
  unfold String.fromUTF8? at hbytes
  split at hbytes
  · rw [Except.toOption, Option.map_some, ← Option.some.inj hbytes]
    rfl
  · cases hbytes

/-- An artifact that takes the place of its own runtime class is never current. -/
theorem not_isCurrent_of_own {context : Context} {target : Target} {world : World} {tag : String}
    (hlanguage : target.language = .named tag) (hruntime : context.runtime = .file target.path) :
    ¬IsCurrent context target world := by
  rintro ⟨bundle, hbundle, htext⟩
  obtain ⟨modules, hmake⟩ := Bundle.run_make world context.compactor
    (context.recipe target.language)
  rw [hmake] at hbundle
  obtain ⟨classSource, collections, hclass, -, hmade⟩ := Bundle.bundleIn_eq_ok.1 hbundle
  change Bundle.classIn (inWorld world) context.runtime = _ at hclass
  rw [hruntime] at hclass
  have hown := (Bundle.classIn_file.1 hclass).symm.trans htext
  cases hown
  obtain ⟨keysets, -, hsame⟩ := bind_eq_ok.1 hmade
  have hlonger := Artifact.length_generate tag bundle.text keysets context.moduleName
  rw [← hlanguage] at hlonger
  have htext' := congrArg Bundle.text (Except.ok.inj hsame)
  change Artifact.generate target.language bundle.text keysets context.moduleName = _ at htext'
  rw [htext'] at hlonger
  exact absurd hlonger (Nat.lt_irrefl _)

/-- The end of a build in which the artifact is made and written. -/
theorem interleaved_buildTarget {input : Location → Prop} {seen : FileTree → Prop}
    {context : Context} {target : Target} {record taken : Option Record} {bundle : Bundle}
    {world looked written last : World} {first second third : List Event}
    (hlook : Interleaved input seen (context.isUpToDate target record) world first false looked)
    (hmake : Interleaved input seen (context.makeAndWrite target) looked second (.ok bundle)
      written)
    (htake : Interleaved input seen (context.takeRecord bundle.sources) written third taken last) :
    Interleaved input seen (context.buildTarget target record) world
      (first ++ (second ++ (third ++ [])))
      (.built bundle.keysetCount bundle.keyCount (bundle.sources.map context.shown), taken) last :=
  hlook.bind (hmake.bind (htake.bind (.done _ _)))

/-- A program that leaves the files as they are asks in the same tree all the time. -/
theorem seenIn_of_leaves {α : Type} {seen : FileTree → Prop} {program : Program α} {world : World}
    (hasks : program.Asks Leaves) (hseen : seen world.tree) : program.SeenIn seen world := by
  induction program generalizing world with
  | done result => trivial
  | ask request next ih =>
      refine ⟨hseen, ih _ (hasks.2 _) ?_⟩
      rw [(hasks.1 world).1]
      exact hseen

/-- A build in the world with the runtime class, with what happens while the record is taken. -/
theorem interleaved_class (target : Target) {second : Entry} {last : World} {log : List Event}
    {taken : Option Record}
    (hnot : Context.isUpToDateIn classWorld classContext target none = false)
    (hmade : (classWorld.run (classContext.makeAndWrite target)).1.toOption.any
      fun bundle => bundle.sources = [])
    (hasks : (classContext.makeAndWrite target).SeenIn (OneOf classEntry second) classWorld)
    (htake : Interleaved classPlace (OneOf classEntry second) (classContext.takeRecord [])
      (classWorld.run (classContext.makeAndWrite target)).2 log taken last) :
    ∃ before outcome, (∀ location, .edited location ∈ before → .edited location ∈ log) ∧
      Interleaved classPlace (OneOf classEntry second) (classContext.buildTarget target none)
        classWorld before (outcome, taken) last := by
  obtain ⟨first, hfirst, hlook⟩ := Interleaved.of_run classPlace
    (seenIn_of_leaves (asks_isUpToDate classContext target none)
      (show OneOf classEntry second classWorld.tree from .inl rfl))
  rw [Context.run_isUpToDate, hnot] at hlook
  obtain ⟨middle, hmiddle, hmake⟩ := Interleaved.of_run classPlace hasks
  generalize classWorld.run (classContext.makeAndWrite target) = reply at hmade hmake htake
  obtain ⟨made, written⟩ := reply
  cases made with
  | error failure => cases hmade
  | ok bundle =>
      have hsources : bundle.sources = [] := of_decide_eq_true hmade
      rw [← hsources] at htake
      refine ⟨_, _, fun location hedited => ?_, interleaved_buildTarget hlook hmake htake⟩
      rcases List.mem_append.1 hedited with hedited | hedited
      · exact absurd hedited (hfirst location)
      · rcases List.mem_append.1 hedited with hedited | hedited
        · exact absurd hedited (hmiddle location)
        · rw [List.append_nil] at hedited
          exact hedited

/-- The world in which the runtime class is edited after the artifact was written. -/
def lateWorld : World :=
  { (classWorld.run (classContext.makeAndWrite classTarget)).2 with
    tree := (classWorld.run (classContext.makeAndWrite classTarget)).2.tree.set ["r.js"]
      editedEntry }

/-- A build in which the runtime class is edited after the artifact was written. -/
theorem interleaved_late : ∃ log outcome,
    Interleaved classPlace (OneOf classEntry editedEntry)
      (classContext.buildTarget classTarget none) classWorld log
      (outcome, (lateWorld.run (classContext.takeRecord [])).1) lateWorld := by
  obtain ⟨log, -, htake⟩ := Interleaved.of_run classPlace
    (seenIn_of_leaves (asks_takeRecord classContext [])
      (show OneOf classEntry editedEntry lateWorld.tree from .inr rfl))
  rw [Context.run_takeRecord] at htake ⊢
  have htouched : Touched ["r.js"]
      (classWorld.run (classContext.makeAndWrite classTarget)).2.tree lateWorld.tree :=
    touched_class (by decide +kernel)
  obtain ⟨before, outcome, -, hrun⟩ := interleaved_class classTarget (by decide +kernel)
    (by decide +kernel) (by decide +kernel) (.edit rfl htouched htake)
  exact ⟨before, outcome, hrun⟩

/-- An artifact in the place of the runtime class. -/
def ownTarget : Target := ⟨.named "en", ⟨"/r.js"⟩⟩

/-- The world in which it was written. -/
def ownWorld : World := (classWorld.run (classContext.makeAndWrite ownTarget)).2

/-- The artifact. -/
def ownEntry : Entry :=
  .file (((ownWorld.tree.get? ["r.js"]).bind contentOf).getD .empty) 1

/-- Whether an entry is a file that was written at the time. -/
def isFileAt (time : Int) : Entry → Bool
  | .folder => false
  | .file _ mtime => mtime = time

theorem oneOf_ownWorld : OneOf classEntry ownEntry ownWorld.tree := by
  have hwritten : (ownWorld.tree.get? ["r.js"]).any (isFileAt 1) := by decide +kernel
  refine .inr ?_
  unfold ownEntry
  generalize ownWorld.tree.get? ["r.js"] = found at hwritten
  cases found with
  | none => cases hwritten
  | some entry =>
      cases entry with
      | folder => cases hwritten
      | file bytes mtime =>
          rw [show mtime = 1 from of_decide_eq_true hwritten]
          rfl

/-- Without care an edit is lost, also when nothing else is wrong, and without another place for
the artifact it takes itself for its runtime class, also when nothing is edited. -/
theorem not_upToDate_after_edits :
    (¬∀ (input : Location → Prop) (seen : FileTree → Prop) (context next : Context)
        (target : Target) (record taken : Option Record) (outcome : Outcome)
        (world last other : World) (log : List Event),
      Prepared input seen context next target →
      OldBacked input seen target record outcome world.tree →
      ¬input (place target.path) →
      Interleaved input seen (context.buildTarget target record) world log (outcome, taken) last →
      other.tree.get? (place target.path) = last.tree.get? (place target.path) →
      seen other.tree →
      (other.run (next.buildTarget target (taken.or record))).1.1 = .upToDate →
      IsCurrent next target other) ∧
    ¬∀ (input : Location → Prop) (seen : FileTree → Prop) (context next : Context)
        (target : Target) (record taken : Option Record) (outcome : Outcome)
        (world last other : World) (log : List Event),
      Prepared input seen context next target →
      OldBacked input seen target record outcome world.tree →
      (∀ location, .edited location ∉ log) →
      Interleaved input seen (context.buildTarget target record) world log (outcome, taken) last →
      other.tree.get? (place target.path) = last.tree.get? (place target.path) →
      seen other.tree →
      (other.run (next.buildTarget target (taken.or record))).1.1 = .upToDate →
      IsCurrent next target other := by
  refine ⟨fun h => ?_, fun h => ?_⟩
  · obtain ⟨log, outcome, hrun⟩ := interleaved_late
    have hprepared : Prepared classPlace (OneOf classEntry editedEntry) classContext classContext
        classTarget :=
      prepared_class (by decide +kernel) (fun location => determined_oneOf (by decide +kernel))
        (by decide +kernel)
    have hupToDate : (lateWorld.run (classContext.buildTarget classTarget
        ((lateWorld.run (classContext.takeRecord [])).1.or none))).1.1 = .upToDate := by
      decide +kernel
    have hcurrent := h classPlace (OneOf classEntry editedEntry) classContext classContext
      classTarget none (lateWorld.run (classContext.takeRecord [])).1 outcome classWorld lateWorld
      lateWorld log hprepared oldBacked_none (by decide +kernel) hrun rfl (.inr rfl) hupToDate
    -- the edited class is longer
    have hsize := hcurrent.size (by decide +kernel)
    exact absurd hsize (by decide +kernel)
  · obtain ⟨log, hlog, htake⟩ := Interleaved.of_run classPlace
      (seenIn_of_leaves (asks_takeRecord classContext []) oneOf_ownWorld)
    rw [Context.run_takeRecord] at htake
    obtain ⟨before, outcome, hbefore, hrun⟩ := interleaved_class ownTarget
      (by decide +kernel) (by decide +kernel) (by decide +kernel) htake
    have hprepared : Prepared classPlace (OneOf classEntry ownEntry) classContext classContext
        ownTarget :=
      prepared_class (by decide +kernel) (fun location => determined_oneOf (by decide +kernel))
        (by decide +kernel)
    have hupToDate : (ownWorld.run (classContext.buildTarget ownTarget
        ((recordIn ownWorld classContext []).or none))).1.1 = .upToDate := by
      decide +kernel
    have hcurrent := h classPlace (OneOf classEntry ownEntry) classContext classContext ownTarget
      none (recordIn ownWorld classContext []) outcome classWorld ownWorld ownWorld before
      hprepared oldBacked_none (fun location hedited => hlog location (hbefore location hedited))
      hrun rfl oneOf_ownWorld hupToDate
    exact not_isCurrent_of_own rfl rfl hcurrent

end KeysetBundle.Build
