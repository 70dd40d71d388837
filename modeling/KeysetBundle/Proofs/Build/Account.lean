import KeysetBundle.Proofs.Build.Project
import KeysetBundle.Proofs.Build.Provenance

/-!
# The account of a build

Which records may be believed is a matter of the files around them.  `Layout`
says how the files that builds write have to lie to each other and to the files
that go into bundles.  Then a record is *vouched for* (`Vouched`) if the
artifact is there as it was made when the record was taken, or gone for good.
The turns of a build keep this up, for the records of the ledger and for those
that are taken (`Progress`).

Main results.

- `Progress.step`: what the turn of one target keeps up.
- `Progress.takeTurns`: what the turns of all targets keep up.
-/

namespace KeysetBundle.Build

open KeysetBundle.Bundle (bundleIn inWorld)
open Context (Ending Known Origin isFreshIn recordIn)
open Files
open Freshness
open Report (Outcome)

/-! ## The layout of files -/

/-- No target has a folder made at the place of a path. -/
def Clear (planned : Path → Target → Prop) (path : Path) : Prop :=
  ∀ file target, planned file target → ¬OnWay target.path (place path)

/-- How the files of some builds lie to each other. A build may make a target and keep its record
in a ledger only if this is `planned`, and only an `input` may go into a bundle. -/
structure Layout (planned : Path → Target → Prop) (input : Location → Prop) : Prop where
  /-- The paths are absolute. -/
  isAbsolute : ∀ {file target}, planned file target → file.isAbsolute ∧ target.path.isAbsolute
  /-- The languages were read from tags. -/
  isRead : ∀ {file target}, planned file target → target.language.IsRead
  /-- An artifact has one spelling and one ledger. -/
  oneName : ∀ {file target file' target'}, planned file target → planned file' target' →
    place target.path = place target'.path → target.path = target'.path ∧ file = file'
  /-- No ledger is an artifact or the neighbour of one. -/
  ledgerApart : ∀ {file target file' target'}, planned file target → planned file' target' →
    place file ≠ place target'.path ∧ place file ≠ place (neighbour target'.path)
  /-- No input is an artifact, the neighbour of one, or a ledger. -/
  inputApart : ∀ {location file target}, input location → planned file target →
    location ≠ place target.path ∧ location ≠ place (neighbour target.path) ∧
      location ≠ place file
  /-- Where the neighbour of one artifact is another artifact, no folder is made. -/
  neighbourClear : ∀ {file target file' target'}, planned file target → planned file' target' →
    place (neighbour target.path) = place target'.path → Clear planned target'.path

theorem Layout.place_ne {planned : Path → Target → Prop} {input : Location → Prop}
    {file file' : Path} {target target' : Target} (h : Layout planned input)
    (hplanned : planned file target) (hplanned' : planned file' target')
    (hne : target.path ≠ target'.path) : place target.path ≠ place target'.path :=
  fun heq => hne (h.oneName hplanned hplanned' heq).1

/-! ## Trees that keep files -/

/-- A tree keeps its folders and the files at certain locations. -/
structure Keeps (kept : Location → Prop) (tree after : FileTree) : Prop where
  /-- The folders. -/
  folder : ∀ location, tree.get? location = some .folder → after.get? location = some .folder
  /-- The files. -/
  file : ∀ location bytes mtime, kept location → tree.get? location = some (.file bytes mtime) →
    after.get? location = some (.file bytes mtime)

variable {kept : Location → Prop} {world after : World}

theorem Keeps.refl (kept : Location → Prop) (tree : FileTree) : Keeps kept tree tree :=
  ⟨fun _ h => h, fun _ _ _ _ h => h⟩

theorem Keeps.mono {other : Location → Prop} {tree after : FileTree} (h : Keeps kept tree after)
    (hother : ∀ location, other location → kept location) : Keeps other tree after :=
  ⟨h.folder, fun location bytes mtime hlocation =>
    h.file location bytes mtime (hother location hlocation)⟩

theorem Keeps.reads {path : Path} {text : String} (h : Keeps kept world.tree after.tree)
    (habsolute : path.isAbsolute) (hkept : kept (place path))
    (hread : inWorld world path = .ok text) : inWorld after path = .ok text := by
  obtain ⟨hleads, bytes, mtime, hentry, htext⟩ := (readText_eq_ok habsolute).1 hread
  have hentry' := h.file _ _ _ hkept hentry
  exact (readText_eq_ok habsolute).2 ⟨hleads.mono h.folder, bytes, mtime, hentry', htext⟩

/-- Where the inputs are kept, the same bundle can be made. -/
theorem Keeps.makes {context : Context} {language : Language} {bundle : Bundle}
    (h : Keeps kept world.tree after.tree) (hknown : Known kept context language)
    (hbundle : bundleIn (inWorld world) .localized (context.recipe language) = .ok bundle) :
    bundleIn (inWorld after) .localized (context.recipe language) = .ok bundle := by
  refine Bundle.bundleIn_of_reads (fun path hpath text hread => ?_) hbundle
  obtain ⟨habsolute, hkept⟩ := hknown.isInput path hpath
  exact h.reads habsolute hkept hread

/-! ## What the turn of a target does elsewhere -/

/-- Whether a target was built. -/
def isBuilt : Outcome → Bool
  | .built .. => true
  | _ => false

variable {planned : Path → Target → Prop} {input : Location → Prop} {seen : FileTree → Prop}
  {context : Context} {target : Target} {old record : Option Record} {outcome : Outcome}
  {tree : FileTree}

/-- Away from the artifact, or everywhere if it was not built, nothing but a side effect happens. -/
theorem sideEffect_of_ending (h : Ending context target old world (outcome, record) tree)
    {location : Location} (hlocation : isBuilt outcome → location ≠ place target.path) :
    SideEffect target.path location (world.tree.get? location) (tree.get? location) := by
  cases h with
  | upToDate hold hexists hfresh => exact .same _
  | failed heffect => exact heffect location
  | built hbundle hwritten => exact hwritten.elsewhere location fun _ => hlocation rfl

/-- The artifact that was built had no folder in its place. -/
theorem folder_of_ending (h : Ending context target old world (outcome, record) tree)
    {location : Location} (hfolder : world.tree.get? location = some .folder) :
    tree.get? location = some .folder := by
  by_cases hbuilt : isBuilt outcome → location ≠ place target.path
  · have heffect := sideEffect_of_ending h hbuilt
    rw [hfolder] at heffect
    exact heffect.folder
  · cases h with
    | upToDate hold hexists hfresh => exact hfolder
    | failed heffect => exact absurd (fun hbuilt => nomatch hbuilt) hbuilt
    | built hbundle hwritten =>
        have hplace : location = place target.path := by
          refine Classical.byContradiction fun hne => hbuilt fun _ => hne
        rw [hplace] at hfolder
        exact absurd hfolder (hwritten.notFolder rfl)

theorem keeps_of_ending (h : Ending context target old world (outcome, record) tree)
    (hkept : ∀ location, kept location →
      location ≠ place target.path ∧ location ≠ place (neighbour target.path)) :
    Keeps kept world.tree tree := by
  constructor
  · exact fun location hfolder => folder_of_ending h hfolder
  · intro location bytes mtime hlocation hfile
    obtain ⟨hplace, hspare⟩ := hkept location hlocation
    have heffect := sideEffect_of_ending h fun _ => hplace
    rw [hfile] at heffect
    generalize tree.get? location = entry at heffect
    cases heffect with
    | same => rfl
    | removed hneighbour => exact absurd hneighbour hspare

theorem upToDate_of_ending (h : Ending context target old world (outcome, record) tree)
    (houtcome : outcome = .upToDate) :
    ∃ stored, old = some stored ∧ Context.existsIn world target.path ∧
      isFreshIn world context target.language stored ∧ tree = world.tree := by
  cases h with
  | upToDate hold hexists hfresh => exact ⟨_, hold, hexists, hfresh, rfl⟩
  | failed heffect => cases houtcome
  | built hbundle hwritten => cases houtcome

theorem makes_of_ending (h : Ending context target old world (outcome, record) tree)
    (hbuilt : isBuilt outcome) :
    ∃ bundle, bundleIn (inWorld world) .localized (context.recipe target.language) =
      .ok bundle := by
  cases h with
  | upToDate hold hexists hfresh => cases hbuilt
  | failed heffect => cases hbuilt
  | built hbundle hwritten => exact ⟨_, hbundle⟩

theorem record_of_ending (h : Ending context target old world (outcome, record) tree)
    (hbuilt : ¬isBuilt outcome) : record = none := by
  cases h with
  | upToDate hold hexists hfresh => rfl
  | failed heffect => rfl
  | built hbundle hwritten => exact absurd rfl hbuilt

/-- Ledgers stay as they are. -/
theorem ledgerIn_of_ending (h : Ending context target old world (outcome, record) tree)
    {file : Path} (hplace : place file ≠ place target.path)
    (hspare : place file ≠ place (neighbour target.path)) :
    ledgerIn tree file = ledgerIn world.tree file := by
  have heffect := sideEffect_of_ending h fun _ => hplace
  unfold ledgerIn
  generalize tree.get? (place file) = entry at heffect ⊢
  generalize world.tree.get? (place file) = before at heffect ⊢
  cases heffect with
  | same => rfl
  | made hway => rfl
  | removed hneighbour => exact absurd hneighbour hspare

/-! ## Records that are vouched for -/

/-- An artifact is there with a text, or it is gone and nothing takes its place. -/
structure Holds (planned : Path → Target → Prop) (tree : FileTree) (path : Path) (text : String) :
    Prop where
  /-- It does not stand on the way to itself. -/
  notOnWay : ¬OnWay path (place path)
  /-- What is in its place. -/
  entry : (∃ mtime, tree.get? (place path) = some (.file text.toUTF8 mtime)) ∨
    tree.get? (place path) = none ∧ Clear planned path

/-- A record of an artifact is vouched for: it was taken when a bundle of the language was made,
and the artifact holds the text of that bundle. -/
def Vouched (planned : Path → Target → Prop) (input : Location → Prop) (seen : FileTree → Prop)
    (tree : FileTree) (path : Path) (language : Language) (record : Record) : Prop :=
  ∃ text, Origin seen input language record text ∧ Holds planned tree path text

theorem Vouched.of_sideEffect {path : Path} {language : Language} {record : Record}
    {before after : FileTree} {file : Path}
    (h : Vouched planned input seen before path language record)
    (htarget : planned file target)
    (hclear : place (neighbour target.path) = place path → Clear planned path)
    (heffect : SideEffect target.path (place path) (before.get? (place path))
      (after.get? (place path))) :
    Vouched planned input seen after path language record := by
  obtain ⟨text, horigin, hnotOnWay, hentry⟩ := h
  refine ⟨text, horigin, hnotOnWay, ?_⟩
  generalize after.get? (place path) = entry at heffect ⊢
  rcases hentry with ⟨mtime, hfile⟩ | ⟨hnone, hfree⟩
  · rw [hfile] at heffect
    cases heffect with
    | same => exact .inl ⟨mtime, rfl⟩
    | removed hneighbour => exact .inr ⟨rfl, hclear hneighbour.symm⟩
  · rw [hnone] at heffect
    cases heffect with
    | same => exact .inr ⟨rfl, hfree⟩
    | made hway => exact absurd hway (hfree file target htarget)

/-- What is known of a record of a path: for which language the artifact was made last, and that
it is vouched for. -/
def Accounted (planned : Path → Target → Prop) (input : Location → Prop) (seen : FileTree → Prop)
    (made : Path → Option Language) (tree : FileTree) (path : Path) (record : Record) : Prop :=
  ∃ language, made path = some language ∧ (∃ file, planned file ⟨language, path⟩) ∧
    Vouched planned input seen tree path language record

/-- What is known of a target that is reported to be up to date: a bundle can be made, and the
artifact has its text exactly if it was made last for the same language. The languages can differ
only if there are no keyset files. -/
def Reported (planned : Path → Target → Prop) (made : Path → Option Language) (context : Context)
    (world : World) (target : Target) : Prop :=
  ∃ text bundle language, inWorld world target.path = .ok text ∧
    bundleIn (inWorld world) .localized (context.recipe target.language) = .ok bundle ∧
    made target.path = some language ∧ (∃ file, planned file ⟨language, target.path⟩) ∧
    (text = bundle.text ↔ language = target.language) ∧
    (bundle.sources ≠ [] → language = target.language)

/-- A report stays true while the artifact and the inputs are kept. -/
theorem Reported.of_keeps {made : Path → Option Language}
    (h : Reported planned made context world target)
    (habsolute : target.path.isAbsolute) (hknown : Known input context target.language)
    (hartifact : Keeps (· = place target.path) world.tree after.tree)
    (hinputs : Keeps input world.tree after.tree) :
    Reported planned made context after target := by
  obtain ⟨text, bundle, language, hread, hbundle, hrest⟩ := h
  exact ⟨text, bundle, language, hartifact.reads habsolute rfl hread,
    hinputs.makes hknown hbundle, hrest⟩

/-- What is known of a target that was built: a bundle can be made, and the artifact has its
text. -/
def Filled (context : Context) (world : World) (target : Target) : Prop :=
  ∃ bundle, bundleIn (inWorld world) .localized (context.recipe target.language) = .ok bundle ∧
    inWorld world target.path = .ok bundle.text

/-- This stays true too while the artifact and the inputs are kept. -/
theorem Filled.of_keeps (h : Filled context world target) (habsolute : target.path.isAbsolute)
    (hknown : Known input context target.language)
    (hartifact : Keeps (· = place target.path) world.tree after.tree)
    (hinputs : Keeps input world.tree after.tree) : Filled context after target := by
  obtain ⟨bundle, hbundle, hread⟩ := h
  exact ⟨bundle, hinputs.makes hknown hbundle, hartifact.reads habsolute rfl hread⟩

/-! ## The turns of a build -/

/-- What the targets of one build have in common. -/
structure Course (planned : Path → Target → Prop) (input : Location → Prop) (file : Path)
    (context : Context) (targets : List Target) : Prop where
  /-- The build may make them, and keeps their records in its ledger. -/
  isPlanned : ∀ target ∈ targets, planned file target
  /-- What goes into their bundles is known. -/
  isKnown : ∀ target ∈ targets, Known input context target.language
  /-- Their templates are compiled with the layers of a build. -/
  layers : context.compactor = .localized
  /-- Their paths differ. -/
  nodup : (targets.map (·.path)).Nodup
  /-- None of them is the neighbour of one of them. -/
  apart : ∀ target ∈ targets, ∀ other ∈ targets,
    place (neighbour target.path) ≠ place other.path

/-- What is kept up from the start of a build, when some turns are done. -/
structure Progress (planned : Path → Target → Prop) (input : Location → Prop)
    (seen : FileTree → Prop) (made : Path → Option Language) (context : Context) (start : World)
    (done : List Turn) (now : World) : Prop where
  /-- Folders are kept. -/
  folder : ∀ location, start.tree.get? location = some .folder →
    now.tree.get? location = some .folder
  /-- Ledgers are as they were. -/
  ledgers : ∀ file target, planned file target → ledgerIn now.tree file = ledgerIn start.tree file
  /-- Records of the ledgers are accounted for unless there are new ones. -/
  old : ∀ file target record, planned file target →
    (ledgerIn start.tree file).get? target.path = some record →
    (∀ turn ∈ done, turn.1.path = target.path → turn.2.2 = none) →
    Accounted planned input seen made now.tree target.path record
  /-- New records are vouched for. -/
  new : ∀ turn ∈ done, ∀ record, turn.2.2 = some record →
    Vouched planned input seen now.tree turn.1.path turn.1.language record
  /-- Targets that were built have new records, and only they. -/
  recorded : ∀ turn ∈ done, turn.2.2.isSome = isBuilt turn.2.1
  /-- What is known of targets that are up to date. -/
  reported : ∀ turn ∈ done, turn.2.1 = .upToDate → Reported planned made context now turn.1
  /-- What is known of targets that were built. -/
  filled : ∀ turn ∈ done, isBuilt turn.2.1 → Filled context now turn.1

section Turns

variable {made : Path → Option Language} {start now : World} {done : List Turn} {file : Path}
  {targets : List Target}

theorem Progress.of_start (h : ∀ file target record, planned file target →
    (ledgerIn start.tree file).get? target.path = some record →
    Accounted planned input seen made start.tree target.path record) :
    Progress planned input seen made context start [] start := by
  refine ⟨fun location hfolder => hfolder, fun file target _ => rfl, ?_, nofun, nofun, nofun,
    nofun⟩
  exact fun file target record htarget hrecord _ => h file target record htarget hrecord

theorem keeps_inputs (hlayout : Layout planned input) (hplanned : planned file target)
    (hending : Ending context target old now (outcome, record) tree) :
    Keeps input now.tree tree := by
  refine keeps_of_ending hending fun location hlocation => ?_
  obtain ⟨hplace, hspare, -⟩ := hlayout.inputApart hlocation hplanned
  exact ⟨hplace, hspare⟩

/-- A target that was built has a record, which is vouched for. -/
theorem vouched_of_built (hcourse : Course planned input file context targets)
    (hlayout : Layout planned input) (htarget : target ∈ targets) (hseen : seen tree)
    (hending : Ending context target old now (outcome, record) tree) (hbuilt : isBuilt outcome) :
    ∃ taken, record = some taken ∧
      Vouched planned input seen tree target.path target.language taken := by
  have hplanned := hcourse.isPlanned target htarget
  have hknown := hcourse.isKnown target htarget
  have hkeeps := keeps_inputs hlayout hplanned hending
  cases hending with
  | upToDate hold hexists hfresh => cases hbuilt
  | failed heffect => cases hbuilt
  | @built bundle after hbundle hwritten =>
      have hagain := hkeeps.makes hknown hbundle
      have hsources := Bundle.sources_of_bundleIn hbundle
      have habsolute : ∀ path ∈ context.inputs target.language, path.isAbsolute :=
        fun path hpath => (hknown.isInput path hpath).1
      obtain ⟨taken, htaken⟩ := Context.exists_recordIn habsolute hagain
      refine ⟨taken, ?_, bundle.text, ?_, ?_⟩
      · rw [hsources]
        exact htaken
      · exact .intro hseen hknown htaken hagain
      · exact ⟨hwritten.notOnWay rfl, .inl (hwritten.held rfl)⟩

theorem filled_of_built (hcourse : Course planned input file context targets)
    (hlayout : Layout planned input) (htarget : target ∈ targets)
    (hending : Ending context target old now (outcome, record) after.tree)
    (hbuilt : isBuilt outcome) : Filled context after target := by
  have hplanned := hcourse.isPlanned target htarget
  have hkeeps := keeps_inputs hlayout hplanned hending
  generalize htree : after.tree = tree at hending
  cases hending with
  | upToDate hold hexists hfresh => cases hbuilt
  | failed heffect => cases hbuilt
  | @built bundle later hbundle hwritten =>
      obtain ⟨mtime, hheld⟩ := hwritten.held rfl
      refine ⟨bundle, hkeeps.makes (hcourse.isKnown target htarget) hbundle, ?_⟩
      refine (readText_eq_ok (hlayout.isAbsolute hplanned).2).2 ⟨?_, bundle.text.toUTF8, mtime, ?_,
        fromUTF8?_toUTF8 bundle.text⟩
      · rw [htree]
        exact hwritten.leads rfl
      · rw [htree]
        exact hheld

theorem isSome_of_ending (hcourse : Course planned input file context targets)
    (hlayout : Layout planned input) (htarget : target ∈ targets) (hseen : seen tree)
    (hending : Ending context target old now (outcome, record) tree) :
    record.isSome = isBuilt outcome := by
  by_cases hbuilt : isBuilt outcome
  · obtain ⟨taken, rfl, -⟩ := vouched_of_built hcourse hlayout htarget hseen hending hbuilt
    rw [hbuilt]
    rfl
  · rw [record_of_ending hending hbuilt]
    exact (Bool.eq_false_iff.2 hbuilt).symm

/-- A record that a turn leaves is vouched for. -/
theorem vouched_of_ending (hcourse : Course planned input file context targets)
    (hlayout : Layout planned input) (htarget : target ∈ targets) (hseen : seen tree)
    (hending : Ending context target old now (outcome, record) tree) {taken : Record}
    (htaken : record = some taken) :
    Vouched planned input seen tree target.path target.language taken := by
  have hbuilt : isBuilt outcome := by
    rw [← isSome_of_ending hcourse hlayout htarget hseen hending, htaken]
    rfl
  obtain ⟨taken', htaken', hvouched⟩ :=
    vouched_of_built hcourse hlayout htarget hseen hending hbuilt
  cases htaken'.symm.trans htaken
  exact hvouched

/-- A target that is found to be up to date is reported as such. -/
theorem reported_of_upToDate (hcourse : Course planned input file context targets)
    (hlayout : Layout planned input)
    (hdetermined : ∀ location, input location → Determined seen location)
    (hprogress : Progress planned input seen made context start done now)
    (htarget : target ∈ targets) (hseen : seen now.tree) (hnew : target.path ∉ done.map (·.1.path))
    {stored : Record}
    (hstored : (ledgerIn start.tree file).get? target.path = some stored)
    (hexists : Context.existsIn now target.path)
    (hfresh : isFreshIn now context target.language stored) :
    Reported planned made context now target := by
  have hplanned := hcourse.isPlanned target htarget
  have haccounted := hprogress.old file target stored hplanned hstored ?_
  · obtain ⟨language, hmade, ⟨file', hfile'⟩, text, horigin, -, hentry⟩ := haccounted
    have habsolute := (hlayout.isAbsolute hplanned).2
    obtain ⟨bundle, hbundle, htext⟩ := horigin.compare hdetermined (hlayout.isRead hfile')
      (hlayout.isRead hplanned) hseen (hcourse.isKnown target htarget) hfresh
    refine ⟨text, bundle, language, ?_, hbundle, hmade, ⟨file', hfile'⟩, htext⟩
    unfold Context.existsIn at hexists
    obtain ⟨stat, hstat⟩ : ∃ stat, now.tree.stat now.current target.path = .ok stat := by
      cases hstat : now.tree.stat now.current target.path with
      | error failure =>
          rw [hstat] at hexists
          cases hexists
      | ok stat => exact ⟨stat, rfl⟩
    obtain ⟨hleads, entry, hthere, -⟩ := (stat_eq_ok habsolute).1 hstat
    rcases hentry with ⟨mtime, hfile⟩ | ⟨hnone, -⟩
    · exact (readText_eq_ok habsolute).2
        ⟨hleads, text.toUTF8, mtime, hfile, fromUTF8?_toUTF8 text⟩
    · rw [hnone] at hthere
      cases hthere
  · intro turn hturn hpath
    exact absurd (List.mem_map.2 ⟨turn, hturn, hpath⟩) hnew

theorem reported_of_ending (hcourse : Course planned input file context targets)
    (hlayout : Layout planned input)
    (hdetermined : ∀ location, input location → Determined seen location)
    (hprogress : Progress planned input seen made context start done now)
    (htarget : target ∈ targets) (hseen : seen now.tree) (hnew : target.path ∉ done.map (·.1.path))
    (habsolute : file.isAbsolute)
    (hending : Ending context target ((loadedIn start file).get? target.path) now
      (outcome, record) after.tree)
    (hupToDate : outcome = .upToDate) : Reported planned made context after target := by
  have hplanned := hcourse.isPlanned target htarget
  obtain ⟨stored, hstored, hexists, hfresh, htree⟩ := upToDate_of_ending hending hupToDate
  have hreported := reported_of_upToDate hcourse hlayout hdetermined hprogress htarget hseen hnew
    (get?_loadedIn habsolute hstored) hexists hfresh
  have hartifact : Keeps (· = place target.path) now.tree after.tree := by
    rw [htree]
    exact .refl _ _
  exact hreported.of_keeps (hlayout.isAbsolute hplanned).2 (hcourse.isKnown target htarget)
    hartifact (keeps_inputs hlayout hplanned hending)

/-- The turn of a target keeps the artifacts of the others. -/
theorem keeps_artifact (hcourse : Course planned input file context targets)
    (hlayout : Layout planned input) (htarget : target ∈ targets) {other : Target}
    (hother : other ∈ targets) (hne : other.path ≠ target.path)
    (hending : Ending context target old now (outcome, record) tree) :
    Keeps (· = place other.path) now.tree tree := by
  refine keeps_of_ending hending fun location hlocation => ?_
  rw [hlocation]
  exact ⟨hlayout.place_ne (hcourse.isPlanned other hother) (hcourse.isPlanned target htarget) hne,
    (hcourse.apart target htarget other hother).symm⟩

/-- The turn of a target keeps a record vouched for if the artifact has not been built anew. -/
theorem Vouched.of_ending {language : Language} {stored : Record} {file' : Path} {other : Target}
    (h : Vouched planned input seen now.tree other.path language stored)
    (hlayout : Layout planned input) (hplanned : planned file target)
    (hplanned' : planned file' other) (hbuilt : isBuilt outcome → other.path ≠ target.path)
    (hending : Ending context target old now (outcome, record) tree) :
    Vouched planned input seen tree other.path language stored :=
  h.of_sideEffect hplanned (hlayout.neighbourClear hplanned hplanned')
    (sideEffect_of_ending hending fun hnew => hlayout.place_ne hplanned' hplanned (hbuilt hnew))

/-- **One turn.**  The turn of a target that has not had one keeps up what is kept up. -/
theorem Progress.step (hcourse : Course planned input file context targets)
    (hlayout : Layout planned input)
    (hdetermined : ∀ location, input location → Determined seen location)
    (hprogress : Progress planned input seen made context start done now)
    (hdone : ∀ turn ∈ done, turn.1 ∈ targets) (htarget : target ∈ targets)
    (hnew : target.path ∉ done.map (·.1.path)) (hseen : seen now.tree)
    (hseen' : seen after.tree) (habsolute : file.isAbsolute)
    (hending : Ending context target ((loadedIn start file).get? target.path) now
      (outcome, record) after.tree) :
    Progress planned input seen made context start (done ++ [(target, outcome, record)]) after := by
  have hplanned := hcourse.isPlanned target htarget
  have hrecorded := isSome_of_ending hcourse hlayout htarget hseen' hending
  have hinputs := keeps_inputs hlayout hplanned hending
  have hdiffer : ∀ turn ∈ done, turn.1.path ≠ target.path := by
    intro turn hturn heq
    exact hnew (List.mem_map.2 ⟨turn, hturn, heq⟩)
  have hartifacts : ∀ turn ∈ done, Keeps (· = place turn.1.path) now.tree after.tree :=
    fun turn hturn =>
      keeps_artifact hcourse hlayout htarget (hdone turn hturn) (hdiffer turn hturn) hending
  -- the fields about turns: those before stay as they were, and the last one ends as it does
  refine ⟨?folder, ?ledgers, ?old, List.forall_mem_append.2 ⟨?new, List.forall_mem_singleton.2 ?_⟩,
    List.forall_mem_append.2 ⟨hprogress.recorded, List.forall_mem_singleton.2 hrecorded⟩,
    List.forall_mem_append.2 ⟨?reported, List.forall_mem_singleton.2 ?_⟩,
    List.forall_mem_append.2 ⟨?filled, List.forall_mem_singleton.2 ?_⟩⟩
  case folder =>
    exact fun location hfolder => folder_of_ending hending (hprogress.folder location hfolder)
  case ledgers =>
    intro file' target' hplanned'
    obtain ⟨hplace, hspare⟩ := hlayout.ledgerApart hplanned' hplanned
    rw [ledgerIn_of_ending hending hplace hspare]
    exact hprogress.ledgers file' target' hplanned'
  case old =>
    intro file' target' stored hplanned' hstored hnone
    have hlast : target.path = target'.path → record = none :=
      hnone (target, outcome, record) (by simp)
    obtain ⟨language, hmade, hfile, hvouched⟩ := hprogress.old file' target' stored hplanned'
      hstored fun turn hturn => hnone turn (by simp [hturn])
    refine ⟨language, hmade, hfile,
      hvouched.of_ending hlayout hplanned hplanned' (fun hbuilt hpath => ?_) hending⟩
    rw [hlast hpath.symm, hbuilt] at hrecorded
    cases hrecorded
  case new =>
    intro turn hturn taken htaken
    exact (hprogress.new turn hturn taken htaken).of_ending hlayout hplanned
      (hcourse.isPlanned turn.1 (hdone turn hturn)) (fun _ => hdiffer turn hturn) hending
  case reported =>
    intro turn hturn hupToDate
    have hturn' := hdone turn hturn
    exact (hprogress.reported turn hturn hupToDate).of_keeps
      (hlayout.isAbsolute (hcourse.isPlanned _ hturn')).2 (hcourse.isKnown _ hturn')
      (hartifacts turn hturn) hinputs
  case filled =>
    intro turn hturn hbuilt
    have hturn' := hdone turn hturn
    exact (hprogress.filled turn hturn hbuilt).of_keeps
      (hlayout.isAbsolute (hcourse.isPlanned _ hturn')).2 (hcourse.isKnown _ hturn')
      (hartifacts turn hturn) hinputs
  · exact fun taken htaken => vouched_of_ending hcourse hlayout htarget hseen' hending htaken
  · exact reported_of_ending hcourse hlayout hdetermined hprogress htarget hseen hnew habsolute
      hending
  · exact filled_of_built hcourse hlayout htarget hending

/-- The world is seen before the first turn and after each of them. -/
def SeenThrough (seen : FileTree → Prop) (context : Context) (ledger : Ledger) :
    List Target → World → Prop
  | [], world => seen world.tree
  | target :: targets, world => seen world.tree ∧ SeenThrough seen context ledger targets
      (world.run (context.buildTarget target (ledger.get? target.path))).2

instance SeenThrough.decidable {seen : FileTree → Prop} [DecidablePred seen] (context : Context)
    (ledger : Ledger) : (targets : List Target) → (world : World) →
      Decidable (SeenThrough seen context ledger targets world)
  | [], world => inferInstanceAs (Decidable (seen world.tree))
  | _ :: targets, _ =>
    have := @SeenThrough.decidable seen _ context ledger targets
    inferInstanceAs (Decidable (_ ∧ _))

/-- What a turn keeps of the trees that are seen, all turns do. -/
theorem SeenThrough.of_step {context : Context} {ledger : Ledger} {targets : List Target}
    {world : World} (hstart : seen world.tree)
    (hstep : ∀ target ∈ targets, ∀ now : World, seen now.tree →
      seen (now.run (context.buildTarget target (ledger.get? target.path))).2.tree) :
    SeenThrough seen context ledger targets world := by
  induction targets generalizing world with
  | nil => exact hstart
  | cons target targets ih =>
      refine ⟨hstart, ih (hstep target (by simp) world hstart) fun other hother => ?_⟩
      exact hstep other (by simp [hother])

theorem takeTurns_cons (context : Context) (ledger : Ledger) (target : Target)
    (targets : List Target) :
    takeTurns context ledger (target :: targets) =
      context.buildTarget target (ledger.get? target.path) >>= fun turn =>
        takeTurns context ledger targets >>= fun turns => pure ((target, turn) :: turns) := by
  unfold takeTurns
  rw [List.mapM_cons]
  simp only [bind_assoc, pure_bind]

theorem run_takeTurns_cons (context : Context) (ledger : Ledger) (target : Target)
    (targets : List Target) (world : World) :
    let turn := world.run (context.buildTarget target (ledger.get? target.path))
    world.run (takeTurns context ledger (target :: targets)) =
      ((target, turn.1) :: (turn.2.run (takeTurns context ledger targets)).1,
        (turn.2.run (takeTurns context ledger targets)).2) := by
  dsimp only
  rw [takeTurns_cons, World.run_bind, World.run_bind]
  rfl

/-- What every turn keeps up, all turns keep up. -/
theorem takeTurns_induct {P : World → Prop} {Q : Turn → Prop} {ledger : Ledger}
    (hstep : ∀ target ∈ targets, ∀ now, P now →
      P (now.run (context.buildTarget target (ledger.get? target.path))).2 ∧
        Q (target, (now.run (context.buildTarget target (ledger.get? target.path))).1))
    (hstart : P start) :
    P (start.run (takeTurns context ledger targets)).2 ∧
      ∀ turn ∈ (start.run (takeTurns context ledger targets)).1, Q turn := by
  induction targets generalizing start with
  | nil => exact ⟨hstart, fun turn hturn => nomatch hturn⟩
  | cons target targets ih =>
      obtain ⟨hnext, hturn⟩ := hstep target (by simp) start hstart
      obtain ⟨hlast, hturns⟩ := ih (fun other hother => hstep other (by simp [hother])) hnext
      rw [run_takeTurns_cons]
      refine ⟨hlast, fun turn hmem => ?_⟩
      rcases List.mem_cons.1 hmem with rfl | hmem
      · exact hturn
      · exact hturns turn hmem

/-- **All turns.**  By induction on the targets that are left. -/
theorem Progress.takeTurns {left : List Target}
    (hcourse : Course planned input file context targets)
    (hlayout : Layout planned input)
    (hdetermined : ∀ location, input location → Determined seen location)
    (habsolute : file.isAbsolute) (hleft : ∀ target ∈ left, target ∈ targets)
    (hdone : ∀ turn ∈ done, turn.1 ∈ targets)
    (hnodup : (done.map (·.1.path) ++ left.map (·.path)).Nodup)
    (hseen : SeenThrough seen context (loadedIn start file) left now)
    (hprogress : Progress planned input seen made context start done now) :
    let result := now.run (takeTurns context (loadedIn start file) left)
    result.1.map (·.1) = left ∧
      Progress planned input seen made context start (done ++ result.1) result.2 := by
  induction left generalizing done now with
  | nil =>
      refine ⟨rfl, ?_⟩
      show Progress planned input seen made context start (done ++ []) now
      rw [List.append_nil]
      exact hprogress
  | cons target left ih =>
      obtain ⟨hfirst, hrest⟩ := hseen
      have htarget := hleft target (by simp)
      have hplanned := hcourse.isPlanned target htarget
      obtain ⟨-, hending⟩ := Context.run_buildTarget now
        ((loadedIn start file).get? target.path) hcourse.layers (hlayout.isAbsolute hplanned).2
      have hlast : seen (now.run (context.buildTarget target
          ((loadedIn start file).get? target.path))).2.tree := by
        cases left with
        | nil => exact hrest
        | cons next left => exact hrest.1
      have hnew : target.path ∉ done.map (·.1.path) := by
        intro hmem
        exact (List.nodup_append.1 hnodup).2.2 _ hmem target.path (by simp) rfl
      have hstep := hprogress.step hcourse hlayout hdetermined hdone htarget hnew hfirst hlast
        habsolute hending
      rw [run_takeTurns_cons]
      generalize now.run (context.buildTarget target ((loadedIn start file).get? target.path)) =
        reply at hrest hstep ⊢
      obtain ⟨turn, after⟩ := reply
      have hdone' : ∀ turn' ∈ done ++ [(target, turn)], turn'.1 ∈ targets := by
        intro turn' hturn'
        rcases List.mem_append.1 hturn' with hturn' | hturn'
        · exact hdone turn' hturn'
        · rw [List.mem_singleton.1 hturn']
          exact htarget
      have hnodup' : ((done ++ [(target, turn)]).map (·.1.path) ++ left.map (·.path)).Nodup := by
        rw [List.map_append, List.append_assoc]
        exact hnodup
      obtain ⟨htargets, hlater⟩ :=
        ih (fun other hother => hleft other (by simp [hother])) hdone' hnodup' hrest hstep
      refine ⟨congrArg (target :: ·) htargets, ?_⟩
      rw [List.append_assoc] at hlater
      exact hlater

end Turns

end KeysetBundle.Build
