import KeysetBundle.Proofs.Artifact.Language
import KeysetBundle.Proofs.Build.Freshness
import KeysetBundle.Proofs.Scan

/-!
# Where records come from

A record that is kept was taken, in some world, of what went into a bundle that
could be made there (`Origin`).  When it is found to be fresh later on, a bundle
can be made again.  Whether it has the same text is decided by the languages:
the record does not know the language for which it was taken, and the paths of
the keyset files tell two languages apart only if there are any.

Main result.

- `Origin.compare`: a fresh record stands for the bundle of its own language
  only.
-/

namespace KeysetBundle.Build.Context

open KeysetBundle.Bundle (bundleIn classIn collectionIn inWorld)
open Files
open Freshness

/-! ## Keyset files of a language -/

/-- What a build knows of the files that go into a bundle: they come from a scan or from the
configuration, so that their paths are absolute, and they are among the inputs. -/
structure Known (input : Location → Prop) (context : Context) (language : Language) : Prop where
  /-- The directories come from a scan. -/
  isScanned : ∀ dir ∈ context.dirs, dir.IsScanned
  /-- The files are inputs. -/
  isInput : ∀ path ∈ context.inputs language, path.isAbsolute ∧ input (place path)

theorem isName_keysetFileName {language : Language} (h : language.IsRead) :
    Path.IsName language.keysetFileName := by
  have hslash : '/' ∉ language.tag.toList := by
    intro hmem
    exact absurd (Language.isTagChar_of_mem h hmem) (by decide)
  have hending : '/' ∉ (".js" : String).toList ∧ 2 < (".js" : String).toList.length := by decide
  exact Path.isName_append hslash hending.1 hending.2

theorem steps_of_mem_sources {context : Context} {language : Language} {path : Path}
    (hscanned : ∀ dir ∈ context.dirs, dir.IsScanned) (h : language.IsRead)
    (hpath : path ∈ (context.recipe language).sources) :
    ∃ steps, path.isAbsolute ∧ path.steps = steps ++ [.name language.keysetFileName] := by
  obtain ⟨file, hfile, rfl⟩ := List.mem_map.1 hpath
  obtain ⟨hmem, hname⟩ := List.mem_filter.1 hfile
  obtain ⟨dir, hdir, hmem⟩ := List.mem_flatMap.1 hmem
  have hfolder := (hscanned dir hdir).isAbsolute
  refine ⟨dir.path.steps, ?_, ?_⟩
  all_goals rw [(hscanned dir hdir).file file hmem, beq_iff_eq.1 hname]
  · exact Path.isAbsolute_joinText _ hfolder
  · exact Path.steps_joinText_of_isName hfolder (isName_keysetFileName h)

theorem place_of_mem_sources {context : Context} {language : Language} {path : Path}
    (hscanned : ∀ dir ∈ context.dirs, dir.IsScanned) (h : language.IsRead)
    (hpath : path ∈ (context.recipe language).sources) :
    ∃ folder, place path = folder ++ [language.keysetFileName] := by
  obtain ⟨steps, habsolute, hsteps⟩ := steps_of_mem_sources hscanned h hpath
  refine ⟨steps.foldl walk [], ?_⟩
  rw [place_eq habsolute, hsteps, List.foldl_append]
  rfl

/-- Keyset files that are the same are those of the same language. -/
theorem eq_of_same_source {context context' : Context} {language language' : Language}
    {path path' : Path} (hscanned : ∀ dir ∈ context.dirs, dir.IsScanned)
    (hscanned' : ∀ dir ∈ context'.dirs, dir.IsScanned) (h : language.IsRead)
    (h' : language'.IsRead) (hpath : path ∈ (context.recipe language).sources)
    (hpath' : path' ∈ (context'.recipe language').sources) (hsame : place path = place path') :
    language = language' := by
  obtain ⟨folder, hplace⟩ := place_of_mem_sources hscanned h hpath
  obtain ⟨folder', hplace'⟩ := place_of_mem_sources hscanned' h' hpath'
  rw [hplace, hplace'] at hsame
  have hname : language.keysetFileName = language'.keysetFileName :=
    (List.cons.inj (List.append_inj' hsame rfl).2).1
  exact Language.eq_of_tag h h' ((String.append_left_inj _).1 hname)

theorem holds_of_allHoldIn {world other : World} {paths paths' : List Path}
    {fingerprints : List Fingerprint} (hprints : paths.mapM (printIn world) = .ok fingerprints)
    (hholds : allHoldIn other fingerprints paths') :
    (paths = [] ∧ paths' = []) ∨
      ∃ path ∈ paths, ∃ path' ∈ paths', path.same path' := by
  cases paths with
  | nil =>
      cases hprints
      cases paths' with
      | nil => exact .inl ⟨rfl, rfl⟩
      | cons path' paths' => cases hholds
  | cons path paths =>
      obtain ⟨fingerprint, rest, hprint, -, rfl⟩ := mapM_cons_eq_ok.1 hprints
      cases paths' with
      | nil => cases hholds
      | cons path' paths' =>
          have hhead := (Bool.and_eq_true_iff.1 hholds).1
          obtain ⟨now, hnow, hsame⟩ := holdsIn_iff_printIn.1 hhead
          unfold Fingerprint.same at hsame
          rw [Bool.and_eq_true, Bool.and_eq_true, path_of_printIn hprint,
            path_of_printIn hnow] at hsame
          exact .inr ⟨path, by simp, path', by simp, hsame.1.1⟩

/-! ## Bundles without keyset files -/

theorem bundleIn_of_no_sources {read : Bundle.Reader} {compactor : Template.Compactor}
    {recipe : Bundle.Recipe} (hsources : recipe.sources = []) {classSource : String}
    (hclass : classIn read recipe.runtime = .ok classSource) :
    ∃ bundle, bundleIn read compactor recipe = .ok bundle ∧
      bundle.text = Artifact.generate recipe.language classSource [] recipe.moduleName := by
  refine ⟨_, Bundle.bundleIn_eq_ok.2 ⟨classSource, [], hclass, ?_, rfl⟩, rfl⟩
  rw [hsources]
  rfl

/-- Without keyset files the text of a bundle tells its language. -/
theorem language_of_text {read : Bundle.Reader} {compactor : Template.Compactor}
    {recipe recipe' : Bundle.Recipe} {bundle bundle' : Bundle} (hempty : recipe.sources = [])
    (hempty' : recipe'.sources = []) (hruntime : recipe.runtime = recipe'.runtime)
    (hmodule : recipe.moduleName = recipe'.moduleName) (hread : recipe.language.IsRead)
    (hread' : recipe'.language.IsRead) (h : bundleIn read compactor recipe = .ok bundle)
    (h' : bundleIn read compactor recipe' = .ok bundle') (htext : bundle.text = bundle'.text) :
    recipe.language = recipe'.language := by
  obtain ⟨classSource, -, hclass, -⟩ := Bundle.bundleIn_eq_ok.1 h
  obtain ⟨made, hmade, hgenerated⟩ := bundleIn_of_no_sources hempty hclass
  rw [hruntime] at hclass
  obtain ⟨made', hmade', hgenerated'⟩ := bundleIn_of_no_sources hempty' hclass
  rw [h] at hmade
  rw [h'] at hmade'
  cases hmade
  cases hmade'
  rw [hgenerated, hgenerated', hmodule] at htext
  exact Artifact.language_of_generate hread hread' htext

/-! ## Origins -/

/-- Where a record and a text come from: in a tree that was seen, a bundle with the text could be
made for a language, and the record was taken of what went into it. -/
inductive Origin (seen : FileTree → Prop) (input : Location → Prop) (language : Language)
    (record : Record) : String → Prop
  /-- The world of the bundle and the build that made it. -/
  | intro {world : World} {context : Context} {bundle : Bundle} (hseen : seen world.tree)
    (hknown : Known input context language)
    (hrecord : recordIn world context (context.recipe language).sources = some record)
    (hbundle : bundleIn (inWorld world) .localized (context.recipe language) = .ok bundle) :
    Origin seen input language record bundle.text

/-- **What a fresh record stands for.**  A bundle can be made for every language for which the
record is found to be fresh, but the text of the record is that of its own language. If there are
any keyset files, that is the only language. -/
theorem Origin.compare {seen : FileTree → Prop} {input : Location → Prop} {record : Record}
    {language language' : Language} {text : String} {other : World} {context' : Context}
    (h : Origin seen input language record text)
    (hdetermined : ∀ location, input location → Determined seen location)
    (hread : language.IsRead) (hread' : language'.IsRead) (hseen' : seen other.tree)
    (hknown' : Known input context' language')
    (hfresh : isFreshIn other context' language' record) :
    ∃ bundle, bundleIn (inWorld other) .localized (context'.recipe language') = .ok bundle ∧
      (text = bundle.text ↔ language = language') ∧
      (bundle.sources ≠ [] → language = language') := by
  obtain ⟨hseen, hknown, hrecord, hbundle⟩ := h
  rename_i world context bundle
  have hinputs : ∀ path ∈ context.inputs language,
      path.isAbsolute ∧ Determined seen (place path) := by
    intro path hpath
    obtain ⟨habsolute, hinput⟩ := hknown.isInput path hpath
    exact ⟨habsolute, hdetermined _ hinput⟩
  by_cases hlanguage : language = language'
  · subst hlanguage
    refine ⟨_, bundleIn_of_isFresh hinputs (fun path hpath => (hknown'.isInput path hpath).1)
      hseen hseen' hrecord hbundle hfresh, ?_⟩
    exact ⟨⟨fun _ => rfl, fun _ => rfl⟩, fun _ => rfl⟩
  · obtain ⟨fingerprints, hprints, hholds⟩ := sources_of_isFresh hrecord hfresh
    -- the paths of keyset files would tell the languages apart
    have hempty : (context.recipe language).sources = [] ∧
        (context'.recipe language').sources = [] := by
      rcases holds_of_allHoldIn hprints hholds with hempty | ⟨path, hpath, path', hpath', hsame⟩
      · exact hempty
      · exact absurd (eq_of_same_source hknown.isScanned hknown'.isScanned hread hread' hpath
          hpath' (place_eq_of_same hsame)) hlanguage
    obtain ⟨classSource, notes, collections, hclass, hvouches⟩ :=
      vouches_of_recordIn hseen hrecord hbundle
    obtain ⟨-, hmodule⟩ := settings_of_isFresh hvouches.settings hfresh
    have hclass' := hvouches.classIn hinputs hseen' hfresh
    obtain ⟨made, hmade, htext⟩ := bundleIn_of_no_sources hempty.1 hclass
    obtain ⟨made', hmade', htext'⟩ := bundleIn_of_no_sources hempty.2 hclass'
    rw [hbundle] at hmade
    cases hmade
    refine ⟨made', hmade', ⟨?_, ?_⟩, ?_⟩
    · intro heq
      rw [htext, htext'] at heq
      change Artifact.generate language classSource [] context.moduleName =
        Artifact.generate language' classSource [] context'.moduleName at heq
      rw [← hmodule] at heq
      exact Artifact.language_of_generate hread hread' heq
    · intro heq
      exact absurd heq hlanguage
    · intro hsources
      rw [Bundle.sources_of_bundleIn hmade'] at hsources
      exact absurd hempty.2 hsources

end KeysetBundle.Build.Context
