import KeysetBundle.Bundle
import KeysetBundle.Files.Shelf
import KeysetBundle.Proofs.Collection.Compiled
import KeysetBundle.Proofs.Files.Program
import KeysetBundle.Proofs.Text.ByteOrder

/-!
# What a bundle holds

A bundle is made on a host, which may be anything that answers requests.  The
keyset files of the language are loaded one after the other (`Loads`), and the
bundle depends on nothing but the collections they give and the text of the
runtime class.

Main results.

- `make_eq_ok`: a bundle is made exactly if the files load, the runtime class
  can be read and the merge compiles.
- `make_contents`: what a bundle registers, in which order and with which
  expressions, and which changes leave it as it is.
-/

namespace KeysetBundle.Bundle

open Files Template
open KeysetBundle.Collection (definedKeys lastValue? outline)
open KeysetBundle.Script (Node SyntaxError checkModule checkModule_of_checkAll exportsOf parseItems)
open KeysetBundle.Text (bytes)

section Loading

variable {σ : Type} (answer : (request : Request) → σ → request.Answer × σ)

/-- Paths are loaded one after the other, and each of them gives a collection. -/
inductive Loads : List Path → σ → List Collection → σ → Prop
  /-- Nothing is loaded. -/
  | nil (state : σ) : Loads [] state [] state
  /-- A file is loaded before the others. -/
  | cons {path : Path} {paths : List Path} {collection : Collection}
      {collections : List Collection} {first second last : σ}
      (head : (loadFile path).run answer first = (.ok collection, second))
      (tail : Loads paths second collections last) :
      Loads (path :: paths) first (collection :: collections) last

variable {answer}

theorem Loads.run_loadFiles {paths : List Path} {collections : List Collection} {first last : σ}
    (h : Loads answer paths first collections last) :
    (loadFiles paths).run answer first = (.ok collections, last) := by
  induction h with
  | nil state => rfl
  | cons head tail ih =>
      rw [loadFiles, Program.run_bind_do, head]
      show ((loadFiles _ >>= _).run answer _) = _
      rw [Program.run_bind_do, ih]
      rfl

theorem loads_of_run {paths : List Path} {collections : List Collection} {first last : σ}
    (h : (loadFiles paths).run answer first = (.ok collections, last)) :
    Loads answer paths first collections last := by
  induction paths generalizing first collections with
  | nil =>
      cases h
      exact .nil _
  | cons path paths ih =>
      rw [loadFiles, Program.run_bind_do] at h
      generalize hhead : (loadFile path).run answer first = reply at h
      obtain ⟨loaded, second⟩ := reply
      cases loaded with
      | error cause => cases h
      | ok collection =>
          change ((loadFiles paths >>= _).run answer second) = _ at h
          rw [Program.run_bind_do] at h
          generalize htail : (loadFiles paths).run answer second = reply at h
          obtain ⟨loaded, third⟩ := reply
          cases loaded with
          | error cause => cases h
          | ok rest =>
              cases h
              exact .cons hhead (ih htail)

/-- A bundle is made exactly if the runtime class is read, the keyset files
load, and their merge compiles. -/
theorem make_eq_ok {compactor : Compactor} {recipe : Recipe} {bundle : Bundle}
    {first last : σ} :
    (make compactor recipe).run answer first = (.ok bundle, last) ↔
      ∃ classSource collections second,
        recipe.runtime.read.run answer first = (.ok classSource, second) ∧
        Loads answer recipe.sources second collections last ∧
        ofCollections compactor recipe classSource collections = .ok bundle := by
  unfold make
  rw [Program.run_bind_do]
  generalize hread : recipe.runtime.read.run answer first = reply
  obtain ⟨source, second⟩ := reply
  show ((loadFiles recipe.sources >>= _).run answer second) = _ ↔ _
  rw [Program.run_bind_do]
  generalize hload : (loadFiles recipe.sources).run answer second = reply
  obtain ⟨loaded, third⟩ := reply
  constructor
  · intro h
    cases loaded with
    | error cause => cases h
    | ok collections =>
        cases source with
        | error cause => cases h
        | ok classSource =>
            refine ⟨classSource, collections, second, rfl, ?_⟩
            simp only at h
            split at h
            · cases h
            · rename_i made hmade
              cases h
              exact ⟨loads_of_run hload, hmade⟩
  · rintro ⟨classSource, collections, state, hsource, hloads, hmade⟩
    cases hsource
    have hrun := hloads.run_loadFiles
    rw [hload] at hrun
    cases hrun
    simp only [hmade]
    rfl

end Loading

/-- The parts of a bundle that is made of collections. -/
theorem ofCollections_eq_ok {compactor : Compactor} {recipe : Recipe} {classSource : String}
    {collections : List Collection} {bundle : Bundle}
    (h : ofCollections compactor recipe classSource collections = .ok bundle) :
    ∃ keysets, (Collection.merge collections).compile compactor = .ok keysets ∧
      bundle.text =
        Artifact.generate recipe.language classSource keysets recipe.moduleName ∧
      bundle.sources = recipe.sources ∧ bundle.keysetCount = keysets.length ∧
      bundle.keyCount = (Collection.merge collections).keyCount := by
  obtain ⟨keysets, hkeysets, hbundle⟩ := bind_eq_ok.1 h
  cases hbundle
  exact ⟨keysets, hkeysets, rfl, rfl, rfl, rfl⟩

theorem length_entryLines (entries : List (String × String)) :
    (Artifact.entryLines entries).length = entries.length := by
  fun_induction Artifact.entryLines entries with
  | case1 => rfl
  | case2 => rfl
  | case3 entry rest _ ih => rw [List.length_cons, List.length_cons, ih]

/-- **What a bundle holds.**  The keyset files of the language, loaded in the
order of their directories, give collections, and the bundle is the artifact
of compiled keysets.

* The names of these keysets are those that the collections define, each once,
  in ascending order of their bytes.
* The keys of a keyset are those that the collections define in it, each once:
  array indices by their numbers, then the others in the order in which the
  collections first list them.
* The expression of a key is that of the template which the last collection
  gives to the key.
* The counts are those of the registrations and of the lines of keys.
* Any other host, with whatever other files, makes the same bundle if the same
  files load there to collections that list the same keys and have the same
  last templates. -/
theorem make_contents {σ : Type} {answer : (request : Request) → σ → request.Answer × σ}
    {compactor : Compactor} {recipe : Recipe} {bundle : Bundle} {first last : σ}
    (h : (make compactor recipe).run answer first = (.ok bundle, last)) :
    ∃ (classSource : String) (collections : List Collection) (keysets : List CompiledKeyset)
      (second : σ),
      recipe.runtime.read.run answer first = (.ok classSource, second) ∧
      Loads answer (selectFiles recipe.dirs recipe.language) second collections last ∧
      bundle.text = Artifact.generate recipe.language classSource keysets recipe.moduleName ∧
      bundle.sources = selectFiles recipe.dirs recipe.language ∧
      ((keysets.map (·.name)).Pairwise fun name later => bytes name < bytes later) ∧
      (∀ name, name ∈ keysets.map (·.name) ↔
        ∃ collection ∈ collections, (collection.get? name).isSome) ∧
      (∀ keyset ∈ keysets,
        (keyset.entries.map Prod.fst).Nodup ∧
        Keyset.PropertyOrder (definedKeys collections keyset.name)
          (keyset.entries.map Prod.fst) ∧
        ∀ entry ∈ keyset.entries, ∃ template,
          lastValue? collections keyset.name entry.1 = some template ∧
            compactor.compact template = .ok entry.2) ∧
      bundle.keysetCount = (keysets.map Artifact.registration).length ∧
      bundle.keyCount =
        (keysets.map fun keyset => (Artifact.entryLines keyset.entries).length).sum ∧
      ∀ {τ : Type} (other : (request : Request) → τ → request.Answer × τ) (recipe' : Recipe)
        (collections' : List Collection) (first' second' last' : τ),
        recipe'.language = recipe.language → recipe'.moduleName = recipe.moduleName →
        selectFiles recipe'.dirs recipe'.language = selectFiles recipe.dirs recipe.language →
        recipe'.runtime.read.run other first' = (.ok classSource, second') →
        Loads other (selectFiles recipe'.dirs recipe'.language) second' collections' last' →
        collections'.map outline = collections.map outline →
        (∀ name key, lastValue? collections' name key = lastValue? collections name key) →
        (make compactor recipe').run other first' = (.ok bundle, last') := by
  obtain ⟨classSource, collections, second, hread, hloads, hmade⟩ := make_eq_ok.1 h
  obtain ⟨keysets, hkeysets, htext, hsources, hcount, hkeyCount⟩ := ofCollections_eq_ok hmade
  have hnames := Collection.names_compile hkeysets
  refine ⟨classSource, collections, keysets, second, hread, hloads, htext, hsources, ?_, ?_, ?_,
    ?_, ?_, ?_⟩
  · rw [hnames, List.pairwise_map]
    exact (Collection.merge collections).ascending.imp fun hlt => Text.bytes_lt_of_lt hlt
  · intro name
    rw [hnames, ← Dictionary.get?_isSome_iff_mem]
    exact Collection.get?_merge_isSome
  · intro compiled hcompiled
    obtain ⟨keyset, hkeyset, hkeys, hentries⟩ :=
      Collection.mem_compile hkeysets compiled hcompiled
    rw [hkeys]
    refine ⟨keyset.nodup_keys, Collection.propertyOrder_get?_merge hkeyset, ?_⟩
    intro entry hentry
    obtain ⟨template, htemplate, hexpression⟩ := hentries entry hentry
    rw [Collection.get?_get?_merge hkeyset] at htemplate
    exact ⟨template, htemplate, hexpression⟩
  · rw [hcount, List.length_map]
  · rw [hkeyCount, Collection.keyCount_compile hkeysets]
    congr 2
    funext keyset
    exact (length_entryLines keyset.entries).symm
  · intro τ other recipe' collections' first' second' last' hlanguage hmodule hselect hread'
      hloads' houtline hlast
    have hmerge := Collection.merge_congr houtline hlast
    have hsame : ofCollections compactor recipe' classSource collections' = .ok bundle := by
      rw [← hmade]
      unfold ofCollections Recipe.sources
      rw [hmerge, hselect, hlanguage, hmodule]
    exact make_eq_ok.2 ⟨classSource, collections', second', hread', hloads', hsame⟩

/-! ## A bundle of one file -/

/-- The text of a keyset file. -/
def sampleSource : String := "module.exports = \x7bk: \x7ba: 'x'\x7d\x7d"

/-- The collection that the file exports. -/
def sampleCollection : Collection := Dictionary.ofList [("k", .ofList [("a", "x")])]

/-- The items of the file. -/
def sampleItems : List Node :=
  [.form 1 .expressionStatement
    [.assign 1 (.member 1 (.name 1 "module") "exports")
      (.object 1 [.property 1 (.name 1 "k")
        (.object 1 [.property 1 (.name 1 "a") (.text 1 [120])])])]]

/-- Whether a source was read as these items. -/
def isSample : Except SyntaxError (List Node) → Bool
  | .ok [.form 1 .expressionStatement
      [.assign 1 (.member 1 (.name 1 "module") "exports")
        (.object 1 [.property 1 (.name 1 "k")
          (.object 1 [.property 1 (.name 1 "a") (.text 1 [120])])])]] => true
  | _ => false

theorem eq_of_isSample {parsed : Except SyntaxError (List Node)} (h : isSample parsed) :
    parsed = .ok sampleItems := by
  unfold isSample at h
  split at h
  · rfl
  · cases h

theorem ofSource_sampleSource (path : Path) :
    Collection.ofSource sampleSource path = .ok sampleCollection := by
  have hitems : parseItems sampleSource.toList = .ok sampleItems :=
    eq_of_isSample (by decide +kernel)
  have hparse : Script.parse sampleSource = .ok sampleItems :=
    Script.parse_eq_ok hitems (checkModule_of_checkAll rfl rfl rfl (by cbv))
  have hexports : exportsOf sampleItems = .ok (some sampleCollection) := by decide +kernel
  rw [Collection.ofSource_eq hparse, hexports]

/-- A shelf with the file, and with one of another language. -/
def sampleShelf : Shelf := ⟨[(⟨"a/all.js"⟩, sampleSource), (⟨"a/ru.js"⟩, "?")], []⟩

def sampleRecipe : Recipe := ⟨.all, [.ofNames ⟨"a"⟩ ["all.js", "ru.js"]], .bundled, "m"⟩

def sampleBundle : Bundle where
  text := "\ni18n.add('k', \x7b\n    \"a\": \"x\"\n\x7d);\n"
  sources := [⟨"a/all.js"⟩]
  keysetCount := 1
  keyCount := 1

/-- A file is loaded from a shelf as it stands there. -/
theorem run_loadFile_shelf (shelf : Shelf) (path : Path) :
    (loadFile path).run Shelf.answer shelf =
      (match shelf.text path with
        | .error failure => .error (.read path failure)
        | .ok source => Collection.ofSource source path,
        { shelf with dropped := shelf.dropped ++ [path] }) := by
  unfold loadFile
  rw [Program.run_bind_do, run_dropModule, Program.run_bind_do, run_readModule]
  have htext : Shelf.text { shelf with dropped := shelf.dropped ++ [path] } path =
      shelf.text path := rfl
  simp only [Shelf.answer, htext]
  cases shelf.text path <;> rfl

/-- The bundle of the shelf. -/
theorem make_sample :
    (make .localized sampleRecipe).run Shelf.answer sampleShelf =
      (.ok sampleBundle, { sampleShelf with dropped := [⟨"a/all.js"⟩] }) := by
  have hselect : sampleRecipe.sources = [⟨"a/all.js"⟩] := by decide +kernel
  have htext : sampleShelf.text ⟨"a/all.js"⟩ = .ok sampleSource := by decide +kernel
  have hload : (loadFile ⟨"a/all.js"⟩).run Shelf.answer sampleShelf =
      (.ok sampleCollection, { sampleShelf with dropped := [⟨"a/all.js"⟩] }) := by
    rw [run_loadFile_shelf, htext, ← ofSource_sampleSource ⟨"a/all.js"⟩]
    rfl
  refine make_eq_ok.2 ⟨Artifact.bundledClass, [sampleCollection], sampleShelf, rfl, ?_, ?_⟩
  · rw [hselect]
    exact .cons hload (.nil _)
  · decide +kernel

/-- On a shelf with one file of the language the bundle registers its keyset. -/
theorem make_contents_sample :
    ∃ (collections : List Collection) (keysets : List CompiledKeyset),
      sampleBundle.text = Artifact.generate .all Artifact.bundledClass keysets "m" ∧
      (∀ name, name ∈ keysets.map (·.name) ↔
        ∃ collection ∈ collections, (collection.get? name).isSome) ∧
      1 = (keysets.map Artifact.registration).length := by
  obtain ⟨classSource, collections, keysets, second, hread, _, htext, _, _, hnames, _, hcount, _⟩ :=
    make_contents make_sample
  cases hread
  exact ⟨collections, keysets, htext, hnames, hcount⟩

end KeysetBundle.Bundle
