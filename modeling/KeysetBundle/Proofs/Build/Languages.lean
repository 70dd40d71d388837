import KeysetBundle.Proofs.Build.Layout
import Mathlib.Data.List.Perm.Subperm

/-!
# Projects for some of their languages

Whoever names languages on the command line builds the same project for these
languages: the languages of a configuration are looked at when it is checked
and when the targets are made, and nowhere else.

Main results.

- `projectIn_withTags`: the project that is found for some of the languages.
- `Project.mem_targets_withTags`: its targets are some of the targets.
-/

namespace KeysetBundle.Build

open CommandLine (BuildOptions)
open Files

/-- A project for other languages, which some tags name. -/
def Project.withTags (project : Project) (tags : List String) (languages : List Language) :
    Project :=
  { project with config := { project.config with langs := tags }, languages }

variable {project : Project} {world : World} {options : BuildOptions} {tags : List String}
  {languages : List Language}

/-! ## What is the same -/

namespace Project

/-- **The targets for some languages** are those of the project for these languages. -/
theorem mem_targets_withTags {base : String} {target : Target}
    (hlanguages : ∀ language ∈ languages, language ∈ project.languages) :
    target ∈ (project.withTags tags languages).targets base ↔
      target ∈ project.targets base ∧ target.language ∈ languages := by
  unfold targets
  rw [List.mem_map, List.mem_map]
  constructor
  · rintro ⟨language, hlanguage, rfl⟩
    exact ⟨⟨language, hlanguages language hlanguage, rfl⟩, hlanguage⟩
  · rintro ⟨⟨language, -, rfl⟩, hlanguage⟩
    exact ⟨language, hlanguage, rfl⟩

end Project

/-! ## Finding the project -/

theorem override_withTags (config : Config) (options : BuildOptions) (current : Path)
    (htags : tags ≠ []) : override config { options with langs := tags } current =
      { override config options current with langs := tags } := by
  unfold override
  have hempty : tags.isEmpty = false := by simpa using htags
  simp only [hempty, Bool.false_eq_true, if_false]

/-- A configuration without a fault has none with some of its tags. -/
theorem ofConfig_withTags {root : Path} {config : Config} {fromFile : Bool}
    (h : Project.ofConfig root config fromFile = .ok project) (htags : tags ≠ [])
    (hmem : ∀ tag ∈ tags, tag ∈ config.langs) :
    ∃ languages, Project.ofConfig root { config with langs := tags } fromFile =
        .ok (project.withTags tags languages) ∧
      ∀ language, language ∈ languages ↔
        language ∈ project.languages ∧ language.tag ∈ tags := by
  unfold Project.ofConfig at h
  split at h
  · cases h
  · cases h
  · rename_i found hcheck hfound
    cases h
    have hread : Config.languagesOf config.langs = .ok found := by
      unfold Config.languages at hfound
      split at hfound
      · rename_i hread
        cases hfound
        exact hread
      · cases hfound
    obtain ⟨languages, hlanguages⟩ := Config.exists_languagesOf.2 fun tag htag =>
      Config.exists_languagesOf.1 ⟨found, hread⟩ tag (hmem tag htag)
    have hsome : ∀ language, language ∈ languages ↔ language ∈ found ∧ language.tag ∈ tags := by
      intro language
      rw [Config.mem_languagesOf hlanguages, Config.mem_languagesOf hread]
      constructor
      · rintro ⟨tag, htag, hlanguage⟩
        exact ⟨⟨tag, hmem tag htag, hlanguage⟩, by rw [Language.tag_of_parse hlanguage]; exact htag⟩
      · rintro ⟨⟨tag, -, hlanguage⟩, htag⟩
        exact ⟨language.tag, htag, Language.parse_tag ⟨tag, hlanguage⟩⟩
    have hfew : languages.length ≤ found.length :=
      (List.subperm_of_subset (Config.nodup_languagesOf hlanguages).1 fun language hlanguage =>
        ((hsome language).1 hlanguage).1).length_le
    have hnamed : ({ config with langs := tags } : Config).languages = .ok languages := by
      unfold Config.languages
      rw [hlanguages]
    have hsensible := (Config.check_eq_ok hfound).1 hcheck
    have hcheck' : ({ config with langs := tags } : Config).check = .ok () :=
      (Config.check_eq_ok hnamed).2 ⟨hsensible.levels, hsensible.suffix, by simpa using htags,
        fun hmany => hsensible.names (Nat.lt_of_lt_of_le hmany hfew)⟩
    refine ⟨languages, ?_, hsome⟩
    unfold Project.ofConfig
    rw [hcheck', hnamed]
    rfl

/-- The project that is found is the one of the configuration at the root. -/
theorem projectIn_eq (world : World) (options : BuildOptions) : projectIn world options =
    match (world.run (findRoot options (FileTree.pathOf world.current))).1 with
    | .error failure => .error failure
    | .ok root =>
      match (world.run (Config.load root)).1 with
      | .error cause => .error (.noConfig cause)
      | .ok loaded => Project.ofConfig root
        (override loaded.config options (FileTree.pathOf world.current)) loaded.fromFile := by
  have hroot := (Program.run_of_looks
    (looks_findRoot options (FileTree.pathOf world.current)) world).2
  unfold projectIn Project.find
  change (world.run (findRoot options (FileTree.pathOf world.current) >>=
    fun found => match found with | .error failure => _ | .ok root => _)).1 = _
  rw [World.run_bind, hroot]
  cases (world.run (findRoot options (FileTree.pathOf world.current))).1 with
  | error failure => rfl
  | ok root =>
      dsimp only
      rw [World.run_bind]
      cases (world.run (Config.load root)).1 <;> rfl

theorem config_of_ofConfig {root : Path} {config : Config} {fromFile : Bool}
    (h : Project.ofConfig root config fromFile = .ok project) : project.config = config := by
  unfold Project.ofConfig at h
  split at h
  · cases h
  · cases h
  · cases h
    rfl

/-- **The project that is found for some of the languages.** -/
theorem projectIn_withTags (h : projectIn world options = .ok project) (htags : tags ≠ [])
    (hmem : ∀ tag ∈ tags, tag ∈ project.config.langs) :
    ∃ languages, projectIn world { options with langs := tags } =
        .ok (project.withTags tags languages) ∧
      ∀ language, language ∈ languages ↔
        language ∈ project.languages ∧ language.tag ∈ tags := by
  rw [projectIn_eq] at h ⊢
  have hroot : findRoot { options with langs := tags } (FileTree.pathOf world.current) =
      findRoot options (FileTree.pathOf world.current) := rfl
  rw [hroot]
  split at h
  · cases h
  · rename_i root hfound
    split at h
    · cases h
    · rename_i loaded hloaded
      rw [config_of_ofConfig h] at hmem
      rw [override_withTags _ _ _ htags]
      exact ofConfig_withTags h htags hmem

end KeysetBundle.Build
