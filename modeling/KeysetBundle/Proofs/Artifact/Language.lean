import KeysetBundle.Artifact.Basic
import KeysetBundle.Config.Basic
import KeysetBundle.Proofs.Except

/-!
# The language in an artifact

A language that was read from a tag is known by its tag.  An artifact without
any keyset is made of the runtime class and the language alone, and its text
tells the language.

Main results.

- `Language.eq_of_tag`: the tag tells the language.
- `Artifact.language_of_generate`: the text of an artifact without keysets
  tells the language.
-/

namespace KeysetBundle

/-! ## Languages that were read -/

namespace Language

/-- A language that some text names. -/
def IsRead (language : Language) : Prop := ∃ text, parse text = .ok language

theorem IsRead.isTag {language : Language} (h : language.IsRead) : isTag language.tag := by
  obtain ⟨text, htext⟩ := h
  unfold parse at htext
  split at htext
  · cases htext
    decide
  · split at htext
    · rename_i htag
      cases htext
      exact htag
    · cases htext

/-- A language has the tag that it was read from. -/
theorem tag_of_parse {text : String} {language : Language} (h : parse text = .ok language) :
    language.tag = text := by
  unfold parse at h
  split at h
  · rename_i hall
    cases h
    exact hall.symm
  · split at h
    · cases h
      rfl
    · cases h

/-- **The tag tells the language.** -/
theorem eq_of_tag {language other : Language} (h : language.IsRead) (h' : other.IsRead)
    (htag : language.tag = other.tag) : language = other := by
  have hnamed : ∀ text : String, (Language.named text).IsRead → text ≠ allTag := by
    rintro text ⟨source, hsource⟩ rfl
    unfold parse at hsource
    split at hsource
    · cases hsource
    · rename_i hne
      split at hsource
      · cases hsource
        exact hne rfl
      · cases hsource
  cases language with
  | all =>
      cases other with
      | all => rfl
      | named text => exact absurd htag.symm (hnamed text h')
  | named text =>
      cases other with
      | all => exact absurd htag (hnamed text h)
      | named text' => exact congrArg Language.named htag

/-- The tag of a language names it. -/
theorem parse_tag {language : Language} (h : language.IsRead) :
    parse language.tag = .ok language := by
  obtain ⟨text, htext⟩ := h
  rw [tag_of_parse htext, htext]

theorem isTagChar_of_mem {language : Language} (h : language.IsRead) {c : Char}
    (hc : c ∈ language.tag.toList) : isTagChar c := by
  have htag := h.isTag
  unfold isTag at htag
  rw [Bool.and_eq_true] at htag
  exact List.all_eq_true.1 htag.2 c hc

theorem tag_ne_nil {language : Language} (h : language.IsRead) : language.tag.toList ≠ [] := by
  have htag := h.isTag
  unfold isTag at htag
  rw [Bool.and_eq_true] at htag
  intro hnil
  rw [hnil] at htag
  exact absurd htag.1 (by decide)

theorem ne_of_isTagChar {c d : Char} (h : isTagChar c) (hd : ¬isTagChar d) : c ≠ d := by
  rintro rfl
  exact hd h

end Language

/-! ## Languages of a configuration -/

/-- The language that a tag names is the last one, unless it has come before. -/
def Config.addLanguage (languages : List Language) (tag : String) :
    Except Language.InvalidTag (List Language) :=
  (Language.parse tag).map fun language =>
    if language ∈ languages then languages else languages ++ [language]

theorem Config.languagesOf_eq (tags : List String) :
    languagesOf tags = tags.foldlM addLanguage [] := rfl

theorem Config.mem_addLanguage {found languages : List Language} {tag : String}
    (h : addLanguage found tag = .ok languages) (language : Language) :
    language ∈ languages ↔ language ∈ found ∨ Language.parse tag = .ok language := by
  obtain ⟨added, hadded, rfl⟩ := map_eq_ok.1 h
  rw [hadded, Except.ok.injEq]
  split
  · rename_i hmem
    refine ⟨.inl, ?_⟩
    rintro (hlanguage | rfl)
    · exact hlanguage
    · exact hmem
  · rw [List.mem_append, List.mem_singleton, eq_comm]

theorem Config.nodup_addLanguage {found languages : List Language} {tag : String}
    (h : addLanguage found tag = .ok languages) (hnodup : found.Nodup) : languages.Nodup := by
  obtain ⟨added, -, rfl⟩ := map_eq_ok.1 h
  split
  · exact hnodup
  · rename_i hmem
    refine List.nodup_append.2 ⟨hnodup, by simp, fun other hother last hlast => ?_⟩
    rw [List.mem_singleton.1 hlast]
    rintro rfl
    exact hmem hother

theorem Config.foldlM_addLanguage {tags : List String} {found languages : List Language}
    (h : tags.foldlM addLanguage found = .ok languages) :
    (found.Nodup → languages.Nodup) ∧ ∀ language, language ∈ languages ↔
      language ∈ found ∨ ∃ tag ∈ tags, Language.parse tag = .ok language := by
  induction tags generalizing found with
  | nil =>
      cases h
      exact ⟨fun hnodup => hnodup, fun language => by simp⟩
  | cons tag tags ih =>
      rw [List.foldlM_cons] at h
      obtain ⟨next, hnext, hrest⟩ := bind_eq_ok.1 h
      obtain ⟨hnodup, hmem⟩ := ih hrest
      refine ⟨fun hfound => hnodup (nodup_addLanguage hnext hfound), fun language => ?_⟩
      rw [hmem, mem_addLanguage hnext, or_assoc]
      simp

/-- **The languages of a configuration** are those that its tags name. -/
theorem Config.mem_languagesOf {tags : List String} {languages : List Language}
    (h : languagesOf tags = .ok languages) (language : Language) :
    language ∈ languages ↔ ∃ tag ∈ tags, Language.parse tag = .ok language := by
  rw [(foldlM_addLanguage h).2 language]
  simp

/-- The languages of a configuration were read, and each comes once. -/
theorem Config.nodup_languagesOf {tags : List String} {languages : List Language}
    (h : languagesOf tags = .ok languages) :
    languages.Nodup ∧ ∀ language ∈ languages, language.IsRead := by
  refine ⟨(foldlM_addLanguage h).1 List.nodup_nil, fun language hlanguage => ?_⟩
  obtain ⟨tag, -, hread⟩ := (mem_languagesOf h language).1 hlanguage
  exact ⟨tag, hread⟩

/-- There are languages if all tags can be read. -/
theorem Config.exists_languagesOf {tags : List String} :
    (∃ languages, languagesOf tags = .ok languages) ↔
      ∀ tag ∈ tags, ∃ language, Language.parse tag = .ok language := by
  simp only [languagesOf_eq]
  generalize ([] : List Language) = found
  induction tags generalizing found with
  | nil => exact ⟨fun _ => nofun, fun _ => ⟨found, rfl⟩⟩
  | cons tag tags ih =>
      simp only [List.forall_mem_cons, List.foldlM_cons, addLanguage]
      cases hread : Language.parse tag with
      | error cause =>
          constructor
          · rintro ⟨languages, h⟩
            cases h
          · rintro ⟨⟨language, h⟩, -⟩
            cases h
      | ok language =>
          refine (ih (if language ∈ found then found else found ++ [language])).trans ?_
          exact ⟨fun h => ⟨⟨language, rfl⟩, h⟩, fun h => h.2⟩

/-! ## Artifacts without keysets -/

namespace Artifact

open KeysetBundle.Text (singleEscape singleQuoted)

theorem singleEscape_of_isTagChar {c : Char} (h : Language.isTagChar c) : singleEscape c = [c] := by
  have hquote := Language.ne_of_isTagChar h (d := '\'') (by decide)
  have hslash := Language.ne_of_isTagChar h (d := '\\') (by decide)
  have hfeed := Language.ne_of_isTagChar h (d := '\n') (by decide)
  have hreturn := Language.ne_of_isTagChar h (d := '\r') (by decide)
  have hline := Language.ne_of_isTagChar h (d := '\u2028') (by decide)
  have hparagraph := Language.ne_of_isTagChar h (d := '\u2029') (by decide)
  simp [singleEscape, hquote, hslash, hfeed, hreturn, hline, hparagraph]

theorem flatMap_singleEscape {chars : List Char} (h : ∀ c ∈ chars, Language.isTagChar c) :
    chars.flatMap singleEscape = chars := by
  induction chars with
  | nil => rfl
  | cons c chars ih =>
      rw [List.flatMap_cons, singleEscape_of_isTagChar (h c (by simp)),
        ih fun other hother => h other (by simp [hother])]
      rfl

/-- A tag stands in quotes as it is. -/
theorem toList_singleQuoted_tag {language : Language} (h : language.IsRead) :
    (singleQuoted language.tag).toList = '\'' :: language.tag.toList ++ ['\''] := by
  rw [singleQuoted, String.toList_ofList,
    flatMap_singleEscape fun c hc => Language.isTagChar_of_mem h hc]

/-- What stands before the language in an artifact without keysets. -/
def opening (classSource : String) : String :=
  prologue (.named "") classSource ++ "\n" ++ body [] ++ "\n" ++ "i18n.setLanguage("

/-- What stands after the language. -/
def closing (moduleName : String) : String :=
  ");" ++ ("\n" ++ lines ("return i18n;" :: "\x7d" ::
    (dispatcher Convention.all moduleName ++ ["\x7d)();"])))

theorem generate_named (tag classSource moduleName : String) :
    generate (.named tag) classSource [] moduleName =
      opening classSource ++ (singleQuoted tag ++ closing moduleName) := by
  have hlines : ∀ (line next : String) (rest : List String),
      lines (line :: next :: rest) = line ++ ("\n" ++ lines (next :: rest)) := by
    intro line next rest
    rw [lines, String.intercalate_cons_cons, String.append_assoc]
    rfl
  have hprologue : prologue (.named tag) classSource = prologue (.named "") classSource := rfl
  have hepilogue : epilogue (.named tag) moduleName =
      lines (("i18n.setLanguage(" ++ singleQuoted tag ++ ");") :: "return i18n;" :: "\x7d" ::
        (dispatcher Convention.all moduleName ++ ["\x7d)();"])) := rfl
  rw [generate, hprologue, hepilogue, hlines, opening, closing]
  simp only [String.append_assoc]

/-- The bundle of a language is longer than the runtime class that it carries. -/
theorem length_generate (tag classSource : String) (keysets : List CompiledKeyset)
    (moduleName : String) :
    classSource.length < (generate (.named tag) classSource keysets moduleName).length := by
  have hnamed : (Language.named tag).isAll = false := rfl
  have hbreak : ("\n" : String).length = 1 := rfl
  unfold generate prologue
  rw [hnamed, if_neg (by decide)]
  simp only [String.length_append, hbreak]
  omega

theorem head?_opening (classSource : String) :
    (opening classSource).toList.head? = some '(' := by
  have hstart : ∀ rest : String,
      ("(function()\x7b\nfunction initKeyset(i18n) \x7b\n" ++ rest).toList.head? = some '(' := by
    intro rest
    have hfirst : ("(function()\x7b\nfunction initKeyset(i18n) \x7b\n" : String).toList.head? =
        some '(' := by decide
    rw [String.toList_append, List.head?_append, hfirst]
    rfl
  have hprologue : ∃ rest, prologue (.named "") classSource =
      "(function()\x7b\nfunction initKeyset(i18n) \x7b\n" ++ rest := by
    unfold prologue
    rw [if_neg (by decide)]
    simp only [String.append_assoc]
    exact ⟨_, rfl⟩
  obtain ⟨rest, hrest⟩ := hprologue
  rw [opening, hrest]
  simp only [String.append_assoc]
  exact hstart _

/-- **The text of an artifact without keysets tells its language.** -/
theorem language_of_generate {language other : Language} {classSource moduleName : String}
    (h : language.IsRead) (h' : other.IsRead)
    (htext : generate language classSource [] moduleName =
      generate other classSource [] moduleName) :
    language = other := by
  have hnamed : ∀ tag : String,
      generate .all classSource [] moduleName ≠
        generate (.named tag) classSource [] moduleName := by
    intro tag heq
    have hall : generate .all classSource [] moduleName = "\n\n" := rfl
    have hhead := congrArg (fun text => text.toList.head?) heq
    rw [hall, generate_named, String.toList_append, List.head?_append, head?_opening,
      Option.some_or] at hhead
    exact absurd hhead (by decide)
  cases language with
  | all =>
      cases other with
      | all => rfl
      | named tag => exact absurd htext (hnamed tag)
  | named tag =>
      cases other with
      | all => exact absurd htext.symm (hnamed tag)
      | named tag' =>
          rw [generate_named, generate_named, String.append_right_inj, String.append_left_inj]
            at htext
          have hquoted := congrArg String.toList htext
          have hleft := @toList_singleQuoted_tag (.named tag) h
          have hright := @toList_singleQuoted_tag (.named tag') h'
          rw [Language.tag] at hleft hright
          rw [hleft, hright] at hquoted
          have hchars : tag.toList = tag'.toList :=
            (List.cons.inj (List.append_cancel_right hquoted)).2
          rw [String.toList_inj.1 hchars]

end Artifact

end KeysetBundle
