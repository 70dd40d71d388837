import KeysetBundle.Proofs.Build.Layout
import KeysetBundle.Proofs.Files.Atomic
import KeysetBundle.Proofs.Path.Components

/-!
# Outputs of different languages

The targets of a configuration are written side by side, so they must not share
a file, nor the neighbours through which they are written, nor an entry of the
ledger.  The path of a target as a whole is a text with slots for the tag, also
if the folder of the bundles is no absolute path.  So the paths of two targets
have components of the same shapes, and two paths of the same shapes are apart
as soon as they differ: a neighbour has one point more in its last name, or one
component more.

Main results.

- `apart_of_shapes`: different paths of the same shapes are apart.
- `Config.outputs_apart`: the targets of different languages are apart.
-/

namespace KeysetBundle

open Files
open Freshness (Ledger Record)
open TargetName (bare component fill fill_none fill_some fillBase isPlain_tag nameSlots points
  resolve shape slotPieces Slot)
open KeysetBundle.Path (Component leadOf pieceComponent? piecesOf stepsOf)

/-! ## Paths of the same shapes -/

/-- Two files that can be written side by side. -/
structure Apart (path other : Path) : Prop where
  /-- The paths have different components. -/
  paths : path.same other = false
  /-- A record of one of them is not taken for one of the other. -/
  records : ∀ (ledger : Ledger) (record : Record),
    (ledger.set path record).get? other = ledger.get? other
  /-- The neighbour of the first is not the second. -/
  first : (neighbour path).same other = false
  /-- The neighbour of the second is not the first. -/
  second : (neighbour other).same path = false
  /-- The neighbours are different. -/
  neighbours : (neighbour path).same (neighbour other) = false

theorem same_eq_false {path other : Path} :
    path.same other = false ↔ path.components ≠ other.components := by
  unfold Path.same
  rw [beq_eq_false_iff_ne]

theorem components_neighbour (path : Path) : (neighbour path).components =
    (if path.fileName?.isSome then path.components.dropLast else path.components) ++
      [.name ((path.fileName?).getD "" ++ ".tmp")] :=
  Path.components_withFileName (isName_neighbour path) path

theorem fileName?_eq_some_iff {path : Path} {name : String} :
    path.fileName? = some name ↔ path.components.getLast? = some (.name name) := by
  unfold Path.fileName?
  constructor
  · intro h
    split at h
    · rename_i text hlast
      cases h
      exact hlast
    · cases h
  · intro h
    rw [h]

section Shapes

variable {path other : Path} (h : path.components.map shape = other.components.map shape)

include h

theorem fileName?_of_shapes {name : String} (hname : path.fileName? = some name) :
    ∃ name', other.fileName? = some name' ∧ points name' = points name := by
  have hlast := congrArg List.getLast? h
  rw [List.getLast?_map, List.getLast?_map, fileName?_eq_some_iff.1 hname, Option.map_some] at hlast
  obtain ⟨step, hstep, hshape⟩ := Option.map_eq_some_iff.1 hlast.symm
  cases step with
  | name name' =>
      refine ⟨name', fileName?_eq_some_iff.2 hstep, ?_⟩
      have hbare : bare name' = bare name := Component.name.inj hshape
      rw [← TargetName.points_bare name', hbare, TargetName.points_bare]
  | root => cases hshape
  | current => cases hshape
  | parent => cases hshape

theorem fileName?_eq_none_of_shapes (hname : path.fileName? = none) : other.fileName? = none := by
  cases hother : other.fileName? with
  | none => rfl
  | some name =>
      obtain ⟨name', hname', -⟩ := fileName?_of_shapes h.symm hother
      rw [hname] at hname'
      cases hname'

/-- The neighbour has a point more in its last name, or a component more. -/
theorem neighbour_ne_of_shapes : (neighbour path).components ≠ other.components := by
  intro heq
  rw [components_neighbour] at heq
  cases hname : path.fileName? with
  | none =>
      have hlength := congrArg List.length h
      rw [← heq, hname] at hlength
      simp at hlength
  | some name =>
      obtain ⟨name', hname', hpoints⟩ := fileName?_of_shapes h hname
      have hlast := fileName?_eq_some_iff.1 hname'
      rw [← heq, List.getLast?_concat, hname] at hlast
      have hsame : name ++ ".tmp" = name' := Component.name.inj (Option.some.inj hlast)
      rw [← hsame, points_tmp] at hpoints
      omega

/-- A neighbour tells the path. -/
theorem eq_of_neighbour_of_shapes
    (heq : (neighbour path).components = (neighbour other).components) :
    path.components = other.components := by
  rw [components_neighbour, components_neighbour] at heq
  obtain ⟨hfront, hlast⟩ := List.append_inj' heq rfl
  cases hname : path.fileName? with
  | none =>
      rw [hname, fileName?_eq_none_of_shapes h hname] at hfront
      exact hfront
  | some name =>
      obtain ⟨name', hname', -⟩ := fileName?_of_shapes h hname
      rw [hname, hname'] at hfront hlast
      have htexts : name ++ ".tmp" = name' ++ ".tmp" :=
        Component.name.inj (List.cons.inj hlast).1
      have hsame : name = name' := String.append_left_inj ".tmp" |>.1 htexts
      obtain ⟨front, hpath⟩ := List.getLast?_eq_some_iff.1 (fileName?_eq_some_iff.1 hname)
      obtain ⟨front', hother⟩ := List.getLast?_eq_some_iff.1 (fileName?_eq_some_iff.1 hname')
      rw [hpath, hother, Option.isSome_some, if_pos rfl, Option.isSome_some, if_pos rfl,
        List.dropLast_concat, List.dropLast_concat] at hfront
      rw [hpath, hother, hfront, hsame]

/-- **Different paths of the same shapes are apart.** -/
theorem apart_of_shapes (hne : path.components ≠ other.components) : Apart path other where
  paths := same_eq_false.2 hne
  records := by
    intro ledger record
    have htext : other.text ≠ path.text := by
      intro htext
      cases path
      cases other
      cases htext
      exact hne rfl
    exact (Dictionary.get?_insert _ _ _ _).trans (if_neg htext)
  first := same_eq_false.2 (neighbour_ne_of_shapes h)
  second := same_eq_false.2 (neighbour_ne_of_shapes h.symm)
  neighbours := same_eq_false.2 fun heq => hne (eq_of_neighbour_of_shapes h heq)

end Shapes

/-! ## Paths with slots -/

namespace TargetName

variable {tag other : List Char} (h : IsPlain tag) (h' : IsPlain other)

/-- The path of the bundle with a tag in a folder. -/
def pathIn (output : Path) (template base tag : String) : Path :=
  output.joinText (resolve template base tag)

/-- The path of a bundle with slots for the tag. -/
def pathSlots (output : Path) (template base : String) : List Slot :=
  let name := nameSlots template base
  if name.head? = some (some '/') then name
  else if output.text.isEmpty || output.text.endsWith "/" then
    output.text.toList.map some ++ name
  else output.text.toList.map some ++ some '/' :: name

theorem fill_append (tag : List Char) (template rest : List Slot) :
    fill tag (template ++ rest) = fill tag template ++ fill tag rest := List.flatMap_append

theorem fill_map_some (tag cs : List Char) : fill tag (cs.map some) = cs := by
  induction cs with
  | nil => rfl
  | cons c cs ih => rw [List.map_cons, fill_some, ih]

include h in
/-- Only a slash of its own makes a name absolute. -/
theorem isAbsolute_fill (template : List Slot) :
    (Path.mk (String.ofList (fill tag template))).isAbsolute ↔
      template.head? = some (some '/') := by
  rw [Path.isAbsolute_iff, String.toList_ofList]
  cases template with
  | nil => simp [fill]
  | cons slot rest =>
      cases slot with
      | some c => simp
      | none =>
          obtain ⟨c, cs, htag⟩ := List.exists_cons_of_ne_nil h.nonempty
          have hslash : c ≠ '/' := by
            rintro rfl
            exact h.noSlash (by simp [htag])
          simp [htag, hslash]

theorem toList_pathIn {tag : String} (h : IsPlain tag.toList) (output : Path)
    (template base : String) :
    (pathIn output template base tag).text.toList =
      fill tag.toList (pathSlots output template base) := by
  have hname := toList_resolve template base tag
  have habsolute := isAbsolute_fill h (nameSlots template base)
  rw [← hname, String.ofList_toList] at habsolute
  have hslash : ("/" : String).toList = ['/'] := by decide
  unfold pathIn pathSlots Path.joinText Path.join
  dsimp only
  by_cases hhead : (nameSlots template base).head? = some (some '/')
  · rw [if_pos (habsolute.2 hhead), if_pos hhead, hname]
  · rw [if_neg (mt habsolute.1 hhead), if_neg hhead]
    split
    · rw [String.toList_append, fill_append, fill_map_some, hname]
    · rw [String.toList_append, String.toList_append, fill_append, fill_map_some, fill_some, hname,
        hslash, List.append_assoc]
      rfl

/-- The components of a text with slots that are filled. -/
def componentsOf (tag : List Char) (template : List Slot) : List Component :=
  leadOf ((slotPieces template).map fun piece => String.ofList (fill tag piece)) ++
    (slotPieces template).filterMap (component tag)

include h in
theorem components_of_fill {path : Path} {template : List Slot}
    (hpath : path.text.toList = fill tag template) :
    path.components = componentsOf tag template := by
  rw [Path.components_eq, hpath, stepsOf_fill h, piecesOf, splitSlashes_fill h.noSlash,
    List.map_map]
  rfl

include h in
theorem filled_ne_of_slot {piece : List Slot} (hslot : none ∈ piece) :
    String.ofList (fill tag piece) ≠ "." ∧ String.ofList (fill tag piece) ≠ "" := by
  have hname := component_of_slot h hslot
  unfold component at hname
  constructor
  · intro htext
    rw [htext] at hname
    cases hname
  · intro htext
    rw [htext] at hname
    cases hname

include h h' in
/-- The lead of a text with slots does not depend on the tag. -/
theorem leadOf_filled (pieces : List (List Slot)) :
    leadOf (pieces.map fun piece => String.ofList (fill tag piece)) =
      leadOf (pieces.map fun piece => String.ofList (fill other piece)) := by
  cases pieces with
  | nil => rfl
  | cons piece rest =>
      rw [List.map_cons, List.map_cons, leadOf, leadOf]
      by_cases hslot : none ∈ piece
      · obtain ⟨hpoint, hempty⟩ := filled_ne_of_slot h hslot
        obtain ⟨hpoint', hempty'⟩ := filled_ne_of_slot h' hslot
        rw [if_neg hpoint, if_neg fun hroot => hempty hroot.1, if_neg hpoint',
          if_neg fun hroot => hempty' hroot.1]
      · rw [fill_of_no_slot hslot tag other]
        simp only [ne_eq, List.map_eq_nil_iff]

include h h' in
/-- Different tags give components of the same shapes. -/
theorem shapes_componentsOf (template : List Slot) :
    (componentsOf tag template).map shape = (componentsOf other template).map shape := by
  unfold componentsOf
  rw [List.map_append, List.map_append, leadOf_filled h h', shapes_components h h']

include h h' in
/-- The components of a text with a slot tell the tag. -/
theorem tag_of_componentsOf {template : List Slot} (hslot : none ∈ template)
    (heq : componentsOf tag template = componentsOf other template) : tag = other := by
  unfold componentsOf at heq
  rw [leadOf_filled h h'] at heq
  exact tag_of_components h h' hslot (List.append_cancel_left heq)

theorem mem_pathSlots {output : Path} {template base : String}
    (h : none ∈ nameSlots template base) : none ∈ pathSlots output template base := by
  unfold pathSlots
  dsimp only
  split
  · exact h
  · split
    · exact List.mem_append_right _ h
    · exact List.mem_append_right _ (List.mem_cons_of_mem _ h)

/-- The placeholder is filled with itself. -/
theorem isPlain_placeholder : IsPlain ("\x7blang\x7d" : String).toList :=
  ⟨by decide, by decide, by decide⟩

end TargetName

/-! ## Targets -/

namespace Config

open TargetName (pathIn)

/-- A component by its kind: the root, `.`, `..` or a name. -/
def kinds (path : Path) : List Nat := path.components.map Component.rank

theorem kinds_of_shapes {path other : Path}
    (h : path.components.map shape = other.components.map shape) : kinds path = kinds other := by
  have hrank : ∀ component : Component, (shape component).rank = component.rank := by
    intro component
    cases component <;> rfl
  have hkinds : ∀ path : Path, kinds path = (path.components.map shape).map Component.rank := by
    intro path
    rw [List.map_map]
    exact List.map_congr_left fun component _ => (hrank component).symm
  rw [hkinds, h, ← hkinds]

theorem languagesOf_of_languages {config : Config} {languages : List Language}
    (h : config.languages = .ok languages) : languagesOf config.langs = .ok languages := by
  unfold Config.languages at h
  split at h
  · rename_i found hfound
    cases h
    exact hfound
  · cases h

/-- A target for more than one language has a slot for the tag. -/
theorem none_mem_pathSlots {config : Config} {languages : List Language}
    (hcheck : config.check = .ok ()) (hlanguages : config.languages = .ok languages)
    {language other : Language} (hlanguage : language ∈ languages) (hother : other ∈ languages)
    (hne : language ≠ other) (output : Path) (base : String) :
    none ∈ TargetName.pathSlots output config.target base := by
  have hmany : 1 < languages.length := by
    match languages, hlanguage, hother with
    | [only], hlanguage, hother =>
        rw [List.mem_singleton.1 hlanguage, List.mem_singleton.1 hother] at hne
        exact absurd rfl hne
    | _ :: _ :: _, _, _ => simp
  exact TargetName.mem_pathSlots (TargetName.mem_slots_of_mentionsLanguage
    (TargetName.mentionsLanguage_fillBase _ (((check_eq_ok hlanguages).1 hcheck).names hmany)))

/-- **Different languages have outputs of their own.**  The targets of different languages are
apart, whatever the folder and the base name are.  All of them have as many components as the path
in which the placeholders are left, and of the same kinds: a tag makes no component and no `.` or
`..`. -/
theorem outputs_apart {config : Config} {languages : List Language}
    (hcheck : config.check = .ok ()) (hlanguages : config.languages = .ok languages)
    (output : Path) (base : String) :
    (∀ language ∈ languages, kinds (pathIn output config.target base language.tag) =
      kinds (pathIn output config.target base "\x7blang\x7d")) ∧
    ∀ language ∈ languages, ∀ other ∈ languages, language ≠ other →
      Apart (pathIn output config.target base language.tag)
        (pathIn output config.target base other.tag) := by
  have hread := (Config.nodup_languagesOf (languagesOf_of_languages hlanguages)).2
  have hcomponents : ∀ tag : String, TargetName.IsPlain tag.toList →
      (pathIn output config.target base tag).components =
        TargetName.componentsOf tag.toList (TargetName.pathSlots output config.target base) :=
    fun tag htag => TargetName.components_of_fill htag
      (TargetName.toList_pathIn htag output config.target base)
  constructor
  · intro language hlanguage
    have hplain := isPlain_tag (hread language hlanguage)
    refine kinds_of_shapes ?_
    rw [hcomponents _ hplain, hcomponents _ TargetName.isPlain_placeholder]
    exact TargetName.shapes_componentsOf hplain TargetName.isPlain_placeholder _
  · intro language hlanguage other hother hne
    have hplain := isPlain_tag (hread language hlanguage)
    have hplain' := isPlain_tag (hread other hother)
    have hslot := none_mem_pathSlots hcheck hlanguages hlanguage hother hne output base
    refine apart_of_shapes ?_ fun heq => hne ?_
    · rw [hcomponents _ hplain, hcomponents _ hplain']
      exact TargetName.shapes_componentsOf hplain hplain' _
    · rw [hcomponents _ hplain, hcomponents _ hplain'] at heq
      have htag := TargetName.tag_of_componentsOf hplain hplain' hslot heq
      exact Language.eq_of_tag (hread language hlanguage) (hread other hother)
        (String.toList_inj.1 htag)

/-- A configuration for two languages, with a folder for each. -/
def twoLanguages : Config := { langs := ["en", "ru"], target := "\x7blang\x7d/?.js" }

theorem outputs_apart_two :
    twoLanguages.check = .ok () ∧
      twoLanguages.languages = .ok [.named "en", .named "ru"] ∧
      Apart (pathIn ⟨"out"⟩ twoLanguages.target "b" "en")
        (pathIn ⟨"out"⟩ twoLanguages.target "b" "ru") := by
  have hcheck : twoLanguages.check = .ok () := by decide +kernel
  have hlanguages : twoLanguages.languages = .ok [.named "en", .named "ru"] := by decide +kernel
  exact ⟨hcheck, hlanguages, (outputs_apart hcheck hlanguages ⟨"out"⟩ "b").2 (.named "en")
    (by simp) (.named "ru") (by simp) (by decide)⟩

end Config

end KeysetBundle
