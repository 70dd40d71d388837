import KeysetBundle.Proofs.Artifact.Language
import KeysetBundle.Proofs.Path.Pieces
import KeysetBundle.TargetName

/-!
# Names from a template

A template is a text with *slots* for the tag of the language.  Tags have
neither slashes nor points, so they change nothing of the pieces of a name but
some of their letters: names of different languages have the same pieces
otherwise.

Main results.

- `tag_of_fill`: a text with a slot tells the tag that fills it.
- `stepsOf_resolve`: the steps of a name are those of the filled pieces of the
  template.
- `shapes_resolve`: names of different languages have steps of the same shapes.
-/

namespace KeysetBundle.TargetName

open KeysetBundle.Path (Component isIdle pieceComponent? piecesOf splitSlashes stepsOf)

/-! ## Slots -/

/-- A character of a template; a slot has none. -/
abbrev Slot := Option Char

/-- A text with its placeholders as slots. -/
def slots : List Char → List Slot
  | [] => []
  | '{' :: 'l' :: 'a' :: 'n' :: 'g' :: '}' :: rest => none :: slots rest
  | c :: rest => some c :: slots rest

/-- The text with a tag in every slot. -/
def fill (tag : List Char) (template : List Slot) : List Char :=
  template.flatMap fun slot =>
    match slot with
    | none => tag
    | some c => [c]

@[simp] theorem fill_none (tag : List Char) (template : List Slot) :
    fill tag (none :: template) = tag ++ fill tag template := rfl

@[simp] theorem fill_some (tag : List Char) (c : Char) (template : List Slot) :
    fill tag (some c :: template) = c :: fill tag template := rfl

theorem fillLanguage_eq_fill (tag cs : List Char) : fillLanguage tag cs = fill tag (slots cs) := by
  fun_induction slots cs with
  | case1 => rfl
  | case2 rest ih => rw [fillLanguage, ih, fill_none]
  | case3 c rest hne ih =>
      rw [fillLanguage, ih, fill_some]
      exact hne

theorem mem_slots_of_mentionsLanguage {cs : List Char} (h : mentionsLanguage cs) :
    none ∈ slots cs := by
  fun_induction slots cs with
  | case1 => cases h
  | case2 rest ih => simp
  | case3 c rest hne ih =>
      rw [mentionsLanguage] at h
      · exact List.mem_cons_of_mem _ (ih h)
      · exact hne

/-! ## A placeholder in the template stays one when the base is put in -/

theorem mentionsLanguage_append {cs : List Char} (ds : List Char) (h : mentionsLanguage cs) :
    mentionsLanguage (ds ++ cs) := by
  induction ds with
  | nil => exact h
  | cons d ds ih =>
      rw [List.cons_append]
      unfold mentionsLanguage
      split
      · rename_i heq
        cases heq
      · rfl
      · rename_i heq
        rw [← (List.cons.inj heq).2]
        exact ih

theorem mentionsLanguage_fillBase (base : List Char) {cs : List Char} (h : mentionsLanguage cs) :
    mentionsLanguage (fillBase base cs) := by
  fun_induction mentionsLanguage cs with
  | case1 => cases h
  | case2 rest => rfl
  | case3 c rest hne ih =>
      rw [fillBase, List.flatMap_cons]
      exact mentionsLanguage_append _ (ih h)

/-! ## The tag in a text -/

theorem length_fill (tag : List Char) (template : List Slot) :
    (fill tag template).length =
      template.countP (·.isSome) + template.countP (·.isNone) * tag.length := by
  induction template with
  | nil => simp [fill]
  | cons slot template ih =>
      cases slot with
      | none =>
          rw [fill_none, List.length_append, ih]
          simp only [List.countP_cons, Option.isSome_none, Option.isNone_none, if_true,
            Bool.false_eq_true, if_false]
          rw [Nat.add_mul]
          omega
      | some c =>
          rw [fill_some, List.length_cons, ih]
          simp only [List.countP_cons, Option.isSome_some, Option.isNone_some, if_true,
            Bool.false_eq_true, if_false, Nat.add_zero]
          omega

/-- **A text with a slot tells the tag that fills it.** -/
theorem tag_of_fill {tag other : List Char} {template : List Slot} (hslot : none ∈ template)
    (h : fill tag template = fill other template) : tag = other := by
  have hlength : tag.length = other.length := by
    have htexts := congrArg List.length h
    rw [length_fill, length_fill] at htexts
    have hcount : 0 < template.countP (·.isNone) := List.countP_pos_iff.2 ⟨none, hslot, rfl⟩
    exact Nat.eq_of_mul_eq_mul_left hcount (by omega)
  induction template with
  | nil => cases hslot
  | cons slot template ih =>
      cases slot with
      | none => exact (List.append_inj h hlength).1
      | some c =>
          have hrest : none ∈ template := by simpa using hslot
          exact ih hrest (List.cons.inj h).2

/-! ## Pieces -/

/-- The pieces of a template between its slashes. -/
def slotPieces : List Slot → List (List Slot)
  | [] => [[]]
  | slot :: rest =>
    if slot = some '/' then [] :: slotPieces rest
    else match slotPieces rest with
      | [] => [[slot]]
      | piece :: pieces => (slot :: piece) :: pieces

theorem slotPieces_ne_nil (template : List Slot) : slotPieces template ≠ [] := by
  cases template with
  | nil => simp [slotPieces]
  | cons slot rest =>
      rw [slotPieces]
      split
      · simp
      · split <;> simp

theorem exists_piece_of_slot {template : List Slot} (h : none ∈ template) :
    ∃ piece ∈ slotPieces template, none ∈ piece := by
  induction template with
  | nil => cases h
  | cons slot rest ih =>
      rw [slotPieces]
      by_cases hslash : slot = some '/'
      · rw [if_pos hslash]
        have hrest : none ∈ rest := by simpa [hslash] using h
        obtain ⟨piece, hpiece, hslot⟩ := ih hrest
        exact ⟨piece, List.mem_cons_of_mem _ hpiece, hslot⟩
      · rw [if_neg hslash]
        cases hpieces : slotPieces rest with
        | nil => exact absurd hpieces (slotPieces_ne_nil rest)
        | cons first pieces =>
            rcases List.mem_cons.1 h with heq | hrest
            · exact ⟨slot :: first, by simp, by simp [← heq]⟩
            · obtain ⟨piece, hpiece, hslot⟩ := ih hrest
              rw [hpieces] at hpiece
              rcases List.mem_cons.1 hpiece with heq | hpiece
              · exact ⟨slot :: first, by simp, by simp [← heq, hslot]⟩
              · exact ⟨piece, by simp [hpiece], hslot⟩

theorem splitSlashes_append {cs ds piece : List Char} {pieces : List (List Char)}
    (hcs : '/' ∉ cs) (hds : splitSlashes ds = piece :: pieces) :
    splitSlashes (cs ++ ds) = (cs ++ piece) :: pieces := by
  induction cs with
  | nil => exact hds
  | cons c cs ih =>
      obtain ⟨hc, hrest⟩ := not_or.1 (mt List.mem_cons.2 hcs)
      rw [List.cons_append, splitSlashes, if_neg (Ne.symm hc), ih hrest]
      rfl

/-- A tag without slashes leaves the pieces apart. -/
theorem splitSlashes_fill {tag : List Char} (htag : '/' ∉ tag) (template : List Slot) :
    splitSlashes (fill tag template) = (slotPieces template).map (fill tag) := by
  induction template with
  | nil => rfl
  | cons slot rest ih =>
      rw [slotPieces]
      cases hpieces : slotPieces rest with
      | nil => exact absurd hpieces (slotPieces_ne_nil rest)
      | cons first pieces =>
          rw [hpieces, List.map_cons] at ih
          cases slot with
          | none =>
              rw [fill_none, splitSlashes_append htag ih, if_neg (by simp)]
              rfl
          | some c =>
              rw [fill_some]
              by_cases hslash : c = '/'
              · rw [splitSlashes, if_pos hslash, if_pos (by rw [hslash]), ih]
                rfl
              · rw [splitSlashes, if_neg hslash, if_neg (by simpa using hslash), ih]
                rfl

/-! ## Steps -/

/-- The step for which a filled piece stands. -/
def component (tag : List Char) (piece : List Slot) : Option Component :=
  pieceComponent? (String.ofList (fill tag piece))

/-- The template of a name with the base put in. -/
def nameSlots (template base : String) : List Slot :=
  slots (fillBase base.toList template.toList)

theorem toList_resolve (template base tag : String) :
    (resolve template base tag).toList = fill tag.toList (nameSlots template base) := by
  rw [resolve, String.toList_ofList, fillLanguage_eq_fill, nameSlots]

theorem not_mem_tag {language : Language} (h : language.IsRead) {c : Char}
    (hc : ¬Language.isTagChar c) : c ∉ language.tag.toList :=
  fun hmem => hc (Language.isTagChar_of_mem h hmem)

/-- A tag that is no piece of its own and leaves the pieces apart. -/
structure IsPlain (tag : List Char) : Prop where
  /-- There is something in it. -/
  nonempty : tag ≠ []
  /-- There is no slash in it. -/
  noSlash : '/' ∉ tag
  /-- There is no point in it. -/
  noPoint : '.' ∉ tag

theorem isPlain_tag {language : Language} (h : language.IsRead) : IsPlain language.tag.toList :=
  ⟨Language.tag_ne_nil h, not_mem_tag h (by decide), not_mem_tag h (by decide)⟩

theorem stepsOf_fill {tag : List Char} (h : IsPlain tag) (template : List Slot) :
    stepsOf (piecesOf (fill tag template)) =
      (slotPieces template).filterMap (component tag) := by
  rw [piecesOf, splitSlashes_fill h.noSlash, stepsOf, List.map_map, List.filterMap_map]
  rfl

/-- **The steps of a name.** -/
theorem stepsOf_resolve {language : Language} (h : language.IsRead) (template base : String) :
    stepsOf (piecesOf (resolve template base language.tag).toList) =
      (slotPieces (nameSlots template base)).filterMap (component language.tag.toList) := by
  rw [toList_resolve, stepsOf_fill (isPlain_tag h)]

/-- A piece with a slot is a name, whatever the tag. -/
theorem component_of_slot {tag : List Char} (h : IsPlain tag) {piece : List Slot}
    (hslot : none ∈ piece) :
    component tag piece = some (.name (String.ofList (fill tag piece))) := by
  obtain ⟨c, htag⟩ := List.exists_mem_of_ne_nil _ h.nonempty
  have hmem : c ∈ fill tag piece := List.mem_flatMap.2 ⟨none, hslot, htag⟩
  have hpoint : c ≠ '.' := by
    rintro rfl
    exact h.noPoint htag
  have hne : ∀ text : String, text.toList.all (· == '.') →
      String.ofList (fill tag piece) ≠ text := by
    rintro text htext rfl
    rw [String.toList_ofList] at htext
    exact hpoint (beq_iff_eq.1 (List.all_eq_true.1 htext c hmem))
  have hempty := hne "" (by decide)
  have hone := hne "." (by decide)
  have htwo := hne ".." (by decide)
  simp [component, pieceComponent?, isIdle, hempty, hone, htwo]

theorem fill_of_no_slot {piece : List Slot} (hslot : none ∉ piece) (tag other : List Char) :
    fill tag piece = fill other piece := by
  induction piece with
  | nil => rfl
  | cons slot rest ih =>
      obtain ⟨hfirst, hrest⟩ := not_or.1 (mt List.mem_cons.2 hslot)
      cases slot with
      | none => exact absurd rfl hfirst
      | some c => rw [fill_some, fill_some, ih hrest]

theorem component_of_no_slot {piece : List Slot} (hslot : none ∉ piece) (tag other : List Char) :
    component tag piece = component other piece := by
  rw [component, component, fill_of_no_slot hslot tag other]

/-! ## Shapes -/

/-- The number of points in a name. -/
def points (name : String) : Nat := name.toList.count '.'

/-- What is left of a name if only its points count. -/
def bare (name : String) : String := String.ofList (List.replicate (points name) '.')

theorem points_bare (name : String) : points (bare name) = points name := by
  rw [bare, points, String.toList_ofList, List.count_replicate_self]

/-- The step with the bare name. -/
def shape : Component → Component
  | .name text => .name (bare text)
  | component => component

theorem points_fill {tag : List Char} (h : IsPlain tag) (piece : List Slot) :
    points (String.ofList (fill tag piece)) = piece.count (some '.') := by
  have htag : tag.count '.' = 0 := List.count_eq_zero.2 h.noPoint
  unfold points
  rw [String.toList_ofList]
  induction piece with
  | nil => rfl
  | cons slot rest ih =>
      cases slot with
      | none =>
          rw [fill_none, List.count_append, htag, ih, List.count_cons_of_ne (by simp), Nat.zero_add]
      | some c =>
          rw [fill_some, List.count_cons, ih, List.count_cons]
          simp

section Tags

variable {tag other : List Char} (h : IsPlain tag) (h' : IsPlain other)

include h h'

/-- The shape of a step does not depend on the tag. -/
theorem shape_component (piece : List Slot) :
    (component tag piece).map shape = (component other piece).map shape := by
  by_cases hslot : none ∈ piece
  · rw [component_of_slot h hslot, component_of_slot h' hslot, Option.map_some, Option.map_some,
      shape, shape, bare, bare, points_fill h, points_fill h']
  · rw [component_of_no_slot hslot]

/-- Different tags give steps of the same shapes. -/
theorem shapes_components (pieces : List (List Slot)) :
    (pieces.filterMap (component tag)).map shape =
      (pieces.filterMap (component other)).map shape := by
  rw [List.map_filterMap, List.map_filterMap]
  congr 1
  funext piece
  exact shape_component h h' piece

end Tags

/-- **Names of different languages have steps of the same shapes.** -/
theorem shapes_resolve {language other : Language} (h : language.IsRead) (h' : other.IsRead)
    (template base : String) :
    (stepsOf (piecesOf (resolve template base language.tag).toList)).map shape =
      (stepsOf (piecesOf (resolve template base other.tag).toList)).map shape := by
  rw [stepsOf_resolve h, stepsOf_resolve h']
  exact shapes_components (isPlain_tag h) (isPlain_tag h') _

theorem eq_of_filterMap_eq {α β : Type} {f g : α → Option β} {items : List α}
    (hsame : ∀ a, (f a).isSome = (g a).isSome) (h : items.filterMap f = items.filterMap g) :
    ∀ a ∈ items, f a = g a := by
  induction items with
  | nil => exact fun a ha => nomatch ha
  | cons item items ih =>
      rw [List.filterMap_cons, List.filterMap_cons] at h
      have hitem := hsame item
      intro a ha
      cases hf : f item with
      | none =>
          rw [hf] at h hitem
          have hg : g item = none := by simpa using hitem.symm
          rw [hg] at h
          rcases List.mem_cons.1 ha with rfl | ha
          · rw [hf, hg]
          · exact ih h a ha
      | some b =>
          rw [hf] at h hitem
          obtain ⟨b', hg⟩ := Option.isSome_iff_exists.1 hitem.symm
          rw [hg] at h
          rcases List.mem_cons.1 ha with rfl | ha
          · rw [hf, hg, (List.cons.inj h).1]
          · exact ih (List.cons.inj h).2 a ha

/-- The steps of a text with a slot tell the tag. -/
theorem tag_of_components {tag other : List Char} (h : IsPlain tag) (h' : IsPlain other)
    {template : List Slot} (hslot : none ∈ template)
    (hsteps : (slotPieces template).filterMap (component tag) =
      (slotPieces template).filterMap (component other)) : tag = other := by
  have hsame : ∀ piece, (component tag piece).isSome = (component other piece).isSome := by
    intro piece
    have hshape := congrArg Option.isSome (shape_component h h' piece)
    rw [Option.isSome_map, Option.isSome_map] at hshape
    exact hshape
  obtain ⟨piece, hpiece, hmem⟩ := exists_piece_of_slot hslot
  have hcomponent := eq_of_filterMap_eq hsame hsteps piece hpiece
  rw [component_of_slot h hmem, component_of_slot h' hmem, Option.some_inj,
    Component.name.injEq, String.ofList_inj] at hcomponent
  exact tag_of_fill hmem hcomponent

/-- **The steps of a name with a slot tell its language.** -/
theorem language_of_steps {language other : Language} (h : language.IsRead) (h' : other.IsRead)
    {template base : String} (hslot : none ∈ nameSlots template base)
    (hsteps : stepsOf (piecesOf (resolve template base language.tag).toList) =
      stepsOf (piecesOf (resolve template base other.tag).toList)) : language = other := by
  rw [stepsOf_resolve h, stepsOf_resolve h'] at hsteps
  have htag := tag_of_components (isPlain_tag h) (isPlain_tag h') hslot hsteps
  exact Language.eq_of_tag h h' (String.toList_inj.1 htag)

/-- Whether a name is absolute does not depend on the language. -/
theorem isAbsolute_resolve {language : Language} (h : language.IsRead) (other : Language)
    {template base : String}
    (habsolute : (Path.mk (resolve template base language.tag)).isAbsolute) :
    (Path.mk (resolve template base other.tag)).isAbsolute := by
  have htext := Path.text_eq habsolute
  have hchars := toList_resolve template base language.tag
  have hother := toList_resolve template base other.tag
  rw [htext] at hchars
  cases hslots : nameSlots template base with
  | nil =>
      rw [hslots] at hchars
      cases hchars
  | cons slot rest =>
      rw [hslots] at hchars hother
      cases slot with
      | none =>
          rw [fill_none] at hchars
          cases htag : language.tag.toList with
          | nil => exact absurd htag (Language.tag_ne_nil h)
          | cons c cs =>
              rw [htag] at hchars
              have hslash : '/' ∈ language.tag.toList := by
                rw [htag, (List.cons.inj hchars).1]
                simp
              exact absurd hslash (not_mem_tag h (by decide))
      | some c =>
          rw [fill_some] at hchars hother
          rw [← (List.cons.inj hchars).1] at hother
          exact Path.isAbsolute_of_text _ hother

/-! ## Names that do not go up -/

theorem fill_placeholder (cs : List Char) :
    fill ['{', 'l', 'a', 'n', 'g', '}'] (slots cs) = cs := by
  fun_induction slots cs with
  | case1 => rfl
  | case2 rest ih => rw [fill_none, ih]; rfl
  | case3 c rest hne ih => rw [fill_some, ih]

/-- If no piece of the template goes up, all steps of a name are names. -/
theorem name_of_mem_steps {language : Language} (h : language.IsRead) {template base : String}
    (hup : ".." ∉ piecesOf (fillBase base.toList template.toList)) {step : Component}
    (hstep : step ∈ stepsOf (piecesOf (resolve template base language.tag).toList)) :
    ∃ name, step = .name name := by
  rw [stepsOf_resolve h] at hstep
  obtain ⟨piece, hpiece, hcomponent⟩ := List.mem_filterMap.1 hstep
  by_cases hslot : none ∈ piece
  · rw [component_of_slot (isPlain_tag h) hslot] at hcomponent
    exact ⟨_, (Option.some.inj hcomponent).symm⟩
  · rw [component_of_no_slot hslot _ ['{', 'l', 'a', 'n', 'g', '}'], component] at hcomponent
    unfold pieceComponent? at hcomponent
    split at hcomponent
    · cases hcomponent
    · split at hcomponent
      · rename_i htext
        refine absurd ?_ hup
        rw [← beq_iff_eq.1 htext, piecesOf,
          ← fill_placeholder (fillBase base.toList template.toList),
          splitSlashes_fill (by decide), List.map_map]
        exact List.mem_map.2 ⟨piece, hpiece, rfl⟩
      · exact ⟨_, (Option.some.inj hcomponent).symm⟩

end KeysetBundle.TargetName
