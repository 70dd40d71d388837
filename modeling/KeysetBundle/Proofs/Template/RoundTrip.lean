import KeysetBundle.Proofs.Template.Acceptance

/-!
# Templates that are written from their parts

Parts can be written as a template: a backslash goes before what would not
stand for itself, and blanks go between the tokens of a call.  A backslash is
undone where it is read, a blank ends a token, and nothing else is added, so
the template is read as the parts it was written from, apart from the places
of calls, which are those of their braces in what was written.

Main results.

- `derives_items`: what is written is a template of the grammar.
- `parse_toTemplate`: it is read as the parts, with the places of the calls.
- `toTemplate_roundTrip`: the same for all parts that can be written, among
  which are those of every template that was read.
-/

namespace KeysetBundle.Template

open KeysetBundle.Text (isBlank)

/-! ## Writing parts -/

/-- A text with a backslash before each of its special characters. -/
def escape (special cs : List Char) : List Char :=
  cs.flatMap fun c => if c ∈ special then ['\\', c] else [c]

/-- The characters that do not stand for themselves outside braces. -/
def outsideSpecials : List Char := ['\\', '{', '}']

/-- The characters that do not stand for themselves between double quotes. -/
def quotedSpecials : List Char := ['\\', '"']

/-- An argument as it is written, with a text in double quotes. -/
def Argument.written : Argument → List Char
  | .param path => path.dotted.toList
  | .text value => '"' :: (escape quotedSpecials value.toList ++ ['"'])
  | .number word => word.toList

/-- A substitution as it is written, with a blank before each argument. -/
def Substitution.written : Substitution → List Char
  | .param path => '{' :: (path.dotted.toList ++ ['}'])
  | .call function arguments _ =>
    '{' :: (function.toList ++ arguments.flatMap (fun argument => ' ' :: argument.written) ++ ['}'])

/-- A part as it is written. -/
def Part.written : Part → List Char
  | .text value => escape outsideSpecials value.toList
  | .subst value => value.written

/-- The template that is written from parts. -/
def toTemplate (parts : List Part) : String := String.ofList (parts.flatMap Part.written)

/-! ## Parts that can be written -/

/-- What may be an argument: a path of names, a text, or the spelling of a number. -/
def Argument.IsPrintable : Argument → Prop
  | .param path => path.WellFormed
  | .text _ => True
  | .number word => IsNumeral word.toList

/-- What may stand between braces: a path of names, or a name with at least one argument. -/
def Substitution.IsPrintable : Substitution → Prop
  | .param path => path.WellFormed
  | .call function arguments _ => isName function.toList ∧ arguments ≠ [] ∧
      ∀ argument ∈ arguments, argument.IsPrintable

/-- Parts that a template can have: merged ones, with substitutions that can stand in braces. -/
structure Printable (parts : List Part) : Prop where
  /-- No text is empty, and none follows another. -/
  merged : Merged parts
  /-- The substitutions can stand in braces. -/
  substitution : ∀ value, .subst value ∈ parts → value.IsPrintable

theorem Printable.tail {part : Part} {parts : List Part} (h : Printable (part :: parts)) :
    Printable parts where
  merged := h.merged.tail
  substitution := fun value hvalue => h.substitution value (by simp [hvalue])

/-! ## Places -/

/-- A substitution without the place of a call. -/
def Substitution.unplaced : Substitution → Substitution
  | .param path => .param path
  | .call function arguments _ => .call function arguments 0

/-- A part without the place of a call. -/
def Part.unplaced : Part → Part
  | .text value => .text value
  | .subst value => .subst value.unplaced

/-- A substitution whose brace is at the given place. -/
def Substitution.placed (offset : Nat) : Substitution → Substitution
  | .param path => .param path
  | .call function arguments _ => .call function arguments offset

/-- A part that starts at the given place. -/
def Part.placed (offset : Nat) : Part → Part
  | .text value => .text value
  | .subst value => .subst (value.placed offset)

/-- Parts that are written from a place on. -/
def placed : Nat → List Part → List Part
  | _, [] => []
  | offset, part :: parts =>
    part.placed offset :: placed (offset + utf8Length part.written) parts

@[simp] theorem Substitution.written_placed (offset : Nat) (value : Substitution) :
    (value.placed offset).written = value.written := by
  cases value <;> rfl

@[simp] theorem Part.written_placed (offset : Nat) (part : Part) :
    (part.placed offset).written = part.written := by
  cases part with
  | text value => rfl
  | subst value => exact Substitution.written_placed offset value

theorem Part.unplaced_placed (offset : Nat) (part : Part) :
    (part.placed offset).unplaced = part.unplaced := by
  cases part with
  | text value => rfl
  | subst value => cases value <;> rfl

theorem map_unplaced_placed (offset : Nat) (parts : List Part) :
    (placed offset parts).map Part.unplaced = parts.map Part.unplaced := by
  induction parts generalizing offset with
  | nil => rfl
  | cons part parts ih => simp only [placed, List.map_cons, Part.unplaced_placed, ih]

/-- A call among placed parts has the place behind all that is written before it. -/
theorem offset_of_placed {offset place : Nat} {parts before after : List Part} {function : String}
    {arguments : List Argument}
    (h : placed offset parts = before ++ .subst (.call function arguments place) :: after) :
    place = offset + utf8Length (before.flatMap Part.written) := by
  induction before generalizing offset parts with
  | nil =>
      cases parts with
      | nil => cases h
      | cons part parts =>
          have hpart : part.placed offset = .subst (.call function arguments place) :=
            (List.cons.inj h).1
          cases part with
          | text value => cases hpart
          | subst value =>
              cases value with
              | param path => cases hpart
              | call name others other =>
                  cases hpart
                  rfl
  | cons first before ih =>
      cases parts with
      | nil => cases h
      | cons part parts =>
          obtain ⟨hfirst, hrest⟩ := List.cons.inj h
          have hplace := ih hrest
          rw [hplace, ← hfirst, List.flatMap_cons, Part.written_placed, utf8Length_append]
          omega

/-! ## Characters of tokens -/

/-- The printable ASCII characters between `$` and `z` but for the single quote are those of
words. -/
theorem isWordChar_of_toNat {c : Char} (hlow : 36 ≤ c.toNat) (hhigh : c.toNat ≤ 122)
    (hquote : c ≠ '\'') : isWordChar c := by
  have hne : ∀ d : Char, d.toNat < 36 ∨ 122 < d.toNat → c ≠ d := by
    rintro d hd rfl
    omega
  have hblank : ¬isBlank c := by
    simp only [isBlank, Text.inRanges, Text.blankRanges, List.any_cons, List.any_nil]
    simp
    omega
  refine isWordChar_iff.2 ⟨hblank, hne '}' (by decide), hne '{' (by decide), ?_⟩
  intro h
  rcases h with h | h
  · exact hne '"' (by decide) h
  · exact hquote h

theorem isWordChar_of_isDigit {c : Char} (h : c.isDigit) : isWordChar c := by
  have hrange := Decimal.toNat_of_isDigit h
  refine isWordChar_of_toNat (by omega) (by omega) ?_
  rintro rfl
  exact absurd h (by decide)

theorem isWordChar_of_isNameStart {c : Char} (h : isNameStart c) : isWordChar c := by
  have hrange := Script.toNat_of_isNameStart h
  refine isWordChar_of_toNat (by omega) (by omega) ?_
  rintro rfl
  exact absurd h (by decide)

theorem isWordStart_of_isNameStart {c : Char} (h : isNameStart c) : isWordStart c := by
  have hupper : (65, 90) ∈ Text.alphabeticRanges := by decide +kernel
  have hlower : (97, 122) ∈ Text.alphabeticRanges := by decide +kernel
  have hname := h
  simp only [isNameStart, Bool.or_eq_true, beq_iff_eq] at hname
  simp only [isWordStart, Text.isAlphabetic, Text.inRanges, Bool.or_eq_true, beq_iff_eq,
    List.any_eq_true, Bool.and_eq_true, decide_eq_true_eq]
  rcases hname with (halpha | hunderscore) | hdollar
  · rcases Script.toNat_of_isNameStart h with hc | hc | hc | hc
    · exact .inl (.inl ⟨_, hupper, hc⟩)
    · exact .inl (.inl ⟨_, hlower, hc⟩)
    · exact .inl (.inr (Char.toNat_inj.1 hc))
    · exact .inr (Char.toNat_inj.1 hc)
  · exact .inl (.inr hunderscore)
  · exact .inr hdollar

theorem all_isWordChar_of_isDigits {cs : List Char} (h : isDigits cs) :
    ∀ c ∈ cs, isWordChar c := by
  intro c hc
  rw [isDigits, Bool.and_eq_true] at h
  exact isWordChar_of_isDigit (List.all_eq_true.1 h.2 c hc)

theorem all_isWordChar_of_isName {cs : List Char} (h : isName cs) : ∀ c ∈ cs, isWordChar c := by
  intro c hc
  cases cs with
  | nil => cases h
  | cons first rest =>
      simp only [isName, Bool.and_eq_true] at h
      rcases List.mem_cons.1 hc with rfl | hc
      · exact isWordChar_of_isNameStart h.1
      · rcases Script.isNamePart_cases (List.all_eq_true.1 h.2 c hc) with hstart | hdigit
        · exact isWordChar_of_isNameStart hstart
        · exact isWordChar_of_isDigit hdigit

theorem isWordChar_dot : isWordChar '.' := by decide

theorem IsNumeral.all_isWordChar {word : List Char} (h : IsNumeral word) :
    ∀ c ∈ word, isWordChar c := by
  obtain ⟨sign, whole, fraction, rfl, hsign, hwhole, hfraction⟩ := h
  intro c hc
  rcases List.mem_append.1 hc with hc | hc
  · rcases List.mem_append.1 hc with hc | hc
    · rcases hsign with rfl | rfl
      · cases hc
      · rw [List.mem_singleton.1 hc]
        decide
    · exact all_isWordChar_of_isDigits hwhole c hc
  · rcases hfraction with rfl | ⟨digits, hdigits, rfl⟩
    · cases hc
    · rcases List.mem_cons.1 hc with rfl | hc
      · exact isWordChar_dot
      · exact all_isWordChar_of_isDigits hdigits c hc

theorem IsPath.all_isWordChar {word : List Char} {segments : List (List Char)}
    (h : IsPath word segments) : ∀ c ∈ word, isWordChar c := by
  obtain ⟨-, hnames, rfl⟩ := h
  induction segments with
  | nil => simp
  | cons segment segments ih =>
      have hsegment := all_isWordChar_of_isName (hnames segment (by simp))
      have hrest := ih fun other hother => hnames other (by simp [hother])
      cases segments with
      | nil => rwa [List.intercalate_singleton]
      | cons next segments =>
          rw [List.intercalate_cons_cons]
          intro c hc
          rcases List.mem_append.1 hc with hc | hc
          · rcases List.mem_append.1 hc with hc | hc
            · exact hsegment c hc
            · rw [List.mem_singleton.1 hc]
              exact isWordChar_dot
          · exact hrest c hc

/-! ## Tokens -/

theorem IsNumeral.isValid {word : List Char} (h : IsNumeral word) : (Lexeme.run word).IsValid := by
  have hchars := h.all_isWordChar
  obtain ⟨c, rest, rfl, hstart⟩ := h.exists_head
  exact .number hchars hstart h

theorem IsPath.isValid {word : List Char} {segments : List (List Char)} (h : IsPath word segments) :
    (Lexeme.run word).IsValid := by
  have hchars := h.all_isWordChar
  obtain ⟨c, rest, rfl, hc⟩ := h.exists_head
  exact .word hchars (not_startsNumeral_of_isNameStart hc) (isWordStart_of_isNameStart hc)

theorem isPath_of_isName {word : List Char} (h : isName word) : IsPath word [word] :=
  ⟨by simp, by simpa using h, List.intercalate_singleton.symm⟩

/-- The names of a path, joined by dots, are written as the path. -/
theorem ParamPath.isPath {path : ParamPath} (h : path.WellFormed) :
    IsPath path.dotted.toList (path.segments.map String.toList) := by
  refine ⟨by simpa using h.1, ?_, ?_⟩
  · intro segment hsegment
    obtain ⟨name, hname, rfl⟩ := List.mem_map.1 hsegment
    exact h.2 name hname
  · simp [ParamPath.dotted, String.toList_intercalate]

theorem pathOf_map_toList (path : ParamPath) : pathOf (path.segments.map String.toList) = path := by
  simp [pathOf]

/-- A character behind a backslash if it is special. -/
def markOf (special : List Char) (c : Char) : Mark :=
  if c ∈ special then .escaped c else .plain c

theorem flatMap_chars_markOf (special cs : List Char) :
    (cs.map (markOf special)).flatMap Mark.chars = escape special cs := by
  rw [List.flatMap_map, escape]
  congr 1
  funext c
  by_cases hc : c ∈ special <;> simp [markOf, hc, Mark.chars]

theorem value_markOf (special : List Char) (c : Char) : (markOf special c).value = c := by
  by_cases hc : c ∈ special <;> simp [markOf, hc, Mark.value]

theorem isText_markOf (c : Char) : (markOf outsideSpecials c).IsText := by
  by_cases hc : c ∈ outsideSpecials
  · simp [markOf, hc, Mark.IsText]
  · simp only [markOf, hc, if_false, Mark.IsText]
    simpa [outsideSpecials] using hc

theorem isQuoted_markOf (c : Char) : (markOf quotedSpecials c).IsQuoted '"' := by
  by_cases hc : c ∈ quotedSpecials
  · simp [markOf, hc, Mark.IsQuoted]
  · simp only [markOf, hc, if_false, Mark.IsQuoted]
    simpa [quotedSpecials] using hc

/-- The escapes that stand for another character are not those that are written. -/
theorem quotedValue_markOf (c : Char) : (markOf quotedSpecials c).quotedValue = c := by
  by_cases hc : c ∈ quotedSpecials
  · have hspecial : c = '\\' ∨ c = '"' := by simpa [quotedSpecials] using hc
    rcases hspecial with rfl | rfl <;> decide
  · simp [markOf, hc, Mark.quotedValue]

/-- The token that an argument is written as. -/
def Argument.lexeme : Argument → Lexeme
  | .param path => .run path.dotted.toList
  | .text value => .quoted '"' (value.toList.map (markOf quotedSpecials))
  | .number word => .run word.toList

theorem Argument.chars_lexeme (argument : Argument) : argument.lexeme.chars = argument.written := by
  cases argument with
  | param path => rfl
  | text value =>
      show '"' :: (value.toList.map (markOf quotedSpecials)).flatMap Mark.chars ++ ['"'] = _
      rw [flatMap_chars_markOf]
      rfl
  | number word => rfl

theorem Argument.isValid_lexeme {argument : Argument} (h : argument.IsPrintable) :
    argument.lexeme.IsValid := by
  cases argument with
  | param path => exact (ParamPath.isPath h).isValid
  | text value =>
      refine .quoted (.inl rfl) ?_
      intro mark hmark
      obtain ⟨c, -, rfl⟩ := List.mem_map.1 hmark
      exact isQuoted_markOf c
  | number word => exact IsNumeral.isValid h

/-- The token of an argument stands for the argument. -/
theorem Argument.isArgument_lexeme {argument : Argument} (h : argument.IsPrintable) :
    IsArgument argument.lexeme argument := by
  cases argument with
  | param path =>
      have hpath := IsArgument.path (ParamPath.isPath h)
      rwa [pathOf_map_toList] at hpath
  | text value =>
      have htext := IsArgument.text '"' (value.toList.map (markOf quotedSpecials))
      have hvalue : (value.toList.map (markOf quotedSpecials)).map Mark.quotedValue =
          value.toList := by
        simp [Function.comp_def, quotedValue_markOf]
      rwa [hvalue, String.ofList_toList] at htext
  | number word =>
      have hnumber := IsArgument.number h
      rwa [String.ofList_toList] at hnumber

/-- The tokens that a substitution is written as. -/
def Substitution.lexed : Substitution → List (List Char × Lexeme)
  | .param path => [([], .run path.dotted.toList)]
  | .call function arguments _ =>
    ([], .run function.toList) :: arguments.map fun argument => ([' '], argument.lexeme)

theorem Substitution.chars_braces (value : Substitution) :
    (Item.braces value.lexed []).chars = value.written := by
  have hrun : ∀ word : List Char, (Lexeme.run word).chars = word := fun _ => rfl
  cases value with
  | param path => simp [Item.chars, lexed, tokenChars, hrun, written]
  | call function arguments offset =>
      simp [Item.chars, lexed, tokenChars, hrun, written, List.flatMap_map, Argument.chars_lexeme]

/-- Arguments are tokens, with a blank before each. -/
theorem areTokens_arguments {arguments : List Argument}
    (h : ∀ argument ∈ arguments, argument.IsPrintable) :
    AreTokens (arguments.map fun argument => ([' '], argument.lexeme)) [] where
  valid := by
    intro token htoken
    obtain ⟨argument, hargument, rfl⟩ := List.mem_map.1 htoken
    exact Argument.isValid_lexeme (h argument hargument)
  blank := by
    intro token htoken c hc
    obtain ⟨argument, -, rfl⟩ := List.mem_map.1 htoken
    rw [List.mem_singleton.1 hc]
    decide
  blankLast := by simp
  maximal := by
    apply List.Pairwise.isChain
    apply List.pairwise_of_forall_mem_list
    intro token _ next hnext _ _
    obtain ⟨argument, -, rfl⟩ := List.mem_map.1 hnext
    simp

theorem Substitution.areTokens_lexed {value : Substitution} (h : value.IsPrintable) :
    AreTokens value.lexed [] := by
  cases value with
  | param path =>
      have hnone : AreTokens [] [] := ⟨by simp, by simp, by simp, .nil⟩
      exact hnone.cons (ParamPath.isPath h).isValid fun _ next hnext => nomatch hnext
  | call function arguments offset =>
      obtain ⟨hname, -, harguments⟩ := h
      refine (areTokens_arguments harguments).cons (isPath_of_isName hname).isValid ?_
      intro _ next hnext _
      obtain ⟨argument, -, rfl⟩ := List.mem_map.1 (List.mem_of_mem_head? hnext)
      simp

/-- The tokens of a substitution stand for the substitution. -/
theorem Substitution.isSubstitution_lexed {value : Substitution} (h : value.IsPrintable)
    (offset : Nat) :
    IsSubstitution offset (value.lexed.map Prod.snd) (value.placed offset) := by
  cases value with
  | param path =>
      have hpath : IsSubstitution offset _ _ := .param (ParamPath.isPath h)
      rwa [pathOf_map_toList] at hpath
  | call function arguments place =>
      obtain ⟨hname, hsome, harguments⟩ := h
      have hlexemes : List.Forall₂ IsArgument (arguments.map Argument.lexeme) arguments := by
        rw [List.forall₂_map_left_iff, List.forall₂_same]
        exact fun argument hargument => Argument.isArgument_lexeme (harguments argument hargument)
      have hcall : IsSubstitution offset _ _ := .call hname (by simpa using hsome) hlexemes
      rw [String.ofList_toList] at hcall
      simpa [lexed, placed, Function.comp_def] using hcall

/-! ## Templates -/

/-- What a part is written as. -/
def Part.items : Part → List Item
  | .text value => value.toList.map fun c => .mark (markOf outsideSpecials c)
  | .subst value => [.braces value.lexed []]

theorem written_items (part : Part) : Template.written part.items = part.written := by
  cases part with
  | text value =>
      show Template.written (value.toList.map fun c => .mark (markOf outsideSpecials c)) =
        escape outsideSpecials value.toList
      rw [← flatMap_chars_markOf, Template.written, List.flatMap_map, List.flatMap_map]
      rfl
  | subst value =>
      show [Item.braces value.lexed []].flatMap Item.chars = value.written
      rw [List.flatMap_singleton, Substitution.chars_braces]

theorem written_flatMap_items (parts : List Part) :
    Template.written (parts.flatMap Part.items) = parts.flatMap Part.written := by
  rw [Template.written, List.flatMap_assoc]
  congr 1
  funext part
  exact written_items part

/-- A text may be written before a template. -/
theorem Derives.text (cs : List Char) {offset : Nat} {items : List Item} {elements : List Element}
    (h : Derives (offset + utf8Length (escape outsideSpecials cs)) items elements) :
    Derives offset ((cs.map fun c => .mark (markOf outsideSpecials c)) ++ items)
      (cs.map .char ++ elements) := by
  induction cs generalizing offset with
  | nil => exact h
  | cons c cs ih =>
      have hchars : escape outsideSpecials (c :: cs) =
          (markOf outsideSpecials c).chars ++ escape outsideSpecials cs := by
        rw [← flatMap_chars_markOf, List.map_cons, List.flatMap_cons, flatMap_chars_markOf]
      rw [hchars, utf8Length_append, ← Nat.add_assoc] at h
      have hmark := Derives.mark (isText_markOf c) (ih h)
      rwa [value_markOf] at hmark

/-- **What is written is a template of the grammar.** -/
theorem derives_items {parts : List Part} (h : Printable parts) (offset : Nat) :
    Derives offset (parts.flatMap Part.items) ((placed offset parts).flatMap Part.elements) := by
  induction parts generalizing offset with
  | nil => exact .nil offset
  | cons part parts ih =>
      have hrest := ih h.tail (offset + utf8Length part.written)
      cases part with
      | text value => exact .text value.toList hrest
      | subst value =>
          have hvalue := h.substitution value (by simp)
          refine .braces (Substitution.areTokens_lexed hvalue)
            (Substitution.isSubstitution_lexed hvalue offset) ?_
          rw [Substitution.chars_braces]
          exact hrest

/-- Whether parts are merged does not depend on the places of calls. -/
theorem merged_map_unplaced (parts : List Part) :
    Merged (parts.map Part.unplaced) ↔ Merged parts := by
  have hisText : ∀ part : Part, part.unplaced.IsText ↔ part.IsText := by
    intro part
    cases part <;> exact Iff.rfl
  have htext : ∀ part : Part, part.unplaced = .text "" ↔ part = .text "" := by
    intro part
    cases part <;> simp [Part.unplaced]
  have hempty : .text "" ∈ parts.map Part.unplaced ↔ .text "" ∈ parts := by
    simp [List.mem_map, htext]
  have hapart := List.isChain_map (R := fun part next : Part => part.IsText → ¬next.IsText)
    Part.unplaced (l := parts)
  simp only [hisText] at hapart
  constructor
  · intro h
    exact ⟨fun hmem => h.nonempty (hempty.2 hmem), hapart.1 h.apart⟩
  · intro h
    exact ⟨fun hmem => h.nonempty (hempty.1 hmem), hapart.2 h.apart⟩

theorem Merged.placed {parts : List Part} (h : Merged parts) (offset : Nat) :
    Merged (placed offset parts) := by
  rw [← merged_map_unplaced, map_unplaced_placed, merged_map_unplaced]
  exact h

/-- **A template is read as the parts it was written from**, with the places of its calls. -/
theorem parse_toTemplate {parts : List Part} (h : Printable parts) :
    parse (toTemplate parts) = .ok (placed 0 parts) := by
  have hread := (derives_items h 0).readElements_written
  rw [written_flatMap_items] at hread
  rw [parse, toTemplate, String.toList_ofList]
  exact map_eq_ok.2 ⟨_, hread, ofElements_eq_iff.2 ⟨h.merged.placed 0, rfl⟩⟩

/-! ## Parts that were read -/

theorem wellFormed_pathOf {word : List Char} {segments : List (List Char)}
    (h : IsPath word segments) : (pathOf segments).WellFormed := by
  refine ⟨by simpa [pathOf] using h.1, ?_⟩
  intro name hname
  obtain ⟨segment, hsegment, rfl⟩ := List.mem_map.1 hname
  rw [String.toList_ofList]
  exact h.2.1 segment hsegment

theorem IsArgument.isPrintable {lexeme : Lexeme} {argument : Argument}
    (h : IsArgument lexeme argument) : argument.IsPrintable := by
  cases h with
  | path hpath => exact wellFormed_pathOf hpath
  | text quote marks => exact trivial
  | number hnumeral =>
      show IsNumeral (String.ofList _).toList
      rwa [String.toList_ofList]

theorem IsSubstitution.isPrintable {offset : Nat} {lexemes : List Lexeme} {value : Substitution}
    (h : IsSubstitution offset lexemes value) : value.IsPrintable := by
  cases h with
  | param hpath => exact wellFormed_pathOf hpath
  | @call name lexemes arguments hname hsome harguments =>
      refine ⟨by rwa [String.toList_ofList], ?_, ?_⟩
      · rintro rfl
        cases harguments
        exact hsome rfl
      · clear hsome
        induction harguments with
        | nil => simp
        | cons hfirst hrest ih =>
            intro argument hargument
            rcases List.mem_cons.1 hargument with rfl | hargument
            · exact hfirst.isPrintable
            · exact ih argument hargument

theorem Derives.isPrintable {offset : Nat} {items : List Item} {elements : List Element}
    (h : Derives offset items elements) :
    ∀ value, .subst value ∈ elements → value.IsPrintable := by
  induction h with
  | nil => simp
  | mark hm hrest ih => simpa using ih
  | braces htokens hvalue hrest ih =>
      intro value hmem
      rcases List.mem_cons.1 hmem with heq | hmem
      · cases heq
        exact hvalue.isPrintable
      · exact ih value hmem

/-- **What was read can be written.** -/
theorem printable_of_parse {template : String} {parts : List Part}
    (h : parse template = .ok parts) : Printable parts := by
  obtain ⟨elements, helements, hparts⟩ := map_eq_ok.1 h
  obtain ⟨items, -, hderives⟩ := exists_derives_of_readElements helements
  obtain ⟨hmerged, rfl⟩ := ofElements_eq_iff.1 hparts
  refine ⟨hmerged, fun value hvalue => hderives.isPrintable value ?_⟩
  exact List.mem_flatMap.2 ⟨.subst value, hvalue, by simp [Part.elements]⟩

/-! ## The round trip -/

theorem utf8ByteSize_ofList (cs : List Char) : (String.ofList cs).utf8ByteSize = utf8Length cs := by
  induction cs with
  | nil => rfl
  | cons c cs ih =>
      rw [String.ofList_cons, String.utf8ByteSize_append, String.utf8ByteSize_singleton, ih,
        utf8Length_cons]

/-- **Writing and reading.**  Parts that can be written are read back as they are; the place of a
call is that of its brace in what was written. The parts of a template that was read can be written,
so they are read back as well, up to the places of calls. -/
theorem toTemplate_roundTrip :
    (∀ parts, Printable parts → ∃ read, parse (toTemplate parts) = .ok read ∧
      read.map Part.unplaced = parts.map Part.unplaced ∧
      ∀ before function arguments place after,
        read = before ++ .subst (.call function arguments place) :: after →
          place = (toTemplate before).utf8ByteSize) ∧
    ∀ template parts, parse template = .ok parts → Printable parts ∧
      ∃ again, parse (toTemplate parts) = .ok again ∧
        again.map Part.unplaced = parts.map Part.unplaced := by
  have hread : ∀ parts, Printable parts → ∃ read, parse (toTemplate parts) = .ok read ∧
      read.map Part.unplaced = parts.map Part.unplaced ∧ read = placed 0 parts :=
    fun parts h => ⟨_, parse_toTemplate h, map_unplaced_placed 0 parts, rfl⟩
  constructor
  · intro parts h
    obtain ⟨read, hparse, hsame, hplaced⟩ := hread parts h
    refine ⟨read, hparse, hsame, ?_⟩
    intro before function arguments place after hsplit
    have hplace := offset_of_placed (hplaced.symm.trans hsplit)
    rw [toTemplate, utf8ByteSize_ofList, hplace, Nat.zero_add]
  · intro template parts h
    have hprintable := printable_of_parse h
    obtain ⟨again, hparse, hsame, -⟩ := hread parts hprintable
    exact ⟨hprintable, again, hparse, hsame⟩

end KeysetBundle.Template
