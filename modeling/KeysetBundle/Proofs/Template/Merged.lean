import Mathlib.Data.List.Chain
import KeysetBundle.Template.Parser

/-!
# Merged parts

A template is read character by character, and neighbouring characters make up
one text.  So no text among the parts is empty and none follows another
(`Merged`), and there is only one way to put characters and substitutions
together like this.

Main result.

- `ofElements_eq_iff`: the parts of a template are the merged parts with its
  characters and substitutions.
-/

namespace KeysetBundle.Template

/-- The characters and substitutions of a part. -/
def Part.elements : Part → List Element
  | .text value => value.toList.map .char
  | .subst value => [.subst value]

/-- Whether a part is a text. -/
def Part.IsText : Part → Prop
  | .text _ => True
  | .subst _ => False

/-- Neighbouring characters are in one text: no text is empty, and none follows another. -/
structure Merged (parts : List Part) : Prop where
  /-- No text is empty. -/
  nonempty : .text "" ∉ parts
  /-- No text follows a text. -/
  apart : parts.IsChain fun part next => part.IsText → ¬next.IsText

namespace Merged

variable {parts : List Part}

theorem nil : Merged [] := ⟨by simp, .nil⟩

theorem tail {part : Part} (h : Merged (part :: parts)) : Merged parts where
  nonempty := fun hmem => h.nonempty (by simp [hmem])
  apart := by
    cases h.apart with
    | singleton => exact .nil
    | cons_cons _ hrest => exact hrest

/-- A substitution may stand before parts. -/
theorem cons_subst (h : Merged parts) (value : Substitution) : Merged (.subst value :: parts) where
  nonempty := by simpa using h.nonempty
  apart := by
    cases parts with
    | nil => exact .singleton _
    | cons next parts => exact .cons_cons nofun h.apart

/-- A text may stand before parts that do not start with one. -/
theorem cons_text (h : Merged parts) {value : String} (hvalue : value ≠ "")
    (hhead : ∀ part ∈ parts.head?, ¬part.IsText) : Merged (.text value :: parts) where
  nonempty := by simpa [hvalue.symm] using h.nonempty
  apart := by
    cases parts with
    | nil => exact .singleton _
    | cons next parts => exact .cons_cons (fun _ => hhead next rfl) h.apart

theorem ne_empty {value : String} (h : Merged (.text value :: parts)) : value ≠ "" := by
  rintro rfl
  exact h.nonempty (by simp)

theorem head_of_text {value : String} (h : Merged (.text value :: parts)) :
    ∀ part ∈ parts.head?, ¬part.IsText := by
  intro part hpart
  cases h.apart with
  | singleton => cases hpart
  | cons_cons hnext _ =>
      cases hpart
      exact hnext trivial

end Merged

/-! ## Gathering characters -/

theorem ofList_ne_empty (c : Char) (cs : List Char) : String.ofList (c :: cs) ≠ "" := by
  intro h
  have hchars := congrArg String.toList h
  rw [String.toList_ofList] at hchars
  cases hchars

theorem ofElements_subst (value : Substitution) (rest : List Element) :
    Part.ofElements (.subst value :: rest) = .subst value :: Part.ofElements rest := rfl

theorem gather_chars (cs : List Char) (rest : List Element) :
    gather (cs.map .char ++ rest) = (cs ++ (gather rest).1, (gather rest).2) := by
  induction cs with
  | nil => rfl
  | cons c cs ih =>
      rw [List.map_cons, List.cons_append, gather, ih]
      rfl

/-- What is gathered is all there is: characters, then merged parts that start with a
substitution. -/
structure Gathered (elements : List Element) (chars : List Char) (parts : List Part) : Prop where
  /-- Nothing is left out. -/
  elements : chars.map .char ++ parts.flatMap Part.elements = elements
  /-- The parts are merged. -/
  merged : Merged parts
  /-- They start with a substitution. -/
  head : ∀ part ∈ parts.head?, ¬part.IsText

theorem Gathered.parts {elements : List Element} {chars : List Char} {parts : List Part}
    (h : Gathered elements chars parts) :
    Merged (if chars.isEmpty then parts else .text (String.ofList chars) :: parts) ∧
      (if chars.isEmpty then parts else .text (String.ofList chars) :: parts).flatMap
        Part.elements = elements := by
  cases chars with
  | nil => exact ⟨h.merged, h.elements⟩
  | cons c cs =>
      refine ⟨h.merged.cons_text (ofList_ne_empty c cs) h.head, ?_⟩
      have hchars : (Part.text (String.ofList (c :: cs))).elements = (c :: cs).map .char := by
        rw [Part.elements, String.toList_ofList]
      have helements := h.elements
      rw [← hchars] at helements
      exact helements

theorem gathered_gather (elements : List Element) :
    Gathered elements (gather elements).1 (gather elements).2 := by
  induction elements with
  | nil => exact ⟨rfl, .nil, by simp [gather]⟩
  | cons element rest ih =>
      cases element with
      | char c => exact ⟨congrArg (Element.char c :: ·) ih.elements, ih.merged, ih.head⟩
      | subst value =>
          obtain ⟨hmerged, helements⟩ := ih.parts
          refine ⟨congrArg (Element.subst value :: ·) helements, hmerged.cons_subst value, ?_⟩
          intro part hpart
          cases hpart
          exact id

theorem ofElements_elements {parts : List Part} (h : Merged parts) :
    Part.ofElements (parts.flatMap Part.elements) = parts := by
  induction parts with
  | nil => rfl
  | cons part parts ih =>
      have hrest := ih h.tail
      cases part with
      | subst value =>
          show Part.ofElements (.subst value :: parts.flatMap Part.elements) = _
          rw [ofElements_subst, hrest]
      | text value =>
          -- the parts behind a text start with a substitution, if there are any
          have hgather : gather (parts.flatMap Part.elements) = ([], parts) := by
            cases parts with
            | nil => rfl
            | cons next parts =>
                cases next with
                | text other => exact absurd trivial (h.head_of_text (.text other) rfl)
                | subst other =>
                    exact congrArg (Prod.mk []) hrest
          have hvalue : value.toList.isEmpty = false := by
            rw [List.isEmpty_eq_false_iff]
            intro hnil
            exact h.ne_empty (String.toList_eq_nil_iff.1 hnil)
          show Part.ofElements (value.toList.map .char ++ parts.flatMap Part.elements) = _
          simp [Part.ofElements, gather_chars, hgather, hvalue]

/-- **Characters and substitutions make up one list of merged parts.** -/
theorem ofElements_eq_iff {elements : List Element} {parts : List Part} :
    Part.ofElements elements = parts ↔
      Merged parts ∧ parts.flatMap Part.elements = elements := by
  constructor
  · rintro rfl
    exact (gathered_gather elements).parts
  · rintro ⟨hmerged, rfl⟩
    exact ofElements_elements hmerged

end KeysetBundle.Template
