import KeysetBundle.Proofs.Template.RoundTrip

/-!
# Templates one behind the other

A template that was read leaves nothing open: no escape, no brace, no token.
So what follows it is read as if it stood alone, but for the places of calls
and errors, which are counted from the start of the whole text.  The only
trace of the seam is a text on either side of it, and these two are one text.

Main results.

- `readElements_moved`: a template that starts later is read the same, with its
  places moved.
- `readElements_append`: what follows a template is read on its own.
- `parse_append`: the parts, or the error, of two templates one behind the other.
-/

namespace KeysetBundle.Template

/-! ## Moved places -/

/-- A token that starts later. -/
def Token.moved (distance : Nat) : Token → Token
  | .word chars offset => .word chars (offset + distance)
  | .text chars => .text chars
  | .number chars => .number chars

/-- A substitution whose brace is later. -/
def Substitution.moved (distance : Nat) : Substitution → Substitution
  | .param path => .param path
  | .call function arguments offset => .call function arguments (offset + distance)

/-- A character, or a substitution whose brace is later. -/
def Element.moved (distance : Nat) : Element → Element
  | .char c => .char c
  | .subst value => .subst (value.moved distance)

/-- A text, or a substitution whose brace is later. -/
def Part.moved (distance : Nat) : Part → Part
  | .text value => .text value
  | .subst value => .subst (value.moved distance)

/-- A result whose places are later: the value is changed by `f`, an error is that of a later
place. -/
def later {α β : Type} (distance : Nat) (f : α → β) : Except Error α → Except Error β
  | .ok a => .ok (f a)
  | .error e => .error ⟨e.fault, e.offset + distance⟩

/-- A sequence of two computations is later if both are. -/
theorem later_bind {α β α' β' : Type} {distance : Nat} {f : α → α'} {g : β → β'}
    {next : α → Except Error β} {next' : α' → Except Error β'} {x : Except Error α}
    {x' : Except Error α'} (hx : x' = later distance f x)
    (hnext : ∀ a, x = .ok a → next' (f a) = later distance g (next a)) :
    (x' >>= next') = later distance g (x >>= next) := by
  subst hx
  cases x with
  | error e => rfl
  | ok a => exact hnext a rfl

/-- What is read between braces, with the places moved. -/
def movedTokens (distance : Nat) (read : List Token × Nat × List Char) :
    List Token × Nat × List Char :=
  (read.1.map (Token.moved distance), read.2.1 + distance, read.2.2)

theorem continued_later {distance : Nat} (token : Token)
    {x : Except Error (List Token × Nat × List Char)} :
    continued (token.moved distance) (later distance (movedTokens distance) x) =
      later distance (movedTokens distance) (continued token x) := by
  cases x <;> rfl

/-- **Tokens that start later are read the same.** -/
theorem readTokens_moved (distance opening offset : Nat) (cs : List Char) :
    readTokens (opening + distance) (offset + distance) cs =
      later distance (movedTokens distance) (readTokens opening offset cs) := by
  fun_induction readTokens opening offset cs with
  | case1 =>
      rw [readTokens.eq_def]
      rfl
  | case2 offset c rest hblank ih =>
      rw [readTokens.eq_def]
      simp only [hblank, if_true]
      rw [← ih, Nat.add_right_comm]
  | case3 offset rest hblank =>
      rw [readTokens.eq_def]
      simp only [hblank, Bool.false_eq_true, if_false, if_true, later, movedTokens,
        Nat.add_right_comm, List.map_nil]
  | case4 offset rest hblank hclose =>
      rw [readTokens.eq_def]
      simp only [hblank, hclose, Bool.false_eq_true, if_false, if_true, later]
  | case5 offset c rest hblank hclose hopen hquote hread =>
      rw [readTokens.eq_def]
      simp only [hblank, hclose, hopen, hquote, Bool.false_eq_true, if_false, if_true]
      split
      · rfl
      · rename_i hsome
        rw [hread] at hsome
        cases hsome
  | case6 offset c rest hblank hclose hopen hquote text size after hread ih =>
      rw [readTokens.eq_def]
      simp only [hblank, hclose, hopen, hquote, Bool.false_eq_true, if_false, if_true]
      split
      · rename_i hnone
        rw [hread] at hnone
        cases hnone
      · rename_i hsome
        rw [hread] at hsome
        cases hsome
        rw [Nat.add_right_comm offset distance, Nat.add_right_comm _ distance]
        exact (congrArg (continued (.text text)) ih).trans (continued_later (.text text))
  | case7 offset c rest hblank hclose hopen hquote word hstart hnumber =>
      rename_i ih
      rw [readTokens.eq_def]
      simp only [hblank, hclose, hopen, hquote, hstart, Bool.false_eq_true, if_false, if_true]
      rw [if_pos hnumber, Nat.add_right_comm offset distance]
      exact (congrArg (continued (.number word)) ih).trans (continued_later (.number word))
  | case8 offset c rest hblank hclose hopen hquote word hstart hnumber =>
      rw [readTokens.eq_def]
      simp only [hblank, hclose, hopen, hquote, hstart, Bool.false_eq_true, if_false, if_true]
      rw [if_neg hnumber]
      rfl
  | case9 offset c rest hblank hclose hopen hquote word hnumber hstart =>
      rename_i ih
      rw [readTokens.eq_def]
      simp only [hblank, hclose, hopen, hquote, hnumber, hstart, Bool.false_eq_true, if_false,
        if_true]
      rw [Nat.add_right_comm offset distance]
      exact (congrArg (continued (.word word (offset + distance))) ih).trans
        (continued_later (.word word offset))
  | case10 offset c rest hblank hclose hopen hquote hnumber hstart =>
      rw [readTokens.eq_def]
      simp only [hblank, hclose, hopen, hquote, hnumber, hstart, Bool.false_eq_true, if_false,
        later]

/-! ## Substitutions that start later -/

theorem parseParam_moved (distance : Nat) (word : List Char) (offset : Nat) :
    parseParam word (offset + distance) = later distance id (parseParam word offset) := by
  unfold parseParam
  simp only
  split <;> rfl

theorem argument_moved (distance : Nat) (token : Token) :
    (token.moved distance).argument = later distance id token.argument := by
  cases token with
  | word chars offset =>
      show (parseParam chars (offset + distance)).map _ = _
      rw [parseParam_moved]
      show _ = later distance id ((parseParam chars offset).map _)
      cases parseParam chars offset <;> rfl
  | text chars => rfl
  | number chars => rfl

theorem arguments_moved (distance : Nat) (tokens : List Token) :
    (tokens.map (Token.moved distance)).mapM Token.argument =
      later distance id (tokens.mapM Token.argument) := by
  induction tokens with
  | nil => rfl
  | cons token tokens ih =>
      rw [List.map_cons, List.mapM_cons, List.mapM_cons]
      refine later_bind (argument_moved distance token) fun argument _ => ?_
      exact later_bind ih fun arguments _ => rfl

theorem ofTokens_moved (distance opening : Nat) (tokens : List Token) :
    Substitution.ofTokens (opening + distance) (tokens.map (Token.moved distance)) =
      later distance (Substitution.moved distance) (Substitution.ofTokens opening tokens) := by
  cases tokens with
  | nil => rfl
  | cons token tokens =>
      cases token with
      | text chars => rfl
      | number chars => rfl
      | word word offset =>
          cases tokens with
          | nil =>
              show (parseParam word (offset + distance)).map _ =
                later distance _ ((parseParam word offset).map _)
              rw [parseParam_moved]
              cases parseParam word offset <;> rfl
          | cons next tokens =>
              have harguments := arguments_moved distance (next :: tokens)
              simp only [List.map_cons, Token.moved, Substitution.ofTokens] at harguments ⊢
              split
              · exact later_bind harguments fun arguments _ => rfl
              · rfl

/-! ## Templates that start later -/

/-- **A template that starts later is read the same**, with its places moved. -/
theorem readElements_moved (distance offset : Nat) (cs : List Char) :
    readElements (offset + distance) cs =
      later distance (List.map (Element.moved distance)) (readElements offset cs) := by
  fun_induction readElements offset cs with
  | case1 =>
      rw [readElements.eq_1]
      rfl
  | case2 =>
      rw [readElements.eq_2]
      rfl
  | case3 offset c rest ih =>
      rw [readElements.eq_3, Nat.add_right_comm offset distance, Nat.add_right_comm _ distance]
      exact later_bind ih fun elements _ => rfl
  | case4 offset rest hlone hnext =>
      rw [readElements.eq_4 _ _ _ hlone hnext, if_pos rfl]
      rfl
  | case5 offset rest e hlone hnext hne hread =>
      have hmoved := readTokens_moved distance offset (offset + Char.utf8Size '{') rest
      rw [hread, Nat.add_right_comm offset] at hmoved
      rw [readElements.eq_4 _ _ _ hlone hnext, if_neg hne, if_pos rfl]
      split
      · rename_i herror
        rw [hmoved] at herror
        cases herror
        rfl
      · rename_i hok
        rw [hmoved] at hok
        cases hok
  | case6 offset rest tokens next after hlone hnext hne hread ih =>
      have hmoved := readTokens_moved distance offset (offset + Char.utf8Size '{') rest
      rw [hread, Nat.add_right_comm offset] at hmoved
      rw [readElements.eq_4 _ _ _ hlone hnext, if_neg hne, if_pos rfl]
      split
      · rename_i herror
        rw [hmoved] at herror
        cases herror
      · rename_i hok
        rw [hmoved] at hok
        cases hok
        exact later_bind (ofTokens_moved distance offset tokens) fun value _ =>
          later_bind ih fun elements _ => rfl
  | case7 offset c rest hlone hnext hclose hopen ih =>
      rw [readElements.eq_4 _ _ _ hlone hnext, if_neg hclose, if_neg hopen,
        Nat.add_right_comm offset distance]
      exact later_bind ih fun elements _ => rfl

/-! ## Templates that go on -/

/-- **What follows a template is read on its own**, from the end of the template on. -/
theorem readElements_append {offset : Nat} {cs : List Char} {elements : List Element}
    (h : readElements offset cs = .ok elements) (rest : List Char) :
    readElements offset (cs ++ rest) = (do
      let more ← readElements (offset + utf8Length cs) rest
      .ok (elements ++ more)) := by
  obtain ⟨items, rfl, hderives⟩ := exists_derives_of_readElements h
  exact hderives.readElements_written_append rest

/-! ## Parts at a seam -/

/-- Parts one behind the other, where a text on either side of the seam makes one text. -/
def joinParts : List Part → List Part → List Part
  | [.text value], .text other :: parts => .text (value ++ other) :: parts
  | [], others => others
  | part :: parts, others => part :: joinParts parts others

theorem elements_joinParts (parts others : List Part) :
    (joinParts parts others).flatMap Part.elements =
      parts.flatMap Part.elements ++ others.flatMap Part.elements := by
  fun_induction joinParts parts others with
  | case1 value other parts => simp [Part.elements]
  | case2 others => rfl
  | case3 part parts others hseam ih =>
      rw [List.flatMap_cons, ih, List.flatMap_cons, List.append_assoc]

/-- A seam does not show in front of it, unless there is but one text. -/
theorem head?_joinParts {part : Part} {parts others : List Part} (h : ¬part.IsText) :
    (joinParts (part :: parts) others).head? = some part := by
  cases part with
  | text value => exact absurd trivial h
  | subst value => rfl

theorem Merged.joinParts {parts others : List Part} (h : Merged parts) (h' : Merged others) :
    Merged (joinParts parts others) := by
  fun_induction Template.joinParts parts others with
  | case1 value other parts =>
      refine h'.tail.cons_text ?_ h'.head_of_text
      intro hempty
      exact h.ne_empty (String.append_eq_empty_iff.1 hempty).1
  | case2 others => exact h'
  | case3 part parts others hseam ih =>
      have hrest := ih h.tail h'
      cases part with
      | subst value => exact hrest.cons_subst value
      | text value =>
          refine hrest.cons_text h.ne_empty fun next hnext htext => ?_
          cases parts with
          | nil =>
              -- the text is the last part, so no text is behind the seam
              cases others with
              | nil => cases hnext
              | cons other others =>
                  cases other with
                  | text words => exact hseam value words others rfl rfl rfl
                  | subst words =>
                      cases hnext
                      exact htext
          | cons following parts =>
              have hfollowing := h.head_of_text following rfl
              rw [head?_joinParts hfollowing] at hnext
              cases hnext
              exact hfollowing htext

/-- The parts of a template are those of its two pieces, with one text at the seam. -/
theorem ofElements_append (elements others : List Element) :
    Part.ofElements (elements ++ others) =
      joinParts (Part.ofElements elements) (Part.ofElements others) := by
  obtain ⟨hmerged, helements⟩ := ofElements_eq_iff.1 (rfl : Part.ofElements elements = _)
  obtain ⟨hmerged', helements'⟩ := ofElements_eq_iff.1 (rfl : Part.ofElements others = _)
  refine ofElements_eq_iff.2 ⟨hmerged.joinParts hmerged', ?_⟩
  rw [elements_joinParts, helements, helements']

theorem gather_moved (distance : Nat) (elements : List Element) :
    gather (elements.map (Element.moved distance)) =
      ((gather elements).1, (gather elements).2.map (Part.moved distance)) := by
  induction elements with
  | nil => rfl
  | cons element elements ih =>
      cases element with
      | char c => simp only [List.map_cons, Element.moved, gather, ih]
      | subst value =>
          simp only [List.map_cons, Element.moved, gather, ih]
          split <;> rfl

theorem ofElements_moved (distance : Nat) (elements : List Element) :
    Part.ofElements (elements.map (Element.moved distance)) =
      (Part.ofElements elements).map (Part.moved distance) := by
  simp only [Part.ofElements, gather_moved]
  split <;> rfl

/-! ## Two templates -/

/-- **Templates are read piece by piece.**  What follows a template is read as if it stood alone.
Its calls and its error are later by the length of the template, and a text at the end of the
template and one behind it are one text. -/
theorem parse_append {template : String} {parts : List Part} (h : parse template = .ok parts)
    (more : String) :
    parse (template ++ more) =
      match parse more with
      | .ok others =>
        .ok (joinParts parts (others.map (Part.moved template.utf8ByteSize)))
      | .error e => .error ⟨e.fault, e.offset + template.utf8ByteSize⟩ := by
  obtain ⟨elements, helements, rfl⟩ := map_eq_ok.1 h
  have hsize : utf8Length template.toList = template.utf8ByteSize := by
    rw [← utf8ByteSize_ofList, String.ofList_toList]
  unfold parse
  rw [String.toList_append, readElements_append helements, readElements_moved, hsize]
  cases readElements 0 more.toList with
  | error e => rfl
  | ok others =>
      show Except.ok (Part.ofElements (elements ++ others.map _)) = _
      rw [ofElements_append, ofElements_moved]
      rfl

/-- A text goes on over the seam, and places are counted in bytes, of which the first letter has
two. -/
theorem parse_append_seam :
    parse ("é\x7bname\x7d, y" ++ "es\x7bplural 2 \"a\"\x7d") =
      .ok [.text "é", .subst (.param ⟨["name"]⟩), .text ", yes",
        .subst (.call "plural" [.number "2", .text "a"] 13)] ∧
    parse ("é\x7bname\x7d, y" ++ "es\x7bplural 2") = .error ⟨.unclosed, 13⟩ := by
  have hfirst : parse "é\x7bname\x7d, y" =
      .ok [.text "é", .subst (.param ⟨["name"]⟩), .text ", y"] := by decide +kernel
  exact ⟨(parse_append hfirst _).trans (by decide +kernel),
    (parse_append hfirst _).trans (by decide +kernel)⟩

end KeysetBundle.Template
