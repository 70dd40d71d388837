import KeysetBundle.Proofs.Except
import KeysetBundle.Template.Parser

/-!
# Parts of a template that was read

The reader of templates lets through only names as parameters and only numbers
as numbers.  What it returns is therefore well formed: every parameter is a
path of at least one name, and every number of a call is spelled as one
(`parse_wellFormed`).

Main results.

- `Substitution.ofTokens_wellFormed`: what tokens between braces make up.
- `parse_wellFormed`: the parts of a whole template.
-/

namespace KeysetBundle.Template

/-- At least one name, and nothing but names. -/
def ParamPath.WellFormed (path : ParamPath) : Prop :=
  path.segments ≠ [] ∧ ∀ segment ∈ path.segments, isName segment.toList

/-- A path of names, any text, or the spelling of a number. -/
def Argument.WellFormed : Argument → Prop
  | .param path => path.WellFormed
  | .text _ => True
  | .number word => isNumber word.toList

/-- A parameter or a call whose arguments are well formed. -/
def Substitution.WellFormed : Substitution → Prop
  | .param path => path.WellFormed
  | .call _ arguments _ => ∀ argument ∈ arguments, argument.WellFormed

/-- A text, or a substitution that is well formed. -/
def Part.WellFormed : Part → Prop
  | .text _ => True
  | .subst value => value.WellFormed

/-- A number among the tokens of a substitution is spelled as one. -/
def Token.WellFormed : Token → Prop
  | .number chars => isNumber chars
  | _ => True

/-- The substitutions among characters are well formed. -/
def Element.WellFormed : Element → Prop
  | .char _ => True
  | .subst value => value.WellFormed

/-! ## Substitutions -/

theorem splitDots_ne_nil (word : List Char) : splitDots word ≠ [] := by
  induction word with
  | nil => simp [splitDots]
  | cons c rest ih =>
      unfold splitDots
      split
      · simp
      · split <;> simp

theorem parseParam_wellFormed {word : List Char} {offset : Nat} {path : ParamPath}
    (h : parseParam word offset = .ok path) : path.WellFormed := by
  simp only [parseParam] at h
  split at h
  · rename_i hnames
    cases h
    refine ⟨by simp [splitDots_ne_nil], ?_⟩
    intro segment hsegment
    obtain ⟨piece, hpiece, rfl⟩ := List.mem_map.1 hsegment
    rw [String.toList_ofList]
    exact List.all_eq_true.1 hnames piece hpiece
  · cases h

theorem Token.argument_wellFormed {token : Token} (htoken : token.WellFormed)
    {argument : Argument} (h : token.argument = .ok argument) : argument.WellFormed := by
  cases token with
  | word chars offset =>
      obtain ⟨path, hpath, rfl⟩ := map_eq_ok.1 h
      exact parseParam_wellFormed hpath
  | text chars =>
      cases h
      exact trivial
  | number chars =>
      cases h
      show isNumber (String.ofList chars).toList
      rw [String.toList_ofList]
      exact htoken

theorem Substitution.ofTokens_wellFormed {opening : Nat} {tokens : List Token}
    (htokens : ∀ token ∈ tokens, token.WellFormed) {value : Substitution}
    (h : Substitution.ofTokens opening tokens = .ok value) : value.WellFormed := by
  unfold Substitution.ofTokens at h
  split at h
  · cases h
  · obtain ⟨path, hpath, rfl⟩ := map_eq_ok.1 h
    exact parseParam_wellFormed hpath
  · rename_i word offset tokens _
    split at h
    · obtain ⟨arguments, harguments, h⟩ := bind_eq_ok.1 h
      cases h
      have htail : ∀ token ∈ tokens, token.WellFormed :=
        fun token htoken => htokens token (by simp [htoken])
      exact forall_mem_of_mapM (fun _ _ htoken => Token.argument_wellFormed htoken) htail
        harguments
    · cases h
  · cases h

/-! ## Templates -/

theorem readTokens_wellFormed {opening offset next : Nat} {cs after : List Char}
    {tokens : List Token} (h : readTokens opening offset cs = .ok (tokens, next, after)) :
    ∀ token ∈ tokens, token.WellFormed := by
  fun_induction readTokens opening offset cs generalizing tokens next after with
  | case1 => cases h
  | case2 _ _ _ _ ih => exact ih h
  | case3 =>
      cases h
      simp
  | case4 => cases h
  | case5 => cases h
  | case6 _ _ _ _ _ _ _ text size after' _ ih =>
      obtain ⟨⟨_, _, _⟩, hr, h⟩ := bind_eq_ok.1 h
      cases h
      simpa [Token.WellFormed] using ih hr
  | case7 =>
      rename_i hword ih
      obtain ⟨⟨_, _, _⟩, hr, h⟩ := bind_eq_ok.1 h
      cases h
      simpa [Token.WellFormed, hword] using ih hr
  | case8 => cases h
  | case9 =>
      rename_i ih
      obtain ⟨⟨_, _, _⟩, hr, h⟩ := bind_eq_ok.1 h
      cases h
      simpa [Token.WellFormed] using ih hr
  | case10 => cases h

theorem readElements_wellFormed {offset : Nat} {cs : List Char} {elements : List Element}
    (h : readElements offset cs = .ok elements) :
    ∀ element ∈ elements, element.WellFormed := by
  fun_induction readElements offset cs generalizing elements with
  | case1 =>
      cases h
      simp
  | case2 => cases h
  | case3 _ _ _ ih =>
      obtain ⟨rest, hrest, h⟩ := bind_eq_ok.1 h
      cases h
      simpa [Element.WellFormed] using ih hrest
  | case4 => cases h
  | case5 => cases h
  | case6 _ _ _ _ _ tokens next after htokens ih =>
      obtain ⟨value, hvalue, h⟩ := bind_eq_ok.1 h
      obtain ⟨rest, hrest, h⟩ := bind_eq_ok.1 h
      cases h
      have hfirst : value.WellFormed :=
        Substitution.ofTokens_wellFormed (readTokens_wellFormed htokens) hvalue
      simpa [Element.WellFormed, hfirst] using ih hrest
  | case7 =>
      rename_i ih
      obtain ⟨rest, hrest, h⟩ := bind_eq_ok.1 h
      cases h
      simpa [Element.WellFormed] using ih hrest

theorem gather_wellFormed {elements : List Element}
    (h : ∀ element ∈ elements, element.WellFormed) :
    ∀ part ∈ (gather elements).2, part.WellFormed := by
  induction elements with
  | nil => simp [gather]
  | cons element rest ih =>
      have hrest := ih fun element helement => h element (by simp [helement])
      cases element with
      | char c => exact hrest
      | subst value =>
          have hvalue : value.WellFormed := h (.subst value) (by simp)
          intro part hpart
          simp only [gather, List.mem_cons] at hpart
          rcases hpart with rfl | hpart
          · exact hvalue
          · split at hpart
            · exact hrest part hpart
            · rcases List.mem_cons.1 hpart with rfl | hpart
              · exact trivial
              · exact hrest part hpart

/-- **The parts of a template that was read are well formed**: its parameters
are paths of names and the numbers of its calls are spelled as numbers. -/
theorem parse_wellFormed {template : String} {parts : List Part}
    (h : parse template = .ok parts) : ∀ part ∈ parts, part.WellFormed := by
  obtain ⟨elements, helements, rfl⟩ := map_eq_ok.1 h
  have hgather := gather_wellFormed (readElements_wellFormed helements)
  intro part hpart
  simp only [Part.ofElements] at hpart
  split at hpart
  · exact hgather part hpart
  · rcases List.mem_cons.1 hpart with rfl | hpart
    · exact trivial
    · exact hgather part hpart

end KeysetBundle.Template
