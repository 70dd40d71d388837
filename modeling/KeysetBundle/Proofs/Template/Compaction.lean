import KeysetBundle.Proofs.Template.Operands

/-!
# Compiled templates mean what the templates say

A template means the concatenation of its parts: its texts, and the values of
its parameters and calls as texts (`meaning`).  A compiled template without
substitutions is a single text in quotes.  Any other compiled template is a
function of `params` that returns a sum with one operand for each part, behind
an empty text where the first part is no text.

The main result is `compact_preserves_meaning`.  The emitted source is read
back token by token, so no content of a quoted text can be taken for a quote,
an operator or the end of the function; and the value of the sum is the
meaning of the template, since a sum that starts with a text never adds
numbers.
-/

namespace KeysetBundle.Template

open KeysetBundle.Script (Arithmetic Begins IsReader Operand Reader Value begins_closeBrace
  begins_closeParen begins_doubleQuoted begins_name begins_openBrace begins_openParen begins_plus
  begins_semicolon operandValues readSum readSum_sumTokens startsWithNamePart
  startsWithNamePart_of_mem sumTokens tokens tokensBy tokensBy_readLooseToken unitsOf)
open KeysetBundle.Text (doubleQuoted)

variable {read : Reader} [IsReader read]

/-! ## Sums of parts -/

/-- The operand put before the ones of the parts. -/
def leadingOperand : List Part → List Operand
  | .text _ :: _ => []
  | _ => [.text []]

theorem startsWithNamePart_space (rest : List Char) :
    startsWithNamePart (' ' :: rest) = false :=
  startsWithNamePart_of_mem (by simp) rest

/-- Expressions joined by plus signs are read as the sum of their operands. -/
theorem begins_sum {pairs : List (String × Operand)} (hne : pairs ≠ [])
    (hpairs : ∀ pair ∈ pairs, ReadsAsOperand read pair.1 pair.2) {rest : List Char}
    (hrest : startsWithNamePart rest = false) :
    Begins read ((" + ".intercalate (pairs.map Prod.fst)).toList ++ rest)
      (sumTokens (pairs.map Prod.snd)) rest := by
  induction pairs with
  | nil => exact absurd rfl hne
  | cons pair pairs ih =>
      have hfirst := (hpairs pair (by simp)).2
      cases pairs with
      | nil => simpa [sumTokens] using hfirst rest hrest
      | cons next pairs =>
          have htail := ih (by simp) fun other hother => hpairs other (by simp [hother])
          have hplus := Begins.append (Begins.space _) (Begins.append (begins_plus _) htail)
          have hall := (hfirst _ (startsWithNamePart_space _)).append hplus
          simpa [sumTokens, String.intercalate_cons_cons] using hall

/-- The operands of a template, each with its expression. -/
theorem exists_operandPairs {parts : List Part} (hparts : ∀ part ∈ parts, part.WellFormed)
    (hread : ∀ part ∈ parts, part.Readable read) {expressions : List String}
    (h : parts.mapM Compactor.localized.compilePart = .ok expressions) :
    ∃ (pairs : List (String × Operand)) (operands : List Operand),
      parts.mapM Part.operand? = some operands ∧
      Compactor.leading parts ++ expressions = pairs.map Prod.fst ∧
      leadingOperand parts ++ operands = pairs.map Prod.snd ∧
      ∀ pair ∈ pairs, ReadsAsOperand read pair.1 pair.2 := by
  have hstep : ∀ part ∈ parts, ∀ text, Compactor.localized.compilePart part = .ok text →
      ∃ operand, part.operand? = some operand ∧ ReadsAsOperand read text operand :=
    fun part hpart _ htext => readsAsOperand_part (hparts part hpart) (hread part hpart) htext
  obtain ⟨pairs, rfl, hoperands, hpairs⟩ := exists_pairs hstep h
  have hempty : ReadsAsOperand read (doubleQuoted "") (.text []) :=
    ⟨trivial, fun rest _ => begins_doubleQuoted "" rest⟩
  by_cases htext : ∃ value rest, parts = .text value :: rest
  · obtain ⟨value, rest, rfl⟩ := htext
    exact ⟨pairs, _, hoperands, rfl, rfl, hpairs⟩
  · have hleading : Compactor.leading parts = [doubleQuoted ""] := by
      unfold Compactor.leading
      split
      · exact absurd ⟨_, _, rfl⟩ htext
      · rfl
    have hoperand : leadingOperand parts = [.text []] := by
      unfold leadingOperand
      split
      · exact absurd ⟨_, _, rfl⟩ htext
      · rfl
    refine ⟨(doubleQuoted "", .text []) :: pairs, _, hoperands, ?_, ?_, ?_⟩
    · rw [hleading]
      rfl
    · rw [hoperand]
      rfl
    · intro pair hpair
      rcases List.mem_cons.1 hpair with rfl | hpair
      · exact hempty
      · exact hpairs pair hpair

/-! ## Functions of parameters -/

/-- The tokens of a function before the sum that it returns. -/
def functionHead : List Script.Token :=
  [.name "function" false, .punctuator .openParen, .name "params" false, .punctuator .closeParen,
    .punctuator .openBrace, .name "return" false]

/-- The tokens of a function behind the sum that it returns. -/
def functionTail : List Script.Token := [.punctuator .semicolon, .punctuator .closeBrace]

theorem begins_functionHead (rest : List Char) :
    Begins read ("function(params) \x7b return ".toList ++ rest) functionHead rest := by
  have hparen := startsWithNamePart_of_mem (c := '(') (by simp)
    ("params) \x7b return ".toList ++ rest)
  have hclose := startsWithNamePart_of_mem (c := ')') (by simp) (" \x7b return ".toList ++ rest)
  have hfunction : Begins read _ _ _ :=
    begins_name (by decide : isName "function".toList) hparen
  have hparams : Begins read _ _ _ := begins_name isName_params hclose
  have hreturn : Begins read _ _ _ :=
    begins_name (by decide : isName "return".toList) (startsWithNamePart_space rest)
  have hbody := ((Begins.space _).append (begins_openBrace _)).append
    ((Begins.space _).append (hreturn.append (Begins.space rest)))
  exact hfunction.append ((begins_openParen _).append (hparams.append
    ((begins_closeParen _).append hbody)))

theorem begins_functionTail : Begins read [';', ' ', '}'] functionTail [] :=
  (begins_semicolon _).append ((Begins.space _).append (begins_closeBrace []))

theorem toList_functionOf (expressions : List String) :
    (Compactor.functionOf expressions).toList = "function(params) \x7b return ".toList ++
      ((" + ".intercalate expressions).toList ++ [';', ' ', '}']) := by
  have htail : "; \x7d".toList = [';', ' ', '}'] := by decide
  unfold Compactor.functionOf
  rw [String.toList_append, String.toList_append, htail, List.append_assoc]

/-- The compiled function of a template with a substitution, read back. -/
theorem tokensBy_functionOf {pairs : List (String × Operand)} (hne : pairs ≠ [])
    (hpairs : ∀ pair ∈ pairs, ReadsAsOperand read pair.1 pair.2) :
    tokensBy read (Compactor.functionOf (pairs.map Prod.fst)).toList =
      some (functionHead ++ sumTokens (pairs.map Prod.snd) ++ functionTail) := by
  have hsemicolon := startsWithNamePart_of_mem (c := ';') (by simp) [' ', '}']
  have hsum := begins_sum hne hpairs hsemicolon
  have hhead : Begins read _ _ _ := begins_functionHead
    ((" + ".intercalate (pairs.map Prod.fst)).toList ++ [';', ' ', '}'])
  rw [toList_functionOf]
  exact ((hhead.append hsum).append begins_functionTail).tokensBy_eq

/-! ## Meanings -/

/-- What parts of a template mean: the concatenation of the texts and of the
values of the parameters and calls as texts.  The calls have the results given
in the order in which they are made; `made` of them were made before. -/
def meaning {Number : Type} (arithmetic : Arithmetic Number) (params : List String → Value Number)
    (results : Nat → Value Number) : Nat → List Part → List Nat
  | _, [] => []
  | made, .text value :: parts =>
    unitsOf value ++ meaning arithmetic params results made parts
  | made, .subst (.param path) :: parts =>
    arithmetic.form (params path.segments) ++ meaning arithmetic params results made parts
  | made, .subst (.call _ _ _) :: parts =>
    arithmetic.form (results made) ++ meaning arithmetic params results (made + 1) parts

variable {Number : Type} (arithmetic : Arithmetic Number) (params : List String → Value Number)
  (results : Nat → Value Number)

/-- The values of the operands, as texts, make up the meaning of the parts. -/
theorem flatMap_operandValues {parts : List Part} {operands : List Operand}
    (h : parts.mapM Part.operand? = some operands) (made : Nat) :
    (operandValues params results made operands).flatMap arithmetic.form =
      meaning arithmetic params results made parts := by
  induction parts generalizing operands made with
  | nil =>
      cases h
      rfl
  | cons part parts ih =>
      simp only [List.mapM_cons, Option.bind_eq_bind, Option.bind_eq_some_iff, Option.pure_def,
        Option.some.injEq] at h
      obtain ⟨operand, hoperand, rest, hrest, rfl⟩ := h
      cases part with
      | text value =>
          cases hoperand
          rw [operandValues, meaning, List.flatMap_cons, ih hrest]
          rfl
      | subst value =>
          cases value with
          | param path =>
              cases hoperand
              rw [operandValues, meaning, List.flatMap_cons, ih hrest]
          | call function arguments offset =>
              simp only [Part.operand?, Option.bind_eq_bind, Option.bind_eq_some_iff,
                Option.some.injEq] at hoperand
              obtain ⟨runs, _, rfl⟩ := hoperand
              rw [operandValues, meaning, List.flatMap_cons, ih hrest]

/-- The sum of a template is a text, the meaning of the template. -/
theorem sum_operandValues {parts : List Part} {operands : List Operand}
    (h : parts.mapM Part.operand? = some operands) :
    arithmetic.sum (operandValues params results 0 (leadingOperand parts ++ operands)) =
      .text (meaning arithmetic params results 0 parts) := by
  have hvalues := flatMap_operandValues arithmetic params results h 0
  by_cases htext : ∃ value rest, parts = .text value :: rest
  · obtain ⟨value, rest, rfl⟩ := htext
    simp only [List.mapM_cons, Option.bind_eq_bind, Option.bind_eq_some_iff, Option.pure_def,
      Option.some.injEq] at h
    obtain ⟨operand, hoperand, others, _, rfl⟩ := h
    cases hoperand
    rw [← hvalues]
    show arithmetic.sum (operandValues params results 0 (.text (pointsOf value) :: others)) = _
    rw [operandValues, Arithmetic.sum_text_cons, List.flatMap_cons]
    rfl
  · have hleading : leadingOperand parts = [.text []] := by
      unfold leadingOperand
      split
      · exact absurd ⟨_, _, rfl⟩ htext
      · rfl
    rw [hleading, ← hvalues]
    show arithmetic.sum (operandValues params results 0 (.text [] :: operands)) = _
    rw [operandValues, Arithmetic.sum_text_cons]
    rfl

/-! ## Whole templates -/

/-- Only a template of texts has a plain text: the texts one behind another. -/
theorem plainText?_eq_some {parts : List Part} {text : String}
    (h : plainText? parts = some text) :
    ∃ values : List String, parts = values.map Part.text ∧
      text.toList = values.flatMap String.toList := by
  induction parts generalizing text with
  | nil =>
      cases h
      exact ⟨[], rfl, rfl⟩
  | cons part parts ih =>
      cases part with
      | text value =>
          simp only [plainText?, Option.map_eq_some_iff] at h
          obtain ⟨rest, hrest, rfl⟩ := h
          obtain ⟨values, rfl, htext⟩ := ih hrest
          exact ⟨value :: values, rfl, by simp [htext]⟩
      | subst value => cases h

theorem plainText?_map_text (values : List String) :
    ∃ text, plainText? (values.map Part.text) = some text ∧
      text.toList = values.flatMap String.toList := by
  induction values with
  | nil => exact ⟨"", rfl, rfl⟩
  | cons value values ih =>
      obtain ⟨text, htext, hchars⟩ := ih
      exact ⟨value ++ text, by simp [plainText?, htext], by simp [hchars]⟩

theorem plainText?_of_mem_subst {parts : List Part} {value : Substitution}
    (h : Part.subst value ∈ parts) : plainText? parts = none := by
  cases hplain : plainText? parts with
  | none => rfl
  | some text =>
      obtain ⟨values, rfl, _⟩ := plainText?_eq_some hplain
      obtain ⟨other, _, hother⟩ := List.mem_map.1 h
      cases hother

/-- Parts without a plain text have a substitution among them. -/
theorem exists_mem_subst {parts : List Part} (h : plainText? parts = none) :
    ∃ value, Part.subst value ∈ parts := by
  induction parts with
  | nil => cases h
  | cons part parts ih =>
      cases part with
      | text value =>
          obtain ⟨other, hother⟩ := ih (Option.map_eq_none_iff.1 h)
          exact ⟨other, List.mem_cons_of_mem _ hother⟩
      | subst value => exact ⟨value, List.mem_cons_self⟩

/-- A function of `params` that returns a sum.  Read back, the sum has one
operand for each part, in order, behind an empty text unless the first part is
a text; and its value is the text that the parts mean, whatever values the
parameters and calls have. -/
def ReturnsSum (parts : List Part) (output : String) : Prop :=
  ∃ (body : String) (expression : List Script.Token) (operands : List Operand),
    output = "function(params) \x7b return " ++ body ++ "; \x7d" ∧
    tokens output.toList = some (functionHead ++ expression ++ functionTail) ∧
    tokens body.toList = some expression ∧
    parts.mapM Part.operand? = some operands ∧
    readSum expression = some (leadingOperand parts ++ operands) ∧
    ∀ (Number : Type) (arithmetic : Arithmetic Number) (params : List String → Value Number)
      (results : Nat → Value Number),
      arithmetic.sum (operandValues params results 0 (leadingOperand parts ++ operands)) =
        .text (meaning arithmetic params results 0 parts)

/-- A template of texts is compiled to one text, as every reader reads it. -/
theorem tokensBy_compileParts_text {values : List String} {output : String}
    (h : Compactor.localized.compileParts (values.map Part.text) = .ok output) :
    tokensBy read output.toList = some [.text ((values.flatMap String.toList).map Char.toNat)] := by
  obtain ⟨text, htext, hchars⟩ := plainText?_map_text values
  simp only [Compactor.compileParts, htext] at h
  cases h
  have hbegins : Begins read _ _ _ := begins_doubleQuoted text []
  rw [List.append_nil, hchars] at hbegins
  exact hbegins.tokensBy_eq

theorem compileParts_text {values : List String} {output : String}
    (h : Compactor.localized.compileParts (values.map Part.text) = .ok output) :
    tokens output.toList = some [.text ((values.flatMap String.toList).map Char.toNat)] := by
  rw [← tokensBy_readLooseToken]
  exact tokensBy_compileParts_text h

/-- **A template with a substitution is compiled to a function of the sum of its operands**, as
every reader reads it that reads the numbers. -/
theorem tokensBy_compileParts {parts : List Part} (hparts : ∀ part ∈ parts, part.WellFormed)
    (hread : ∀ part ∈ parts, part.Readable read) {value : Substitution}
    (hvalue : Part.subst value ∈ parts) {output : String}
    (h : Compactor.localized.compileParts parts = .ok output) :
    ∃ (body : String) (operands : List Operand),
      output = "function(params) \x7b return " ++ body ++ "; \x7d" ∧
      parts.mapM Part.operand? = some operands ∧
      tokensBy read output.toList = some (functionHead ++
        sumTokens (leadingOperand parts ++ operands) ++ functionTail) ∧
      tokensBy read body.toList = some (sumTokens (leadingOperand parts ++ operands)) ∧
      readSum (sumTokens (leadingOperand parts ++ operands)) =
        some (leadingOperand parts ++ operands) := by
  simp only [Compactor.compileParts, plainText?_of_mem_subst hvalue] at h
  obtain ⟨expressions, hexpressions, h⟩ := bind_eq_ok.1 h
  cases h
  obtain ⟨pairs, operands, hoperands, hfst, hsnd, hpairs⟩ :=
    exists_operandPairs hparts hread hexpressions
  have hne : pairs ≠ [] := by
    rintro rfl
    have hnil : operands = [] := (List.append_eq_nil_iff.1 hsnd).2
    subst hnil
    cases parts with
    | nil => cases hvalue
    | cons part parts => simp [List.mapM_cons, Option.bind_eq_some_iff] at hoperands
  have hwell : ∀ operand ∈ pairs.map Prod.snd, operand.WellFormed := by
    intro operand hoperand
    obtain ⟨pair, hpair, rfl⟩ := List.mem_map.1 hoperand
    exact (hpairs pair hpair).1
  have hend : startsWithNamePart [] = false := rfl
  have hsum := begins_sum hne hpairs hend
  rw [List.append_nil] at hsum
  rw [hfst]
  refine ⟨" + ".intercalate (pairs.map Prod.fst), operands, rfl, hoperands, ?_⟩
  rw [hsnd]
  exact ⟨tokensBy_functionOf hne hpairs, hsum.tokensBy_eq,
    readSum_sumTokens (by simpa using hne) hwell⟩

theorem compileParts_function {parts : List Part} (hparts : ∀ part ∈ parts, part.WellFormed)
    {value : Substitution} (hvalue : Part.subst value ∈ parts) {output : String}
    (h : Compactor.localized.compileParts parts = .ok output) : ReturnsSum parts output := by
  obtain ⟨body, operands, houtput, hoperands, htokens, hbody, hsum⟩ :=
    tokensBy_compileParts hparts (fun part hpart => (hparts part hpart).readable) hvalue h
  rw [tokensBy_readLooseToken] at htokens hbody
  exact ⟨body, _, operands, houtput, htokens, hbody, hoperands, hsum,
    fun _ arithmetic params results => sum_operandValues arithmetic params results hoperands⟩

/-- **Compilation preserves the meaning of a template.**  A template of texts
compiles to one text in quotes, the concatenation of the texts.  Any other
compiles to a function of `params` that returns the sum of its parts. -/
theorem compact_preserves_meaning {template output : String}
    (h : Compactor.localized.compact template = .ok output) :
    ∃ parts, parse template = .ok parts ∧
      (∀ values : List String, parts = values.map Part.text →
        tokens output.toList =
          some [.text ((values.flatMap String.toList).map Char.toNat)]) ∧
      ((∃ value, Part.subst value ∈ parts) → ReturnsSum parts output) := by
  obtain ⟨parts, hparse, h⟩ := bind_eq_ok.1 h
  refine ⟨parts, hparse, ?_, ?_⟩
  · rintro values rfl
    exact compileParts_text h
  · rintro ⟨value, hvalue⟩
    exact compileParts_function (parse_wellFormed hparse) hvalue h

/-- Two parameters that meet are not added as numbers: the sum starts with a text. -/
theorem compact_preserves_meaning_two_parameters :
    ∃ parts, parse "\x7ba\x7d\x7bb\x7d" = .ok parts ∧
      (∀ values : List String, parts = values.map Part.text →
        tokens "function(params) \x7b return \"\" + params.a + params.b; \x7d".toList =
          some [.text ((values.flatMap String.toList).map Char.toNat)]) ∧
      ((∃ value, Part.subst value ∈ parts) →
        ReturnsSum parts "function(params) \x7b return \"\" + params.a + params.b; \x7d") :=
  compact_preserves_meaning (by decide +kernel)

end KeysetBundle.Template
