import KeysetBundle.Proofs.Script.Concatenation
import KeysetBundle.Proofs.Template.WellFormed
import KeysetBundle.Template.Compactor

/-!
# The operands of a compiled template

Every part of a template is compiled to one operand of a sum: a text to a text
in quotes, a parameter to a member of `params`, and a call to a call of the
runtime class with its arguments in order.  `Part.operand?` names the operand,
and `readsAsOperand_part` says that the expression of the part is read as it, whatever
follows, as long as this is no part of a name.

The runtime function that refers to another key also gets all parameters, as
an argument behind the ones of the template.
-/

namespace KeysetBundle.Template

open KeysetBundle.Script (Begins EndsArgument IsReader Operand Reader ReadsAsNumber argumentTokens
  begins_closeParen begins_comma begins_dot begins_doubleQuoted begins_name begins_number
  begins_openParen isArgumentToken isNumberToken memberTokens pathTokens readLooseToken
  startsWithNamePart startsWithNamePart_of_mem tokens)

/-! ## The operand of a part -/

/-- The code points of a text. -/
def pointsOf (text : String) : List Nat := text.toList.map Char.toNat

/-- The tokens of an argument. -/
def Argument.run? : Argument → Option (List Script.Token)
  | .param path => some (pathTokens ("params" :: path.segments))
  | .text value => some [.text (pointsOf value)]
  | .number word => tokens word.toList

/-- The function of the runtime class that a function of templates calls. -/
def calleeOf (function : String) : List String :=
  if function = "i18n" then ["i18n"] else ["i18n", function]

/-- The arguments that are put behind the ones of the template. -/
def contextOf (function : String) : List (List Script.Token) :=
  if function = "i18n" then [pathTokens ["params"]] else []

/-- The operand that a part is compiled to. -/
def Part.operand? : Part → Option Operand
  | .text value => some (.text (pointsOf value))
  | .subst (.param path) => some (.param path.segments)
  | .subst (.call function arguments _) => do
    let runs ← arguments.mapM Argument.run?
    some (.call (calleeOf function) (runs ++ contextOf function))

variable {read : Reader} [IsReader read]

/-! ## Paths -/

/-- The characters of the members behind a value. -/
def memberChars (names : List String) : List Char :=
  names.flatMap fun name => '.' :: name.toList

theorem startsWithNamePart_memberChars (names : List String) {rest : List Char}
    (hrest : startsWithNamePart rest = false) :
    startsWithNamePart (memberChars names ++ rest) = false := by
  cases names with
  | nil => exact hrest
  | cons name names => exact startsWithNamePart_of_mem (by simp) _

/-- The members behind a value are read as points and names. -/
theorem begins_members {names : List String} (hnames : ∀ name ∈ names, isName name.toList)
    {rest : List Char} (hrest : startsWithNamePart rest = false) :
    Begins read (memberChars names ++ rest) (memberTokens names) rest := by
  induction names with
  | nil => exact Begins.refl rest
  | cons name names ih =>
      have hname : isName name.toList := hnames name (by simp)
      have htail := ih fun other hother => hnames other (by simp [hother])
      have hfirst : Begins read _ _ _ :=
        begins_name hname (startsWithNamePart_memberChars names hrest)
      rw [String.ofList_toList] at hfirst
      have hpoint : Begins read ('.' :: (name.toList ++ (memberChars names ++ rest)))
          [.punctuator .dot] (name.toList ++ (memberChars names ++ rest)) := by
        cases hchars : name.toList with
        | nil =>
            rw [hchars] at hname
            cases hname
        | cons c cs =>
            rw [hchars] at hname
            simp only [isName, Bool.and_eq_true] at hname
            exact begins_dot hname.1 _
      have hlist : memberChars (name :: names) ++ rest =
          '.' :: (name.toList ++ (memberChars names ++ rest)) := by
        simp [memberChars]
      rw [hlist]
      exact hpoint.append (hfirst.append htail)

/-- A path is read as its names with points between them. -/
theorem begins_path {name : String} {names : List String} (hname : isName name.toList)
    (hnames : ∀ name ∈ names, isName name.toList) {rest : List Char}
    (hrest : startsWithNamePart rest = false) :
    Begins read (name.toList ++ (memberChars names ++ rest)) (pathTokens (name :: names)) rest := by
  have hfirst : Begins read _ _ _ :=
    begins_name hname (startsWithNamePart_memberChars names hrest)
  rw [String.ofList_toList] at hfirst
  exact hfirst.append (begins_members hnames hrest)

theorem toList_intercalate_dot (name : String) (names : List String) :
    (".".intercalate (name :: names)).toList = name.toList ++ memberChars names := by
  induction names generalizing name with
  | nil => simp [memberChars]
  | cons next names ih =>
      rw [String.intercalate_cons_cons, String.toList_append, String.toList_append, ih]
      simp [memberChars]

theorem isName_params : isName "params".toList := by decide

/-- The expression of a parameter is read as the path to it. -/
theorem begins_expression {path : ParamPath} (hpath : path.WellFormed) {rest : List Char}
    (hrest : startsWithNamePart rest = false) :
    Begins read (path.expression.toList ++ rest) (pathTokens ("params" :: path.segments)) rest := by
  obtain ⟨segments⟩ := path
  obtain ⟨hne, hnames⟩ := hpath
  cases segments with
  | nil => exact absurd rfl hne
  | cons name names =>
      have hlist : (ParamPath.expression ⟨name :: names⟩).toList ++ rest =
          "params".toList ++ (memberChars (name :: names) ++ rest) := by
        rw [ParamPath.expression, ParamPath.dotted, String.toList_append, toList_intercalate_dot]
        simp [memberChars]
      rw [hlist]
      exact begins_path isName_params hnames hrest

/-! ## Arguments -/

/-- A number is read as the tokens that it has in code that is not strict. -/
def Argument.Readable (read : Reader) : Argument → Prop
  | .number word => ∃ run, tokens word.toList = some run ∧ ReadsAsNumber read word.toList run
  | _ => True

/-- Code that is not strict may have every number of a template. -/
theorem Argument.WellFormed.readable {argument : Argument} (h : argument.WellFormed) :
    argument.Readable readLooseToken := by
  cases argument with
  | number word =>
      obtain ⟨run, hrun⟩ := begins_number h
      have hwhole := hrun.2.2 [] (.inl rfl)
      rw [List.append_nil] at hwhole
      exact ⟨run, hwhole.tokens_eq, hrun⟩
  | _ => trivial

/-- An expression is read as an argument of a call. -/
def ReadsAsArgument (read : Reader) (expression : String) (run : List Script.Token) : Prop :=
  run ≠ [] ∧ run.all isArgumentToken ∧
    ∀ rest, EndsArgument rest → Begins read (expression.toList ++ rest) run rest

theorem isArgumentToken_of_isNumberToken {token : Script.Token} (h : isNumberToken token) :
    isArgumentToken token := by
  unfold isArgumentToken
  split <;> first | rfl | exact h

theorem all_pathTokens (names : List String) : (pathTokens names).all isArgumentToken := by
  cases names with
  | nil => rfl
  | cons name names => simp [pathTokens, memberTokens, isArgumentToken]

/-- The expression of an argument is read as the tokens of the argument. -/
theorem readsAsArgument_expression {argument : Argument} (hargument : argument.WellFormed)
    (hread : argument.Readable read) :
    ∃ run, argument.run? = some run ∧ ReadsAsArgument read argument.expression run := by
  cases argument with
  | param path =>
      refine ⟨_, rfl, by simp [pathTokens], all_pathTokens _, ?_⟩
      intro rest hrest
      exact begins_expression hargument (Script.startsWithNamePart_of_endsArgument hrest)
  | text value => exact ⟨_, rfl, by simp, rfl, fun rest _ => begins_doubleQuoted value rest⟩
  | number word =>
      obtain ⟨run, hrun, hne, hall, hbegins⟩ := hread
      refine ⟨run, hrun, hne, ?_, hbegins⟩
      rw [List.all_eq_true] at hall ⊢
      exact fun token htoken => isArgumentToken_of_isNumberToken (hall token htoken)

/-- The arguments of a call are read one by one, up to the closing parenthesis. -/
theorem begins_arguments {pairs : List (String × List Script.Token)} (hne : pairs ≠ [])
    (hpairs : ∀ pair ∈ pairs, ReadsAsArgument read pair.1 pair.2) (rest : List Char) :
    Begins read ((", ".intercalate (pairs.map Prod.fst)).toList ++ ')' :: rest)
      (argumentTokens (pairs.map Prod.snd)) rest := by
  induction pairs with
  | nil => exact absurd rfl hne
  | cons pair pairs ih =>
      obtain ⟨_, _, hfirst⟩ := hpairs pair (by simp)
      cases pairs with
      | nil =>
          have hlast := hfirst (')' :: rest) (.inr ⟨rest, .inr rfl⟩)
          simpa [argumentTokens] using hlast.append (begins_closeParen rest)
      | cons next pairs =>
          have htail := ih (by simp) fun other hother => hpairs other (by simp [hother])
          have hcomma := (Begins.append (begins_comma _) (Begins.space _)).append htail
          have hall := (hfirst _ (.inr ⟨_, .inl rfl⟩)).append hcomma
          simpa [argumentTokens, String.intercalate_cons_cons] using hall

/-! ## Calls and operands -/

/-- The expressions put behind the ones of the arguments of a call. -/
def contextExpressions (function : String) : List String :=
  if function = "i18n" then ["params"] else []

theorem readsAsArgument_params : ReadsAsArgument read "params" (pathTokens ["params"]) := by
  refine ⟨by simp [pathTokens], rfl, ?_⟩
  intro rest hrest
  have hnone : ∀ name ∈ ([] : List String), isName name.toList := by simp
  exact begins_path isName_params hnone (Script.startsWithNamePart_of_endsArgument hrest)

/-- A call that is compiled calls the runtime class with the arguments in order. -/
theorem compileCall_localized {function expression : String} {arguments : List Argument}
    {offset : Nat}
    (h : Compactor.localized.compileCall function arguments offset = .ok expression) :
    arguments ≠ [] ∧ expression = ".".intercalate (calleeOf function) ++ "(" ++
      ", ".intercalate (arguments.map Argument.expression ++ contextExpressions function) ++
      ")" ∧ ∀ name ∈ calleeOf function, isName name.toList := by
  unfold Compactor.compileCall Compactor.resolve Compactor.localized at h
  by_cases hplural : function = "plural"
  · subst hplural
    simp only [List.findSome?_cons, Layer.localization, if_true, List.length_map] at h
    by_cases hlength : arguments.length = 4 ∨ arguments.length = 5
    · rw [if_pos hlength] at h
      cases h
      refine ⟨?_, ?_, by decide⟩
      · rintro rfl
        simp at hlength
      · simp [calleeOf, contextExpressions, String.append_assoc]
    · rw [if_neg hlength] at h
      cases h
  · by_cases hreference : function = "i18n"
    · subst hreference
      simp only [List.findSome?_cons, Layer.localization, hplural, if_false, if_true] at h
      cases arguments with
      | nil => cases h
      | cons keyset arguments =>
          cases arguments with
          | nil => cases h
          | cons key arguments =>
              cases arguments with
              | nil =>
                  cases h
                  refine ⟨by simp, ?_, by decide⟩
                  simp [calleeOf, contextExpressions, String.append_assoc]
              | cons other arguments => cases h
    · simp only [List.findSome?_cons, Layer.localization, hplural, hreference, if_false,
        List.findSome?_nil] at h
      cases h

/-- An expression is read as an operand of a sum. -/
def ReadsAsOperand (read : Reader) (expression : String) (operand : Operand) : Prop :=
  operand.WellFormed ∧ ∀ rest, startsWithNamePart rest = false →
    Begins read (expression.toList ++ rest) operand.tokens rest

/-- The arguments of a call with what is put behind them: each expression with its tokens. -/
theorem exists_argumentPairs (function : String) {arguments : List Argument}
    (harguments : ∀ argument ∈ arguments, argument.WellFormed)
    (hread : ∀ argument ∈ arguments, argument.Readable read) :
    ∃ (pairs : List (String × List Script.Token)) (runs : List (List Script.Token)),
      arguments.mapM Argument.run? = some runs ∧
      arguments.map Argument.expression ++ contextExpressions function = pairs.map Prod.fst ∧
      runs ++ contextOf function = pairs.map Prod.snd ∧
      ∀ pair ∈ pairs, ReadsAsArgument read pair.1 pair.2 := by
  have hexpressions : arguments.mapM (m := Except Unit) (fun argument => pure argument.expression) =
      pure (arguments.map Argument.expression) := List.mapM_pure
  have hstep : ∀ argument ∈ arguments, ∀ text,
      (pure argument.expression : Except Unit String) = .ok text →
        ∃ run, argument.run? = some run ∧ ReadsAsArgument read text run := by
    intro argument hargument text htext
    cases htext
    exact readsAsArgument_expression (harguments argument hargument) (hread argument hargument)
  obtain ⟨pairs, hfst, hsnd, hpairs⟩ := exists_pairs hstep hexpressions
  by_cases hreference : function = "i18n"
  · refine ⟨pairs ++ [("params", pathTokens ["params"])], _, hsnd, ?_, ?_, ?_⟩
    · simp [contextExpressions, hreference, hfst]
    · simp [contextOf, hreference]
    · intro pair hpair
      rcases List.mem_append.1 hpair with hpair | hpair
      · exact hpairs pair hpair
      · rw [List.mem_singleton.1 hpair]
        exact readsAsArgument_params
  · refine ⟨pairs, _, hsnd, ?_, ?_, hpairs⟩
    · simp [contextExpressions, hreference, hfst]
    · simp [contextOf, hreference]

theorem calleeOf_ne_nil (function : String) : calleeOf function ≠ [] := by
  unfold calleeOf
  split <;> simp

theorem readsAsOperand_call {function expression : String} {arguments : List Argument}
    {offset : Nat} (harguments : ∀ argument ∈ arguments, argument.WellFormed)
    (hread : ∀ argument ∈ arguments, argument.Readable read)
    (h : Compactor.localized.compileCall function arguments offset = .ok expression) :
    ∃ operand, (Part.subst (.call function arguments offset)).operand? = some operand ∧
      ReadsAsOperand read expression operand := by
  obtain ⟨hne, hexpression, hcallee⟩ := compileCall_localized h
  obtain ⟨pairs, runs, hruns, hfst, hsnd, hpairs⟩ :=
    exists_argumentPairs function harguments hread
  have hpairsNe : pairs ≠ [] := by
    rintro rfl
    exact hne (List.map_eq_nil_iff.1 (List.append_eq_nil_iff.1 hfst).1)
  rw [hfst] at hexpression
  refine ⟨.call (calleeOf function) (pairs.map Prod.snd), ?_, ?_, ?_⟩
  · simp [Part.operand?, hruns, hsnd]
  · refine ⟨calleeOf_ne_nil function, by simpa using hpairsNe, ?_⟩
    intro run hrun
    obtain ⟨pair, hpair, rfl⟩ := List.mem_map.1 hrun
    exact ⟨(hpairs pair hpair).1, (hpairs pair hpair).2.1⟩
  · intro rest _
    obtain ⟨name, names, hnames⟩ := List.exists_cons_of_ne_nil (calleeOf_ne_nil function)
    rw [hnames] at hcallee hexpression
    have hinside := Begins.append (begins_openParen _) (begins_arguments hpairsNe hpairs rest)
    have hmembers : ∀ other ∈ names, isName other.toList :=
      fun other hother => hcallee other (by simp [hother])
    have hpath : Begins read _ _ _ := begins_path (hcallee name (by simp)) hmembers
      (startsWithNamePart_of_mem (c := '(') (by simp)
        ((", ".intercalate (pairs.map Prod.fst)).toList ++ ')' :: rest))
    have hlist : expression.toList ++ rest = name.toList ++ (memberChars names ++
        '(' :: ((", ".intercalate (pairs.map Prod.fst)).toList ++ ')' :: rest)) := by
      rw [hexpression, String.toList_append, String.toList_append, String.toList_append,
        toList_intercalate_dot]
      simp
    rw [hlist, hnames]
    exact hpath.append hinside

/-- The numbers of a part are read as the tokens that they have in code that is not strict. -/
def Part.Readable (read : Reader) : Part → Prop
  | .subst (.call _ arguments _) => ∀ argument ∈ arguments, argument.Readable read
  | _ => True

theorem Part.WellFormed.readable {part : Part} (h : part.WellFormed) :
    part.Readable readLooseToken := by
  cases part with
  | text value => trivial
  | subst value =>
      cases value with
      | param path => trivial
      | call function arguments offset =>
          exact fun argument hargument => (h argument hargument).readable

/-- **A part is compiled to the operand it stands for.** -/
theorem readsAsOperand_part {part : Part} (hpart : part.WellFormed) (hread : part.Readable read)
    {expression : String} (h : Compactor.localized.compilePart part = .ok expression) :
    ∃ operand, part.operand? = some operand ∧ ReadsAsOperand read expression operand := by
  cases part with
  | text value =>
      cases h
      exact ⟨_, rfl, trivial, fun rest _ => begins_doubleQuoted value rest⟩
  | subst value =>
      cases value with
      | param path =>
          cases h
          exact ⟨_, rfl, hpart.1, fun rest hrest => begins_expression hpart hrest⟩
      | call function arguments offset => exact readsAsOperand_call hpart hread h

end KeysetBundle.Template
