import KeysetBundle.Proofs.Script.NumberTokens

/-!
# Concatenations and their values

The functions of a bundle return sums of texts, parameters and calls.
`readSum` reads the tokens of such a sum back as its operands, and reads what
was written for any list of operands as these operands (`readSum_sumTokens`).

The value of a sum is found from the left, with the addition of scripts: two
values are concatenated as soon as one of them is a text, and added as numbers
otherwise.  A sum that starts with a text never adds numbers (`sum_text_cons`),
whatever numbers and their addition are.
-/

namespace KeysetBundle.Script

/-! ## Operands -/

/-- One operand of a sum. -/
inductive Operand
  /-- A text in quotes, by its code points. -/
  | text (points : List Nat)
  /-- The member of `params` behind the names. -/
  | param (names : List String)
  /-- The call of a function, with the tokens of every argument. -/
  | call (callee : List String) (arguments : List (List Token))
  deriving DecidableEq, Repr

/-- The members behind a value. -/
def memberTokens (names : List String) : List Token :=
  names.flatMap fun name => [.punctuator .dot, .name name false]

/-- A name and the members behind it. -/
def pathTokens : List String → List Token
  | [] => []
  | name :: names => .name name false :: memberTokens names

/-- The arguments of a call up to its closing parenthesis. -/
def argumentTokens : List (List Token) → List Token
  | [] => [.punctuator .closeParen]
  | [argument] => argument ++ [.punctuator .closeParen]
  | argument :: arguments => argument ++ .punctuator .comma :: argumentTokens arguments

/-- The tokens of an operand. -/
def Operand.tokens : Operand → List Token
  | .text points => [.text points]
  | .param names => pathTokens ("params" :: names)
  | .call callee arguments =>
      pathTokens callee ++ .punctuator .openParen :: argumentTokens arguments

/-- The tokens of a sum. -/
def sumTokens : List Operand → List Token
  | [] => []
  | [operand] => operand.tokens
  | operand :: operands => operand.tokens ++ .punctuator .plus :: sumTokens operands

/-! ## Reading sums -/

/-- A token that an argument may have: a text, a part of a path, or a number. -/
def isArgumentToken : Token → Bool
  | .text _ => true
  | .name _ false => true
  | .punctuator .dot => true
  | token => isNumberToken token

/-- Reads the members behind a value: their names and what follows. -/
def readMembers : List Token → List String × List Token
  | .punctuator .dot :: .name name false :: rest =>
    let (names, after) := readMembers rest
    (name :: names, after)
  | rest => ([], rest)

/-- Reads the arguments of a call and its closing parenthesis: the tokens of
every argument and what follows. -/
def readArguments : List Token → Option (List (List Token) × List Token)
  | [] => none
  | .punctuator .closeParen :: rest => some ([[]], rest)
  | .punctuator .comma :: rest =>
    match readArguments rest with
    | some (arguments, after) => some ([] :: arguments, after)
    | none => none
  | token :: rest =>
    if isArgumentToken token then
      match readArguments rest with
      | some (argument :: arguments, after) => some ((token :: argument) :: arguments, after)
      | _ => none
    else none

/-- Reads one operand and what follows it. -/
def readOperand : List Token → Option (Operand × List Token)
  | .text points :: rest => some (.text points, rest)
  | .name name false :: rest =>
    let (names, after) := readMembers rest
    match after with
    | .punctuator .openParen :: inside =>
      match readArguments inside with
      | some (arguments, last) =>
        if arguments.all fun argument => !argument.isEmpty then
          some (.call (name :: names) arguments, last)
        else none
      | none => none
    | _ => if name = "params" ∧ names ≠ [] then some (.param names, after) else none
  | _ => none

theorem length_readMembers (ts : List Token) : (readMembers ts).2.length ≤ ts.length := by
  fun_induction readMembers ts <;> grind

theorem length_readArguments {ts after : List Token} {arguments : List (List Token)}
    (h : readArguments ts = some (arguments, after)) : after.length < ts.length := by
  fun_induction readArguments ts generalizing arguments after <;> grind

theorem length_readOperand {ts after : List Token} {operand : Operand}
    (h : readOperand ts = some (operand, after)) : after.length < ts.length := by
  unfold readOperand at h
  split at h
  · grind
  · rename_i name rest
    have hmembers := length_readMembers rest
    simp only at h
    split at h
    · rename_i inside heq
      rw [heq, List.length_cons] at hmembers
      split at h
      · rename_i arguments last hread
        have harguments := length_readArguments hread
        grind
      · cases h
    · grind
  · cases h

/-- Reads a sum as its operands. -/
def readSum (ts : List Token) : Option (List Operand) :=
  match _h : readOperand ts with
  | some (operand, []) => some [operand]
  | some (operand, .punctuator .plus :: rest) => (readSum rest).map (operand :: ·)
  | _ => none
termination_by ts.length
decreasing_by
  have := length_readOperand _h
  simp only [List.length_cons] at this
  omega

/-! ## What is written is read back -/

/-- An operand that can be written: names are given where names must stand,
and an argument has at least one token and none that would end it. -/
def Operand.WellFormed : Operand → Prop
  | .text _ => True
  | .param names => names ≠ []
  | .call callee arguments =>
    callee ≠ [] ∧ arguments ≠ [] ∧
      ∀ argument ∈ arguments, argument ≠ [] ∧ argument.all isArgumentToken

/-- What follows a path is no part of it. -/
def EndsPath : List Token → Prop
  | .punctuator .dot :: _ => False
  | _ => True

theorem readMembers_append (names : List String) {rest : List Token} (hrest : EndsPath rest) :
    readMembers (memberTokens names ++ rest) = (names, rest) := by
  induction names with
  | nil =>
      show readMembers rest = ([], rest)
      unfold readMembers
      split
      · exact hrest.elim
      · rfl
  | cons name names ih =>
      show readMembers (.punctuator .dot :: .name name false :: (memberTokens names ++ rest)) = _
      rw [readMembers, ih]

/-- The tokens of an argument belong to the first argument that is read. -/
theorem readArguments_append {argument ts after : List Token} {first : List Token}
    {arguments : List (List Token)} (hargument : argument.all isArgumentToken)
    (h : readArguments ts = some (first :: arguments, after)) :
    readArguments (argument ++ ts) = some ((argument ++ first) :: arguments, after) := by
  induction argument with
  | nil => exact h
  | cons token argument ih =>
      simp only [List.all_cons, Bool.and_eq_true] at hargument
      obtain ⟨htoken, hargument⟩ := hargument
      rw [List.cons_append, readArguments]
      · rw [if_pos htoken, ih hargument]
        rfl
      · rintro rfl
        cases htoken
      · rintro rfl
        cases htoken

theorem readArguments_argumentTokens {arguments : List (List Token)} (hne : arguments ≠ [])
    (harguments : ∀ argument ∈ arguments, argument.all isArgumentToken) (rest : List Token) :
    readArguments (argumentTokens arguments ++ rest) = some (arguments, rest) := by
  fun_induction argumentTokens arguments with
  | case1 => exact absurd rfl hne
  | case2 argument =>
      have hlast : readArguments (.punctuator .closeParen :: rest) = some ([[]], rest) := rfl
      have hread := readArguments_append (harguments argument (by simp)) hlast
      simpa using hread
  | case3 argument arguments hmore ih =>
      have htail := ih (fun h => hmore h) fun other hother => harguments other (by simp [hother])
      have hcomma : readArguments (.punctuator .comma :: (argumentTokens arguments ++ rest)) =
          some ([] :: arguments, rest) := by
        rw [readArguments, htail]
      have hread := readArguments_append (harguments argument (by simp)) hcomma
      simpa using hread

/-- What follows an operand starts neither a member nor the arguments of a call. -/
def EndsOperand : List Token → Prop
  | .punctuator .dot :: _ => False
  | .punctuator .openParen :: _ => False
  | _ => True

theorem readOperand_append {operand : Operand} (hoperand : operand.WellFormed)
    {rest : List Token} (hrest : EndsOperand rest) :
    readOperand (operand.tokens ++ rest) = some (operand, rest) := by
  cases operand with
  | text points => rfl
  | param names =>
      have hpath : EndsPath rest := by
        unfold EndsPath
        split
        · exact hrest
        · trivial
      show readOperand (.name "params" false :: (memberTokens names ++ rest)) = _
      simp only [readOperand, readMembers_append names hpath]
      split
      · exact hrest.elim
      · have hnames : names ≠ [] := hoperand
        simp [hnames]
  | call callee arguments =>
      obtain ⟨hcallee, hne, harguments⟩ := hoperand
      cases callee with
      | nil => exact absurd rfl hcallee
      | cons name names =>
          have hpath : EndsPath (.punctuator .openParen :: (argumentTokens arguments ++ rest)) :=
            trivial
          have hread := readArguments_argumentTokens hne
            (fun argument h => (harguments argument h).2) rest
          have hfull : (arguments.all fun argument => !argument.isEmpty) = true := by
            rw [List.all_eq_true]
            intro argument hargument
            simpa using (harguments argument hargument).1
          have htokens : (Operand.call (name :: names) arguments).tokens ++ rest =
              .name name false :: (memberTokens names ++
                .punctuator .openParen :: (argumentTokens arguments ++ rest)) := by
            simp [Operand.tokens, pathTokens]
          rw [htokens]
          simp [readOperand, readMembers_append names hpath, hread, hfull]

/-- **A sum is read back as the operands it was written for**, in their order. -/
theorem readSum_sumTokens {operands : List Operand} (hne : operands ≠ [])
    (hoperands : ∀ operand ∈ operands, operand.WellFormed) :
    readSum (sumTokens operands) = some operands := by
  fun_induction sumTokens operands with
  | case1 => exact absurd rfl hne
  | case2 operand =>
      have hend : EndsOperand [] := trivial
      have hread := readOperand_append (hoperands operand (by simp)) hend
      rw [List.append_nil] at hread
      rw [readSum]
      split <;> grind
  | case3 operand operands hmore ih =>
      have htail := ih (fun h => hmore h) fun other hother => hoperands other (by simp [hother])
      have hend : EndsOperand (.punctuator .plus :: sumTokens operands) := trivial
      have hread := readOperand_append (hoperands operand (by simp)) hend
      rw [readSum]
      split <;> grind

/-! ## Values -/

/-- The code units of a text in UTF-16. -/
def codeUnits (points : List Nat) : List Nat :=
  points.flatMap fun n =>
    if n < 0x10000 then [n]
    else [0xD800 + (n - 0x10000) / 0x400, 0xDC00 + (n - 0x10000) % 0x400]

/-- A text of the source as the code units of a value. -/
def unitsOf (text : String) : List Nat := codeUnits (text.toList.map Char.toNat)

/-- A value that is no object. -/
inductive Value (Number : Type)
  | text (units : List Nat)
  | number (value : Number)
  | boolean (value : Bool)
  | null
  | undefined

/-- What scripts know about numbers: how they add, what a value is as a
number, and how a number is spelled. -/
structure Arithmetic (Number : Type) where
  /-- The sum of two numbers. -/
  add : Number → Number → Number
  /-- A value as a number. -/
  numberOf : Value Number → Number
  /-- The spelling of a number. -/
  spell : Number → List Nat

namespace Arithmetic

variable {Number : Type} (arithmetic : Arithmetic Number)

/-- A value as a text. -/
def form : Value Number → List Nat
  | .text units => units
  | .number value => arithmetic.spell value
  | .boolean true => unitsOf "true"
  | .boolean false => unitsOf "false"
  | .null => unitsOf "null"
  | .undefined => unitsOf "undefined"

/-- The addition of scripts: texts are concatenated, and a value next to a
text is taken as a text. -/
def plus : Value Number → Value Number → Value Number
  | .text units, right => .text (units ++ arithmetic.form right)
  | left, .text units => .text (arithmetic.form left ++ units)
  | left, right => .number (arithmetic.add (arithmetic.numberOf left) (arithmetic.numberOf right))

/-- The value of a sum, from the left. -/
def sum : List (Value Number) → Value Number
  | [] => .undefined
  | value :: values => values.foldl arithmetic.plus value

/-- A text stays a text, whatever is added to it. -/
theorem foldl_plus_text (units : List Nat) (values : List (Value Number)) :
    values.foldl arithmetic.plus (.text units) =
      .text (units ++ values.flatMap arithmetic.form) := by
  induction values generalizing units with
  | nil => simp
  | cons value values ih =>
      have hplus : arithmetic.plus (.text units) value =
          .text (units ++ arithmetic.form value) := rfl
      rw [List.foldl_cons, hplus, ih, List.flatMap_cons, List.append_assoc]

/-- **A sum that starts with a text is a text**: no two numbers are added. -/
theorem sum_text_cons (units : List Nat) (values : List (Value Number)) :
    arithmetic.sum (.text units :: values) =
      .text (units ++ values.flatMap arithmetic.form) :=
  arithmetic.foldl_plus_text units values

end Arithmetic

/-- The values of the operands of a sum.  A member of `params` has the value
that `params` gives it, and the calls have the results given in the order in
which they are made; `made` of them were made before. -/
def operandValues {Number : Type} (params : List String → Value Number)
    (results : Nat → Value Number) : Nat → List Operand → List (Value Number)
  | _, [] => []
  | made, .text points :: operands =>
    .text (codeUnits points) :: operandValues params results made operands
  | made, .param names :: operands =>
    params names :: operandValues params results made operands
  | made, .call _ _ :: operands =>
    results made :: operandValues params results (made + 1) operands

end KeysetBundle.Script
