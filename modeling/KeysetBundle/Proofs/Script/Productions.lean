import KeysetBundle.Proofs.Script.Reading
import KeysetBundle.Script.Exports
import KeysetBundle.Script.Grammar

/-!
# Productions of assignments

What the grammar makes of the tokens of an assignment of objects and texts to
the exports.  An operand is read through every level of operators before it is
known that none follows, so the levels are gone through once
(`runs_conditional`): it takes a token behind the operand that is no operator,
which is a comma, a closing bracket, a semicolon or the sign of the assignment.

`ReadsValue` says that tokens are read as a value whatever ends it.  Texts are
values (`readsValue_text`), and so are objects of values (`readsValue_object`);
an assignment of a value to the exports is a statement (`runs_moduleItem_export`).
-/

namespace KeysetBundle.Script

variable {β : Type} {inner : Inner} {context : Context} {ts us rest : List Token}

/-! ## Ends of operands -/

/-- The punctuators that end a value. -/
def valueEnds : List Punctuator := [.comma, .closeBrace, .closeBracket, .semicolon]

/-- The punctuators that end the target of an assignment or a value. -/
def operandEnds : List Punctuator := .assign :: valueEnds

/-- What ends an operand is no part of it and no operator behind it. -/
structure IsOperandEnd (p : Punctuator) : Prop where
  binary : ∀ context, binaryOperator context (.punctuator p) = none
  power : (Token.punctuator p == .punctuator .power) = false
  coalesce : (Token.punctuator p == .punctuator .coalesce) = false
  question : (Token.punctuator p == .punctuator .question) = false
  increment : (Token.punctuator p == .punctuator .increment) = false
  decrement : (Token.punctuator p == .punctuator .decrement) = false
  arrow : (Token.punctuator p == .punctuator .arrow) = false

theorem isOperandEnd {p : Punctuator} (h : p ∈ operandEnds) : IsOperandEnd p := by
  simp only [operandEnds, valueEnds, List.mem_cons, List.not_mem_nil, or_false] at h
  rcases h with rfl | rfl | rfl | rfl | rfl <;>
    exact ⟨fun _ => rfl, rfl, rfl, rfl, rfl, rfl, rfl⟩

/-- Nothing follows an operand. -/
theorem runs_suffixes {p : Punctuator} (hp : p ∈ operandEnds) (calls : Bool) (node : Node)
    {bound : Nat} (hbound : 0 < bound) :
    Runs (suffixes inner context calls false node bound) (.punctuator p :: rest)
      (.punctuator p :: rest) (· = node) := by
  obtain ⟨bound, rfl⟩ := Nat.exists_eq_succ_of_ne_zero (Nat.ne_of_gt hbound)
  rw [suffixes]
  refine runs_token.bind_eq ?_
  simp only [operandEnds, valueEnds, List.mem_cons, List.not_mem_nil, or_false] at hp
  rcases hp with rfl | rfl | rfl | rfl | rfl <;> exact .pure rfl

/-- No change by one follows an operand. -/
theorem runs_operandFrom {p : Punctuator} (hp : p ∈ operandEnds) {node : Node}
    {Result : Node → Prop}
    (h : Runs (suffixes inner context true false node inner.bound) ts (.punctuator p :: rest)
      Result) :
    Runs (operandFrom inner context node) ts (.punctuator p :: rest) Result := by
  have hends := isOperandEnd hp
  rw [operandFrom]
  refine h.bind fun operand hoperand => ?_
  refine (runs_sees _).bind_eq ?_
  refine (runs_sees _).bind_eq ?_
  refine runs_newline.bind fun _ _ => ?_
  rw [hends.increment, hends.decrement]
  exact .pure hoperand

theorem runs_binary {p : Punctuator} (hp : p ∈ operandEnds) (hbound : 0 < inner.bound)
    {first : Parser Node} {Result : Node → Prop}
    (h : Runs first ts (.punctuator p :: rest) Result) (level : Nat) :
    Runs (binary inner context level first) ts (.punctuator p :: rest) Result := by
  have hends := isOperandEnd hp
  obtain ⟨bound, hsucc⟩ := Nat.exists_eq_succ_of_ne_zero (Nat.ne_of_gt hbound)
  induction level with
  | zero =>
      rw [binary, power]
      refine h.bind fun base hbase => (runs_sees _).bind_eq ?_
      rw [hends.power]
      exact .pure hbase
  | succ level ih =>
      rw [binary]
      refine ih.bind fun left hleft => ?_
      rw [hsucc, combine]
      refine runs_token.bind_eq ?_
      rw [hends.binary]
      exact .pure hleft

theorem runs_conditional {p : Punctuator} (hp : p ∈ operandEnds) (hbound : 0 < inner.bound)
    {first : Parser Node} {Result : Node → Prop}
    (h : Runs first ts (.punctuator p :: rest) Result) :
    Runs (conditional inner context first) ts (.punctuator p :: rest) Result := by
  have hends := isOperandEnd hp
  have hshort : Runs (shortCircuit inner context first) ts (.punctuator p :: rest) Result := by
    rw [shortCircuit]
    refine (runs_binary hp hbound h binaryLevels).bind fun left hleft => ?_
    refine (runs_sees _).bind_eq ?_
    rw [hends.coalesce]
    exact .pure hleft
  rw [conditional]
  refine hshort.bind fun test htest => ?_
  exact (runs_accept_other hends.question).bind_eq (.pure htest)

/-- An operand that is a value on its own. -/
theorem runs_assignmentFrom {p : Punctuator} (hp : p ∈ valueEnds) (hbound : 0 < inner.bound)
    {first : Parser Node} {Result : Node → Prop}
    (h : Runs first ts (.punctuator p :: rest) Result) :
    Runs (assignmentFrom inner context first) ts (.punctuator p :: rest) Result := by
  rw [assignmentFrom]
  refine (runs_conditional (List.mem_cons_of_mem _ hp) hbound h).bind fun left hleft => ?_
  refine runs_token.bind_eq ?_
  simp only [valueEnds, List.mem_cons, List.not_mem_nil, or_false] at hp
  rcases hp with rfl | rfl | rfl | rfl <;> exact .pure hleft

/-- An operand that a value is assigned to. -/
theorem runs_assignmentFrom_assign {p : Punctuator} (hbound : 0 < inner.bound)
    {first : Parser Node} {Target Value : Node → Prop}
    (h : Runs first ts (.punctuator .assign :: us) Target)
    (hvalue : Runs (inner.read .assignment context) us (.punctuator p :: rest) Value) :
    Runs (assignmentFrom inner context first) ts (.punctuator p :: rest) fun node =>
      ∃ left value, node = .assign left.line left.toTarget value ∧ Target left ∧ Value value := by
  rw [assignmentFrom]
  refine (runs_conditional (by simp [operandEnds]) hbound h).bind fun left hleft => ?_
  refine runs_token.bind_eq (runs_advance.bind fun _ _ => ?_)
  exact hvalue.bind fun value hvalue => .pure ⟨left, value, rfl, hleft, hvalue⟩

/-! ## Values -/

/-- The token of a text in quotes. -/
def textToken (text : String) : Token := .text (text.toList.map Char.toNat)

/-- The node of a text in quotes. -/
def IsTextNode (text : String) (node : Node) : Prop :=
  ∃ line, node = .text line (text.toList.map Char.toNat)

/-- A parser reads the tokens of a value, whatever ends it. -/
def ReadsValue (parser : Parser Node) (ts : List Token) (Value : Node → Prop) : Prop :=
  ∀ p ∈ valueEnds, ∀ rest, Runs parser (ts ++ .punctuator p :: rest) (.punctuator p :: rest) Value

/-- A value that starts with an operand of its own. -/
theorem runs_assignment_other {t : Token} {p : Punctuator} (hp : p ∈ valueEnds)
    (hbound : 0 < inner.bound) (hyield : (t == .name "yield" false) = false)
    (hopening : Runs (opening inner context) (t :: ts) (t :: ts) (· = .other))
    (hunary : unaryForm context t = none) {Value : Node → Prop}
    (h : Runs (primary inner context true) (t :: ts) (.punctuator p :: rest) Value) :
    Runs (assignment inner context) (t :: ts) (.punctuator p :: rest) Value := by
  have hends : p ∈ operandEnds := List.mem_cons_of_mem _ hp
  have hoperand : Runs (unary inner context) (t :: ts) (.punctuator p :: rest) Value := by
    rw [unary]
    refine runs_line.bind fun _ _ => runs_token.bind_eq ?_
    rw [hunary]
    refine h.bind fun node hnode => runs_operandFrom hends ?_
    exact (runs_suffixes hends true node hbound).mono fun _ hsame => hsame ▸ hnode
  rw [assignment]
  refine (runs_seesWord _).bind_eq ?_
  rw [hyield, Bool.and_false]
  exact hopening.bind_eq (runs_assignmentFrom hp hbound hoperand)

theorem readsValue_text (text : String) (hbound : 0 < inner.bound) :
    ReadsValue (assignment inner context) [textToken text] (IsTextNode text) := by
  intro p hp rest
  refine runs_assignment_other hp hbound rfl ?_ rfl ?_
  · rw [opening]
    exact runs_line.bind fun _ _ => runs_token.bind_eq (.pure rfl)
  · rw [primary]
    refine runs_line.bind fun start _ => runs_token.bind_eq (runs_advance.bind fun _ _ => ?_)
    exact .pure ⟨start, rfl⟩

/-! ## Objects -/

/-- The node of a key with a value. -/
def IsEntryNode (Value : β → Node → Prop) (entry : String × β) (node : Node) : Prop :=
  ∃ line place value, node = .property line (.text place (entry.1.toList.map Char.toNat)) value ∧
    Value entry.2 value

/-- The node of an object. -/
def IsObjectNode (Value : β → Node → Prop) (entries : List (String × β)) (node : Node) : Prop :=
  ∃ line properties, node = .object line properties ∧
    List.Forall₂ (IsEntryNode Value) entries properties

/-- The tokens of a key with a value. -/
def entryTokens (write : β → List Token) (entry : String × β) : List Token :=
  textToken entry.1 :: .punctuator .colon :: write entry.2

/-- The tokens of an object. -/
def objectTokens (write : β → List Token) (entries : List (String × β)) : List Token :=
  .punctuator .openBrace ::
    (commaTokens (entries.map (entryTokens write)) ++ [.punctuator .closeBrace])

theorem runs_modifier {t : Token} {word : String} (h : (t == .name word false) = false) :
    Runs (modifier word) (t :: ts) (t :: ts) (· = false) := by
  rw [modifier]
  refine (runs_attempt (t :: ts) ?_).bind_eq (.pure rfl)
  exact (runs_acceptWord_other h).bind_eq (.pure rfl)

theorem runs_property {write : β → List Token} {Value : β → Node → Prop} {entry : String × β}
    (h : ReadsValue (inner.read .assignment context.withIn) (write entry.2) (Value entry.2))
    {p : Punctuator} (hp : p ∈ valueEnds) :
    Runs (property inner context) (entryTokens write entry ++ .punctuator p :: rest)
      (.punctuator p :: rest) (IsEntryNode Value entry) := by
  have hkey : Runs (propertyKey inner context) (entryTokens write entry ++ .punctuator p :: rest)
      (.punctuator .colon :: (write entry.2 ++ .punctuator p :: rest))
      fun key => ∃ place, key = ⟨.text place (entry.1.toList.map Char.toNat), none⟩ := by
    rw [propertyKey]
    refine runs_line.bind fun start _ => runs_token.bind_eq (runs_advance.bind fun _ _ => ?_)
    exact .pure ⟨start, rfl⟩
  rw [property]
  refine runs_line.bind fun _ _ => ?_
  refine (runs_accept_other rfl).bind_eq ?_
  refine (runs_accept_other rfl).bind_eq ?_
  refine (runs_modifier rfl).bind_eq ?_
  refine (runs_modifier rfl).bind_eq ?_
  refine (runs_modifier rfl).bind_eq ?_
  refine hkey.bind ?_
  rintro _ ⟨place, rfl⟩
  rw [propertyRest]
  refine (runs_sees _).bind_eq ((runs_accept _).bind_eq ?_)
  exact (h p hp rest).bind fun value hvalue => .pure ⟨_, place, value, rfl, hvalue⟩

/-- An object of values is a value. -/
theorem readsValue_object {write : β → List Token} {Value : β → Node → Prop}
    {entries : List (String × β)} (hbound : entries.length < inner.bound)
    (h : ∀ entry ∈ entries,
      ReadsValue (inner.read .assignment context.withIn) (write entry.2) (Value entry.2)) :
    ReadsValue (assignment inner context) (objectTokens write entries)
      (IsObjectNode Value entries) := by
  intro p hp rest
  have hlist : objectTokens write entries ++ .punctuator p :: rest =
      .punctuator .openBrace :: (commaTokens (entries.map (entryTokens write)) ++
        .punctuator .closeBrace :: (.punctuator p :: rest)) := by
    simp [objectTokens]
  rw [hlist]
  refine runs_assignment_other hp (Nat.zero_lt_of_lt hbound) rfl ?_ rfl ?_
  · rw [opening]
    exact runs_line.bind fun _ _ => runs_token.bind_eq (.pure rfl)
  · rw [primary]
    refine runs_line.bind fun _ _ => runs_token.bind_eq ?_
    change Runs (objectLiteral inner context) _ _ _
    rw [objectLiteral]
    refine runs_line.bind fun start _ => (runs_expect _).bind fun _ _ => ?_
    have hentry : ∀ entry ∈ entries, ∀ q, q = .comma ∨ q = .closeBrace → ∀ after,
        Runs (property inner context) (entryTokens write entry ++ .punctuator q :: after)
          (.punctuator q :: after) (IsEntryNode Value entry) := by
      intro entry hentry q hq after
      refine runs_property (h entry hentry) ?_
      rcases hq with rfl | rfl <;> simp [valueEnds]
    have hlist := runs_commaSeparated hbound (fun entry _ => ⟨_, _, rfl, rfl⟩) hentry rfl
      (.punctuator p :: rest)
    exact hlist.bind fun found hfound => .pure ⟨start, found.1, rfl, hfound⟩

/-! ## Assignments to the exports -/

/-- The tokens of the target of an assignment to the exports. -/
def ExportTarget.tokens : ExportTarget → List Token
  | .whole => [.name "module" false, .punctuator .dot, .name "exports" false]
  | .keyset name =>
    [.name "exports" false, .punctuator .openBracket, textToken name, .punctuator .closeBracket]

/-- The node of the target of an assignment to the exports. -/
def ExportTarget.IsNode : ExportTarget → Node → Prop
  | .whole, node => ∃ line place, node = .member line (.name place "module") "exports"
  | .keyset name, node =>
    ∃ line place key, node = .index line (.name place "exports") key ∧ IsTextNode name key

/-- The node of an assignment to the exports that is a statement. -/
def IsExportNode (target : ExportTarget) (Value : Node → Prop) (node : Node) : Prop :=
  ∃ line place left value, node = .form line .expressionStatement [.assign place left value] ∧
    target.IsNode left ∧ Value value

/-- A name that no arrow follows is an operand on its own. -/
theorem runs_opening_name {word : String} (hword : isReserved word = false)
    (hasync : word ≠ "async") {t : Token} (harrow : (t == .punctuator .arrow) = false) :
    Runs (opening inner context) (.name word false :: t :: ts) (t :: ts)
      fun found => ∃ line, found = .operand (.name line word) := by
  rw [opening]
  refine runs_line.bind fun start _ => runs_token.bind_eq ?_
  split
  · rename_i heq
    cases heq
  · rename_i heq
    cases heq
    exact absurd rfl hasync
  · rename_i heq
    cases heq
    rw [hword]
    refine runs_advance.bind fun _ _ => (runs_seesArrow harrow).bind_eq ?_
    exact .pure ⟨start, rfl⟩
  · rename_i hother
    exact absurd rfl (hother _ _)

/-- An assignment whose target starts with a name. -/
theorem runs_assignment_name {word : String} (hword : isReserved word = false)
    (hasync : word ≠ "async") {t : Token} (harrow : (t == .punctuator .arrow) = false)
    {p : Punctuator} (hbound : 0 < inner.bound) {Target Value : Node → Prop}
    (htarget : ∀ line, Runs (operandFrom inner context (.name line word)) (t :: ts)
      (.punctuator .assign :: us) Target)
    (hvalue : Runs (inner.read .assignment context) us (.punctuator p :: rest) Value) :
    Runs (assignment inner context) (.name word false :: t :: ts) (.punctuator p :: rest)
      fun node => ∃ left value, node = .assign left.line left.toTarget value ∧ Target left ∧
        Value value := by
  have hyield : (Token.name word false == .name "yield" false) = false := by
    rw [beq_eq_false_iff_ne]
    intro heq
    cases heq
    exact absurd hword (by decide)
  rw [assignment]
  refine (runs_seesWord _).bind_eq ?_
  rw [hyield, Bool.and_false]
  refine (runs_opening_name hword hasync harrow).bind ?_
  rintro _ ⟨line, rfl⟩
  exact runs_assignmentFrom_assign hbound (htarget line) hvalue

/-- A member by name is read behind its object. -/
theorem runs_operandFrom_member {node : Node} {key : String} {p : Punctuator}
    (hp : p ∈ operandEnds) (hbound : 1 < inner.bound) :
    Runs (operandFrom inner context node)
      (.punctuator .dot :: .name key false :: .punctuator p :: rest) (.punctuator p :: rest)
      (· = .member node.line node key) := by
  obtain ⟨bound, hsucc⟩ := Nat.exists_eq_succ_of_ne_zero (Nat.ne_zero_of_lt hbound)
  have hname : Runs (memberName node) (.name key false :: .punctuator p :: rest)
      (.punctuator p :: rest) (· = .member node.line node key) := by
    rw [memberName]
    refine runs_token.bind_eq (Runs.bind_eq ?_ (.pure rfl))
    rw [anyName]
    exact runs_token.bind_eq (runs_advance.bind fun _ _ => .pure rfl)
  refine runs_operandFrom hp ?_
  rw [hsucc, suffixes]
  refine runs_token.bind_eq (runs_advance.bind fun _ _ => hname.bind_eq ?_)
  exact runs_suffixes hp true _ (by omega)

/-- A member by a text in quotes is read behind its object. -/
theorem runs_operandFrom_index {node : Node} {key : String} {p : Punctuator}
    (hp : p ∈ operandEnds) (hbound : 1 < inner.bound)
    (hkey : ReadsValue (inner.read .assignment context.withIn) [textToken key] (IsTextNode key)) :
    Runs (operandFrom inner context node)
      (.punctuator .openBracket :: textToken key :: .punctuator .closeBracket ::
        .punctuator p :: rest) (.punctuator p :: rest)
      fun found => ∃ value, found = .index node.line node value ∧ IsTextNode key value := by
  obtain ⟨bound, hsucc⟩ := Nat.exists_eq_succ_of_ne_zero (Nat.ne_zero_of_lt hbound)
  have hexpression : Runs (expression inner context.withIn)
      (textToken key :: .punctuator .closeBracket :: .punctuator p :: rest)
      (.punctuator .closeBracket :: .punctuator p :: rest) (IsTextNode key) := by
    rw [expression]
    refine (hkey .closeBracket (by simp [valueEnds]) _).bind fun value hvalue => ?_
    exact (runs_sees _).bind_eq (.pure hvalue)
  refine runs_operandFrom hp ?_
  rw [hsucc, suffixes]
  refine runs_token.bind_eq (runs_advance.bind fun _ _ => ?_)
  refine hexpression.bind fun value hvalue => (runs_expect _).bind fun _ _ => ?_
  exact (runs_suffixes hp true _ (by omega)).mono fun _ hsame => ⟨value, hsame, hvalue⟩

theorem ExportTarget.IsNode.toTarget {target : ExportTarget} {node : Node}
    (h : target.IsNode node) : node.toTarget = node := by
  cases target with
  | whole =>
      obtain ⟨line, place, rfl⟩ := h
      rfl
  | keyset name =>
      obtain ⟨line, place, key, rfl, -⟩ := h
      rfl

/-- An assignment to the exports is read as one. -/
theorem runs_assignment_export (target : ExportTarget) {Value : Node → Prop} {p : Punctuator}
    (hp : p ∈ valueEnds) (hbound : 1 < inner.bound)
    (hkey : ∀ key, ReadsValue (inner.read .assignment context.withIn) [textToken key]
      (IsTextNode key))
    (hvalue : ReadsValue (inner.read .assignment context) ts Value) :
    Runs (assignment inner context)
      (target.tokens ++ .punctuator .assign :: (ts ++ .punctuator p :: rest))
      (.punctuator p :: rest) fun node =>
        ∃ line left value, node = .assign line left value ∧ target.IsNode left ∧ Value value := by
  have hassign : .assign ∈ operandEnds := by simp [operandEnds]
  have hread : Runs (assignment inner context)
      (target.tokens ++ .punctuator .assign :: (ts ++ .punctuator p :: rest))
      (.punctuator p :: rest) fun node => ∃ left value,
        node = .assign left.line left.toTarget value ∧ target.IsNode left ∧ Value value := by
    cases target with
    | whole =>
        refine runs_assignment_name (by decide) (by decide) rfl (Nat.zero_lt_of_lt hbound)
          (fun line => ?_) (hvalue p hp rest)
        exact (runs_operandFrom_member hassign hbound).mono fun _ hsame => ⟨_, line, hsame⟩
    | keyset name =>
        refine runs_assignment_name (by decide) (by decide) rfl (Nat.zero_lt_of_lt hbound)
          (fun line => ?_) (hvalue p hp rest)
        refine (runs_operandFrom_index hassign hbound (hkey name)).mono ?_
        exact fun _ ⟨key, hsame, hkey⟩ => ⟨_, line, key, hsame, hkey⟩
  refine hread.mono ?_
  rintro _ ⟨left, value, rfl, hleft, hvalue⟩
  exact ⟨left.line, left, value, by rw [hleft.toTarget], hleft, hvalue⟩

/-! ## Statements -/

/-- The first words of the assignments to the exports. -/
def firstWords : List String := ["module", "exports"]

theorem runs_acceptAsyncFunction {t : Token} (h : (t == .name "async" false) = false) :
    Runs acceptAsyncFunction (t :: ts) (t :: ts) (· = false) := by
  rw [acceptAsyncFunction]
  refine (runs_attempt (t :: ts) ?_).bind_eq (.pure rfl)
  exact (runs_acceptWord_other h).bind_eq (.pure rfl)

theorem runs_importItem {t : Token} {bound : Nat} (h : (t == .name "import" false) = false) :
    Runs (importItem? bound) (t :: ts) (t :: ts) (· = none) := by
  rw [importItem?]
  refine runs_attempt (t :: ts) (runs_line.bind fun _ _ => ?_)
  exact (runs_acceptWord_other h).bind_eq (.pure rfl)

theorem runs_label {word : String} (hword : isReserved word = false) {t : Token}
    (h : (t == .punctuator .colon) = false) :
    Runs label? (.name word false :: t :: ts) (.name word false :: t :: ts) (· = none) := by
  rw [label?]
  refine runs_attempt (t :: ts) (runs_token.bind_eq ?_)
  simp only [hword]
  exact runs_advance.bind fun _ _ => (runs_accept_other h).bind_eq (.pure rfl)

theorem runs_expressionStatement {t : Token} (hasync : (t == .name "async" false) = false)
    {Value : Node → Prop} (h : Runs (inner.read .assignment context) (t :: ts)
      (.punctuator .semicolon :: rest) Value) :
    Runs (expressionStatement inner context) (t :: ts) rest fun node =>
      ∃ line value, node = .form line .expressionStatement [value] ∧ Value value := by
  have hexpression : Runs (expression inner context) (t :: ts)
      (.punctuator .semicolon :: rest) Value := by
    rw [expression]
    exact h.bind fun value hvalue => (runs_sees _).bind_eq (.pure hvalue)
  rw [expressionStatement]
  refine (runs_acceptAsyncFunction hasync).bind_eq (hexpression.bind fun value hvalue => ?_)
  exact runs_endStatement.bind fun _ _ => .pure ⟨_, value, rfl, hvalue⟩

/-- An expression that starts with one of the words is a statement. -/
theorem runs_item {word : String} (hword : word ∈ firstWords) {t : Token}
    (hcolon : (t == .punctuator .colon) = false) {Value : Node → Prop}
    (h : Runs (inner.read .assignment context) (.name word false :: t :: ts)
      (.punctuator .semicolon :: rest) Value) :
    Runs (item inner context) (.name word false :: t :: ts) rest fun node =>
      ∃ line value, node = .form line .expressionStatement [value] ∧ Value value := by
  simp only [firstWords, List.mem_cons, List.not_mem_nil, or_false] at hword
  have hstatement : Runs (statement inner context) (.name word false :: t :: ts) rest
      fun node => ∃ line value, node = .form line .expressionStatement [value] ∧ Value value := by
    rw [statement]
    refine runs_line.bind fun _ _ => runs_token.bind_eq ?_
    -- neither word is the first one of another statement
    rcases hword with rfl | rfl <;>
      exact (runs_label rfl hcolon).bind_eq (runs_expressionStatement rfl h)
  rw [item]
  refine runs_line.bind fun _ _ => runs_token.bind_eq ?_
  rcases hword with rfl | rfl <;> exact (runs_acceptAsyncFunction rfl).bind_eq hstatement

/-- An expression that starts with one of the words is an item of a module. -/
theorem runs_moduleItem {word : String} (hword : word ∈ firstWords) {t : Token}
    (hcolon : (t == .punctuator .colon) = false) {Value : Node → Prop}
    (h : Runs (inner.read .assignment ⟨false, true, true⟩) (.name word false :: t :: ts)
      (.punctuator .semicolon :: rest) Value) :
    Runs (moduleItem inner) (.name word false :: t :: ts) rest fun node =>
      ∃ line value, node = .form line .expressionStatement [value] ∧ Value value := by
  have hitem := runs_item hword hcolon h
  rw [moduleItem]
  refine (runs_seesWord _).bind_eq ?_
  simp only [firstWords, List.mem_cons, List.not_mem_nil, or_false] at hword
  rcases hword with rfl | rfl <;> exact (runs_importItem rfl).bind_eq hitem

/-! ## Values of a given depth -/

/-- Elements with commas between them have at least their own tokens. -/
theorem length_le_commaTokens {runs : List (List Token)} (h : ∀ run ∈ runs, 0 < run.length) :
    runs.length ≤ (commaTokens runs).length ∧
      ∀ run ∈ runs, run.length ≤ (commaTokens runs).length := by
  induction runs with
  | nil => exact ⟨Nat.le_refl _, nofun⟩
  | cons run runs ih =>
      obtain ⟨hlength, hrun⟩ := ih fun other hother => h other (List.mem_cons_of_mem _ hother)
      have hpos := h run List.mem_cons_self
      cases runs with
      | nil => simpa using Nat.succ_le_of_lt hpos
      | cons next runs =>
          have hsum : (commaTokens (run :: next :: runs)).length =
              run.length + ((commaTokens (next :: runs)).length + 1) := by
            rw [commaTokens_cons_cons, List.length_append, List.length_cons]
          rw [hsum]
          refine ⟨by simp only [List.length_cons] at hlength ⊢; omega, fun other hother => ?_⟩
          rcases List.mem_cons.1 hother with rfl | hother
          · omega
          · have := hrun other hother
            omega

theorem length_le_objectTokens (write : β → List Token) (entries : List (String × β)) :
    entries.length + 2 ≤ (objectTokens write entries).length ∧
      ∀ entry ∈ entries, (write entry.2).length + 4 ≤ (objectTokens write entries).length := by
  have hobject : (objectTokens write entries).length =
      (commaTokens (entries.map (entryTokens write))).length + 2 := by simp [objectTokens]
  have hpos : ∀ run ∈ entries.map (entryTokens write), 0 < run.length := by
    intro run hrun
    obtain ⟨entry, -, rfl⟩ := List.mem_map.1 hrun
    exact Nat.succ_pos _
  obtain ⟨hcount, hruns⟩ := length_le_commaTokens hpos
  rw [List.length_map] at hcount
  refine ⟨by omega, fun entry hentry => ?_⟩
  have hentry : (write entry.2).length + 2 ≤ _ :=
    hruns (entryTokens write entry) (List.mem_map_of_mem hentry)
  omega

theorem readsValue_nested_text (depth : Nat) (text : String) :
    ReadsValue (nested (depth + 2) .assignment context) [textToken text] (IsTextNode text) :=
  readsValue_text text (Nat.succ_pos depth)

theorem readsValue_nested_object {write : β → List Token} {Value : β → Node → Prop}
    {entries : List (String × β)} {depth : Nat} (hdepth : entries.length < depth)
    (h : ∀ entry ∈ entries,
      ReadsValue (nested depth .assignment context.withIn) (write entry.2) (Value entry.2)) :
    ReadsValue (nested (depth + 1) .assignment context) (objectTokens write entries)
      (IsObjectNode Value entries) :=
  readsValue_object hdepth h

/-- An assignment to the exports that is a statement of a module. -/
theorem runs_moduleItem_export (target : ExportTarget) {Value : Node → Prop} {depth : Nat}
    (hvalue : ∀ context, ReadsValue (nested (depth + 2) .assignment context) ts Value) :
    Runs (moduleItem (.ofDepth (depth + 3)))
      (target.tokens ++ .punctuator .assign :: (ts ++ .punctuator .semicolon :: rest)) rest
      (IsExportNode target Value) := by
  have hbound : 1 < depth + 2 := by omega
  have hread : Runs (nested (depth + 3) .assignment ⟨false, true, true⟩)
      (target.tokens ++ .punctuator .assign :: (ts ++ .punctuator .semicolon :: rest))
      (.punctuator .semicolon :: rest) fun node =>
        ∃ line left value, node = .assign line left value ∧ target.IsNode left ∧ Value value :=
    runs_assignment_export target (by simp [valueEnds]) hbound (readsValue_nested_text depth)
      (hvalue _)
  have hitem : Runs (moduleItem (.ofDepth (depth + 3)))
      (target.tokens ++ .punctuator .assign :: (ts ++ .punctuator .semicolon :: rest)) rest
      fun node => ∃ line value, node = .form line .expressionStatement [value] ∧
        ∃ line left inner, value = .assign line left inner ∧ target.IsNode left ∧ Value inner := by
    cases target with
    | whole => exact runs_moduleItem (by decide) rfl hread
    | keyset name => exact runs_moduleItem (by decide) rfl hread
  refine hitem.mono ?_
  rintro _ ⟨line, _, rfl, place, left, value, rfl, hleft, hvalue⟩
  exact ⟨line, place, left, value, rfl, hleft, hvalue⟩

end KeysetBundle.Script
