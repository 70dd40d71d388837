import KeysetBundle.Artifact.Basic
import KeysetBundle.Proofs.Script.Blocks

/-!
# What the dispatcher executes

The lines of the dispatcher are read as a script, token by token.  They are one
choice among blocks (`choiceOf`), with the statements of one convention in each
block, so a host executes the statements of the first convention that it
offers.  The name of the module stands in a quoted text, which is one token:
braces and quotes in the name close nothing.

Main results.

- `spells_dispatcher`: the tokens of the dispatcher.
- `run_choiceOf`: which statements are executed.
- `dispatcher_selects`: the dispatcher of any conventions in any host.
-/

namespace KeysetBundle.Artifact

open KeysetBundle.Script (Choice IsBalanced SpellsTokens Token isBalanced_tokens openingTokens
  plainTokens? readScript?_tokens readScript? readTest? readTest?_testTokens testTokens tokens)
open KeysetBundle.Text (singleQuoted)

/-! ## Spelled lines -/

/-- Lines that are read as the tokens, whatever stands behind each line. -/
inductive SpelledLines : List String → List Token → Prop
  /-- No lines. -/
  | nil : SpelledLines [] []
  /-- A line before other lines. -/
  | cons {line : String} {rest : List String} {ts us : List Token} (h : SpellsTokens line ts)
    (hrest : SpelledLines rest us) : SpelledLines (line :: rest) (ts ++ us)

namespace SpelledLines

variable {items others : List String} {ts us : List Token}

theorem append (h : SpelledLines items ts) (hothers : SpelledLines others us) :
    SpelledLines (items ++ others) (ts ++ us) := by
  induction h with
  | nil => exact hothers
  | cons h _ ih =>
      rw [List.append_assoc]
      exact .cons h ih

theorem indented (h : SpelledLines items ts) : SpelledLines (items.map indented) ts := by
  have hblanks : SpellsTokens "    " [] := .of_plainTokens? (by decide)
  induction h with
  | nil => exact .nil
  | cons h _ ih => exact .cons (hblanks.append h) ih

/-- The ends of the lines are no tokens. -/
theorem spells (h : SpelledLines items ts) : SpellsTokens (lines items) ts := by
  induction h with
  | nil => exact .of_plainTokens? (by decide)
  | @cons line rest ts us h hrest ih =>
      cases hrest with
      | nil => simpa [lines] using h
      | @cons next rest =>
          have hjoined : lines (line :: next :: rest) = line ++ ("\n" ++ lines (next :: rest)) := by
            rw [lines, lines, String.intercalate_cons_cons, String.append_assoc]
          rw [hjoined]
          exact h.append (SpellsTokens.lineFeed.append ih)

end SpelledLines

/-! ## Conditions -/

/-- Whether a condition holds in a host: it is a test for a name that the host defines. -/
def conditionHolds (isDefined : String → Bool) (condition : String) : Bool :=
  match (tokens condition.toList).bind readTest? with
  | some (name, []) => isDefined name
  | _ => false

/-- Whether a host offers a convention: its condition holds, or it has none. -/
def Convention.isOffered (isDefined : String → Bool) (convention : Convention) : Bool :=
  match convention.probe? with
  | some condition => conditionHolds isDefined condition
  | none => true

variable {convention : Convention} {name : String}

theorem spells_probe (h : convention.probeName? = some name) :
    ∃ condition, convention.probe? = some condition ∧ SpellsTokens condition (testTokens name) := by
  have htext : SpellsTokens "'undefined'" [.text ("undefined".toList.map Char.toNat)] := by
    have hquoted : singleQuoted "undefined" = "'undefined'" := by decide
    exact hquoted ▸ SpellsTokens.quoted "undefined"
  have hend := SpellsTokens.notIdentical.append htext
  have hword : ∀ word, plainTokens? [] ("typeof " ++ word ++ " ").toList =
      some [.name "typeof" false, .name word false] →
      SpellsTokens ("typeof " ++ word ++ " !== 'undefined'") (testTokens word) := by
    intro word hword
    have hstart := SpellsTokens.of_plainTokens? hword
    have hsplit : "typeof " ++ word ++ " !== 'undefined'" =
        "typeof " ++ word ++ " " ++ ("!== " ++ "'undefined'") := by
      simp [String.append_assoc]
    rw [hsplit]
    exact hstart.append hend
  refine ⟨"typeof " ++ name ++ " !== 'undefined'", by rw [Convention.probe?, h]; rfl, ?_⟩
  apply hword
  cases convention with
  | registry =>
      cases h
      decide
  | exports =>
      cases h
      decide
  | global =>
      cases h
      decide
  | bare => cases h

theorem probe?_eq_none (h : convention.probeName? = none) : convention.probe? = none := by
  rw [Convention.probe?, h]
  rfl

/-- A host offers a convention with a condition if it defines the name. -/
theorem isOffered_eq (isDefined : String → Bool) (convention : Convention) :
    convention.isOffered isDefined = convention.probeName?.all isDefined := by
  unfold Convention.isOffered
  cases hname : convention.probeName? with
  | none =>
      rw [probe?_eq_none hname]
      rfl
  | some name =>
      obtain ⟨condition, hcondition, hspells⟩ := spells_probe hname
      have hread := readTest?_testTokens name []
      rw [List.append_nil] at hread
      rw [hcondition]
      simp only [conditionHolds, hspells.tokens_eq, Option.bind_some, hread, Option.all_some]

/-! ## Statements -/

/-- The tokens of the statements of a convention. -/
def statementTokens (moduleName : String) (convention : Convention) : List Token :=
  (tokens (lines (convention.expose moduleName)).toList).getD []

theorem exists_statementTokens (moduleName : String) (convention : Convention) :
    ∃ ts, SpelledLines (convention.expose moduleName) ts ∧ IsBalanced ts := by
  cases convention with
  | registry =>
      have hdefine : SpellsTokens "modules.define(" [.name "modules" false, .punctuator .dot,
          .name "define" false, .punctuator .openParen] := .of_plainTokens? (by decide)
      have hfunction : SpellsTokens ", function (provide, i18n) \x7b" [.punctuator .comma,
          .name "function" false, .punctuator .openParen, .name "provide" false,
          .punctuator .comma, .name "i18n" false, .punctuator .closeParen,
          .punctuator .openBrace] := .of_plainTokens? (by decide)
      have hprovide : SpellsTokens "    provide(initKeyset(i18n));" [.name "provide" false,
          .punctuator .openParen, .name "initKeyset" false, .punctuator .openParen,
          .name "i18n" false, .punctuator .closeParen, .punctuator .closeParen,
          .punctuator .semicolon] := .of_plainTokens? (by decide)
      have hend : SpellsTokens "\x7d);" [.punctuator .closeBrace, .punctuator .closeParen,
          .punctuator .semicolon] := .of_plainTokens? (by decide)
      have hopening := (hdefine.append (SpellsTokens.quoted moduleName)).append hfunction
      exact ⟨_, .cons hopening (.cons hprovide (.cons hend .nil)), rfl⟩
  | exports =>
      have hline : SpellsTokens "module.exports = function() \x7breturn initKeyset();\x7d;"
          [.name "module" false, .punctuator .dot, .name "exports" false, .punctuator .assign,
            .name "function" false, .punctuator .openParen, .punctuator .closeParen,
            .punctuator .openBrace, .name "return" false, .name "initKeyset" false,
            .punctuator .openParen, .punctuator .closeParen, .punctuator .semicolon,
            .punctuator .closeBrace, .punctuator .semicolon] := .of_plainTokens? (by decide)
      exact ⟨_, .cons hline .nil, rfl⟩
  | global =>
      have hline : SpellsTokens "window.i18n = initKeyset();" [.name "window" false,
          .punctuator .dot, .name "i18n" false, .punctuator .assign, .name "initKeyset" false,
          .punctuator .openParen, .punctuator .closeParen, .punctuator .semicolon] :=
        .of_plainTokens? (by decide)
      exact ⟨_, .cons hline .nil, rfl⟩
  | bare =>
      have hline : SpellsTokens "i18n = initKeyset();" [.name "i18n" false, .punctuator .assign,
          .name "initKeyset" false, .punctuator .openParen, .punctuator .closeParen,
          .punctuator .semicolon] := .of_plainTokens? (by decide)
      exact ⟨_, .cons hline .nil, rfl⟩

variable (moduleName : String)

theorem spelledLines_expose (convention : Convention) :
    SpelledLines (convention.expose moduleName) (statementTokens moduleName convention) ∧
      IsBalanced (statementTokens moduleName convention) := by
  obtain ⟨ts, hspelled, hbalanced⟩ := exists_statementTokens moduleName convention
  have htokens : statementTokens moduleName convention = ts := by
    rw [statementTokens, hspelled.spells.tokens_eq]
    rfl
  rw [htokens]
  exact ⟨hspelled, hbalanced⟩

theorem tokens_expose (convention : Convention) :
    tokens (lines (convention.expose moduleName)).toList =
      some (statementTokens moduleName convention) :=
  (spelledLines_expose moduleName convention).1.spells.tokens_eq

/-! ## The choice -/

/-- The choice among the statements of the conventions. -/
def choiceOf : List Convention → Choice
  | [] => .nothing
  | convention :: later =>
    match convention.probeName? with
    | none => .block (statementTokens moduleName convention)
    | some name => .test name (statementTokens moduleName convention) (choiceOf later)

theorem balancedBlocks_choiceOf (conventions : List Convention) :
    (choiceOf moduleName conventions).BalancedBlocks := by
  induction conventions with
  | nil => trivial
  | cons convention later ih =>
      have hbalanced := (spelledLines_expose moduleName convention).2
      unfold choiceOf
      split
      · exact hbalanced
      · exact ⟨hbalanced, ih⟩

/-- The brace that closes a block stands in the line that opens the next one. -/
theorem blockOpening_false (probe : Option String) :
    blockOpening false probe = "\x7d else " ++ blockOpening true probe := by
  cases probe with
  | none => rfl
  | some condition =>
      have hsplit : "\x7d else if (" = "\x7d else " ++ "if (" := by decide
      simp only [blockOpening, hsplit, String.append_assoc]

theorem spells_blockOpening (h : convention.probeName? = some name) :
    SpellsTokens (blockOpening true convention.probe?) (openingTokens name) := by
  obtain ⟨condition, hcondition, hspells⟩ := spells_probe h
  have hif : SpellsTokens "if (" [.name "if" false, .punctuator .openParen] :=
    .of_plainTokens? (by decide)
  have hbrace : SpellsTokens ") \x7b" [.punctuator .closeParen, .punctuator .openBrace] :=
    .of_plainTokens? (by decide)
  rw [hcondition]
  exact (hif.append hspells).append hbrace

theorem spelledLines_blocks (conventions : List Convention) :
    SpelledLines (dispatcherBlocks moduleName true conventions)
        (choiceOf moduleName conventions).tokens ∧
      SpelledLines (dispatcherBlocks moduleName false conventions)
        (.punctuator .closeBrace :: (choiceOf moduleName conventions).elseTokens) := by
  have hclose : SpellsTokens "\x7d" [.punctuator .closeBrace] := .of_plainTokens? (by decide)
  have helse : SpellsTokens "\x7d else " [.punctuator .closeBrace, .name "else" false] :=
    .of_plainTokens? (by decide)
  induction conventions with
  | nil => exact ⟨.nil, .cons hclose .nil⟩
  | cons convention later ih =>
      have hstatements := (spelledLines_expose moduleName convention).1.indented
      cases hname : convention.probeName? with
      | none =>
          have hopen : SpellsTokens "\x7b" [.punctuator .openBrace] := .of_plainTokens? (by decide)
          have hrest := hstatements.append (.cons hclose .nil)
          simp only [dispatcherBlocks, choiceOf, probe?_eq_none hname, hname]
          refine ⟨.cons hopen hrest, ?_⟩
          rw [blockOpening_false]
          exact .cons (helse.append hopen) hrest
      | some name =>
          obtain ⟨condition, hcondition, -⟩ := spells_probe hname
          have hopen := spells_blockOpening hname
          have hrest := hstatements.append ih.2
          rw [hcondition] at hopen
          simp only [dispatcherBlocks, choiceOf, hcondition, hname, Choice.tokens_test,
            List.append_assoc]
          refine ⟨.cons hopen hrest, ?_⟩
          rw [blockOpening_false, Choice.elseTokens, if_neg (by simp), Choice.tokens_test,
            List.append_assoc]
          exact .cons (helse.append hopen) hrest

/-- **The tokens of the dispatcher** are those of the choice. -/
theorem spells_dispatcher (conventions : List Convention) :
    SpellsTokens (lines (dispatcher conventions moduleName))
      (choiceOf moduleName conventions).tokens :=
  (spelledLines_blocks moduleName conventions).1.spells

/-- **What is executed** are the statements of the first convention that the host offers. -/
theorem run_choiceOf (isDefined : String → Bool) (conventions : List Convention) :
    (choiceOf moduleName conventions).run isDefined =
      match conventions.find? (·.isOffered isDefined) with
      | some convention => statementTokens moduleName convention
      | none => [] := by
  induction conventions with
  | nil => rfl
  | cons convention later ih =>
      have hoffered := isOffered_eq isDefined convention
      unfold choiceOf
      split
      · rename_i hname
        rw [hname] at hoffered
        rw [List.find?_cons_of_pos (by simpa using hoffered)]
        rfl
      · rename_i name hname
        rw [hname, Option.all_some] at hoffered
        cases hdefined : isDefined name with
        | true =>
            rw [List.find?_cons_of_pos (hoffered.trans hdefined)]
            simp only [Choice.run, hdefined, if_true]
        | false =>
            rw [List.find?_cons_of_neg (by simp [hoffered, hdefined]), ← ih]
            simp only [Choice.run, hdefined, Bool.false_eq_true, if_false]

/-! ## The dispatcher -/

/-- A convention without a condition ends the chain. -/
theorem dispatcherBlocks_append {convention : Convention} (h : convention.probe? = none)
    (first : Bool) (front back : List Convention) :
    dispatcherBlocks moduleName first (front ++ convention :: back) =
      dispatcherBlocks moduleName first (front ++ [convention]) := by
  induction front generalizing first with
  | nil => simp only [List.nil_append, dispatcherBlocks, h]
  | cons other front ih => simp only [List.cons_append, dispatcherBlocks, ih]

/-- **The dispatcher selects the first convention that is available.**  For any conventions and any
name of the module, its lines are read as a script with balanced brackets that is one choice among
blocks.  A host executes the statements of the first convention whose condition holds or that has
none, and nothing if there is no such convention.  What stands behind a convention without a
condition does not matter. -/
theorem dispatcher_selects (conventions : List Convention) (moduleName : String) :
    (∃ ts choice, tokens (lines (dispatcher conventions moduleName)).toList = some ts ∧
      IsBalanced ts ∧ readScript? ts = some choice ∧
      ∀ isDefined : String → Bool,
        match conventions.find? (·.isOffered isDefined) with
        | some convention =>
          tokens (lines (convention.expose moduleName)).toList = some (choice.run isDefined)
        | none => choice.run isDefined = []) ∧
    ∀ front convention back, convention.probe? = none → conventions = front ++ convention :: back →
      dispatcher conventions moduleName = dispatcher (front ++ [convention]) moduleName := by
  constructor
  · have hbalanced := balancedBlocks_choiceOf moduleName conventions
    refine ⟨_, _, (spells_dispatcher moduleName conventions).tokens_eq,
      isBalanced_tokens hbalanced, readScript?_tokens hbalanced, fun isDefined => ?_⟩
    have hrun := run_choiceOf moduleName isDefined conventions
    split <;> rename_i hfind <;> rw [hfind] at hrun
    · rw [hrun]
      exact tokens_expose moduleName _
    · exact hrun
  · rintro front convention back hprobe rfl
    exact dispatcherBlocks_append moduleName hprobe true front back

/-- Brackets and quotes in the name of a module, and a convention behind the last one that matters:
a registry is served if there is one, and nothing else is looked for. -/
theorem dispatcher_selects_brackets :
    (∃ ts choice, tokens (lines (dispatcher [.registry, .bare, .global] "\x7d'\x7b\"(")).toList =
        some ts ∧
      IsBalanced ts ∧ readScript? ts = some choice ∧
      tokens (lines (Convention.registry.expose "\x7d'\x7b\"(")).toList =
        some (choice.run (· == "modules")) ∧
      tokens (lines (Convention.bare.expose "\x7d'\x7b\"(")).toList =
        some (choice.run (· == "window"))) ∧
    dispatcher [.registry, .bare, .global] "\x7d'\x7b\"(" =
      dispatcher [.registry, .bare] "\x7d'\x7b\"(" := by
  obtain ⟨⟨ts, choice, htokens, hbalanced, hread, hrun⟩, hback⟩ :=
    dispatcher_selects [.registry, .bare, .global] "\x7d'\x7b\"("
  have hregistry := hrun (· == "modules")
  have hbare := hrun (· == "window")
  simp only [List.find?_cons, isOffered_eq, Convention.probeName?] at hregistry hbare
  exact ⟨⟨ts, choice, htokens, hbalanced, hread, hregistry, hbare⟩,
    hback [.registry] .bare [.global] rfl rfl⟩

end KeysetBundle.Artifact
