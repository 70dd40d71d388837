import KeysetBundle.KeysetSource
import KeysetBundle.Proofs.Dictionary
import KeysetBundle.Proofs.Except
import KeysetBundle.Proofs.Keyset.Listing
import KeysetBundle.Proofs.Script.Productions
import KeysetBundle.Proofs.Text.Surrogates
import KeysetBundle.Script.Module

/-!
# Keyset files that are written

The simplest keyset files are lists of statements that assign objects of texts
to the exports, with all names, keys and texts in double quotes.  Such a file
is read as it is written: its tokens are those of the statements
(`begins_fileText`), its items are the assignments (`exists_parseItems`), and
no rule beyond the grammar is broken (`checkModule_of_exports`).

How tokens are laid out plays no role: `exists_parse` holds of every source
that has the tokens of the statements.
-/

namespace KeysetBundle.Script

open KeysetBundle.Text

variable {β : Type}

/-! ## What is written -/

/-- A statement of a keyset file. -/
inductive WrittenExport
  /-- The whole collection is exported. -/
  | whole (collection : Collection)
  /-- The keyset of a name is exported. -/
  | keyset (name : String) (keys : Keyset)

/-- A key with a value, as it is written. -/
def entryText (write : β → List Char) (entry : String × β) : List Char :=
  (doubleQuoted entry.1).toList ++ ':' :: ' ' :: write entry.2

/-- An object, as it is written. -/
def objectText (write : β → List Char) (entries : List (String × β)) : List Char :=
  '{' :: ' ' :: ([',', ' '].intercalate (entries.map (entryText write)) ++ [' ', '}'])

/-- A keyset, as it is written: its keys stand in property order. -/
def keysetText (keyset : Keyset) : List Char :=
  objectText (fun text => (doubleQuoted text).toList) keyset.toList

namespace WrittenExport

/-- What the statement assigns to. -/
def target : WrittenExport → ExportTarget
  | .whole _ => .whole
  | .keyset name _ => .keyset name

/-- The target, as it is written. -/
def targetText : WrittenExport → List Char
  | .whole _ => "module".toList ++ '.' :: "exports".toList
  | .keyset name _ => "exports".toList ++ '[' :: ((doubleQuoted name).toList ++ [']'])

/-- The value, as it is written: the keysets stand in the order of their names. -/
def valueText : WrittenExport → List Char
  | .whole collection => objectText keysetText collection.toList
  | .keyset _ keys => keysetText keys

/-- The statement, as it is written. -/
def text (statement : WrittenExport) : List Char :=
  statement.targetText ++ ' ' :: '=' :: ' ' :: (statement.valueText ++ [';'])

end WrittenExport

/-- A keyset file, as it is written: each statement has a line of its own. -/
def fileText (statements : List WrittenExport) : String :=
  String.ofList (statements.flatMap fun statement => statement.text ++ ['\n'])

/-! ## Its tokens -/

/-- The tokens of a keyset. -/
def keysetTokens (keyset : Keyset) : List Token :=
  objectTokens (fun text => [textToken text]) keyset.toList

/-- The tokens of the value of a statement. -/
def WrittenExport.valueTokens : WrittenExport → List Token
  | .whole collection => objectTokens keysetTokens collection.toList
  | .keyset _ keys => keysetTokens keys

/-- The tokens of a statement. -/
def WrittenExport.tokens (statement : WrittenExport) : List Token :=
  statement.target.tokens ++ .punctuator .assign ::
    (statement.valueTokens ++ [.punctuator .semicolon])

variable {read : Reader} [IsReader read]

theorem begins_object {write : β → List Char} {tokensOf : β → List Token}
    (h : ∀ value rest, Begins read (write value ++ rest) (tokensOf value) rest)
    (entries : List (String × β)) (rest : List Char) :
    Begins read (objectText write entries ++ rest) (objectTokens tokensOf entries) rest := by
  have hentry : ∀ (entry : String × β) (after : List Char),
      Begins read (entryText write entry ++ after) (entryTokens tokensOf entry) after := by
    intro entry after
    have hlist : entryText write entry ++ after =
        (doubleQuoted entry.1).toList ++ (':' :: ' ' :: (write entry.2 ++ after)) := by
      simp [entryText]
    rw [hlist]
    exact (begins_doubleQuoted _ _).append
      (((begins_colon _).append (Begins.space _)).append (h _ _))
  have hentries : ∀ after : List Char,
      Begins read ([',', ' '].intercalate (entries.map (entryText write)) ++ after)
        (commaTokens (entries.map (entryTokens tokensOf))) after := by
    intro after
    induction entries with
    | nil => exact .refl after
    | cons entry entries ih =>
        cases entries with
        | nil =>
            simp only [List.map_cons, List.map_nil, commaTokens_singleton,
              List.intercalate_singleton]
            exact hentry entry after
        | cons next entries =>
            have hlist : [',', ' '].intercalate ((entry :: next :: entries).map (entryText write)) ++
                after = entryText write entry ++ (',' :: ' ' ::
                  ([',', ' '].intercalate ((next :: entries).map (entryText write)) ++ after)) := by
              simp [List.intercalate_cons_cons]
            have htokens : commaTokens ((entry :: next :: entries).map (entryTokens tokensOf)) =
                entryTokens tokensOf entry ++ ([.punctuator .comma] ++
                  commaTokens ((next :: entries).map (entryTokens tokensOf))) :=
              commaTokens_cons_cons _ _ _
            rw [hlist, htokens]
            exact (hentry entry _).append
              (((begins_comma _).append (Begins.space _)).append ih)
  have hlist : objectText write entries ++ rest =
      '{' :: ' ' :: ([',', ' '].intercalate (entries.map (entryText write)) ++
        (' ' :: '}' :: rest)) := by simp [objectText]
  rw [hlist]
  exact ((begins_openBrace _).append (Begins.space _)).append
    ((hentries _).append ((Begins.space _).append (begins_closeBrace _)))

theorem begins_keyset (keyset : Keyset) (rest : List Char) :
    Begins read (keysetText keyset ++ rest) (keysetTokens keyset) rest :=
  begins_object begins_doubleQuoted _ rest

namespace WrittenExport

theorem begins_value (statement : WrittenExport) (rest : List Char) :
    Begins read (statement.valueText ++ rest) statement.valueTokens rest := by
  cases statement with
  | whole collection => exact begins_object begins_keyset _ rest
  | keyset name keys => exact begins_keyset keys rest

/-- The target ends before the blank behind it. -/
theorem begins_target (statement : WrittenExport) (rest : List Char) :
    Begins read (statement.targetText ++ ' ' :: rest) statement.target.tokens rest := by
  have hword : ∀ (word : String) {after : List Char}, Template.isName word.toList →
      startsWithNamePart after = false →
      Begins read (word.toList ++ after) [.name word false] after := by
    intro word after hname hafter
    have hbegins : Begins read (word.toList ++ after) _ after := begins_name hname hafter
    rwa [String.ofList_toList] at hbegins
  cases statement with
  | whole collection =>
      have hlist : targetText (.whole collection) ++ ' ' :: rest =
          "module".toList ++ '.' :: ("exports".toList ++ ' ' :: rest) :=
        List.append_assoc _ _ _
      have hexports : "exports".toList = 'e' :: "xports".toList := rfl
      have hdot : Begins read ('.' :: ("exports".toList ++ ' ' :: rest)) [.punctuator .dot]
          ("exports".toList ++ ' ' :: rest) := by
        rw [hexports]
        exact begins_dot (by decide) _
      rw [hlist]
      exact (hword "module" (by decide) (startsWithNamePart_of_mem (by simp) _)).append
        (hdot.append ((hword "exports" (by decide)
          (startsWithNamePart_of_mem (by simp) _)).append (Begins.space _)))
  | keyset name keys =>
      have hlist : targetText (.keyset name keys) ++ ' ' :: rest =
          "exports".toList ++ '[' :: ((doubleQuoted name).toList ++ (']' :: ' ' :: rest)) := by
        refine (List.append_assoc _ _ _).trans ?_
        rw [List.cons_append, List.append_assoc, List.singleton_append]
      rw [hlist]
      exact (hword "exports" (by decide) (startsWithNamePart_of_mem (by simp) _)).append
        ((begins_openBracket _).append ((begins_doubleQuoted _ _).append
          ((begins_closeBracket _).append (Begins.space _))))

theorem begins_text (statement : WrittenExport) (rest : List Char) :
    Begins read (statement.text ++ rest) statement.tokens rest := by
  have hlist : statement.text ++ rest = statement.targetText ++ ' ' ::
      ('=' :: ' ' :: (statement.valueText ++ (';' :: rest))) := by simp [text]
  rw [hlist]
  exact (statement.begins_target _).append ((begins_assign _).append
    ((statement.begins_value _).append (begins_semicolon _)))

end WrittenExport

/-- The tokens of a file are those of its statements. -/
theorem begins_fileText (statements : List WrittenExport) (rest : List Char) :
    Begins read (statements.flatMap (fun statement => statement.text ++ ['\n']) ++ rest)
      (statements.flatMap WrittenExport.tokens) rest := by
  induction statements with
  | nil => exact .refl rest
  | cons statement statements ih =>
      simp only [List.flatMap_cons, List.append_assoc, List.singleton_append]
      exact (statement.begins_text _).append ((Begins.lineFeed _).append ih)

/-- A source without a byte order mark or an interpreter line is read as it is. -/
theorem withoutPreamble_cons {c : Char} (hmark : c ≠ '\ufeff') (hline : c ≠ '#')
    (rest : List Char) : withoutPreamble (c :: rest) = c :: rest := by
  unfold withoutPreamble
  split <;> dsimp only <;> split <;> simp_all

theorem tokens_fileText (statements : List WrittenExport) :
    tokens (withoutPreamble (fileText statements).toList) =
      some (statements.flatMap WrittenExport.tokens) := by
  have hsource : withoutPreamble (fileText statements).toList =
      statements.flatMap (fun statement => statement.text ++ ['\n']) ++ [] := by
    rw [fileText, String.toList_ofList, List.append_nil]
    cases statements with
    | nil => rfl
    | cons statement statements =>
        rw [List.flatMap_cons]
        cases statement with
        | whole collection => exact withoutPreamble_cons (by decide) (by decide) _
        | keyset name keys => exact withoutPreamble_cons (by decide) (by decide) _
  rw [hsource]
  exact (begins_fileText statements []).tokens_eq

/-! ## Its items -/

/-- The node of a keyset. -/
def IsKeysetNode (keyset : Keyset) (node : Node) : Prop :=
  IsObjectNode IsTextNode keyset.toList node

/-- The node of the value of a statement. -/
def WrittenExport.IsValueNode : WrittenExport → Node → Prop
  | .whole collection => IsObjectNode IsKeysetNode collection.toList
  | .keyset _ keys => IsKeysetNode keys

/-- The node of a statement. -/
def WrittenExport.IsNode (statement : WrittenExport) : Node → Prop :=
  IsExportNode statement.target statement.IsValueNode

theorem readsValue_keyset {keyset : Keyset} {depth : Nat} {context : Context}
    (hdepth : (keysetTokens keyset).length ≤ depth) :
    ReadsValue (nested (depth + 1) .assignment context) (keysetTokens keyset)
      (IsKeysetNode keyset) := by
  have hlength := (length_le_objectTokens (fun text => [textToken text]) keyset.toList).1
  obtain ⟨depth, rfl⟩ : ∃ less, depth = less + 2 := ⟨depth - 2, by
    rw [keysetTokens] at hdepth
    omega⟩
  refine readsValue_nested_object ?_ fun entry _ => readsValue_nested_text depth entry.2
  rw [keysetTokens] at hdepth
  omega

theorem WrittenExport.readsValue (statement : WrittenExport) {depth : Nat} {context : Context}
    (hdepth : statement.valueTokens.length ≤ depth) :
    ReadsValue (nested (depth + 1) .assignment context) statement.valueTokens
      statement.IsValueNode := by
  cases statement with
  | keyset name keys => exact readsValue_keyset hdepth
  | whole collection =>
      obtain ⟨hcount, hlength⟩ := length_le_objectTokens keysetTokens collection.toList
      rw [valueTokens] at hdepth
      refine readsValue_nested_object (by omega) fun entry hentry => ?_
      have hkeyset := hlength entry hentry
      obtain ⟨depth, rfl⟩ : ∃ less, depth = less + 1 := ⟨depth - 1, by omega⟩
      exact readsValue_keyset (by omega)

theorem all_isPlain_objectTokens {write : β → List Token}
    (h : ∀ value, (write value).all isPlain) (entries : List (String × β)) :
    (objectTokens write entries).all isPlain := by
  have hentry : ∀ entry, (entryTokens write entry).all isPlain := fun entry => h entry.2
  have hentries : (commaTokens (entries.map (entryTokens write))).all isPlain := by
    induction entries with
    | nil => rfl
    | cons entry entries ih =>
        cases entries with
        | nil =>
            rw [List.map_cons, List.map_nil, commaTokens_singleton]
            exact hentry entry
        | cons next entries =>
            rw [List.map_cons, List.map_cons, commaTokens_cons_cons, List.all_append, hentry,
              ← List.map_cons, List.all_cons, ih]
            rfl
  rw [objectTokens, List.all_cons, List.all_append, hentries]
  rfl

theorem WrittenExport.all_isPlain_tokens (statement : WrittenExport) :
    statement.tokens.all isPlain := by
  have hkeyset : ∀ keyset, (keysetTokens keyset).all isPlain := fun keyset =>
    all_isPlain_objectTokens (fun _ => rfl) _
  have hvalue : statement.valueTokens.all isPlain := by
    cases statement with
    | whole collection => exact all_isPlain_objectTokens hkeyset _
    | keyset name keys => exact hkeyset keys
  have htarget : statement.target.tokens.all isPlain := by
    cases statement <;> rfl
  rw [tokens, List.all_append, htarget, List.all_cons, List.all_append, hvalue]
  rfl

theorem length_withoutPreamble (source : List Char) :
    (withoutPreamble source).length ≤ source.length := by
  have hdrop : ∀ cs : List Char,
      (cs.dropWhile fun c => !isLineTerminator c).length ≤ cs.length :=
    fun cs => (List.dropWhile_sublist _).length_le
  unfold withoutPreamble
  split <;> dsimp only <;> split <;> grind

/-- A source has room for the statements of its tokens. -/
theorem length_le_tokens (statements : List WrittenExport) :
    statements.length ≤ (statements.flatMap WrittenExport.tokens).length ∧
      ∀ statement ∈ statements,
        statement.valueTokens.length ≤ (statements.flatMap WrittenExport.tokens).length := by
  have hvalue : ∀ statement : WrittenExport,
      statement.valueTokens.length + 2 ≤ statement.tokens.length := by
    intro statement
    rw [WrittenExport.tokens, List.length_append, List.length_cons, List.length_append]
    simp only [List.length_singleton]
    omega
  induction statements with
  | nil => exact ⟨Nat.le_refl _, nofun⟩
  | cons statement statements ih =>
      have hfirst := hvalue statement
      rw [List.flatMap_cons, List.length_append, List.length_cons]
      refine ⟨by omega, fun other hother => ?_⟩
      rcases List.mem_cons.1 hother with rfl | hother
      · omega
      · have := ih.2 other hother
        omega

/-- **A source with the tokens of statements is read as the statements.** -/
theorem exists_parseItems {source : List Char} {statements : List WrittenExport}
    (h : tokens (withoutPreamble source) = some (statements.flatMap WrittenExport.tokens)) :
    ∃ items, parseItems source = .ok items ∧
      List.Forall₂ WrittenExport.IsNode statements items := by
  have hlength := length_tokens h
  have hsource := length_withoutPreamble source
  obtain ⟨hcount, hvalues⟩ := length_le_tokens statements
  obtain ⟨depth, hdepth⟩ : ∃ depth, depthFor source.length = depth + 3 :=
    ⟨depthFor source.length - 3, by unfold depthFor; omega⟩
  have hroom : source.length < depth := by
    unfold depthFor at hdepth
    omega
  have hplain : (statements.flatMap WrittenExport.tokens).all isPlain := by
    rw [List.all_flatMap, List.all_eq_true]
    exact fun statement _ => statement.all_isPlain_tokens
  have hstart : ∀ statement ∈ statements, ∃ first rest, statement.tokens = first :: rest ∧
      (first == .finish) = false := by
    intro statement _
    cases statement <;> exact ⟨_, _, rfl, rfl⟩
  have hitem : ∀ statement ∈ statements, ∀ rest,
      Runs (moduleItem (.ofDepth (depth + 3))) (statement.tokens ++ rest) rest
        statement.IsNode := by
    intro statement hstatement rest
    have hlist : statement.tokens ++ rest = statement.target.tokens ++ .punctuator .assign ::
        (statement.valueTokens ++ .punctuator .semicolon :: rest) := by simp [WrittenExport.tokens]
    have hvalue := hvalues statement hstatement
    rw [hlist]
    exact runs_moduleItem_export _ fun context => statement.readsValue (by omega)
  have hitems : Runs (moduleItems (depth + 3)) (statements.flatMap WrittenExport.tokens) []
      fun found => List.Forall₂ WrittenExport.IsNode statements found :=
    runs_repeatUntil (by omega) hstart hitem
  obtain ⟨first, hfirst, hbefore⟩ := exists_lexeme h hplain (lineBreaks source + 1)
  obtain ⟨items, last, hread, -, hnodes⟩ := hitems _ hbefore
  refine ⟨items, ?_, hnodes⟩
  unfold parseItems Parser.run
  rw [hdepth]
  exact bind_eq_ok.2 ⟨first, hfirst, bind_eq_ok.2 ⟨_, hread, rfl⟩⟩

/-! ## Its rules -/

theorem codePoints_inj {a b : String} :
    (a.toList.map Char.toNat == b.toList.map Char.toNat) = (a == b) := by
  rw [Bool.eq_iff_iff, beq_iff_eq, beq_iff_eq]
  refine ⟨fun heq => ?_, fun heq => heq ▸ rfl⟩
  have hpoints := congrArg ofCodePoints? heq
  rw [ofCodePoints?_toNat, ofCodePoints?_toNat] at hpoints
  exact Option.some.inj hpoints

/-- At most one key of an object sets its prototype. -/
theorem length_setsPrototype {Value : β → Node → Prop} {entries : List (String × β)}
    {properties : List Node} (h : List.Forall₂ (IsEntryNode Value) entries properties)
    (hnodup : (entries.map Prod.fst).Nodup) :
    (properties.filter Node.setsPrototype).length ≤ 1 := by
  have hsame : (properties.filter Node.setsPrototype).length =
      ((entries.map Prod.fst).filter (· == "__proto__")).length := by
    induction h with
    | nil => rfl
    | @cons entry node entries nodes hnode _ ih =>
        obtain ⟨line, place, value, rfl, -⟩ := hnode
        have hkey : Node.setsPrototype (.property line
            (.text place (entry.1.toList.map Char.toNat)) value) = (entry.1 == "__proto__") :=
          codePoints_inj
        have hrest := ih (List.nodup_cons.1 hnodup).2
        rw [List.map_cons, List.filter_cons, List.filter_cons, hkey]
        split
        · rw [List.length_cons, List.length_cons, hrest]
        · exact hrest
  rw [hsame, ← List.countP_eq_length_filter]
  exact List.nodup_iff_count.1 hnodup "__proto__"

theorem checkAll_eq_ok {around : Surroundings} {nodes : List Node}
    (h : ∀ node ∈ nodes, check around node = .ok ()) : checkAll around nodes = .ok () := by
  induction nodes with
  | nil => rw [checkAll]
  | cons node nodes ih =>
      rw [checkAll, h node List.mem_cons_self]
      exact ih fun other hother => h other (List.mem_cons_of_mem _ hother)

theorem check_text {around : Surroundings} {text : String} {node : Node}
    (h : IsTextNode text node) : check around node = .ok () := by
  obtain ⟨line, rfl⟩ := h
  rw [check]

theorem check_object {around : Surroundings} {Value : β → Node → Prop}
    (hvalue : ∀ value node, Value value node → check around node = .ok ())
    {entries : List (String × β)} (hnodup : (entries.map Prod.fst).Nodup) {node : Node}
    (h : IsObjectNode Value entries node) : check around node = .ok () := by
  obtain ⟨line, properties, rfl, hproperties⟩ := h
  have hproto := length_setsPrototype hproperties hnodup
  have hall : checkAll around properties = .ok () := by
    apply checkAll_eq_ok
    clear hnodup hproto
    induction hproperties with
    | nil => nofun
    | cons hnode _ ih =>
        rw [List.forall_mem_cons]
        obtain ⟨line, place, value, rfl, hnode⟩ := hnode
        refine ⟨?_, ih⟩
        rw [check]
        exact hvalue _ _ hnode
  rw [check]
  simp only [require, hproto, decide_true]
  exact hall

theorem check_keyset {around : Surroundings} {keyset : Keyset} {node : Node}
    (h : IsKeysetNode keyset node) : check around node = .ok () :=
  check_object (fun _ _ => check_text) keyset.nodup_keys h

theorem WrittenExport.check_value {around : Surroundings} (statement : WrittenExport) {node : Node}
    (h : statement.IsValueNode node) : check around node = .ok () := by
  cases statement with
  | whole collection => exact check_object (fun _ _ => check_keyset) collection.nodup_keys h
  | keyset name keys => exact check_keyset h

theorem WrittenExport.check_node (statement : WrittenExport) {node : Node}
    (h : statement.IsNode node) :
    check .module node = .ok () := by
  obtain ⟨line, place, left, value, rfl, hleft, hvalue⟩ := h
  have htarget : left.isTarget ∧ check .module left = .ok () := by
    cases statement with
    | whole collection =>
        obtain ⟨line, place, rfl⟩ := hleft
        exact ⟨by simp [Node.isTarget, Node.isPlace], by rw [check, check]; rfl⟩
    | keyset name keys =>
        obtain ⟨line, place, key, rfl, hkey⟩ := hleft
        exact ⟨by simp [Node.isTarget, Node.isPlace], by rw [check, check, check_text hkey]; rfl⟩
  have hassign : check .module (.assign place left value) = .ok () := by
    rw [check, htarget.1, htarget.2, statement.check_value hvalue]
    rfl
  rw [check]
  simp only [checkForm]
  rw [checkAll, hassign, checkAll]
  rfl

/-- A statement declares nothing and exports no name. -/
theorem WrittenExport.declares_nothing (statement : WrittenExport) {node : Node}
    (h : statement.IsNode node) :
    node.unexported = node ∧ node.functionName? = none ∧ node.blockNames = [] ∧
      node.varNames = [] ∧ exportedNames node = [] ∧ exportedBindings node = [] := by
  obtain ⟨line, place, left, value, rfl, -⟩ := h
  have hvars : Node.varNames (.form line .expressionStatement [.assign place left value]) = [] := by
    simp [Node.varNames, Node.varNamesOfAll]
  exact ⟨rfl, rfl, rfl, hvars, rfl, rfl⟩

theorem varNamesOfAll_eq_nil {nodes : List Node} (h : ∀ node ∈ nodes, node.varNames = []) :
    Node.varNamesOfAll nodes = [] := by
  induction nodes with
  | nil => rw [Node.varNamesOfAll]
  | cons node nodes ih =>
      rw [Node.varNamesOfAll, h node List.mem_cons_self]
      exact ih fun other hother => h other (List.mem_cons_of_mem _ hother)

/-- The statements break none of the rules for modules. -/
theorem checkModule_of_exports {statements : List WrittenExport} {items : List Node}
    (h : List.Forall₂ WrittenExport.IsNode statements items) : checkModule items = .ok () := by
  have hnode : ∀ item ∈ items, ∃ statement : WrittenExport, statement.IsNode item := by
    induction h with
    | nil => nofun
    | @cons statement _ _ _ hnode _ ih => exact List.forall_mem_cons.2 ⟨⟨statement, hnode⟩, ih⟩
  have hnothing : ∀ item ∈ items, _ := fun item hitem =>
    have ⟨statement, hstatement⟩ := hnode item hitem
    statement.declares_nothing hstatement
  have hscope : Scope.ofBlock items = ⟨[], []⟩ := by
    have hitems : items.map Node.unexported = items :=
      List.map_congr_left (fun item hitem => (hnothing item hitem).1) |>.trans (List.map_id _)
    rw [Scope.ofBlock, hitems]
    have hblock :
        (items.flatMap fun item => item.functionName?.toList ++ item.blockNames) = [] := by
      refine List.flatMap_eq_nil_iff.2 fun item hitem => ?_
      rw [(hnothing item hitem).2.1, (hnothing item hitem).2.2.1]
      rfl
    rw [hblock, varNamesOfAll_eq_nil fun item hitem => (hnothing item hitem).2.2.2.1]
  have hexports : items.flatMap exportedNames = [] :=
    List.flatMap_eq_nil_iff.2 fun item hitem => (hnothing item hitem).2.2.2.2.1
  have hbindings : items.flatMap exportedBindings = [] :=
    List.flatMap_eq_nil_iff.2 fun item hitem => (hnothing item hitem).2.2.2.2.2
  refine checkModule_of_checkAll ?_ ?_ ?_ (checkAll_eq_ok fun item hitem => ?_)
  · rw [hscope]
    rfl
  · rw [hexports]
    rfl
  · rw [hbindings]
    rfl
  · obtain ⟨statement, hstatement⟩ := hnode item hitem
    exact statement.check_node hstatement

/-- **A source with the tokens of statements is a script with these statements.** -/
theorem exists_parse {source : String} {statements : List WrittenExport}
    (h : tokens (withoutPreamble source.toList) = some (statements.flatMap WrittenExport.tokens)) :
    ∃ items, parse source = .ok items ∧ List.Forall₂ WrittenExport.IsNode statements items := by
  obtain ⟨items, hitems, hnodes⟩ := exists_parseItems h
  exact ⟨items, parse_eq_ok hitems (checkModule_of_exports hnodes), hnodes⟩

end KeysetBundle.Script
