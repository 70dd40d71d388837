import KeysetBundle.Artifact.Basic
import KeysetBundle.Proofs.Collection.Compiled
import KeysetBundle.Proofs.Script.StrictLiteral
import KeysetBundle.Proofs.Template.Operands
import KeysetBundle.Proofs.Template.RoundTrip

/-!
# The lines of an artifact

Names, keys and templates are any texts, line breaks and the spelling of the frame included.  In
what is written of them no line ends (`oneLine_compact`), so the lines of a body are those of its
frame: a header for each keyset, a line for each key, a closing line, and a blank line between two
keysets.  `readBody?` reads the lines from the top.  It finds the keysets that they were written
of, so bundles of different keysets differ.

Main results.

- `Template.Compactor.oneLine_compact`: an expression is one line.
- `linesOf_body`: the lines of a body.
- `readBody?_bodyLines`: what is read of them.
- `generate_determines`: an artifact determines its keysets.
-/

namespace KeysetBundle

open KeysetBundle.Text (doubleQuoted singleQuoted)
open KeysetBundle.Script (isLineTerminator isQuoted_doubleQuoted isQuoted_singleQuoted)

/-! ## Texts of one line -/

/-- No line ends in the text. -/
def OneLine (text : String) : Prop := ∀ c ∈ text.toList, isLineTerminator c = false

instance (text : String) : Decidable (OneLine text) :=
  decidable_of_iff (text.toList.all fun c => !isLineTerminator c) (by simp [OneLine])

theorem OneLine.noFeed {text : String} (h : OneLine text) : '\n' ∉ text.toList :=
  fun hfeed => absurd (h _ hfeed) (by decide)

theorem OneLine.append {text other : String} (h : OneLine text) (hother : OneLine other) :
    OneLine (text ++ other) := by
  intro c hc
  rw [String.toList_append] at hc
  exact (List.mem_append.1 hc).elim (h c) (hother c)

theorem OneLine.intercalate {separator : String} (hseparator : OneLine separator)
    {texts : List String} (h : ∀ text ∈ texts, OneLine text) :
    OneLine (separator.intercalate texts) := by
  induction texts with
  | nil => simp [OneLine]
  | cons text texts ih =>
      have hrest := ih fun other hother => h other (by simp [hother])
      cases texts with
      | nil => simpa using h text (by simp)
      | cons next texts =>
          rw [String.intercalate_cons_cons]
          exact ((h text (by simp)).append hseparator).append hrest

theorem oneLine_doubleQuoted (text : String) : OneLine (doubleQuoted text) :=
  (isQuoted_doubleQuoted text).oneLine

theorem oneLine_singleQuoted (text : String) : OneLine (singleQuoted text) :=
  (isQuoted_singleQuoted text).oneLine

namespace Template

theorem oneLine_of_isWordChar {text : String} (h : ∀ c ∈ text.toList, isWordChar c) :
    OneLine text := by
  intro c hc
  have hblank := not_isBlank_of_isWordChar (h c hc)
  cases hline : isLineTerminator c with
  | false => rfl
  | true =>
      simp only [isLineTerminator, Bool.or_eq_true, beq_iff_eq] at hline
      rcases hline with ((rfl | rfl) | rfl) | rfl <;> exact absurd (by decide) hblank

theorem oneLine_of_isName {name : String} (h : isName name.toList) : OneLine name :=
  oneLine_of_isWordChar (all_isWordChar_of_isName h)

theorem ParamPath.WellFormed.oneLine {path : ParamPath} (h : path.WellFormed) :
    OneLine path.expression := by
  have hparams : OneLine "params." := by decide
  have hdot : OneLine "." := by decide
  exact hparams.append (hdot.intercalate fun name hname => oneLine_of_isName (h.2 name hname))

theorem Argument.WellFormed.oneLine {argument : Argument} (h : argument.WellFormed) :
    OneLine argument.expression := by
  cases argument with
  | param path => exact ParamPath.WellFormed.oneLine h
  | text value => exact oneLine_doubleQuoted value
  | number word => exact oneLine_of_isWordChar (isNumber_iff.1 h).all_isWordChar

namespace Compactor

theorem oneLine_compileCall {function expression : String} {arguments : List Argument}
    {offset : Nat} (harguments : ∀ argument ∈ arguments, argument.WellFormed)
    (h : localized.compileCall function arguments offset = .ok expression) :
    OneLine expression := by
  obtain ⟨-, rfl, hcallee⟩ := compileCall_localized h
  have hdot : OneLine "." := by decide
  have hopen : OneLine "(" := by decide
  have hcomma : OneLine ", " := by decide
  have hclose : OneLine ")" := by decide
  have hparams : OneLine "params" := by decide
  have hcontext : ∀ text ∈ contextExpressions function, OneLine text := by
    unfold contextExpressions
    split <;> simp [hparams]
  have hall : ∀ text ∈ arguments.map Argument.expression ++ contextExpressions function,
      OneLine text := by
    intro text htext
    rcases List.mem_append.1 htext with htext | htext
    · obtain ⟨argument, hargument, rfl⟩ := List.mem_map.1 htext
      exact (harguments argument hargument).oneLine
    · exact hcontext text htext
  have hname := hdot.intercalate fun name hname => oneLine_of_isName (hcallee name hname)
  exact ((hname.append hopen).append (hcomma.intercalate hall)).append hclose

theorem oneLine_compilePart {part : Part} (hpart : part.WellFormed) {expression : String}
    (h : localized.compilePart part = .ok expression) : OneLine expression := by
  cases part with
  | text value =>
      cases h
      exact oneLine_doubleQuoted value
  | subst value =>
      cases value with
      | param path =>
          cases h
          exact ParamPath.WellFormed.oneLine hpart
      | call function arguments offset => exact oneLine_compileCall hpart h

/-- **An expression is one line**, whatever the template holds. -/
theorem oneLine_compact {template expression : String}
    (h : localized.compact template = .ok expression) : OneLine expression := by
  obtain ⟨parts, hparts, h⟩ := bind_eq_ok.1 h
  have hwell := parse_wellFormed hparts
  unfold compileParts at h
  split at h
  · cases h
    exact oneLine_doubleQuoted _
  · obtain ⟨operands, hoperands, h⟩ := bind_eq_ok.1 h
    cases h
    have hhead : OneLine "function(params) \x7b return " := by decide
    have hplus : OneLine " + " := by decide
    have hend : OneLine "; \x7d" := by decide
    refine (hhead.append (hplus.intercalate ?_)).append hend
    intro operand hoperand
    rcases List.mem_append.1 hoperand with hoperand | hoperand
    · unfold leading at hoperand
      split at hoperand
      · cases hoperand
      · rw [List.mem_singleton.1 hoperand]
        exact oneLine_doubleQuoted ""
    · obtain ⟨part, hpart, hstep⟩ := exists_of_mem_mapM hoperands operand hoperand
      exact oneLine_compilePart (hwell part hpart) hstep

end Compactor

end Template

namespace Artifact

/-! ## Lines -/

/-- The lines of a text. -/
def linesOf (text : String) : List String :=
  (text.toList.splitOn '\n').map String.ofList

theorem linesOf_append (text other : String) :
    linesOf (text ++ "\n" ++ other) = linesOf text ++ linesOf other := by
  have hlist : (text ++ "\n" ++ other).toList = text.toList ++ '\n' :: other.toList := by simp
  rw [linesOf, hlist, List.splitOn_append_cons_self, List.map_append, linesOf, linesOf]

theorem linesOf_lines {items : List String} (hne : items ≠ [])
    (h : ∀ item ∈ items, '\n' ∉ item.toList) : linesOf (lines items) = items := by
  have hsplit : (lines items).toList.splitOn '\n' = items.map String.toList := by
    rw [lines, String.toList_intercalate]
    refine List.splitOn_intercalate '\n' ?_ (by simpa using hne)
    intro chars hchars
    obtain ⟨item, hitem, rfl⟩ := List.mem_map.1 hchars
    exact h item hitem
  rw [linesOf, hsplit, List.map_map]
  simp [Function.comp_def]

/-- The groups with a blank line between each two.  No group is one blank line. -/
def blankBetween (groups : List (List String)) : List String :=
  if groups = [] then [""] else [""].intercalate groups

theorem blankBetween_cons (group next : List String) (groups : List (List String)) :
    blankBetween (group :: next :: groups) = group ++ "" :: blankBetween (next :: groups) := by
  simp [blankBetween, List.intercalate_cons_cons]

theorem blankBetween_ne_nil {groups : List (List String)} (h : ∀ group ∈ groups, group ≠ []) :
    blankBetween groups ≠ [] := by
  cases groups with
  | nil => simp [blankBetween]
  | cons group groups =>
      obtain ⟨line, rest, rfl⟩ := List.exists_cons_of_ne_nil (h group (by simp))
      cases groups <;> simp [blankBetween, List.intercalate_cons_cons]

theorem eq_or_mem_of_mem_blankBetween {line : String} {groups : List (List String)}
    (h : line ∈ blankBetween groups) : line = "" ∨ ∃ group ∈ groups, line ∈ group := by
  induction groups with
  | nil => exact .inl (List.mem_singleton.1 h)
  | cons group groups ih =>
      cases groups with
      | nil => exact .inr ⟨group, by simp, by simpa [blankBetween] using h⟩
      | cons next groups =>
          rw [blankBetween_cons, List.mem_append, List.mem_cons] at h
          rcases h with hfirst | hblank | hrest
          · exact .inr ⟨group, by simp, hfirst⟩
          · exact .inl hblank
          · exact (ih hrest).imp_right fun ⟨other, hother, hline⟩ =>
              ⟨other, List.mem_cons_of_mem _ hother, hline⟩

theorem lines_blankBetween {groups : List (List String)} (h : ∀ group ∈ groups, group ≠ []) :
    lines (blankBetween groups) = "\n\n".intercalate (groups.map lines) := by
  induction groups with
  | nil => rfl
  | cons group groups ih =>
      have htail : ∀ other ∈ groups, other ≠ [] := fun other hother => h other (by simp [hother])
      cases groups with
      | nil => simp [blankBetween]
      | cons next groups =>
          have hgroup : group ≠ [] := h group (by simp)
          have hrest := ih htail
          rw [blankBetween_cons, List.map_cons, List.map_cons, String.intercalate_cons_cons,
            ← List.map_cons, ← hrest]
          unfold lines
          rw [String.intercalate_append_of_ne_nil hgroup (by simp),
            String.intercalate_cons_of_ne_nil (blankBetween_ne_nil htail), String.empty_append,
            ← String.append_assoc]
          congr 1
          exact String.append_assoc

/-! ## The lines of a body -/

/-- The line that opens a keyset. -/
def headerLine (name : String) : String := "i18n.add(" ++ singleQuoted name ++ ", \x7b"

/-- The line that closes a keyset. -/
def closingLine : String := "\x7d);"

/-- The lines of a keyset, each key with a comma behind but the last. -/
def keysetLines (keyset : CompiledKeyset) : List String :=
  headerLine keyset.name ::
    keyset.entries.mapIdx (fun i entry =>
      "    " ++ doubleQuoted entry.1 ++ ": " ++ entry.2 ++
        if i + 1 < keyset.entries.length then "," else "") ++ [closingLine]

theorem entryLines_eq_mapIdx (entries : List (String × String)) :
    entryLines entries = entries.mapIdx fun i entry =>
      entryLine entry ++ if i + 1 < entries.length then "," else "" := by
  induction entries with
  | nil => rfl
  | cons entry rest ih =>
      cases rest with
      | nil => simp [entryLines]
      | cons next rest =>
          rw [entryLines, ih, List.mapIdx_cons]
          · simp
          · simp

theorem registration_eq (keyset : CompiledKeyset) : registration keyset = keysetLines keyset := by
  rw [registration, entryLines_eq_mapIdx]
  rfl

/-- No line ends in what the lines of the keyset are made of. -/
def IsFlat (keyset : CompiledKeyset) : Prop :=
  OneLine (singleQuoted keyset.name) ∧
    ∀ entry ∈ keyset.entries, OneLine (doubleQuoted entry.1) ∧ OneLine entry.2

theorem isFlat_of_compile {collection : Collection} {keysets : List CompiledKeyset}
    (h : collection.compile .localized = .ok keysets) : ∀ keyset ∈ keysets, IsFlat keyset := by
  intro keyset hkeyset
  obtain ⟨_, -, -, hentries⟩ := Collection.mem_compile h keyset hkeyset
  refine ⟨oneLine_singleQuoted _, fun entry hentry => ⟨oneLine_doubleQuoted _, ?_⟩⟩
  obtain ⟨template, -, hcompact⟩ := hentries entry hentry
  exact Template.Compactor.oneLine_compact hcompact

theorem IsFlat.oneLine {keyset : CompiledKeyset} (h : IsFlat keyset) :
    ∀ line ∈ keysetLines keyset, OneLine line := by
  have hadd : OneLine "i18n.add(" := by decide
  have hbrace : OneLine ", \x7b" := by decide
  have hclosing : OneLine closingLine := by decide
  have hindent : OneLine "    " := by decide
  have hcolon : OneLine ": " := by decide
  have hcomma : ∀ p : Prop, [Decidable p] → OneLine (if p then "," else "") := by
    intro p _
    split <;> decide
  intro line hline
  rw [keysetLines, List.mem_append, List.mem_cons, List.mem_singleton] at hline
  rcases hline with (rfl | hline) | rfl
  · exact (hadd.append h.1).append hbrace
  · obtain ⟨i, hi, rfl⟩ := List.mem_mapIdx.1 hline
    have hentry := h.2 keyset.entries[i] (List.getElem_mem hi)
    exact (((hindent.append hentry.1).append hcolon).append hentry.2).append (hcomma _)
  · exact hclosing

/-- The lines of the body of keysets. -/
def bodyLines (keysets : List CompiledKeyset) : List String :=
  blankBetween (keysets.map keysetLines)

theorem ne_nil_of_mem_keysetLines {keysets : List CompiledKeyset} :
    ∀ group ∈ keysets.map keysetLines, group ≠ [] := by
  intro group hgroup
  obtain ⟨keyset, -, rfl⟩ := List.mem_map.1 hgroup
  simp [keysetLines]

/-- **The lines of a body** are those of its keysets, with a blank line between each two. -/
theorem linesOf_body {keysets : List CompiledKeyset} (h : ∀ keyset ∈ keysets, IsFlat keyset) :
    linesOf (body keysets) = bodyLines keysets := by
  have hbody : body keysets = lines (bodyLines keysets) := by
    rw [bodyLines, lines_blankBetween ne_nil_of_mem_keysetLines, List.map_map, body]
    simp only [registration_eq, Function.comp_def]
  rw [hbody]
  refine linesOf_lines (blankBetween_ne_nil ne_nil_of_mem_keysetLines) ?_
  intro line hline
  rcases eq_or_mem_of_mem_blankBetween hline with rfl | ⟨group, hgroup, hline⟩
  · simp
  · obtain ⟨keyset, hkeyset, rfl⟩ := List.mem_map.1 hgroup
    exact ((h keyset hkeyset).oneLine line hline).noFeed

/-! ## Reading the lines -/

/-- The text of the literal at the start, and what stands behind it. -/
def readLiteral? (cs : List Char) : Option (String × List Char) :=
  match Script.readToken cs with
  | .ok (.text points, rest) => (Text.ofCodePoints? points).map (·, rest)
  | _ => none

/-- The name in the line that opens a keyset. -/
def readHeader? (line : String) : Option String := do
  let cs ← line.toList.dropPrefix? "i18n.add(".toList
  let (name, rest) ← readLiteral? cs
  if rest = ", \x7b".toList then some name else none

/-- The key in the line of a key, and what stands behind the colon. -/
def readKeyLine? (line : String) : Option (String × List Char) := do
  let cs ← line.toList.dropPrefix? "    ".toList
  let (key, rest) ← readLiteral? cs
  let written ← rest.dropPrefix? ": ".toList
  some (key, written)

/-- The keys and expressions of the lines up to the closing one. -/
def readKeyLines? : List String → Option (List (String × String))
  | [] => none
  | [line] => if line = closingLine then some [] else none
  | line :: next :: rest => do
    let entries ← readKeyLines? (next :: rest)
    let (key, written) ← readKeyLine? line
    let expression ← if entries = [] then some written else written.dropSuffix? [',']
    some ((key, String.ofList expression) :: entries)

/-- The keyset of a group of lines. -/
def readKeyset? : List String → Option CompiledKeyset
  | [] => none
  | line :: rest => do
    let name ← readHeader? line
    let entries ← readKeyLines? rest
    some ⟨name, entries⟩

/-- The keysets of the lines of a body. -/
def readBody? (lines : List String) : Option (List CompiledKeyset) :=
  if lines = [""] then some [] else (lines.splitOn "").mapM readKeyset?

theorem readLiteral?_of_isQuoted {quote : Char} {text written : String}
    (h : Script.IsQuoted quote text written) (rest : List Char) :
    readLiteral? (written.toList ++ rest) = some (text, rest) := by
  rw [readLiteral?, h.token rest]
  simp [h.value]

theorem readHeader?_headerLine (name : String) : readHeader? (headerLine name) = some name := by
  have hlist : (headerLine name).toList =
      "i18n.add(".toList ++ ((singleQuoted name).toList ++ ", \x7b".toList) := by
    rw [headerLine, String.toList_append, String.toList_append, List.append_assoc]
  rw [readHeader?, hlist, List.dropPrefix?_append_of_beq _ (by simp)]
  simp [readLiteral?_of_isQuoted (isQuoted_singleQuoted name)]

theorem readKeyLine?_entryLine (entry : String × String) (after : String) :
    readKeyLine? (entryLine entry ++ after) = some (entry.1, entry.2.toList ++ after.toList) := by
  have hlist : (entryLine entry ++ after).toList =
      "    ".toList ++ ((doubleQuoted entry.1).toList ++
        (": ".toList ++ (entry.2.toList ++ after.toList))) := by
    simp only [entryLine, String.toList_append, List.append_assoc]
  rw [readKeyLine?, hlist, List.dropPrefix?_append_of_beq _ (by simp)]
  simp only [Option.bind_eq_bind, Option.bind_some,
    readLiteral?_of_isQuoted (isQuoted_doubleQuoted entry.1)]
  rw [List.dropPrefix?_append_of_beq _ (by simp)]
  rfl

theorem readKeyLines?_entryLines (entries : List (String × String)) :
    readKeyLines? (entryLines entries ++ [closingLine]) = some entries := by
  induction entries with
  | nil => simp [entryLines, readKeyLines?]
  | cons entry rest ih =>
      cases rest with
      | nil =>
          have hread := readKeyLine?_entryLine entry ""
          rw [String.append_empty] at hread
          simp [entryLines, readKeyLines?, hread]
      | cons next rest =>
          obtain ⟨line, after, hlines⟩ :
              ∃ line after, entryLines (next :: rest) ++ [closingLine] = line :: after :=
            List.exists_cons_of_ne_nil (by simp)
          have hcomma : (entry.2.toList ++ [',']).dropSuffix? [','] = some entry.2.toList :=
            List.dropSuffix?_eq_some_iff.2 ⟨[','], rfl, by simp⟩
          rw [hlines] at ih
          rw [entryLines, List.cons_append, hlines, readKeyLines?, ih]
          · simp [readKeyLine?_entryLine, hcomma]
          · simp

theorem readKeyset?_keysetLines (keyset : CompiledKeyset) :
    readKeyset? (keysetLines keyset) = some keyset := by
  rw [← registration_eq, registration, List.cons_append, readKeyset?]
  simp only [Option.bind_eq_bind]
  have hname := readHeader?_headerLine keyset.name
  have hentries := readKeyLines?_entryLines keyset.entries
  unfold headerLine at hname
  unfold closingLine at hentries
  rw [hname, hentries]
  rfl

theorem blank_not_mem_keysetLines (keyset : CompiledKeyset) : "" ∉ keysetLines keyset := by
  intro h
  rw [keysetLines, List.mem_append, List.mem_cons, List.mem_singleton] at h
  rcases h with (hheader | hentry) | hclosing
  · simp [headerLine] at hheader
  · obtain ⟨i, _, hline⟩ := List.mem_mapIdx.1 hentry
    simp at hline
  · simp [closingLine] at hclosing

/-- **What is read of the lines of a body** are the keysets that they were written of. -/
theorem readBody?_bodyLines (keysets : List CompiledKeyset) :
    readBody? (bodyLines keysets) = some keysets := by
  by_cases hne : keysets = []
  · subst hne
    rfl
  · have hgroups : keysets.map keysetLines ≠ [] := by simpa using hne
    have hsplit : (bodyLines keysets).splitOn "" = keysets.map keysetLines := by
      rw [bodyLines, blankBetween, if_neg hgroups]
      refine List.splitOn_intercalate "" ?_ hgroups
      intro group hgroup
      obtain ⟨keyset, -, rfl⟩ := List.mem_map.1 hgroup
      exact blank_not_mem_keysetLines keyset
    have hframe : bodyLines keysets ≠ [""] := by
      intro hblank
      have hmem : [] ∈ keysets.map keysetLines := by
        rw [← hsplit, hblank]
        decide
      exact ne_nil_of_mem_keysetLines [] hmem rfl
    rw [readBody?, if_neg hframe, hsplit, List.mapM_map]
    simp only [Function.comp_def, readKeyset?_keysetLines]
    exact List.mapM_pure.trans (congrArg some (List.map_id _))

/-! ## Artifacts -/

/-- The lines are those of the frame, and the keysets are read of them. -/
structure Tells (lines : List String) (keysets : List CompiledKeyset) : Prop where
  /-- No line ends in a quoted name, a quoted key or an expression. -/
  flat : ∀ keyset ∈ keysets, IsFlat keyset
  /-- The lines of each keyset, with a blank line between each two. -/
  frame : lines = bodyLines keysets
  /-- The names, keys and expressions are found again. -/
  read : readBody? lines = some keysets

theorem tells_body {collection : Collection} {keysets : List CompiledKeyset}
    (h : collection.compile .localized = .ok keysets) : Tells (linesOf (body keysets)) keysets where
  flat := isFlat_of_compile h
  frame := linesOf_body (isFlat_of_compile h)
  read := by rw [linesOf_body (isFlat_of_compile h), readBody?_bodyLines]

theorem linesOf_generate (language : Language) (classSource : String)
    (keysets : List CompiledKeyset) (moduleName : String) :
    linesOf (generate language classSource keysets moduleName) =
      linesOf (prologue language classSource) ++ linesOf (body keysets) ++
        linesOf (epilogue language moduleName) := by
  rw [generate, linesOf_append, linesOf_append]

/-- **An artifact determines its keysets.**  Its body is read line by line, and two artifacts with
the same language, class and module name are the same only if their keysets are. -/
theorem generate_determines {collection other : Collection} {keysets others : List CompiledKeyset}
    (h : collection.compile .localized = .ok keysets)
    (hother : other.compile .localized = .ok others) (language : Language)
    (classSource moduleName : String) :
    linesOf (generate language classSource keysets moduleName) =
      linesOf (prologue language classSource) ++ linesOf (body keysets) ++
        linesOf (epilogue language moduleName) ∧
    Tells (linesOf (body keysets)) keysets ∧
    (generate language classSource keysets moduleName =
      generate language classSource others moduleName → keysets = others) := by
  refine ⟨linesOf_generate .., tells_body h, fun hsame => ?_⟩
  have hbody : body keysets = body others := by
    unfold generate at hsame
    rwa [String.append_left_inj, String.append_left_inj, String.append_right_inj] at hsame
  have hread := (tells_body h).read
  rw [hbody, (tells_body hother).read] at hread
  exact (Option.some.inj hread).symm

/-- Names, keys and templates with the spelling of the frame in them. -/
def frameCollection : Collection :=
  Dictionary.ofList
    [("i18n.add('k', \x7b", .ofList [("\n\x7d);\n", "a,\n\\\x7d);\n"), ("\": \"", "\x7bn\x7d")]),
      ("\x7d);", .ofList [])]

/-- The keysets that they are compiled to. -/
def frameKeysets : List CompiledKeyset :=
  [⟨"i18n.add('k', \x7b", [("\n\x7d);\n", "\"a,\\n\x7d);\\n\""),
    ("\": \"", "function(params) \x7b return \"\" + params.n; \x7d")]⟩, ⟨"\x7d);", []⟩]

/-- Contents that look like the frame are read as contents. -/
theorem generate_determines_frame :
    Tells (linesOf (body frameKeysets)) frameKeysets ∧
      generate .all "" frameKeysets "m" ≠ generate .all "" [] "m" := by
  have hcompile : frameCollection.compile .localized = .ok frameKeysets := by
    decide +kernel
  have hempty : Collection.compile .localized Dictionary.empty = .ok [] := rfl
  obtain ⟨-, htells, hinjective⟩ := generate_determines hcompile hempty .all "" "m"
  exact ⟨htells, fun hsame => absurd (hinjective hsame) (by decide)⟩

end Artifact

end KeysetBundle
