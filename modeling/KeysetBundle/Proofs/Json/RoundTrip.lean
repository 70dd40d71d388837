import KeysetBundle.Json.Parser
import KeysetBundle.Json.Printer
import KeysetBundle.Proofs.Decimal.Digits
import KeysetBundle.Proofs.Text.Hex

/-!
# Data texts read back

The printer of data texts and their parser are inverse to each other on the
values that are made of natural numbers, texts, sequences and objects
(`Printed`).  The parser is bounded by the length of its source, so the proof
carries a bound along: every element that is read leaves a shorter rest.

Main results.

- `readPoints_quoted`, `readNumber_toDigits`: texts and numbers read back,
  whatever follows them.
- `parse_pretty`: a printed value reads back.
-/

namespace KeysetBundle.Json

open KeysetBundle.Decimal (head_toDigits isDigit_of_mem_toDigits)
open KeysetBundle.Text (dataEscape unitEscape)

/-- Values that are written as they are read. -/
inductive Printed : Json → Prop
  /-- A natural number. -/
  | number (n : Nat) : Printed (.ofNat n)
  /-- A text. -/
  | text (value : String) : Printed (.ofText value)
  /-- A sequence. -/
  | array {items : List Json} (h : ∀ item ∈ items, Printed item) : Printed (.array items)
  /-- An object. -/
  | object {members : List (String × Json)} (h : ∀ member ∈ members, Printed member.2) :
    Printed (.ofMembers members)

/-! ## Texts -/

theorem readPoints_escape {c : Char} {n : Nat} (hc : escapeValue? c = some n) (cs : List Char) :
    readPoints ('\\' :: c :: cs) = (readPoints cs).map fun r => (n :: r.1, r.2) := by
  have hu : c ≠ 'u' := by
    rintro rfl
    have hnone : escapeValue? 'u' = none := by decide
    rw [hnone] at hc
    cases hc
  rw [readPoints]
  · rw [hc]
    cases readPoints cs <;> rfl
  · rintro a b d e rest heq
    exact fun _ => hu heq

theorem readPoints_unitEscape {n : Nat} (hn : n < 65536) (cs : List Char) :
    readPoints (unitEscape n ++ cs) = (readPoints cs).map fun r => (n :: r.1, r.2) := by
  rw [unitEscape]
  simp only [List.cons_append, List.nil_append]
  rw [readPoints, Text.hexValue?_unitDigits hn]
  cases readPoints cs <;> rfl

theorem readPoints_plain {c : Char} (hquote : c ≠ '"') (hslash : c ≠ '\\') (hlow : ¬c.toNat < 32)
    (cs : List Char) :
    readPoints (c :: cs) = (readPoints cs).map fun r => (c.toNat :: r.1, r.2) := by
  rw [readPoints]
  · rw [if_neg (not_or.2 ⟨hlow, hslash⟩)]
    cases readPoints cs <;> rfl
  · exact fun heq => hquote heq
  · exact fun _ _ _ _ _ heq _ => hslash heq
  · exact fun _ _ heq _ => hslash heq

/-- The form in which a character is written is read as the character. -/
theorem readPoints_append_dataEscape (c : Char) (cs : List Char) :
    readPoints (dataEscape c ++ cs) = (readPoints cs).map fun r => (c.toNat :: r.1, r.2) := by
  unfold dataEscape
  split
  · subst_vars
    exact readPoints_escape rfl cs
  split
  · subst_vars
    exact readPoints_escape rfl cs
  split
  · subst_vars
    exact readPoints_escape rfl cs
  split
  · subst_vars
    exact readPoints_escape rfl cs
  split
  · subst_vars
    exact readPoints_escape rfl cs
  split
  · subst_vars
    exact readPoints_escape rfl cs
  split
  · subst_vars
    exact readPoints_escape rfl cs
  split
  · rename_i hlow
    exact readPoints_unitEscape (by omega) cs
  · rename_i hquote hslash _ _ _ _ _ hlow
    exact readPoints_plain hquote hslash hlow cs

/-- A character is no half of a surrogate pair. -/
theorem pointEscape_toNat (c : Char) : pointEscape c.toNat = dataEscape c := by
  have hvalid : c.toNat < 0xd800 ∨ 0xdfff < c.toNat ∧ c.toNat < 0x110000 := c.valid
  have hhigh : Text.isHighHalf c.toNat = false := by
    unfold Text.isHighHalf
    rw [Bool.and_eq_false_iff, decide_eq_false_iff_not, decide_eq_false_iff_not]
    omega
  have hlow : Text.isLowHalf c.toNat = false := by
    unfold Text.isLowHalf
    rw [Bool.and_eq_false_iff, decide_eq_false_iff_not, decide_eq_false_iff_not]
    omega
  unfold pointEscape
  rw [hhigh, hlow, Char.ofNat_toNat]
  rfl

/-- **A written text reads back**, and what follows its closing quote is left. -/
theorem readPoints_quoted (value : String) (rest : List Char) :
    quoted (pointsOf value) ++ rest =
        '"' :: (value.toList.flatMap dataEscape ++ '"' :: rest) ∧
      readPoints (value.toList.flatMap dataEscape ++ '"' :: rest) =
        some (pointsOf value, rest) := by
  constructor
  · unfold quoted pointsOf
    rw [List.flatMap_map]
    simp only [pointEscape_toNat, List.cons_append, List.append_assoc, List.nil_append]
  · unfold pointsOf
    induction value.toList with
    | nil => exact readPoints_quote rest
    | cons c cs ih =>
        rw [List.flatMap_cons, List.append_assoc, readPoints_append_dataEscape, ih]
        rfl

/-! ## Numbers -/

/-- What may follow a value in a printed text: a comma or a line break. -/
def Ends (rest : List Char) : Prop :=
  ∀ c tail, rest = c :: tail → c = ',' ∨ c = '\n'

theorem Ends.not_isDigit {rest : List Char} (h : Ends rest) :
    rest.takeWhile Char.isDigit = [] ∧ rest.dropWhile Char.isDigit = rest := by
  cases rest with
  | nil => exact ⟨rfl, rfl⟩
  | cons c tail =>
      rcases h c tail rfl with rfl | rfl
      · exact ⟨rfl, rfl⟩
      · exact ⟨rfl, rfl⟩

theorem readDigits_append {digits rest : List Char} (hne : digits ≠ [])
    (hdigits : ∀ c ∈ digits, c.isDigit) (hrest : Ends rest) :
    readDigits (digits ++ rest) = some (digits, rest) := by
  obtain ⟨htake, hdrop⟩ := hrest.not_isDigit
  unfold readDigits
  rw [List.takeWhile_append_of_pos hdigits, List.dropWhile_append_of_pos hdigits, htake, hdrop,
    List.append_nil]
  cases digits with
  | nil => exact absurd rfl hne
  | cons c cs => rfl

theorem readWhole_toDigits (n : Nat) {rest : List Char} (hrest : Ends rest) :
    readWhole (Nat.toDigits 10 n ++ rest) = some (Nat.toDigits 10 n, rest) := by
  by_cases hn : n = 0
  · subst hn
    rw [Nat.toDigits_zero, List.singleton_append]
    cases rest with
    | nil => rfl
    | cons c tail =>
        rcases hrest c tail rfl with rfl | rfl
        · rfl
        · rfl
  · obtain ⟨c, cs, hdigits, hc⟩ := head_toDigits hn
    have hread : readDigits (Nat.toDigits 10 n ++ rest) = some (Nat.toDigits 10 n, rest) :=
      readDigits_append Nat.toDigits_ne_nil (fun c => isDigit_of_mem_toDigits) hrest
    rw [hdigits] at hread ⊢
    rw [List.cons_append] at hread ⊢
    unfold readWhole
    split
    · rename_i heq
      exact absurd (List.cons.inj heq).1 hc
    · exact hread

/-- **A written number reads back.** -/
theorem readNumber_toDigits (n : Nat) {rest : List Char} (hrest : Ends rest) :
    readNumber (Nat.toDigits 10 n ++ rest) = some (Nat.toDigits 10 n, rest) := by
  have hwhole := readWhole_toDigits n hrest
  have hfraction : readFraction rest = some ([], rest) := by
    cases rest with
    | nil => rfl
    | cons c tail =>
        rcases hrest c tail rfl with rfl | rfl
        · rfl
        · rfl
  have hexponent : readExponent rest = some ([], rest) := by
    cases rest with
    | nil => rfl
    | cons c tail =>
        rcases hrest c tail rfl with rfl | rfl
        · rfl
        · rfl
  have hunsigned : readUnsigned (Nat.toDigits 10 n ++ rest) = some (Nat.toDigits 10 n, rest) := by
    unfold readUnsigned
    rw [hwhole]
    show (readFraction rest >>= _) = _
    rw [hfraction]
    show (readExponent rest >>= _) = _
    rw [hexponent]
    show some (Nat.toDigits 10 n ++ [] ++ [], rest) = _
    rw [List.append_nil, List.append_nil]
  unfold readNumber
  split
  · rename_i tail heq
    have hminus : '-' ∈ Nat.toDigits 10 n := by
      cases hdigits : Nat.toDigits 10 n with
      | nil => exact absurd hdigits Nat.toDigits_ne_nil
      | cons c cs =>
          rw [hdigits] at heq
          rw [(List.cons.inj heq).1]
          simp
    exact absurd (isDigit_of_mem_toDigits hminus) (by decide)
  · exact hunsigned

/-! ## Blanks -/

theorem isBlank_of_mem_lineStart {depth : Nat} {c : Char} (h : c ∈ lineStart depth) :
    isBlank c := by
  rcases List.mem_cons.1 h with rfl | h
  · rfl
  · rw [List.eq_of_mem_replicate h]
    rfl

theorem skipBlanks_lineStart (depth : Nat) (cs : List Char) :
    skipBlanks (lineStart depth ++ cs) = skipBlanks cs :=
  List.dropWhile_append_of_pos fun _ h => isBlank_of_mem_lineStart h

theorem skipBlanks_cons {c : Char} (h : isBlank c = false) (cs : List Char) :
    skipBlanks (c :: cs) = c :: cs := by
  rw [skipBlanks, List.dropWhile_cons, h]
  rfl

theorem readValue_lineStart (bound depth : Nat) (cs : List Char) :
    readValue bound (lineStart depth ++ cs) = readValue bound cs := by
  cases bound with
  | zero => rw [readValue_zero, readValue_zero]
  | succ bound => rw [readValue, readValue, skipBlanks_lineStart]

theorem readItems_lineStart (bound depth : Nat) (cs : List Char) :
    readItems bound (lineStart depth ++ cs) = readItems bound cs := by
  cases bound with
  | zero => rw [readItems_zero, readItems_zero]
  | succ bound => rw [readItems, readItems, readValue_lineStart]

theorem readMembers_lineStart (bound depth : Nat) (cs : List Char) :
    readMembers bound (lineStart depth ++ cs) = readMembers bound cs := by
  cases bound with
  | zero => rw [readMembers_zero, readMembers_zero]
  | succ bound => rw [readMembers, readMembers, skipBlanks_lineStart]

/-! ## Values -/

/-- A printed value starts with a character that is neither a blank nor a closing bracket. -/
theorem head_render {value : Json} (h : Printed value) (depth : Nat) :
    ∃ c cs, render depth value = c :: cs ∧ isBlank c = false ∧ c ≠ ']' := by
  cases h with
  | number n =>
      rw [ofNat, render, Nat.toString_eq_repr, Nat.toList_repr]
      cases hdigits : Nat.toDigits 10 n with
      | nil => exact absurd hdigits Nat.toDigits_ne_nil
      | cons c cs =>
          have hc : c.isDigit := isDigit_of_mem_toDigits (by rw [hdigits]; simp)
          refine ⟨c, cs, rfl, ?_, ?_⟩
          · cases hblank : isBlank c with
            | false => rfl
            | true =>
                unfold isBlank at hblank
                simp only [Bool.or_eq_true, beq_iff_eq] at hblank
                rcases hblank with ((rfl | rfl) | rfl) | rfl <;> cases hc
          · rintro rfl
            cases hc
  | text value => exact ⟨'"', _, by rw [ofText, render, quoted]; rfl, rfl, by decide⟩
  | @array items h =>
      cases items with
      | nil => exact ⟨'[', _, render_array_nil depth, rfl, by decide⟩
      | cons item items =>
          exact ⟨'[', _, by rw [render]; rfl, rfl, by decide⟩
  | @object members h =>
      cases members with
      | nil => exact ⟨'{', _, by rw [ofMembers, List.map_nil, render_object_nil], rfl, by decide⟩
      | cons member members =>
          exact ⟨'{', _, by rw [ofMembers, List.map_cons, render]; rfl, rfl, by decide⟩

/-- A value reads back wherever it is written. -/
def Reads (value : Json) : Prop :=
  ∀ depth bound rest, Ends rest → (render depth value).length < bound →
    readValue bound (render depth value ++ rest) = some (value, rest)

theorem ends_lineStart (depth : Nat) (cs : List Char) : Ends (lineStart depth ++ cs) := by
  intro c tail heq
  exact .inr (List.cons.inj heq).1.symm

theorem ends_renderItems (depth : Nat) (items : List Json) {cs : List Char} (h : Ends cs) :
    Ends (renderItems depth items ++ cs) := by
  cases items with
  | nil =>
      rw [renderItems_nil, List.nil_append]
      exact h
  | cons item items =>
      rw [renderItems]
      intro c tail heq
      exact .inl (List.cons.inj heq).1.symm

theorem reads_number (n : Nat) : Reads (.ofNat n) := by
  intro depth bound rest hrest hbound
  obtain ⟨c, cs, hrender, hblank, hbracket⟩ := head_render (.number n) depth
  have hdigits : render depth (.ofNat n) = Nat.toDigits 10 n := by
    rw [ofNat, render, Nat.toString_eq_repr, Nat.toList_repr]
  have hread := readNumber_toDigits n hrest
  have hc : c.isDigit := isDigit_of_mem_toDigits (by rw [← hdigits, hrender]; simp)
  cases bound with
  | zero => omega
  | succ bound =>
      rw [readValue, hrender, List.cons_append, skipBlanks_cons hblank]
      rw [← hdigits, hrender, List.cons_append] at hread
      split
      all_goals try
        rename_i heq
        obtain ⟨rfl, -⟩ := List.cons.inj heq
        cases hc
      rw [hread]
      simp only [Option.map_some, ofNat, Nat.toString_eq_repr, Nat.toList_repr]
      rw [← hdigits, hrender]

theorem reads_text (value : String) : Reads (.ofText value) := by
  intro depth bound rest hrest hbound
  obtain ⟨hquoted, hread⟩ := readPoints_quoted value rest
  cases bound with
  | zero => omega
  | succ bound =>
      rw [readValue, ofText, render, hquoted, skipBlanks_cons rfl]
      show (readPoints _).map _ = _
      rw [hread]
      rfl

/-! ## Sequences -/

theorem readItems_last {bound : Nat} {cs rest after : List Char} {item : Json}
    (hitem : readValue bound cs = some (item, rest)) (hrest : skipBlanks rest = ']' :: after) :
    readItems (bound + 1) cs = some ([item], after) := by
  rw [readItems, hitem]
  simp only [hrest]

theorem readItems_more {bound : Nat} {cs rest next after : List Char} {item : Json}
    {items : List Json} (hitem : readValue bound cs = some (item, rest))
    (hrest : skipBlanks rest = ',' :: next) (hnext : readItems bound next = some (items, after)) :
    readItems (bound + 1) cs = some (item :: items, after) := by
  rw [readItems, hitem]
  simp only [hrest, hnext]
  rfl

/-- The elements of a sequence are read up to its closing bracket.  The bound is on the length of
what is read. -/
theorem readItems_render {item : Json} {items : List Json} (depth depth' : Nat)
    (h : ∀ item' ∈ item :: items, Reads item') (bound : Nat) (rest : List Char)
    (hbound : (render depth item ++ renderItems depth items).length + 1 < bound) :
    readItems bound
        (render depth item ++ (renderItems depth items ++ (lineStart depth' ++ ']' :: rest))) =
      some (item :: items, rest) := by
  induction items generalizing item bound with
  | nil =>
      obtain ⟨bound, rfl⟩ : ∃ b, bound = b + 1 := ⟨bound - 1, by omega⟩
      rw [renderItems_nil, List.append_nil] at hbound
      have hitem := h item (by simp) depth bound (lineStart depth' ++ ']' :: rest)
        (ends_lineStart _ _) (by omega)
      refine readItems_last hitem ?_
      rw [skipBlanks_lineStart, skipBlanks_cons rfl]
  | cons next items ih =>
      obtain ⟨bound, rfl⟩ : ∃ b, bound = b + 1 := ⟨bound - 1, by omega⟩
      rw [renderItems, List.length_append, List.length_append, List.length_append,
        List.length_cons] at hbound
      have hitem := h item (by simp) depth bound
        (renderItems depth (next :: items) ++ (lineStart depth' ++ ']' :: rest))
        (ends_renderItems _ _ (ends_lineStart _ _)) (by omega)
      have hnext := @ih next (fun item' hitem' => h item' (by simp [hitem'])) bound (by
        rw [List.length_append]
        omega)
      rw [← readItems_lineStart bound depth] at hnext
      refine readItems_more hitem ?_ hnext
      rw [renderItems, List.append_assoc, List.append_assoc, List.cons_append, skipBlanks_cons rfl]

theorem reads_array {items : List Json} (h : ∀ item ∈ items, Printed item)
    (ih : ∀ item ∈ items, Reads item) : Reads (.array items) := by
  intro depth bound rest hrest hbound
  obtain ⟨bound, rfl⟩ : ∃ b, bound = b + 1 := ⟨bound - 1, by omega⟩
  cases items with
  | nil =>
      rw [readValue, render_array_nil]
      rfl
  | cons item items =>
      obtain ⟨c, cs, hrender, hblank, hbracket⟩ := head_render (h item (by simp)) (depth + 1)
      rw [render] at hbound ⊢
      simp only [List.length_cons, List.length_append, List.cons_append, List.append_assoc,
        List.nil_append] at hbound ⊢
      have hitems := readItems_render (depth + 1) depth ih bound rest (by
        rw [List.length_append]
        omega)
      rw [readValue, skipBlanks_cons rfl]
      simp only [skipBlanks_lineStart]
      rw [hrender, List.cons_append] at hitems ⊢
      rw [skipBlanks_cons hblank]
      split
      · rename_i heq
        exact absurd (List.cons.inj heq).1 hbracket
      · rw [hitems]
        rfl

/-! ## Objects -/

theorem readMembers_last {bound : Nat} {cs named rest value rest' after : List Char}
    {name : List Nat} {item : Json} (hquote : skipBlanks cs = '"' :: named)
    (hname : readPoints named = some (name, rest)) (hcolon : skipBlanks rest = ':' :: value)
    (hitem : readValue bound value = some (item, rest')) (hrest : skipBlanks rest' = '}' :: after) :
    readMembers (bound + 1) cs = some ([(name, item)], after) := by
  rw [readMembers, hquote]
  simp only [hname, hcolon, hitem, hrest]

theorem readMembers_more {bound : Nat} {cs named rest value rest' next after : List Char}
    {name : List Nat} {item : Json} {members : List (List Nat × Json)}
    (hquote : skipBlanks cs = '"' :: named) (hname : readPoints named = some (name, rest))
    (hcolon : skipBlanks rest = ':' :: value) (hitem : readValue bound value = some (item, rest'))
    (hrest : skipBlanks rest' = ',' :: next)
    (hnext : readMembers bound next = some (members, after)) :
    readMembers (bound + 1) cs = some ((name, item) :: members, after) := by
  rw [readMembers, hquote]
  simp only [hname, hcolon, hitem, hrest, hnext]
  rfl

/-- The members of an object with the code points of their names. -/
def pointsMembers (members : List (String × Json)) : List (List Nat × Json) :=
  members.map fun (name, value) => (pointsOf name, value)

theorem ends_renderMembers (depth : Nat) (members : List (List Nat × Json)) {cs : List Char}
    (h : Ends cs) : Ends (renderMembers depth members ++ cs) := by
  cases members with
  | nil =>
      rw [renderMembers_nil, List.nil_append]
      exact h
  | cons member members =>
      rw [renderMembers]
      intro c tail heq
      exact .inl (List.cons.inj heq).1.symm

/-- The members of an object are read up to its closing brace. -/
theorem readMembers_render {name : String} {item : Json} {members : List (String × Json)}
    (depth depth' : Nat) (h : ∀ member ∈ (name, item) :: members, Reads member.2) (bound : Nat)
    (rest : List Char)
    (hbound : (quoted (pointsOf name) ++ ':' :: ' ' :: (render depth item ++
      renderMembers depth (pointsMembers members))).length + 1 < bound) :
    readMembers bound
        (quoted (pointsOf name) ++ ':' :: ' ' :: (render depth item ++
          (renderMembers depth (pointsMembers members) ++ (lineStart depth' ++ '}' :: rest)))) =
      some (pointsMembers ((name, item) :: members), rest) := by
  have hblank : ∀ bound cs, readValue bound (' ' :: cs) = readValue bound cs := by
    intro bound cs
    cases bound with
    | zero => rw [readValue_zero, readValue_zero]
    | succ bound =>
        rw [readValue, readValue]
        rfl
  induction members generalizing name item bound with
  | nil =>
      obtain ⟨bound, rfl⟩ : ∃ b, bound = b + 1 := ⟨bound - 1, by omega⟩
      simp only [pointsMembers, List.map_nil, renderMembers, List.append_nil, List.length_append,
        List.length_cons] at hbound
      have hitem := h (name, item) (by simp) depth bound (lineStart depth' ++ '}' :: rest)
        (ends_lineStart _ _) (by dsimp only; omega)
      obtain ⟨hquoted, hname⟩ := readPoints_quoted name (':' :: ' ' :: (render depth item ++
          (renderMembers depth (pointsMembers []) ++ (lineStart depth' ++ '}' :: rest))))
      rw [← hblank] at hitem
      rw [hquoted]
      refine readMembers_last (skipBlanks_cons rfl _) hname (skipBlanks_cons rfl _) hitem ?_
      rw [skipBlanks_lineStart, skipBlanks_cons rfl]
  | cons next members ih =>
      obtain ⟨bound, rfl⟩ : ∃ b, bound = b + 1 := ⟨bound - 1, by omega⟩
      obtain ⟨name', item'⟩ := next
      simp only [pointsMembers, List.map_cons, renderMembers, List.length_append,
        List.length_cons] at hbound
      have hitem := h (name, item) (by simp) depth bound
        (renderMembers depth (pointsMembers ((name', item') :: members)) ++
          (lineStart depth' ++ '}' :: rest))
        (ends_renderMembers _ _ (ends_lineStart _ _)) (by dsimp only; omega)
      have hnext := @ih name' item' (fun member hmember => h member (by simp [hmember])) bound (by
        simp only [pointsMembers, List.length_append, List.length_cons]
        omega)
      rw [← readMembers_lineStart bound depth] at hnext
      obtain ⟨hquoted, hname⟩ := readPoints_quoted name (':' :: ' ' :: (render depth item ++
          (renderMembers depth (pointsMembers ((name', item') :: members)) ++
            (lineStart depth' ++ '}' :: rest))))
      rw [← hblank] at hitem
      rw [hquoted]
      refine readMembers_more (skipBlanks_cons rfl _) hname (skipBlanks_cons rfl _) hitem ?_ hnext
      simp only [pointsMembers, List.map_cons, renderMembers, List.cons_append,
        List.append_assoc, List.nil_append]
      rw [skipBlanks_cons rfl]

theorem reads_object {members : List (String × Json)}
    (ih : ∀ member ∈ members, Reads member.2) : Reads (.ofMembers members) := by
  intro depth bound rest hrest hbound
  obtain ⟨bound, rfl⟩ : ∃ b, bound = b + 1 := ⟨bound - 1, by omega⟩
  cases members with
  | nil =>
      rw [readValue, ofMembers, List.map_nil, render_object_nil]
      rfl
  | cons member members =>
      obtain ⟨name, item⟩ := member
      rw [ofMembers, List.map_cons, render] at hbound ⊢
      simp only [List.length_cons, List.length_append, List.cons_append, List.append_assoc,
        List.nil_append] at hbound ⊢
      have hmembers := readMembers_render (depth + 1) depth ih bound rest (by
        simp only [pointsMembers, List.length_append, List.length_cons]
        omega)
      rw [readValue, skipBlanks_cons rfl]
      simp only [skipBlanks_lineStart]
      obtain ⟨hquoted, -⟩ := readPoints_quoted name (':' :: ' ' :: (render (depth + 1) item ++
          (renderMembers (depth + 1) (pointsMembers members) ++ (lineStart depth ++ '}' :: rest))))
      rw [hquoted] at hmembers
      unfold pointsMembers at hquoted hmembers
      rw [hquoted, skipBlanks_cons rfl]
      show (readMembers bound _).map _ = _
      rw [hmembers]
      rfl

theorem reads_of_printed {value : Json} (h : Printed value) : Reads value := by
  induction h with
  | number n => exact reads_number n
  | text value => exact reads_text value
  | array h ih => exact reads_array h ih
  | object h ih => exact reads_object ih

/-- **A printed value reads back.** -/
theorem parse_pretty {value : Json} (h : Printed value) : parse value.pretty = some value := by
  have hread := reads_of_printed h 0 ((render 0 value).length + 1) []
    (fun _ _ heq => nomatch heq) (Nat.lt_succ_self _)
  rw [List.append_nil] at hread
  unfold parse pretty
  rw [String.toList_ofList, hread]
  rfl

end KeysetBundle.Json
