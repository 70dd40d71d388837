import KeysetBundle.Glob.Expansion
import KeysetBundle.Proofs.Except
import KeysetBundle.Proofs.Files.Site

/-!
# Patterns behind a path

A pattern of paths that is joined to a base is read together with it.  Where the
base has no character that stands for others, it makes up texts, and the pattern
behind it is read as it is alone (`ofText_joinText`): the parts of a pattern do
not depend on how much stands before them, but only on the slash.

The pattern is checked as a whole and then read piece by piece, and a class that
goes over a slash passes the check only.  So a pattern can be read if it passes
the check and each of its pieces can be read (`exists_ofText`).

Main results.

- `ofText_joinText`: a pattern behind a base.
- `exists_ofText`: which patterns can be read.
-/

namespace KeysetBundle

open Files
open KeysetBundle.Path (piecesOf stepsOf)

namespace Path

/-- A spelling with an empty last piece is empty or ends in a slash. -/
theorem eq_nil_or_slash_of_getLast? {pieces : List String} {cs : List Char}
    (h : piecesOf cs = pieces) (hlast : pieces.getLast? = some "") :
    cs = [] ∨ cs.getLast? = some '/' := by
  induction pieces generalizing cs with
  | nil => exact absurd h (piecesOf_ne_nil cs)
  | cons piece rest ih =>
      rcases piecesOf_eq_cons h with ⟨rfl, hcs⟩ | ⟨after, rfl, hafter⟩
      · cases Option.some.inj hlast
        exact .inl hcs
      · have hne : rest ≠ [] := hafter ▸ piecesOf_ne_nil after
        obtain ⟨next, others, rfl⟩ := List.exists_cons_of_ne_nil hne
        rw [List.getLast?_cons_cons] at hlast
        right
        rcases ih hafter hlast with rfl | hend
        · simp
        · simp [List.getLast?_append, List.getLast?_cons, hend]

theorem mem_of_mem_piecesOf {cs : List Char} {piece : String} {c : Char}
    (h : piece ∈ piecesOf cs) (hc : c ∈ piece.toList) : c ∈ cs := by
  generalize hpieces : piecesOf cs = pieces at h
  induction pieces generalizing cs with
  | nil => cases h
  | cons first rest ih =>
      rcases piecesOf_eq_cons hpieces with ⟨rfl, rfl⟩ | ⟨after, rfl, hafter⟩
      · rwa [List.mem_singleton.1 h] at hc
      · rcases List.mem_cons.1 h with rfl | hrest
        · exact List.mem_append_left _ hc
        · exact List.mem_append_right _ (List.mem_cons_of_mem '/' (ih hafter hrest))

end Path

namespace Glob

/-! ## Parts of a pattern -/

/-- A character that stands for itself in a pattern. -/
def isPlainChar (c : Char) : Bool := c != '*' && c != '?' && c != '['

section Tokens

variable {position : Nat} {atStart : Bool} {c : Char} {rest after cs front : List Char}
  {token : Token} {tokens : List Token}

theorem readTokens_cons (h : isPlainChar c = true) :
    readTokens position atStart (c :: rest) =
      (readTokens (position + 1) (c == '/') rest).map (.char c :: ·) := by
  have hstar : c ≠ '*' := by
    rintro rfl
    exact absurd h (by decide)
  have hmark : c ≠ '?' := by
    rintro rfl
    exact absurd h (by decide)
  have hbracket : c ≠ '[' := by
    rintro rfl
    exact absurd h (by decide)
  rw [readTokens]
  all_goals simp_all

theorem readTokens_class_none (h : readClass rest = none) :
    readTokens position atStart ('[' :: rest) = .error ⟨position, .unclosedClass⟩ := by
  rw [readTokens]
  split
  · rfl
  · simp_all

theorem readTokens_class_some (h : readClass rest = some (token, after)) :
    readTokens position atStart ('[' :: rest) =
      (readTokens (position + 1 + (rest.length - after.length)) false after).map (token :: ·) := by
  rw [readTokens]
  split
  · simp_all
  · simp_all

/-- The parts of a pattern do not depend on how much stands before it. -/
theorem toOption_readTokens (other : Nat) : (readTokens position atStart cs).toOption =
    (readTokens other atStart cs).toOption := by
  induction position, atStart, cs using readTokens.induct generalizing other with
  | case1 => rw [readTokens, readTokens]
  | case2 | case3 =>
      rw [readTokens, readTokens]
      rfl
  | case4 _ _ hstart | case6 _ _ _ hstart =>
      rw [readTokens, readTokens, if_neg hstart, if_neg hstart]
      rfl
  | case5 position rest ih =>
      rw [readTokens, readTokens, if_pos rfl, if_pos rfl, toOption_map, toOption_map, ih]
  | case7 position atStart rest =>
      rw [readTokens, readTokens]
      · rfl
      all_goals assumption
  | case8 position atStart rest _ _ _ _ ih =>
      rw [readTokens, readTokens, toOption_map, toOption_map, ih]
      all_goals assumption
  | case9 position atStart rest ih => rw [readTokens, readTokens, toOption_map, toOption_map, ih]
  | case10 position atStart rest hclass =>
      rw [readTokens_class_none hclass, readTokens_class_none hclass]
      rfl
  | case11 position atStart rest token after hclass _ ih =>
      rw [readTokens_class_some hclass, readTokens_class_some hclass, toOption_map, toOption_map,
        ih]
  | case12 position atStart c rest _ _ _ _ _ _ _ ih =>
      rw [readTokens, readTokens, toOption_map, toOption_map, ih]
      all_goals assumption

theorem isClass_of_readClass (h : readClass rest = some (token, after)) :
    ∃ negated ranges, token = .charClass negated ranges := by
  unfold readClass at h
  split at h
  · obtain ⟨_, -, heq⟩ := Option.map_eq_some_iff.1 h
    exact ⟨_, _, (Prod.mk.inj heq).1.symm⟩
  · obtain ⟨_, -, heq⟩ := Option.map_eq_some_iff.1 h
    exact ⟨_, _, (Prod.mk.inj heq).1.symm⟩

/-- The text of a pattern without wildcards is the pattern. -/
theorem eq_of_literal {literal : List Char} (h : readTokens position atStart cs = .ok tokens)
    (hliteral : literal? tokens = some literal) : cs = literal := by
  induction position, atStart, cs using readTokens.induct generalizing tokens literal with
  | case1 =>
      rw [readTokens] at h
      cases h
      exact Option.some.inj hliteral
  | case2 =>
      rw [readTokens] at h
      cases h
  | case3 =>
      rw [readTokens] at h
      cases h
      cases hliteral
  | case4 _ _ hstart | case6 _ _ _ hstart =>
      rw [readTokens, if_neg hstart] at h
      cases h
  | case5 =>
      rw [readTokens, if_pos rfl] at h
      obtain ⟨more, -, rfl⟩ := map_eq_ok.1 h
      cases hliteral
  | case7 =>
      rw [readTokens] at h
      · cases h
      all_goals assumption
  | case8 =>
      rw [readTokens] at h
      · obtain ⟨more, -, rfl⟩ := map_eq_ok.1 h
        cases hliteral
      all_goals assumption
  | case9 =>
      rw [readTokens] at h
      obtain ⟨more, -, rfl⟩ := map_eq_ok.1 h
      cases hliteral
  | case10 position atStart rest hclass =>
      rw [readTokens_class_none hclass] at h
      cases h
  | case11 position atStart rest token after hclass =>
      rw [readTokens_class_some hclass] at h
      obtain ⟨more, -, rfl⟩ := map_eq_ok.1 h
      obtain ⟨negated, ranges, rfl⟩ := isClass_of_readClass hclass
      cases hliteral
  | case12 position atStart c rest _ _ _ _ _ _ _ ih =>
      rw [readTokens] at h
      · obtain ⟨more, hmore, rfl⟩ := map_eq_ok.1 h
        rw [literal?] at hliteral
        obtain ⟨text, htext, rfl⟩ := Option.map_eq_some_iff.1 hliteral
        rw [ih hmore htext]
      all_goals assumption

theorem readTokens_plain (h : ∀ c ∈ cs, isPlainChar c = true) :
    readTokens position atStart cs = .ok (cs.map .char) := by
  induction cs generalizing position atStart with
  | nil => rw [readTokens, List.map_nil]
  | cons c cs ih =>
      rw [readTokens_cons (h c List.mem_cons_self),
        ih fun other hother => h other (List.mem_cons_of_mem c hother)]
      rfl

/-- Behind plain characters and a slash a pattern is read as it is alone. -/
theorem toOption_readTokens_append (h : ∀ c ∈ front, isPlainChar c = true) :
    (readTokens position atStart (front ++ '/' :: rest)).toOption =
      (readTokens 0 true rest).toOption.map ((front ++ ['/']).map .char ++ ·) := by
  induction front generalizing position atStart with
  | nil =>
      have hslash : isPlainChar '/' = true := by decide
      rw [List.nil_append, readTokens_cons hslash, toOption_map, toOption_readTokens 0]
      rfl
  | cons c front ih =>
      rw [List.cons_append, readTokens_cons (h c List.mem_cons_self), toOption_map,
        ih fun other hother => h other (List.mem_cons_of_mem c hother), Option.map_map]
      rfl

end Tokens

/-! ## Pieces -/

/-- Reads a piece of a pattern. -/
def readPiece (segment : String) : Except InvalidPattern Piece :=
  (tokensOf segment).map Piece.ofTokens

section Pieces

variable {segment : String} {piece : Piece} {pieces : List Piece}

theorem literal?_chars (cs : List Char) : literal? (cs.map .char) = some cs := by
  induction cs with
  | nil => rfl
  | cons c cs ih =>
      rw [List.map_cons, literal?, ih]
      rfl

theorem readPiece_plain (h : ∀ c ∈ segment.toList, isPlainChar c = true) :
    readPiece segment = .ok (.text segment) := by
  have htokens : tokensOf segment = .ok (segment.toList.map .char) := readTokens_plain h
  rw [readPiece, htokens, Except.map, Piece.ofTokens, literal?_chars]
  dsimp only
  rw [String.ofList_toList]

/-- A text is the piece that was read. -/
theorem eq_of_readPiece {value : String} (h : readPiece segment = .ok (.text value)) :
    value = segment := by
  obtain ⟨tokens, htokens, hpiece⟩ := map_eq_ok.1 h
  unfold Piece.ofTokens at hpiece
  split at hpiece
  · rename_i literal hliteral
    cases hpiece
    rw [← eq_of_literal htokens hliteral, String.ofList_toList]
  · split at hpiece
    · cases hpiece
    · cases hpiece

theorem collapse_text (value : String) (pieces : List Piece) :
    collapse (.text value :: pieces) = .text value :: collapse pieces := by
  rw [collapse]
  cases collapse pieces with
  | nil => rfl
  | cons next others => exact if_neg fun hboth => nomatch hboth.1

theorem collapse_texts (texts : List String) (pieces : List Piece) :
    collapse (texts.map .text ++ pieces) = texts.map .text ++ collapse pieces := by
  induction texts with
  | nil => rfl
  | cons text texts ih => rw [List.map_cons, List.cons_append, collapse_text, ih, List.cons_append]

theorem exists_collapse_cons (piece : Piece) (pieces : List Piece) :
    ∃ rest, collapse (piece :: pieces) = piece :: rest ∧ rest ⊆ collapse pieces := by
  rw [collapse]
  cases hcollapse : collapse pieces with
  | nil => exact ⟨[], rfl, List.nil_subset _⟩
  | cons next others =>
      dsimp only
      split
      · rename_i hboth
        rw [hboth.1, hboth.2]
        exact ⟨others, rfl, List.subset_cons_self _ _⟩
      · exact ⟨next :: others, rfl, List.Subset.refl _⟩

theorem collapse_subset (pieces : List Piece) : collapse pieces ⊆ pieces := by
  induction pieces with
  | nil => exact List.Subset.refl _
  | cons piece pieces ih =>
      obtain ⟨rest, hcollapse, hrest⟩ := exists_collapse_cons piece pieces
      rw [hcollapse]
      exact List.cons_subset_cons piece (List.Subset.trans hrest ih)

end Pieces

/-! ## Paths -/

/-- The path from which a search for a path starts. -/
def startOf (path : Path) : Path := if path.isAbsolute then ⟨"/"⟩ else ⟨"."⟩

/-- The texts between the slashes of a path. -/
def segmentsOf (path : Path) : List String :=
  segments (if path.isAbsolute then path.body else path.text.toList)

section Paths

variable {base path : Path} {level : String} {pieces others : List String}

/-- How a pattern is read. -/
theorem ofText_eq (text : String) : PathPattern.ofText text = (do
    let _ ← tokensOf text
    let pieces ← (segmentsOf ⟨text⟩).mapM readPiece
    return ⟨startOf ⟨text⟩, collapse pieces⟩) := by
  unfold PathPattern.ofText segmentsOf startOf
  split
  rename_i start rest hsplit
  split at hsplit
  · rename_i after htext
    have habsolute : (Path.mk text).isAbsolute := Path.isAbsolute_of_text after htext
    have hbody : (Path.mk text).body = after := Path.body_of_text htext
    cases hsplit
    rw [if_pos habsolute, if_pos habsolute, hbody]
    rfl
  · rename_i cs hrelative
    have hnot : ¬(Path.mk text).isAbsolute := fun habsolute =>
      hrelative _ (Path.text_eq habsolute)
    cases hsplit
    rw [if_neg hnot, if_neg hnot]
    rfl

theorem segmentsOf_relative (hlevel : ¬(Path.mk level).isAbsolute) :
    segmentsOf ⟨level⟩ = segments level.toList := by
  rw [segmentsOf, if_neg hlevel]

/-- The pieces of a relative pattern are read one by one. -/
theorem exists_pieces_of_ofText {pattern : PathPattern} (hlevel : ¬(Path.mk level).isAbsolute)
    (h : PathPattern.ofText level = .ok pattern) :
    ∃ pieces, (segments level.toList).mapM readPiece = .ok pieces ∧
      pattern.pieces = collapse pieces := by
  rw [ofText_eq, segmentsOf_relative hlevel] at h
  obtain ⟨tokens, -, h⟩ := bind_eq_ok.1 h
  obtain ⟨pieces, hread, h⟩ := bind_eq_ok.1 h
  cases h
  exact ⟨pieces, hread, rfl⟩

theorem exists_segments_cons {cs : List Char} {first : String} {rest : List String}
    (h : piecesOf cs = first :: rest) (hne : first ≠ "") :
    ∃ others, segments cs = first :: others := by
  unfold segments
  rw [h]
  dsimp only
  split
  · rename_i hlast
    cases rest with
    | nil => exact absurd (Option.some.inj hlast) hne
    | cons next rest => exact ⟨_, rfl⟩
  · exact ⟨rest, rfl⟩

theorem segments_append (pieces : List String) {cs rest : List Char}
    (h : piecesOf cs = pieces ++ piecesOf rest) : segments cs = pieces ++ segments rest := by
  have hne := Path.piecesOf_ne_nil rest
  unfold segments
  rw [h]
  dsimp only
  rw [List.getLast?_append_of_ne_nil _ hne]
  split
  · exact List.dropLast_append_of_ne_nil hne
  · rfl

theorem segments_of_piecesOf {cs : List Char} (h : (piecesOf cs).getLast? ≠ some "") :
    segments cs = piecesOf cs := if_neg h

theorem stepsOf_segments (cs : List Char) : stepsOf (segments cs) = stepsOf (piecesOf cs) := by
  unfold segments
  dsimp only
  split
  · rename_i hlast
    obtain ⟨front, hfront⟩ := List.getLast?_eq_some_iff.1 hlast
    have hend : stepsOf [""] = [] := by decide
    rw [hfront, List.dropLast_concat, Path.stepsOf_append, hend, List.append_nil]
  · rfl

theorem origin_snd (current : Location) (path : Path) : (origin current path).2 =
    piecesOf (if path.isAbsolute then path.body else path.text.toList) := by
  unfold origin
  split <;> rfl

theorem mem_piecesOf_of_segments {cs : List Char} {text : String} (h : text ∈ segments cs) :
    text ∈ piecesOf cs := by
  unfold segments at h
  dsimp only at h
  split at h
  · exact (List.dropLast_sublist _).subset h
  · exact h

/-- The texts of a path behind another one. -/
theorem segmentsOf_joinText (h : base.text ≠ "") (hlevel : ¬(Path.mk level).isAbsolute) :
    segmentsOf (base.joinText level) = segmentsOf base ++ segments level.toList := by
  obtain ⟨front, hjoined, hbase⟩ := Path.exists_text_joinText h hlevel
  obtain ⟨start, pieces, hslash, halone⟩ := exists_origin [] front
  have hpieces := origin_snd [] (base.joinText level)
  rw [hslash _ _ hjoined] at hpieces
  have hsame : segmentsOf base = pieces := by
    have hown := origin_snd [] base
    rcases hbase with ⟨htext, hne, hlast⟩ | htext
    · rw [halone _ htext hne] at hown
      have hend : (piecesOf base.text.toList).getLast? ≠ some "" := by
        intro hempty
        rcases Path.eq_nil_or_slash_of_getLast? rfl hempty with hnil | hslash
        · exact hne (by rw [← htext, hnil])
        · exact hlast (by rw [← htext, hslash])
      rw [← getLast?_origin [] base, halone _ htext hne, hown] at hend
      rw [segmentsOf, segments_of_piecesOf hend, ← hown]
    · rw [hslash _ _ htext] at hown
      rw [segmentsOf, segments_append pieces hown.symm]
      exact List.append_nil _
  rw [segmentsOf, segments_append pieces hpieces.symm, hsame]

theorem isAbsolute_joinText_iff (h : base.text ≠ "") (hlevel : ¬(Path.mk level).isAbsolute) :
    (base.joinText level).isAbsolute = true ↔ base.isAbsolute = true := by
  rw [Path.isAbsolute_iff_mem, Path.isAbsolute_iff_mem, Path.components_joinText h hlevel,
    List.mem_append]
  exact or_iff_left fun hroot => nomatch Path.isStep_of_mem hroot

theorem startOf_joinText (h : base.text ≠ "") (hlevel : ¬(Path.mk level).isAbsolute) :
    startOf (base.joinText level) = startOf base := by
  unfold startOf
  simp only [isAbsolute_joinText_iff h hlevel]

theorem slash_of_segmentsOf {text : String} (h : text ∈ segmentsOf path) : '/' ∉ text.toList :=
  Path.not_mem_of_mem_piecesOf (mem_piecesOf_of_segments h)

theorem mapM_readPiece_plain {texts : List String}
    (h : ∀ text ∈ texts, ∀ c ∈ text.toList, isPlainChar c = true) :
    texts.mapM readPiece = .ok (texts.map .text) := by
  induction texts with
  | nil => rfl
  | cons text texts ih =>
      rw [List.mapM_cons, readPiece_plain (h text List.mem_cons_self),
        ih fun other hother => h other (List.mem_cons_of_mem text hother)]
      rfl

/-- The texts of a base without wildcards are read as they are. -/
theorem mapM_readPiece_segmentsOf (hplain : ∀ c ∈ base.text.toList, isPlainChar c = true) :
    (segmentsOf base).mapM readPiece = .ok ((segmentsOf base).map .text) := by
  refine mapM_readPiece_plain fun text htext c hc => hplain c ?_
  have hmem := Path.mem_of_mem_piecesOf (mem_piecesOf_of_segments htext) hc
  split at hmem
  · rename_i habsolute
    rw [Path.text_eq habsolute]
    exact List.mem_cons_of_mem '/' hmem
  · exact hmem

/-- A pattern behind a base without wildcards passes the check if it does alone. -/
theorem isSome_tokensOf_joinText (h : base.text ≠ "")
    (hplain : ∀ c ∈ base.text.toList, isPlainChar c = true)
    (hlevel : ¬(Path.mk level).isAbsolute) :
    (tokensOf (base.joinText level).text).toOption.isSome =
      (tokensOf level).toOption.isSome := by
  obtain ⟨front, hjoined, hbase⟩ := Path.exists_text_joinText h hlevel
  have hfront : ∀ c ∈ front, isPlainChar c = true := by
    intro c hc
    apply hplain
    rcases hbase with ⟨htext, -⟩ | htext
    · rwa [htext]
    · rw [htext]
      exact List.mem_append_left _ hc
  rw [tokensOf, hjoined, toOption_readTokens_append hfront, Option.isSome_map]
  rfl

/-- **A pattern behind a base** without wildcards is read as it is alone; the base makes up texts
before its pieces. -/
theorem ofText_joinText (h : base.text ≠ "") (hplain : ∀ c ∈ base.text.toList, isPlainChar c = true)
    (hlevel : ¬(Path.mk level).isAbsolute) :
    (PathPattern.ofText (base.joinText level).text).toOption =
      (PathPattern.ofText level).toOption.map fun pattern =>
        ⟨startOf base, (segmentsOf base).map .text ++ pattern.pieces⟩ := by
  have htokens := isSome_tokensOf_joinText h hplain hlevel
  rw [ofText_eq, ofText_eq, segmentsOf_relative hlevel, segmentsOf_joinText h hlevel,
    startOf_joinText h hlevel, List.mapM_append, mapM_readPiece_segmentsOf hplain]
  cases hcheck : tokensOf level with
  | error cause =>
      rw [hcheck] at htokens
      cases hjoin : tokensOf (base.joinText level).text with
      | error other => rfl
      | ok tokens =>
          rw [hjoin] at htokens
          cases htokens
  | ok tokens =>
      rw [hcheck] at htokens
      cases hjoin : tokensOf (base.joinText level).text with
      | error other =>
          rw [hjoin] at htokens
          cases htokens
      | ok others =>
          cases hpieces : (segments level.toList).mapM readPiece with
          | error cause => rfl
          | ok pieces =>
              show some (PathPattern.mk _ (collapse (_ ++ pieces))) = _
              rw [collapse_texts]
              rfl

/-- A pattern that passes the check can be read if all its pieces can. -/
theorem exists_ofText {tokens : List Token} (h : tokensOf level = .ok tokens)
    (hpieces : ∀ segment ∈ segmentsOf ⟨level⟩, ∃ tokens, tokensOf segment = .ok tokens) :
    ∃ pattern, PathPattern.ofText level = .ok pattern := by
  have hread : ∀ segment ∈ segmentsOf ⟨level⟩, ∃ piece, readPiece segment = .ok piece := by
    intro segment hsegment
    obtain ⟨tokens, htokens⟩ := hpieces segment hsegment
    exact ⟨_, map_eq_ok.2 ⟨tokens, htokens, rfl⟩⟩
  obtain ⟨pieces, hmap⟩ := exists_mapM_iff.2 hread
  rw [ofText_eq, h, hmap]
  exact ⟨_, rfl⟩

end Paths

end Glob

end KeysetBundle
