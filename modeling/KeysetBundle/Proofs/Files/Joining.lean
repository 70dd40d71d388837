import KeysetBundle.Proofs.Files.Atomic
import KeysetBundle.Proofs.Path.Components

/-!
# Names joined to paths

A name that is joined to a path leads into the folder to which the path leads,
whether the path is absolute or not and however it is spelled
(`locate_joinText`).  If a path ends in a name, then so does the location to
which it leads (`getLast?_of_locate`); a path that ends in `..` leads to a
location of which its spelling does not say the name.
-/

namespace KeysetBundle.Files

open KeysetBundle.Path (Component isIdle piecesOf stepsOf)

/-! ## Spellings -/

theorem origin_of_slash {current : Location} {path : Path} {rest : List Char}
    (h : path.text.toList = '/' :: rest) : origin current path = ([], piecesOf rest) := by
  rw [origin, if_pos (Path.isAbsolute_of_text rest h), Path.body_of_text h]

theorem origin_of_relative (current : Location) {path : Path}
    (h : ∀ rest, path.text.toList ≠ '/' :: rest) :
    origin current path = (current, piecesOf path.text.toList) := by
  rw [origin, if_neg]
  intro habsolute
  exact h _ (Path.text_eq habsolute)

/-- Where the way along a path starts, and its first pieces, from what stands before a slash. -/
theorem exists_origin (current : Location) (front : List Char) : ∃ start pieces,
    (∀ path rest, path.text.toList = front ++ '/' :: rest →
      origin current path = (start, pieces ++ piecesOf rest)) ∧
    ∀ path, path.text.toList = front → front ≠ [] → origin current path = (start, pieces) := by
  cases front with
  | nil => exact ⟨[], [], fun path rest => origin_of_slash, fun _ _ hne => absurd rfl hne⟩
  | cons c front =>
      by_cases hc : c = '/'
      · subst hc
        refine ⟨[], piecesOf front, fun path rest htext => ?_, fun path htext _ => ?_⟩
        · rw [origin_of_slash htext]
          exact congrArg (([] : Location), ·) (Path.piecesOf_append_slash front rest)
        · exact origin_of_slash htext
      · have hrelative : ∀ (rest after : List Char), c :: rest ≠ '/' :: after :=
          fun rest after heq => hc (List.cons.inj heq).1
        refine ⟨current, piecesOf (c :: front), fun path rest htext => ?_, fun path htext _ => ?_⟩
        · rw [origin_of_relative current (by rw [htext]; exact hrelative _), htext,
            Path.piecesOf_append_slash]
        · rw [origin_of_relative current (by rw [htext]; exact hrelative _), htext]

/-! ## Ways -/

namespace FileTree

variable {tree : FileTree} {current folder location : Location} {path : Path} {name : String}

/-- A relative text leads on from where the path leads. -/
theorem locate_joinText_of_relative (h : tree.locate current path = .ok location) {text : String}
    (htext : ¬(Path.mk text).isAbsolute) :
    tree.locate current (path.joinText text) =
      (piecesOf text.toList).foldlM tree.step location := by
  have hne := text_ne_of_locate h
  obtain ⟨front, hjoined, hpath⟩ := Path.exists_text_joinText hne htext
  obtain ⟨start, pieces, hslash, halone⟩ := exists_origin current front
  have hjoinedNe : (path.joinText text).text ≠ "" := by
    intro hempty
    rw [hempty] at hjoined
    simp at hjoined
  rw [locate_eq _ _ hne] at h
  rw [locate_eq _ _ hjoinedNe, hslash _ _ hjoined, List.foldlM_append]
  rcases hpath with ⟨hpath, hfront, -⟩ | hpath
  · rw [halone _ hpath hfront] at h
    rw [h]
    rfl
  · rw [hslash _ _ hpath, List.foldlM_append] at h
    obtain ⟨middle, hlead, hlast⟩ := bind_eq_ok.1 h
    -- a slash at the end of the path stays where it is
    have hmiddle : location = middle := (walk_eq_ok hlast).1
    rw [hlead, hmiddle]
    rfl

/-- A name leads on into a folder. -/
theorem locate_joinText (h : tree.locate current path = .ok folder)
    (hfolder : tree.get? folder = some .folder) (hname : Path.IsName name) :
    tree.locate current (path.joinText name) = .ok (folder ++ [name]) := by
  rw [locate_joinText_of_relative h hname.not_isAbsolute, Path.piecesOf_of_not_mem hname.noSlash,
    List.foldlM_cons, step_of_name hfolder hname.component]
  rfl

/-- A path that ends in a name leads to a location with this name. -/
theorem getLast?_of_locate (h : tree.locate current path = .ok location)
    (hname : path.fileName? = some name) : location.getLast? = some name := by
  rw [locate_eq _ _ (text_ne_of_locate h)] at h
  obtain ⟨rfl, -⟩ := walk_eq_ok h
  obtain ⟨lead, hcomponents⟩ := components_origin current path
  unfold Path.fileName? at hname
  split at hname
  · rename_i text hlast
    cases hname
    rw [hcomponents, List.getLast?_append] at hlast
    cases hsteps : (stepsOf (origin current path).2).getLast? with
    | none =>
        rw [hsteps] at hlast
        cases lead <;> nomatch hlast
    | some component =>
        rw [hsteps] at hlast
        cases hlast
        obtain ⟨front, hfront⟩ := List.getLast?_eq_some_iff.1 hsteps
        rw [hfront, List.foldl_append]
        exact List.getLast?_concat
  · cases hname

end FileTree

end KeysetBundle.Files
