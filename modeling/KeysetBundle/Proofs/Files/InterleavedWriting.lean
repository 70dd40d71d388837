import KeysetBundle.Proofs.Files.Interleaving
import KeysetBundle.Proofs.Files.Refusal

/-!
# Writing a file during edits

A file is written in several requests, and inputs may be edited between them.
As long as the file and its neighbour are no inputs themselves, this has no
part in what becomes of the file; and as the requests spare the inputs, what is
known of them stays known.

Main results.

- `asks_writeWhole`: writing a file spares the inputs.
- `held_of_writeWhole`, `get?_of_writeWhole_error`: what becomes of the file.
-/

namespace KeysetBundle.Files

open Program (asks_bind asks_pure asks_request)

variable {input : Location → Prop} {seen : FileTree → Prop} {path : Path} {world last : World}
  {log : List Event} (habsolute : path.isAbsolute) (hplace : ¬input (place path))
  (hspare : ¬input (place (neighbour path)))

/-! ## Requests that spare the inputs -/

theorem spares_createFolders {parent : Path} (habsolute : parent.isAbsolute) :
    Spares input (.createFolders parent) := by
  intro world
  have hgrown := FileTree.createFolders_made world.tree world.current habsolute
  refine ⟨rfl, fun location hfolder => ?_, fun location bytes mtime _ hfile => ?_⟩
  · rcases hgrown location with heq | ⟨hnone, -⟩
    · exact heq.trans hfolder
    · rw [hnone] at hfolder
      cases hfolder
  · rcases hgrown location with heq | ⟨hnone, -⟩
    · exact heq.trans hfile
    · rw [hnone] at hfile
      cases hfile

include habsolute in
theorem asks_makeWay : (makeWay path).Asks (Spares input) := by
  unfold makeWay
  split
  · rename_i parent hparent
    split
    · exact asks_pure _
    · exact asks_request (spares_createFolders (Path.steps_parent habsolute hparent).1)
  · exact asks_pure _

include habsolute hspare in
theorem spares_writeText (text : String) : Spares input (.writeText (neighbour path) text) := by
  intro world
  simp only [World.answer]
  split
  · rename_i tree hwrite
    obtain ⟨hne, rfl, hfree, -⟩ := FileTree.write_eq_ok (isAbsolute_neighbour habsolute) hwrite
    refine ⟨rfl, fun location => FileTree.get?_set_folder hne hfree,
      fun location bytes mtime hinput hfile => ?_⟩
    dsimp only
    rw [FileTree.get?_set _ hne, if_neg]
    · exact hfile
    · rintro rfl
      exact hspare hinput
  · exact .of_tree rfl rfl

include habsolute hplace hspare in
theorem spares_rename : Spares input (.rename (neighbour path) path) := by
  intro world
  simp only [World.answer, World.change]
  split
  · rename_i tree hrename
    obtain ⟨bytes, mtime, hmoved, hne, hne', hfree, rfl, -⟩ :=
      FileTree.rename_eq_ok (isAbsolute_neighbour habsolute) habsolute hrename
    refine ⟨rfl, fun location hfolder => ?_, fun location _ _ hinput hfile => ?_⟩
    · dsimp only
      rw [FileTree.get?_set _ hne', FileTree.get?_erase _ hne, if_neg, if_neg]
      · exact hfolder
      · rintro rfl
        rw [hmoved] at hfolder
        cases hfolder
      · rintro rfl
        exact hfree hfolder
    · dsimp only
      rw [FileTree.get?_set _ hne', FileTree.get?_erase _ hne, if_neg, if_neg]
      · exact hfile
      · rintro rfl
        exact hspare hinput
      · rintro rfl
        exact hplace hinput
  · exact .of_tree rfl rfl

include habsolute hspare in
theorem spares_removeFile : Spares input (.removeFile (neighbour path)) := by
  intro world
  simp only [World.answer, World.change]
  split
  · rename_i tree hremove
    obtain ⟨hne, hfree, rfl⟩ :=
      FileTree.removeFile_eq_ok (isAbsolute_neighbour habsolute) hremove
    refine ⟨rfl, fun location hfolder => ?_, fun location _ _ hinput hfile => ?_⟩
    · dsimp only
      rw [FileTree.get?_erase _ hne, if_neg]
      · exact hfolder
      · rintro rfl
        exact hfree hfolder
    · dsimp only
      rw [FileTree.get?_erase _ hne, if_neg]
      · exact hfile
      · rintro rfl
        exact hspare hinput
  · exact .of_tree rfl rfl

include habsolute hplace hspare in
/-- **Writing a file spares the inputs.** -/
theorem asks_writeWhole (text : String) : (writeWhole path text).Asks (Spares input) := by
  rw [writeWhole_eq]
  refine asks_bind (asks_makeWay habsolute) fun made => ?_
  cases made with
  | error failure => exact asks_pure _
  | ok made =>
      refine asks_bind (asks_request (spares_writeText habsolute hspare text)) fun written => ?_
      cases (written : Except Failure Unit) with
      | error failure => exact asks_pure _
      | ok written =>
          refine asks_bind (asks_request (spares_rename habsolute hplace hspare)) fun moved => ?_
          cases (moved : Except Failure Unit) with
          | ok moved => exact asks_pure _
          | error failure =>
              exact asks_bind (asks_request (spares_removeFile habsolute hspare))
                fun _ => asks_pure _

/-! ## What becomes of the file -/

include habsolute hplace hspare in
/-- A file that was written holds its text, whatever inputs are edited in the meantime. -/
theorem held_of_writeWhole {text : String}
    (h : Interleaved input seen (writeWhole path text) world log (.ok ()) last) :
    ∃ mtime, last.tree.get? (place path) = some (.file text.toUTF8 mtime) := by
  rw [writeWhole_eq] at h
  obtain ⟨made, between, first, rest, rfl, -, h⟩ := h.bind_inv
  cases made with
  | error failure => cases h.result_of_done
  | ok made =>
      unfold replaceFile writeText rename at h
      obtain ⟨writing, second, rest, rfl, -, -, h⟩ := h.request_inv
      simp only [World.answer] at h
      cases hwrite : writing.tree.write writing.current (neighbour path) text.toUTF8
          writing.clock with
      | error failure =>
          rw [hwrite] at h
          cases h.result_of_done
      | ok tree =>
          obtain ⟨hne, rfl, -⟩ := FileTree.write_eq_ok (isAbsolute_neighbour habsolute) hwrite
          rw [hwrite] at h
          dsimp only at h
          obtain ⟨moving, third, rest, rfl, hedits, -, h⟩ := h.request_inv
          -- the neighbour is not edited
          have hspared := hedits.get?_of_leaves (asks_pure _) hspare
          dsimp only at hspared
          rw [FileTree.get?_set _ hne, if_pos rfl] at hspared
          simp only [World.answer, World.change] at h
          cases hrename : moving.tree.rename moving.current (neighbour path) path with
          | error failure =>
              rw [hrename] at h
              unfold removeFile at h
              obtain ⟨_, _, _, _, -, -, h⟩ := h.request_inv
              cases h.result_of_done
          | ok tree =>
              obtain ⟨bytes, mtime, hmoved, -, hne', -, rfl, -⟩ :=
                FileTree.rename_eq_ok (isAbsolute_neighbour habsolute) habsolute hrename
              rw [hspared] at hmoved
              cases hmoved
              rw [hrename] at h
              refine ⟨writing.clock, (h.get?_of_leaves (asks_pure _) hplace).trans ?_⟩
              dsimp only
              rw [FileTree.get?_set _ hne', if_pos rfl]

include habsolute hplace in
theorem get?_of_makeWay {made : Except Failure Unit}
    (hway : world.tree.get? (place path) = none → ¬OnWay path (place path))
    (h : Interleaved input seen (makeWay path) world log made last) :
    last.tree.get? (place path) = world.tree.get? (place path) := by
  refine h.keeps (P := fun now => now.tree.get? (place path) = world.tree.get? (place path))
    ?_ (fun now location tree hinput hedit hnow => ?_) rfl
  · unfold makeWay
    split
    · rename_i parent hparent
      split
      · exact asks_pure _
      · refine asks_request fun now hnow => ?_
        rcases FileTree.createFolders_made now.tree now.current
          (Path.steps_parent habsolute hparent).1 (place path) with heq | ⟨hnone, -, hmade⟩
        · exact heq.trans hnow
        · exact absurd (onWay_of_parent habsolute hparent hmade) (hway (hnow.symm.trans hnone))
    · exact asks_pure _
  · have hother : place path ≠ location := by
      rintro rfl
      exact hplace hinput
    exact (hedit.elsewhere _ hother).trans hnow

include habsolute hplace in
/-- A file that could not be written is as it was before. -/
theorem get?_of_writeWhole_error {text : String} {failure : Failure}
    (hway : world.tree.get? (place path) = none → ¬OnWay path (place path))
    (h : Interleaved input seen (writeWhole path text) world log (.error failure) last) :
    last.tree.get? (place path) = world.tree.get? (place path) := by
  have hne := place_neighbour_ne_self habsolute
  rw [writeWhole_eq] at h
  obtain ⟨made, between, first, rest, rfl, hmade, h⟩ := h.bind_inv
  rw [← get?_of_makeWay habsolute hplace hway hmade]
  cases made with
  | error failure => exact h.get?_of_leaves (asks_pure _) hplace
  | ok made =>
      unfold replaceFile writeText rename at h
      obtain ⟨writing, second, rest, rfl, hbefore, -, h⟩ := h.request_inv
      rw [← hbefore.get?_of_leaves (asks_pure _) hplace]
      simp only [World.answer] at h
      cases hwrite : writing.tree.write writing.current (neighbour path) text.toUTF8
          writing.clock with
      | error failure =>
          rw [hwrite] at h
          exact h.get?_of_leaves (asks_pure _) hplace
      | ok tree =>
          obtain ⟨hnil, rfl, -⟩ := FileTree.write_eq_ok (isAbsolute_neighbour habsolute) hwrite
          rw [hwrite] at h
          dsimp only at h
          obtain ⟨moving, third, rest, rfl, hedits, -, h⟩ := h.request_inv
          have hsame := hedits.get?_of_leaves (asks_pure _) hplace
          dsimp only at hsame
          rw [FileTree.get?_set _ hnil, if_neg hne.symm] at hsame
          rw [← hsame]
          simp only [World.answer, World.change] at h
          cases hrename : moving.tree.rename moving.current (neighbour path) path with
          | ok tree =>
              rw [hrename] at h
              cases h.result_of_done
          | error failure =>
              rw [hrename] at h
              unfold removeFile at h
              obtain ⟨removing, fourth, rest, rfl, hedits, -, h⟩ := h.request_inv
              rw [← hedits.get?_of_leaves (asks_pure _) hplace]
              refine (h.get?_of_leaves (asks_pure _) hplace).trans ?_
              simp only [World.answer, World.change]
              cases hremove : removing.tree.removeFile removing.current (neighbour path) with
              | error failure => rfl
              | ok tree =>
                  obtain ⟨-, -, rfl⟩ :=
                    FileTree.removeFile_eq_ok (isAbsolute_neighbour habsolute) hremove
                  dsimp only
                  rw [FileTree.get?_erase _ hnil, if_neg hne.symm]

end KeysetBundle.Files
