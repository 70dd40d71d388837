import KeysetBundle.Proofs.Files.ModuleCache
import KeysetBundle.Proofs.Files.SideBySide
import KeysetBundle.Proofs.Files.Spelling

/-!
# Modules that are read anew side by side

Whoever reads a module anew drops it from the module cache first, and so wants
to have what the file holds now.  With several programs at once this can fail:
between the drop and the look-up another program may put a text into the cache
that it read before.  So a text that is given is one that the file had at or
after the drop, or one that another program was holding at the drop
(`Reloads.seen_or_held`).

Main results.

- `Reloads.seen`: if all texts that are held at the drop are what the file has,
  then the text that is given is one that the file had since.
- `observes_iff`: else there is a run in which it is not.
-/

namespace KeysetBundle.Files

variable {paths : List Path} {i : Nat} {path other : Path} {text : String} {known : String → Prop}
  {stage next : Stage} {world after : World} {crew : Crew (Except Failure String)}
  {moments : List World}

/-! ## What is known of a stage -/

namespace Stage

/-- A text that is held is known. -/
def Holds (known : String → Prop) : Stage → Prop
  | .holding text => known text
  | _ => True

/-- A text that is given is known. -/
def Gives (known : String → Prop) : Stage → Prop
  | .ended (.ok text) => known text
  | _ => True

theorem Holds.mono {more : String → Prop} (h : stage.Holds known)
    (hmore : ∀ text, known text → more text) : stage.Holds more := by
  cases stage with
  | holding text => exact hmore text h
  | waiting => trivial
  | dropped => trivial
  | missed => trivial
  | ended result => trivial

theorem Gives.mono {more : String → Prop} (h : stage.Gives known)
    (hmore : ∀ text, known text → more text) : stage.Gives more := by
  cases stage with
  | ended result =>
      cases result with
      | ok text => exact hmore text h
      | error failure => trivial
  | waiting => trivial
  | dropped => trivial
  | missed => trivial
  | holding text => trivial

namespace Moves

/-- What is read is held. -/
theorem holds (h : Moves other world stage after next)
    (hread : ∀ text, world.tree.readText world.current other = .ok text → known text) :
    next.Holds known := by
  cases h with
  | read htext => exact hread _ htext
  | drop => trivial
  | hit => trivial
  | miss => trivial
  | fail => trivial
  | store => trivial

/-- What is given comes from the cache or was held. -/
theorem gives (h : Moves other world stage after next)
    (hcached : ∀ text, world.modules.get? other = some text → known text)
    (hholds : stage.Holds known) : next.Gives known := by
  cases h with
  | hit htext => exact hcached _ htext
  | store => exact hholds
  | drop => trivial
  | miss => trivial
  | read => trivial
  | fail => trivial

/-- What the cache has for a path was there before or was held for one of its spellings. -/
theorem cached (h : Moves other world stage after next)
    (hcached : ∀ text, world.modules.get? path = some text → known text)
    (hholds : other.same path = true → stage.Holds known) :
    ∀ text, after.modules.get? path = some text → known text := by
  cases h with
  | drop =>
      intro text htext
      dsimp only at htext
      rw [ModuleCache.get?_drop] at htext
      split at htext
      · cases htext
      · exact hcached text htext
  | store held =>
      intro text htext
      dsimp only at htext
      rw [ModuleCache.get?_put] at htext
      split at htext
      · rename_i hsame
        cases htext
        exact hholds hsame
      · exact hcached text htext
  | hit => exact hcached
  | miss => exact hcached
  | read => exact hcached
  | fail => exact hcached

end Moves

end Stage

/-! ## Programs and their stages -/

/-- Each program of a crew reads the module of its path anew and has got to some stage. -/
def Staged (paths : List Path) (good : Nat → Path → Stage → Prop)
    (crew : Crew (Except Failure String)) : Prop :=
  ∀ j program, crew.programs[j]? = some program → ∃ other stage,
    paths[j]? = some other ∧ program = Stage.program other stage ∧ good j other stage

theorem staged_start (paths : List Path) (world : World) :
    Staged paths (fun _ _ stage => stage = .waiting) ⟨world, paths.map reload⟩ := by
  intro j program hprogram
  rw [List.getElem?_map, Option.map_eq_some_iff] at hprogram
  obtain ⟨other, hother, rfl⟩ := hprogram
  exact ⟨other, .waiting, hother, rfl, rfl⟩

theorem Staged.mono {good better : Nat → Path → Stage → Prop} (h : Staged paths good crew)
    (hbetter : ∀ j other stage, good j other stage → better j other stage) :
    Staged paths better crew := by
  intro j program hprogram
  obtain ⟨other, stage, hother, hstage, hgood⟩ := h j program hprogram
  exact ⟨other, stage, hother, hstage, hbetter _ _ _ hgood⟩

/-- What a turn does to a crew of such programs. -/
theorem Staged.turn {good : Nat → Path → Stage → Prop} {j : Nat}
    {first second : Crew (Except Failure String)} (h : Staged paths good first)
    (hturn : Crew.Turn j first second) :
    ∃ other stage world next, paths[j]? = some other ∧ good j other stage ∧
      Stage.Moves other first.world stage world next ∧
      second = ⟨world, first.programs.set j (next.program other)⟩ := by
  have hprogram : ∃ program, first.programs[j]? = some program := by
    cases hturn with
    | answered _ hprogram => exact ⟨_, hprogram⟩
  obtain ⟨program, hprogram⟩ := hprogram
  obtain ⟨other, stage, hother, rfl, hgood⟩ := h j program hprogram
  obtain ⟨world, next, hmoves, rfl⟩ := Crew.moves_of_turn hprogram hturn
  exact ⟨other, stage, world, next, hother, hgood, hmoves, rfl⟩

/-- A program has its turn, and the others are as they were. -/
theorem Staged.set {good : Nat → Path → Stage → Prop} {j : Nat} (h : Staged paths good crew)
    (hother : paths[j]? = some other) (hgood : good j other next) (world : World) :
    Staged paths good ⟨world, crew.programs.set j (next.program other)⟩ := by
  intro k program hprogram
  rw [List.getElem?_set] at hprogram
  split at hprogram
  · rename_i hjk
    subst hjk
    split at hprogram
    · cases hprogram
      exact ⟨other, next, hother, rfl, hgood⟩
    · cases hprogram
  · exact h k program hprogram

/-- Programs stay at stages. -/
theorem Staged.run {first last : Crew (Except Failure String)}
    (h : Staged paths (fun _ _ _ => True) first) (hrun : Crew.Run first moments last) :
    Staged paths (fun _ _ _ => True) last := by
  refine hrun.keeps (fun _ => True) (fun before after hstep _ hbefore => ?_)
    (fun _ _ => trivial) h
  cases hstep with
  | edit => exact hbefore
  | turn hturn =>
      obtain ⟨other, stage, world, next, hother, -, -, rfl⟩ := hbefore.turn hturn
      exact hbefore.set hother trivial world

/-! ## From the drop on -/

/-- The texts for a path that the cache has, that programs hold and that the program at one place
has given are all known. -/
structure Traced (paths : List Path) (i : Nat) (path : Path) (known : String → Prop)
    (crew : Crew (Except Failure String)) : Prop where
  /-- The texts in the cache. -/
  cached : ∀ text, crew.world.modules.get? path = some text → known text
  /-- The texts of the programs. -/
  staged : Staged paths (fun j other stage =>
    (other.same path = true → stage.Holds known) ∧ (j = i → stage.Gives known)) crew

theorem Traced.mono {more : String → Prop} (h : Traced paths i path known crew)
    (hmore : ∀ text, known text → more text) : Traced paths i path more crew := by
  refine ⟨fun text htext => hmore text (h.cached text htext), ?_⟩
  exact h.staged.mono fun j other stage hgood =>
    ⟨fun hsame => (hgood.1 hsame).mono hmore, fun hj => (hgood.2 hj).mono hmore⟩

/-- A step brings in only what the file has. -/
theorem Traced.step {before after : Crew (Except Failure String)}
    (h : Traced paths i path known before) (hstep : Crew.Step before after)
    (hpath : paths[i]? = some path) (htrimmed : ∀ other ∈ paths, other.isTrimmed = true)
    (hread : ∀ text, before.world.tree.readText before.world.current path = .ok text →
      known text) : Traced paths i path known after := by
  cases hstep with
  | edit => exact ⟨h.cached, h.staged⟩
  | @turn j _ _ hturn =>
      obtain ⟨other, stage, world, next, hother, ⟨hholds, -⟩, hmoves, rfl⟩ := h.staged.turn hturn
      refine ⟨hmoves.cached h.cached hholds, h.staged.set hother ⟨fun hsame => ?_, ?_⟩ world⟩
      · refine hmoves.holds fun text htext => hread text ?_
        rw [← htext]
        exact FileTree.readText_of_same _ _ (htrimmed _ (List.mem_of_getElem? hpath))
          (htrimmed _ (List.mem_of_getElem? hother)) (Path.same_symm hsame)
      · rintro rfl
        cases Option.some.inj (hpath.symm.trans hother)
        exact hmoves.gives h.cached (hholds (Path.same_refl path))

/-! ## Reloads -/

/-- A run of programs that read modules anew, in which the one at place `i` gives a text for its
path. Up to `now` this program has not begun; then it drops the module, and the moments are those
since. -/
structure Reloads (paths : List Path) (i : Nat) (path : Path) (text : String)
    (now : Crew (Except Failure String)) (moments : List World) : Prop where
  /-- The program has the path. -/
  place : paths[i]? = some path
  /-- What happens before. -/
  before : ∃ world earlier, Crew.Run ⟨world, paths.map reload⟩ earlier now
  /-- The program has not begun. -/
  waiting : now.programs[i]? = some (reload path)
  /-- What happens from the drop on. -/
  since : ∃ dropped later last, Crew.Turn i now dropped ∧ Crew.Run dropped later last ∧
    last.programs[i]? = some (.done (.ok text)) ∧ moments = dropped.world :: later

/-- The file has the text at one of the moments. -/
def SeenIn (moments : List World) (path : Path) (text : String) : Prop :=
  ∃ moment ∈ moments, moment.tree.readText moment.current path = .ok text

/-- A program has read the text for a spelling of the path and has not put it into the cache. -/
def HeldIn (paths : List Path) (now : Crew (Except Failure String)) (path : Path)
    (text : String) : Prop :=
  ∃ (j : Nat) (other : Path), paths[j]? = some other ∧ other.same path = true ∧
    now.programs[j]? = some (storing other text)

variable {now : Crew (Except Failure String)}

theorem eq_of_ended {result : Except Failure String}
    (h : Program.done result = Stage.program path stage) : stage = .ended result := by
  cases stage with
  | ended found =>
      cases h
      rfl
  | waiting => cases h
  | dropped =>
      rw [Stage.program_dropped] at h
      cases h
  | missed =>
      rw [Stage.program_missed] at h
      cases h
  | holding held => cases h

/-- Before the drop the texts that programs hold are held, and the program has given none. -/
theorem Reloads.staged (h : Reloads paths i path text now moments) :
    Staged paths (fun j other stage =>
      (other.same path = true → stage.Holds (HeldIn paths now path)) ∧
        (j = i → stage.Gives (HeldIn paths now path))) now := by
  obtain ⟨world, earlier, hbefore⟩ := h.before
  have hnow := ((staged_start paths world).mono fun _ _ _ _ => trivial).run hbefore
  intro j program hprogram
  by_cases hj : j = i
  · subst hj
    cases Option.some.inj (h.waiting.symm.trans hprogram)
    exact ⟨path, .waiting, h.place, rfl, fun _ => trivial, fun _ => trivial⟩
  · obtain ⟨other, stage, hother, rfl, -⟩ := hnow j program hprogram
    refine ⟨other, stage, hother, rfl, fun hsame => ?_, fun hji => absurd hji hj⟩
    cases stage with
    | holding held => exact ⟨j, other, hother, hsame, hprogram⟩
    | waiting => trivial
    | dropped => trivial
    | missed => trivial
    | ended result => trivial

/-- The drop leaves the files as they are, and then only held texts are known. -/
theorem Reloads.traced (h : Reloads paths i path text now moments)
    {dropped : Crew (Except Failure String)} (hdrop : Crew.Turn i now dropped) :
    dropped.world.tree = now.world.tree ∧ dropped.world.current = now.world.current ∧
      Traced paths i path (HeldIn paths now path) dropped := by
  have hwaiting : now.programs[i]? = some (Stage.waiting.program path) := h.waiting
  obtain ⟨world, stage, hmoves, rfl⟩ := Crew.moves_of_turn hwaiting hdrop
  cases hmoves with
  | drop =>
      refine ⟨rfl, rfl, fun text htext => ?_, h.staged.set h.place ?_ _⟩
      · dsimp only at htext
        rw [ModuleCache.get?_drop, if_pos (Path.same_refl path)] at htext
        cases htext
      · exact ⟨fun _ => trivial, fun _ => trivial⟩

/-- **A text that is given** is one that the file had at or after the drop, or one that was held
then. -/
theorem Reloads.seen_or_held (h : Reloads paths i path text now moments)
    (htrimmed : ∀ other ∈ paths, other.isTrimmed = true) :
    SeenIn moments path text ∨ HeldIn paths now path text := by
  obtain ⟨dropped, later, last, hdrop, hsince, hlast, rfl⟩ := h.since
  obtain ⟨-, -, hstart⟩ := h.traced hdrop
  have hend : Traced paths i path (fun text =>
      SeenIn (dropped.world :: later) path text ∨ HeldIn paths now path text) last := by
    refine hsince.keeps (fun moment => moment ∈ dropped.world :: later)
      (fun before after hstep hmoment hbefore => ?_) (fun moment hmoment => hmoment)
      (hstart.mono fun _ => .inr)
    exact hbefore.step hstep h.place htrimmed fun text htext => .inl ⟨_, hmoment, htext⟩
  obtain ⟨other, stage, hother, hprogram, -, hgives⟩ := hend.staged i _ hlast
  rw [eq_of_ended hprogram] at hgives
  exact hgives rfl

/-- A turn in front of a run. -/
theorem Stage.Moves.run {j : Nat} {programs : List (Program (Except Failure String))}
    {last : Crew (Except Failure String)} (h : Stage.Moves path world stage after next)
    (hj : j < programs.length)
    (hrest : Crew.Run ⟨after, programs.set j (next.program path)⟩ moments last) :
    Crew.Run ⟨world, programs.set j (stage.program path)⟩ (after :: moments) last := by
  have hstage : (Crew.mk world (programs.set j (stage.program path))).programs[j]? =
      some (stage.program path) := List.getElem?_set_self hj
  have hturn := Crew.turn_of_moves hstage h
  rw [List.set_set] at hturn
  exact .step (.turn hturn) hrest

/-- A program can go on until it holds what its file has. -/
theorem run_storing {j : Nat} (world : World) (hother : paths[j]? = some other)
    (hread : world.tree.readText world.current other = .ok text) :
    ∃ moments, Crew.Run ⟨world, paths.map reload⟩ moments
      ⟨{ world with modules := world.modules.drop other },
        (paths.map reload).set j (storing other text)⟩ := by
  obtain ⟨hlength, rfl⟩ := List.getElem?_eq_some_iff.1 hother
  have hj : j < (paths.map reload).length := by
    rw [List.length_map]
    exact hlength
  have hwaiting : (paths.map reload).set j (Stage.waiting.program paths[j]) =
      paths.map reload := by
    refine (congrArg _ ?_).trans (List.set_getElem_self hj)
    exact (List.getElem_map reload).symm
  let cleared : World := { world with modules := world.modules.drop paths[j] }
  have hmiss : cleared.modules.get? paths[j] = none := by
    rw [ModuleCache.get?_drop, if_pos (Path.same_refl _)]
  have hhold : Stage.Moves paths[j] cleared .missed cleared (.holding text) := .read hread
  have hrun := (Stage.Moves.drop world).run hj
    ((Stage.Moves.miss hmiss).run hj (hhold.run hj (.done _)))
  rw [hwaiting] at hrun
  exact ⟨_, hrun⟩

/-- A text that is held at the drop can come between the drop and the look-up. -/
theorem reloads_of_held (hplace : paths[i]? = some path)
    (hbefore : ∃ world earlier, Crew.Run ⟨world, paths.map reload⟩ earlier now)
    (hwaiting : now.programs[i]? = some (reload path)) (hheld : HeldIn paths now path text) :
    ∃ moments, Reloads paths i path text now moments ∧
      ∀ moment ∈ moments, moment.tree = now.world.tree ∧ moment.current = now.world.current := by
  obtain ⟨j, other, hother, hsame, hholding⟩ := hheld
  have hji : j ≠ i := by
    rintro rfl
    cases Option.some.inj (hholding.symm.trans hwaiting)
  obtain ⟨world, programs⟩ := now
  obtain ⟨hlength, -⟩ := List.getElem?_eq_some_iff.1 hwaiting
  have hfirst : (Crew.mk world programs).programs[i]? = some (Stage.waiting.program path) :=
    hwaiting
  have hdrop := Crew.turn_of_moves hfirst (.drop world)
  have hsecond : (Crew.mk { world with modules := world.modules.drop path }
      (programs.set i (Stage.dropped.program path))).programs[j]? =
        some ((Stage.holding text).program other) :=
    (List.getElem?_set_ne hji.symm).trans hholding
  have hstore := Crew.turn_of_moves hsecond (.store _ text)
  have hthird : (Crew.mk { world with modules := (world.modules.drop path).put other text }
      ((programs.set i (Stage.dropped.program path)).set j
        (Stage.program other (.ended (.ok text))))).programs[i]? =
        some (Stage.dropped.program path) :=
    (List.getElem?_set_ne hji).trans (List.getElem?_set_self hlength)
  have hhit := Crew.turn_of_moves hthird
    (.hit (by rw [ModuleCache.get?_put, if_pos hsame]))
  refine ⟨_, ⟨hplace, hbefore, hwaiting,
    _, _, _, hdrop, .step (.turn hstore) (.step (.turn hhit) (.done _)), ?_, rfl⟩, ?_⟩
  · refine List.getElem?_set_self ?_
    rw [List.length_set, List.length_set]
    exact hlength
  · intro moment hmoment
    simp only [List.mem_cons, List.not_mem_nil, or_false] at hmoment
    rcases hmoment with rfl | rfl | rfl <;> exact ⟨rfl, rfl⟩

/-- If it is an old text, it is given although the file has not had it since the drop. -/
theorem reloads_unseen (hplace : paths[i]? = some path)
    (hbefore : ∃ world earlier, Crew.Run ⟨world, paths.map reload⟩ earlier now)
    (hwaiting : now.programs[i]? = some (reload path)) (hheld : HeldIn paths now path text)
    (hold : now.world.tree.readText now.world.current path ≠ .ok text) :
    ∃ moments, Reloads paths i path text now moments ∧ ¬SeenIn moments path text := by
  obtain ⟨moments, hreloads, hsame⟩ := reloads_of_held hplace hbefore hwaiting hheld
  refine ⟨moments, hreloads, ?_⟩
  rintro ⟨moment, hmoment, hread⟩
  obtain ⟨htree, hcurrent⟩ := hsame moment hmoment
  rw [htree, hcurrent] at hread
  exact hold hread

/-- If all texts that are held at the drop are what the file has, then the text that is given is
one that the file had since. -/
theorem Reloads.seen (h : Reloads paths i path text now moments)
    (htrimmed : ∀ other ∈ paths, other.isTrimmed = true)
    (hheld : ∀ held, HeldIn paths now path held →
      now.world.tree.readText now.world.current path = .ok held) :
    SeenIn moments path text := by
  cases h.seen_or_held htrimmed with
  | inl hseen => exact hseen
  | inr hold =>
      obtain ⟨dropped, later, last, hdrop, -, -, rfl⟩ := h.since
      obtain ⟨htree, hcurrent, -⟩ := h.traced hdrop
      refine ⟨dropped.world, List.mem_cons_self, ?_⟩
      rw [htree, hcurrent]
      exact hheld text hold

/-- **Whoever reads a module anew observes its file** if and only if no text that is held at the
drop is an old one. -/
theorem observes_iff (htrimmed : ∀ other ∈ paths, other.isTrimmed = true)
    (hplace : paths[i]? = some path)
    (hbefore : ∃ world earlier, Crew.Run ⟨world, paths.map reload⟩ earlier now)
    (hwaiting : now.programs[i]? = some (reload path)) :
    (∀ text moments, Reloads paths i path text now moments → SeenIn moments path text) ↔
      ∀ held, HeldIn paths now path held →
        now.world.tree.readText now.world.current path = .ok held := by
  constructor
  · intro hobserves held hheld
    refine Classical.byContradiction fun hold => ?_
    obtain ⟨moments, hreloads, hunseen⟩ := reloads_unseen hplace hbefore hwaiting hheld hold
    exact hunseen (hobserves held moments hreloads)
  · intro hheld text moments hreloads
    exact hreloads.seen htrimmed hheld

/-- A world with one file at the root. -/
def oneModule (text : String) : World :=
  ⟨FileTree.empty.set ["m"] (.file text.toUTF8 0), [], 0, .empty⟩

theorem readText_oneModule : (oneModule "1").tree.readText [] ⟨"/m"⟩ = .ok "1" := by
  decide +kernel

/-- Two programs, of which the first one has read the file. -/
def heldCrew (world : World) (path : Path) : Crew (Except Failure String) :=
  ⟨{ world with modules := world.modules.drop ⟨"/m"⟩ }, [storing ⟨"/m"⟩ "1", reload path]⟩

theorem run_heldCrew (path : Path) : ∃ earlier, Crew.Run
    ⟨oneModule "1", [⟨"/m"⟩, path].map reload⟩ earlier (heldCrew (oneModule "1") path) := by
  have hplace : [⟨"/m"⟩, path][0]? = some ⟨"/m"⟩ := rfl
  exact run_storing (oneModule "1") hplace readText_oneModule

theorem heldIn_heldCrew (world : World) {path : Path} (h : Path.same ⟨"/m"⟩ path = true) :
    HeldIn [⟨"/m"⟩, path] (heldCrew world path) path "1" := ⟨0, ⟨"/m"⟩, rfl, h, rfl⟩

/-- A text that is held for the same file is given, and the file has had it since. -/
theorem observes_shared :
    (∃ moments, Reloads [⟨"/m"⟩, ⟨"/m"⟩] 1 ⟨"/m"⟩ "1" (heldCrew (oneModule "1") ⟨"/m"⟩) moments) ∧
      ∀ text moments,
        Reloads [⟨"/m"⟩, ⟨"/m"⟩] 1 ⟨"/m"⟩ text (heldCrew (oneModule "1") ⟨"/m"⟩) moments →
          SeenIn moments ⟨"/m"⟩ text := by
  obtain ⟨earlier, hbefore⟩ := run_heldCrew ⟨"/m"⟩
  obtain ⟨moments, hreloads, -⟩ := reloads_of_held (i := 1) rfl ⟨_, _, hbefore⟩ rfl
    (heldIn_heldCrew (oneModule "1") (by decide))
  refine ⟨⟨moments, hreloads⟩, (observes_iff (by decide) rfl ⟨_, _, hbefore⟩ rfl).2 ?_⟩
  rintro held ⟨j, other, hother, -, hholding⟩
  match j with
  | 0 =>
      cases hother
      cases hholding
      exact readText_oneModule
  | 1 =>
      cases hother
      cases hholding
  | _ + 2 => cases hother

/-- A text that was held when its file was edited is given all the same, and so is one that was
held for another spelling of the path. -/
theorem not_observes :
    (¬∀ (i : Nat) (path : Path) (text : String) (now : Crew (Except Failure String))
        (moments : List World),
      Reloads [⟨"/m"⟩, ⟨"/m"⟩] i path text now moments → SeenIn moments path text) ∧
    ¬∀ (i : Nat) (path : Path) (text : String) (now : Crew (Except Failure String))
        (moments : List World),
      Reloads [⟨"/m"⟩, ⟨"/m/"⟩] i path text now moments → SeenIn moments path text := by
  refine ⟨fun h => ?_, fun h => ?_⟩
  · -- between the drops the file is edited
    obtain ⟨earlier, hrun⟩ := run_heldCrew ⟨"/m"⟩
    have hbefore := hrun.trans (.step (.edit _ (oneModule "2").tree) (.done _))
    have hheld := heldIn_heldCrew { oneModule "1" with tree := (oneModule "2").tree }
      (show Path.same ⟨"/m"⟩ ⟨"/m"⟩ = true by decide)
    obtain ⟨moments, hreloads, hunseen⟩ := reloads_unseen (i := 1) rfl ⟨_, _, hbefore⟩ rfl hheld
      (by decide +kernel)
    exact hunseen (h _ _ _ _ _ hreloads)
  · obtain ⟨earlier, hbefore⟩ := run_heldCrew ⟨"/m/"⟩
    obtain ⟨moments, hreloads, hunseen⟩ := reloads_unseen (i := 1) rfl ⟨_, _, hbefore⟩ rfl
      (heldIn_heldCrew (oneModule "1") (by decide)) (by decide +kernel)
    exact hunseen (h _ _ _ _ _ hreloads)

end KeysetBundle.Files
