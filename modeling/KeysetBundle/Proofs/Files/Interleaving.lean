import KeysetBundle.Proofs.Files.Looking
import KeysetBundle.Proofs.Files.Place
import KeysetBundle.Proofs.Freshness.Fingerprint
import Mathlib.Data.List.Forall2

/-!
# Runs with edits

While a program runs, someone else may edit files between its requests.  A run
with edits (`Interleaved`) gives a log of what has happened: the requests of the
program and the places of the edits, in order.

What a program has read of a file is known until the file is edited (`Known`),
if the program itself spares the file (`Program.Spares`).

Main results.

- `Interleaved.bind_inv`: a run of two programs in sequence is two runs.
- `Interleaved.known`: what is known stays known.
-/

namespace KeysetBundle.Files

open Freshness (readText_eq_ok)

variable {α β : Type}

/-! ## Edits -/

/-- A file is written, made or removed at a location, and nothing else is changed. -/
structure Touched (location : Location) (before after : FileTree) : Prop where
  /-- Everything else is as it was. -/
  elsewhere : ∀ other, other ≠ location → after.get? other = before.get? other
  /-- There was no folder. -/
  before : before.get? location ≠ some .folder
  /-- There is no folder now. -/
  after : after.get? location ≠ some .folder

/-- An edit makes and removes no folders. -/
theorem Touched.folder {location other : Location} {before after : FileTree}
    (h : Touched location before after) :
    after.get? other = some .folder ↔ before.get? other = some .folder := by
  by_cases hother : other = location
  · rw [hother]
    exact ⟨fun hafter => absurd hafter h.after, fun hbefore => absurd hbefore h.before⟩
  · rw [h.elsewhere other hother]

/-- What happens in a run with edits. -/
inductive Event
  /-- The program asks for something. -/
  | asked (request : Request)
  /-- Someone edits the file at a location. -/
  | edited (location : Location)

/-- The runs of a program on a world in which inputs are edited between its requests, with their
logs and results. The trees in which the program asks are seen. -/
inductive Interleaved (input : Location → Prop) (seen : FileTree → Prop) :
    Program α → World → List Event → α → World → Prop
  /-- The program has ended. -/
  | done (result : α) (world : World) : Interleaved input seen (.done result) world [] result world
  /-- The program asks for something. -/
  | ask {request : Request} {next : request.Answer → Program α} {world last : World}
      {log : List Event} {result : α} (hseen : seen world.tree)
      (h : Interleaved input seen (next (World.answer request world).1)
        (World.answer request world).2 log result last) :
      Interleaved input seen (.ask request next) world (.asked request :: log) result last
  /-- An input is edited. -/
  | edit {program : Program α} {location : Location} {tree : FileTree} {world last : World}
      {log : List Event} {result : α} (hinput : input location)
      (hedit : Touched location world.tree tree)
      (h : Interleaved input seen program { world with tree } log result last) :
      Interleaved input seen program world (.edited location :: log) result last

namespace Interleaved

variable {input : Location → Prop} {seen : FileTree → Prop} {program : Program α}
  {f : α → Program β} {world between last : World} {log more : List Event} {result : α} {b : β}

/-- A run of two programs in sequence is a run of the one and then a run of the other. -/
theorem bind_inv (h : Interleaved input seen (program >>= f) world log b last) :
    ∃ result between first second, log = first ++ second ∧
      Interleaved input seen program world first result between ∧
      Interleaved input seen (f result) between second b last := by
  generalize hsequence : program >>= f = sequence at h
  change program.bind f = sequence at hsequence
  induction h generalizing program with
  | done b world =>
      cases program with
      | done result =>
          refine ⟨result, world, [], [], rfl, .done _ _, ?_⟩
          rw [show f result = .done b from hsequence]
          exact .done b world
      | ask request next => cases hsequence
  | @ask request next world last log b hseen h ih =>
      cases program with
      | done result =>
          refine ⟨result, world, [], _, rfl, .done _ _, ?_⟩
          rw [show f result = _ from hsequence]
          exact .ask hseen h
      | ask request' next' =>
          cases hsequence
          obtain ⟨result, between, first, second, rfl, hfirst, hsecond⟩ := ih rfl
          exact ⟨result, between, _, second, rfl, .ask hseen hfirst, hsecond⟩
  | edit hinput hedit h ih =>
      obtain ⟨result, between, first, second, rfl, hfirst, hsecond⟩ := ih hsequence
      exact ⟨result, between, _, second, rfl, .edit hinput hedit hfirst, hsecond⟩

/-- Two runs in sequence are a run of the sequence. -/
theorem bind (h : Interleaved input seen program world log result between)
    (h' : Interleaved input seen (f result) between more b last) :
    Interleaved input seen (program >>= f) world (log ++ more) b last := by
  change Interleaved input seen (program.bind f) world (log ++ more) b last
  induction h with
  | done result world => exact h'
  | ask hseen h ih => exact .ask hseen (ih h')
  | edit hinput hedit h ih => exact .edit hinput hedit (ih h')

/-- Before a request of the program there may be some edits. -/
theorem ask_inv {request : Request} {next : request.Answer → Program α}
    (h : Interleaved input seen (.ask request next) world log result last) :
    ∃ between first second, log = first ++ .asked request :: second ∧
      Interleaved input seen (.done ()) world first () between ∧ seen between.tree ∧
      Interleaved input seen (next (World.answer request between).1)
        (World.answer request between).2 second result last := by
  generalize hprogram : Program.ask request next = program at h
  induction h with
  | done => cases hprogram
  | ask hseen h =>
      cases hprogram
      exact ⟨_, [], _, rfl, .done () _, hseen, h⟩
  | edit hinput hedit h ih =>
      obtain ⟨between, first, second, rfl, hfirst, hseen, hsecond⟩ := ih hprogram
      exact ⟨between, _, second, rfl, .edit hinput hedit hfirst, hseen, hsecond⟩

theorem request_inv {request : Request} {f : request.Answer → Program β}
    (h : Interleaved input seen (Program.request request >>= f) world log b last) :
    ∃ between first second, log = first ++ .asked request :: second ∧
      Interleaved input seen (.done ()) world first () between ∧ seen between.tree ∧
      Interleaved input seen (f (World.answer request between).1)
        (World.answer request between).2 second b last :=
  ask_inv h

theorem result_of_done {a : α} (h : Interleaved input seen (.done a) world log result last) :
    result = a := by
  generalize hprogram : Program.done a = program at h
  induction h with
  | done =>
      cases hprogram
      rfl
  | ask => cases hprogram
  | edit hinput hedit h ih => exact ih hprogram

end Interleaved

/-! ## Runs without edits -/

/-- The trees in which a program asks in a run without edits are seen. -/
def Program.SeenIn (seen : FileTree → Prop) : Program α → World → Prop
  | .done _, _ => True
  | .ask request next, world =>
    seen world.tree ∧
      (next (World.answer request world).1).SeenIn seen (World.answer request world).2

instance Program.decidableSeenIn (seen : FileTree → Prop) [DecidablePred seen] :
    (program : Program α) → (world : World) → Decidable (program.SeenIn seen world)
  | .done _, _ => isTrue trivial
  | .ask request next, world =>
    have := Program.decidableSeenIn seen (next (World.answer request world).1)
      (World.answer request world).2
    inferInstanceAs (Decidable (seen world.tree ∧ _))

/-- A run without edits is a run with edits. -/
theorem Interleaved.of_run (input : Location → Prop) {seen : FileTree → Prop}
    {program : Program α} {world : World} (h : program.SeenIn seen world) :
    ∃ log, (∀ location, .edited location ∉ log) ∧
      Interleaved input seen program world log (world.run program).1 (world.run program).2 := by
  induction program generalizing world with
  | done result => exact ⟨[], fun _ => List.not_mem_nil, .done result world⟩
  | ask request next ih =>
      obtain ⟨hseen, hrest⟩ := h
      obtain ⟨log, hlog, hrun⟩ := ih _ hrest
      refine ⟨.asked request :: log, fun location hmem => ?_, .ask hseen hrun⟩
      rcases List.mem_cons.1 hmem with heq | hmem
      · cases heq
      · exact hlog location hmem

/-! ## The requests of a program -/

/-- A program makes only requests that are allowed, whatever it is answered. -/
def Program.Asks (allowed : Request → Prop) : Program α → Prop
  | .done _ => True
  | .ask request next => allowed request ∧ ∀ reply, (next reply).Asks allowed

namespace Program

variable {allowed : Request → Prop} {program : Program α} {f : α → Program β}

theorem asks_pure (result : α) : (pure result : Program α).Asks allowed := trivial

theorem asks_request {request : Request} (h : allowed request) :
    (Program.request request).Asks allowed := ⟨h, fun _ => trivial⟩

theorem asks_bind (h : program.Asks allowed) (hf : ∀ a, (f a).Asks allowed) :
    (program >>= f).Asks allowed := by
  change (program.bind f).Asks allowed
  induction program with
  | done result => exact hf result
  | ask request next ih => exact ⟨h.1, fun reply => ih reply (h.2 reply)⟩

theorem Asks.mono {more : Request → Prop} (h : program.Asks allowed)
    (hmore : ∀ request, allowed request → more request) : program.Asks more := by
  induction program with
  | done => trivial
  | ask request next ih => exact ⟨hmore _ h.1, fun reply => ih reply (h.2 reply)⟩

end Program

/-- **What edits and requests keep, a run keeps.** -/
theorem Interleaved.keeps {input : Location → Prop} {seen : FileTree → Prop} {P : World → Prop}
    {program : Program α} {world last : World} {log : List Event} {result : α}
    (h : Interleaved input seen program world log result last)
    (hasks : program.Asks fun request => ∀ now, P now → P (World.answer request now).2)
    (hedits : ∀ now location tree, input location → Touched location now.tree tree → P now →
      P { now with tree })
    (hworld : P world) : P last := by
  induction h with
  | done => exact hworld
  | ask hseen h ih => exact ih (hasks.2 _) (hasks.1 _ hworld)
  | edit hinput hedit h ih => exact ih hasks (hedits _ _ _ hinput hedit hworld)

/-- A request that changes neither the files nor the working directory. -/
def Leaves (request : Request) : Prop :=
  ∀ world, (World.answer request world).2.tree = world.tree ∧
    (World.answer request world).2.current = world.current

theorem leaves_stat (path : Path) : Leaves (.stat path) := fun _ => ⟨rfl, rfl⟩

theorem leaves_readText (path : Path) : Leaves (.readText path) := fun _ => ⟨rfl, rfl⟩

/-- What is no input is not changed in a run of a program that leaves the files as they are. -/
theorem Interleaved.get?_of_leaves {input : Location → Prop} {seen : FileTree → Prop}
    {program : Program α} {world last : World} {log : List Event} {result : α}
    (h : Interleaved input seen program world log result last) (hasks : program.Asks Leaves)
    {location : Location} (hnot : ¬input location) :
    last.tree.get? location = world.tree.get? location := by
  refine h.keeps (P := fun now => now.tree.get? location = world.tree.get? location)
    (hasks.mono fun request hleaves now hnow => ?_)
    (fun now edited tree hinput hedit hnow => ?_) rfl
  · rw [(hleaves now).1]
    exact hnow
  · have hother : location ≠ edited := by
      rintro rfl
      exact hnot hinput
    exact (hedit.elsewhere _ hother).trans hnow

/-! ## What a program knows -/

/-- What a request of a program leaves: folders and the files among the inputs. -/
structure Spared (input : Location → Prop) (before after : World) : Prop where
  /-- The working directory is the same. -/
  current : after.current = before.current
  /-- Folders stay. -/
  folder : ∀ location, before.tree.get? location = some .folder →
    after.tree.get? location = some .folder
  /-- Inputs stay. -/
  file : ∀ location bytes mtime, input location →
    before.tree.get? location = some (.file bytes mtime) →
    after.tree.get? location = some (.file bytes mtime)

theorem Spared.of_tree {input : Location → Prop} {before after : World}
    (hcurrent : after.current = before.current) (htree : after.tree = before.tree) :
    Spared input before after := by
  refine ⟨hcurrent, fun location hfolder => ?_, fun location bytes mtime _ hfile => ?_⟩
  · rw [htree, hfolder]
  · rw [htree, hfile]

/-- A request that spares the inputs in every world. -/
def Spares (input : Location → Prop) (request : Request) : Prop :=
  ∀ world, Spared input world (World.answer request world).2

theorem Leaves.spares {request : Request} (h : Leaves request) (input : Location → Prop) :
    Spares input request :=
  fun world => .of_tree (h world).2 (h world).1

/-- What a program has read of a file: as long as the file has not been edited since, it still has
that text. -/
def Known (past : List Event) (world : World) (path : Path) (text : String) : Prop :=
  ∃ front back, past = front ++ .asked (.readText path) :: back ∧
    (.edited (place path) ∉ back → world.tree.readText world.current path = .ok text)

theorem Known.append_left {past : List Event} {world : World} {path : Path} {text : String}
    (h : Known past world path text) (more : List Event) : Known (more ++ past) world path text := by
  obtain ⟨front, back, rfl, htext⟩ := h
  exact ⟨more ++ front, back, by rw [List.append_assoc], htext⟩

section Known

variable {input : Location → Prop} {seen : FileTree → Prop} {program : Program α}
  {world last : World} {past log : List Event} {result : α} {path : Path} {text : String}

/-- **What is known stays known.** -/
theorem Interleaved.known (h : Interleaved input seen program world log result last)
    (hasks : program.Asks (Spares input)) (habsolute : path.isAbsolute) (hinput : input (place path))
    (hknown : Known past world path text) : Known (past ++ log) last path text := by
  induction h generalizing past with
  | done =>
      rw [List.append_nil]
      exact hknown
  | @ask request next world last log result hseen h ih =>
      obtain ⟨front, back, rfl, htext⟩ := hknown
      rw [List.append_cons]
      refine ih (hasks.2 _) ⟨front, back ++ [.asked request], by simp, fun hnot => ?_⟩
      have hspared := hasks.1 world
      obtain ⟨hleads, bytes, mtime, hfile, hbytes⟩ :=
        (readText_eq_ok habsolute).1 (htext fun hmem => hnot (by simp [hmem]))
      exact (readText_eq_ok habsolute).2 ⟨hleads.mono hspared.folder, bytes, mtime,
        hspared.file _ _ _ hinput hfile, hbytes⟩
  | @edit program location tree world last log result hedited hedit h ih =>
      obtain ⟨front, back, rfl, htext⟩ := hknown
      rw [List.append_cons]
      refine ih hasks ⟨front, back ++ [.edited location], by simp, fun hnot => ?_⟩
      have hother : place path ≠ location := by
        rintro rfl
        exact hnot (by simp)
      obtain ⟨hleads, bytes, mtime, hfile, hbytes⟩ :=
        (readText_eq_ok habsolute).1 (htext fun hmem => hnot (by simp [hmem]))
      refine (readText_eq_ok habsolute).2 ⟨hleads.mono fun other => hedit.folder.2, bytes, mtime,
        ?_, hbytes⟩
      rw [hedit.elsewhere _ hother]
      exact hfile

theorem Interleaved.known_all {paths : List Path} {texts : List String}
    (h : Interleaved input seen program world log result last)
    (hasks : program.Asks (Spares input))
    (hpaths : ∀ path ∈ paths, path.isAbsolute ∧ input (place path))
    (hknown : List.Forall₂ (Known past world) paths texts) :
    List.Forall₂ (Known (past ++ log) last) paths texts := by
  induction hknown with
  | nil => exact .nil
  | cons hfirst hrest ih =>
      obtain ⟨habsolute, hinput⟩ := hpaths _ List.mem_cons_self
      exact .cons (h.known hasks habsolute hinput hfirst)
        (ih fun path hpath => hpaths path (List.mem_cons_of_mem _ hpath))

/-- What has just been read is known. -/
theorem known_of_read (h : world.tree.readText world.current path = .ok text) :
    Known (past ++ [.asked (.readText path)]) world path text :=
  ⟨past, [], rfl, fun _ => h⟩

end Known

end KeysetBundle.Files
