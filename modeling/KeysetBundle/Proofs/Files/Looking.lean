import KeysetBundle.Files.World
import KeysetBundle.Proofs.Except
import KeysetBundle.Proofs.Files.Program
import KeysetBundle.Proofs.Path.Pieces

/-!
# Programs that only look

Many programs ask questions and change nothing.  `Looks post` says this of a
program, and that its result satisfies `post` whatever a world may answer.  It
is a condition on the program alone; what it says of a run is `run_of_looks`.

Main results.

- `looks_bind`, `looks_mapM`, `looks_filterM`: the rules by which programs are
  put together.
- `run_of_looks`: a run leaves the world as it is.
-/

namespace KeysetBundle.Files

variable {α β : Type}

/-! ## Questions -/

/-- What a world may answer to a request that leaves it as it is.  The paths that it gives are
absolute.  Other requests are not allowed. -/
def Allowed : (request : Request) → Option (request.Answer → Prop)
  | .stat _ => some fun _ => True
  | .readText _ => some fun _ => True
  | .listing _ => some fun _ => True
  | .canonicalize _ => some fun (reply : Except Failure Path) =>
    ∀ path, reply = .ok path → path.isAbsolute
  | .workingDirectory => some fun (reply : Path) => reply.isAbsolute
  | .cachedModule _ => some fun _ => True
  | .cachedModuleCount => some fun _ => True
  | _ => none

theorem isAbsolute_pathOf (location : Location) : (FileTree.pathOf location).isAbsolute := by
  refine Path.isAbsolute_of_text ("/".intercalate location).toList ?_
  have hslash : ("/" : String).toList = ['/'] := by decide
  rw [FileTree.pathOf, String.toList_append, hslash]
  rfl

/-- A world gives an allowed answer and stays as it is. -/
theorem answer_of_allowed {request : Request} {allowed : request.Answer → Prop}
    (h : Allowed request = some allowed) (world : World) :
    allowed (World.answer request world).1 ∧ (World.answer request world).2 = world := by
  cases request with
  | stat path =>
      cases h
      exact ⟨trivial, rfl⟩
  | readText path =>
      cases h
      exact ⟨trivial, rfl⟩
  | listing path =>
      cases h
      exact ⟨trivial, rfl⟩
  | canonicalize path =>
      cases h
      refine ⟨?_, rfl⟩
      intro result hresult
      obtain ⟨found, _, rfl⟩ := map_eq_ok.1 hresult
      exact isAbsolute_pathOf found.1
  | workingDirectory =>
      cases h
      exact ⟨isAbsolute_pathOf world.current, rfl⟩
  | cachedModule path =>
      cases h
      exact ⟨trivial, rfl⟩
  | cachedModuleCount =>
      cases h
      exact ⟨trivial, rfl⟩
  | writeText path text => cases h
  | createFolders path => cases h
  | rename source target => cases h
  | removeFile path => cases h
  | cacheModule path text => cases h
  | dropModule path => cases h

namespace Program

/-- A program asks only questions that leave a world as it is, and whatever it is answered, its
result satisfies `post`. -/
def Looks (post : α → Prop) : Program α → Prop
  | .done result => post result
  | .ask request next =>
    ∃ allowed, Allowed request = some allowed ∧ ∀ reply, allowed reply → (next reply).Looks post

theorem looks_pure {post : α → Prop} {result : α} (h : post result) :
    (pure result : Program α).Looks post := h

theorem looks_bind {middle : α → Prop} {post : β → Prop} {program : Program α}
    {f : α → Program β} (h : program.Looks middle) (hf : ∀ a, middle a → (f a).Looks post) :
    (program >>= f).Looks post := by
  show (program.bind f).Looks post
  induction program with
  | done result => exact hf result h
  | ask request next ih =>
      obtain ⟨allowed, hallowed, hnext⟩ := h
      exact ⟨allowed, hallowed, fun reply hreply => ih reply (hnext reply hreply)⟩

theorem looks_request {request : Request} {allowed : request.Answer → Prop}
    (h : Allowed request = some allowed) : (Program.request request).Looks allowed :=
  ⟨allowed, h, fun _ hreply => hreply⟩

theorem looks_mapM {post : β → Prop} {f : α → Program β} {items : List α}
    (hf : ∀ a ∈ items, (f a).Looks post) :
    (items.mapM f).Looks fun results => ∀ b ∈ results, post b := by
  induction items with
  | nil =>
      rw [List.mapM_nil]
      exact looks_pure (fun b hb => nomatch hb)
  | cons item items ih =>
      rw [List.mapM_cons]
      refine looks_bind (hf item (by simp)) fun b hb => ?_
      refine looks_bind (ih fun a ha => hf a (by simp [ha])) fun bs hbs => ?_
      apply looks_pure
      intro b' hb'
      rcases List.mem_cons.1 hb' with rfl | hb'
      · exact hb
      · exact hbs b' hb'

theorem looks_filterAuxM {post : α → Prop} {test : α → Program Bool} {items kept : List α}
    (htest : ∀ a ∈ items, (test a).Looks fun _ => True) (hitems : ∀ a ∈ items, post a)
    (hkept : ∀ a ∈ kept, post a) :
    (List.filterAuxM test items kept).Looks fun results => ∀ a ∈ results, post a := by
  induction items generalizing kept with
  | nil => exact looks_pure hkept
  | cons item items ih =>
      rw [List.filterAuxM]
      refine looks_bind (htest item (by simp)) fun yes _ => ?_
      refine ih (fun a ha => htest a (by simp [ha])) (fun a ha => hitems a (by simp [ha])) ?_
      intro a ha
      cases yes with
      | false => exact hkept a ha
      | true =>
          rcases List.mem_cons.1 ha with rfl | ha
          · exact hitems a (by simp)
          · exact hkept a ha

theorem looks_filterM {post : α → Prop} {test : α → Program Bool} {items : List α}
    (htest : ∀ a ∈ items, (test a).Looks fun _ => True) (hitems : ∀ a ∈ items, post a) :
    (items.filterM test).Looks fun results => ∀ a ∈ results, post a := by
  rw [List.filterM]
  refine looks_bind (looks_filterAuxM htest hitems (fun a ha => nomatch ha)) fun results h => ?_
  exact looks_pure fun a ha => h a (List.mem_reverse.1 ha)

/-- **A program that only looks leaves the world as it is.** -/
theorem run_of_looks {post : α → Prop} {program : Program α} (h : program.Looks post)
    (world : World) : post (world.run program).1 ∧ (world.run program).2 = world := by
  induction program generalizing world with
  | done result => exact ⟨h, rfl⟩
  | ask request next ih =>
      obtain ⟨allowed, hallowed, hnext⟩ := h
      obtain ⟨hreply, hworld⟩ := answer_of_allowed hallowed world
      have hrest := ih _ (hnext _ hreply) (World.answer request world).2
      rw [hworld] at hrest
      show post ((next (World.answer request world).1).run World.answer
          (World.answer request world).2).1 ∧
        ((next (World.answer request world).1).run World.answer
          (World.answer request world).2).2 = world
      rw [hworld]
      exact hrest

end Program

/-! ## Programs over files -/

open Program

theorem looks_stat? (path : Path) : (stat? path).Looks fun _ => True :=
  looks_bind (looks_request rfl) fun _ _ => looks_pure trivial

theorem looks_pathExists (path : Path) : (pathExists path).Looks fun _ => True :=
  looks_bind (looks_stat? path) fun _ _ => looks_pure trivial

theorem looks_isFolder (path : Path) : (isFolder path).Looks fun _ => True :=
  looks_bind (looks_stat? path) fun _ _ => looks_pure trivial

theorem looks_readText (path : Path) : (readText path).Looks fun _ => True :=
  looks_request (show Allowed (.readText path) = some fun _ => True from rfl)

end KeysetBundle.Files
