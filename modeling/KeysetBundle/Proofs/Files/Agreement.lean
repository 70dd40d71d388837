import Mathlib.Data.List.Forall2
import KeysetBundle.Files.World
import KeysetBundle.Proofs.Files.Program

/-!
# Programs on two worlds

Two programs may do the same on two different worlds: they leave them as they
are, and their results correspond (`Program.Agrees`).  Programs that are put
together from such programs agree as well, so a comparison of two runs follows
the text of the program and needs no other account of what it does.

Main results.

- `agrees_bind`, `agrees_mapM`, `agrees_filterM`: the rules by which programs
  are put together.
-/

namespace KeysetBundle.Files.Program

variable {α β γ δ : Type} {world other : World}

/-- The programs leave the worlds as they are, and their results correspond. -/
structure Agrees (world other : World) (R : α → β → Prop) (program : Program α)
    (program' : Program β) : Prop where
  /-- The first world stays. -/
  stays : (world.run program).2 = world
  /-- The second world stays. -/
  stays' : (other.run program').2 = other
  /-- The results correspond. -/
  result : R (world.run program).1 (other.run program').1

theorem agrees_of_run {R : α → β → Prop} {program : Program α} {program' : Program β} {a : α}
    {b : β} (h : world.run program = (a, world)) (h' : other.run program' = (b, other))
    (hR : R a b) : program.Agrees world other R program' := by
  constructor
  · rw [h]
  · rw [h']
  · rw [h, h']
    exact hR

theorem agrees_pure {R : α → β → Prop} {a : α} {b : β} (h : R a b) :
    (pure a : Program α).Agrees world other R (pure b) := ⟨rfl, rfl, h⟩

theorem Agrees.mono {R S : α → β → Prop} {program : Program α} {program' : Program β}
    (h : program.Agrees world other R program') (hmore : ∀ a b, R a b → S a b) :
    program.Agrees world other S program' := ⟨h.stays, h.stays', hmore _ _ h.result⟩

theorem Agrees.of_run {R : α → β → Prop} {program before : Program α} {program' before' : Program β}
    (h : program.Agrees world other R program') (hrun : world.run before = world.run program)
    (hrun' : other.run before' = other.run program') : before.Agrees world other R before' := by
  constructor
  · rw [hrun]
    exact h.stays
  · rw [hrun']
    exact h.stays'
  · rw [hrun, hrun']
    exact h.result

theorem run_bind_of_stays {program : Program α} (f : α → Program β)
    (h : (world.run program).2 = world) :
    world.run (program >>= f) = world.run (f (world.run program).1) := by
  rw [World.run_bind, h]

theorem agrees_bind {S : α → β → Prop} {R : γ → δ → Prop} {program : Program α}
    {program' : Program β} {f : α → Program γ} {f' : β → Program δ}
    (h : program.Agrees world other S program')
    (hf : ∀ a b, S a b → (f a).Agrees world other R (f' b)) :
    (program >>= f).Agrees world other R (program' >>= f') := by
  have hrest := hf _ _ h.result
  have hrun := run_bind_of_stays f h.stays
  have hrun' := run_bind_of_stays f' h.stays'
  exact hrest.of_run hrun hrun'

theorem agrees_mapM {S : α → β → Prop} {R : γ → δ → Prop} {f : α → Program γ}
    {f' : β → Program δ} {items : List α} {items' : List β} (hitems : List.Forall₂ S items items')
    (hf : ∀ a b, S a b → (f a).Agrees world other R (f' b)) :
    (items.mapM f).Agrees world other (List.Forall₂ R) (items'.mapM f') := by
  induction hitems with
  | nil =>
      rw [List.mapM_nil, List.mapM_nil]
      exact agrees_pure .nil
  | cons hitem _ ih =>
      rw [List.mapM_cons, List.mapM_cons]
      refine agrees_bind (hf _ _ hitem) fun c d hcd => ?_
      exact agrees_bind ih fun cs ds hrest => agrees_pure (.cons hcd hrest)

/-- A test may tell more of the items that pass it. -/
theorem agrees_filterAuxM {S R : α → β → Prop} {test : α → Program Bool}
    {test' : β → Program Bool} {items : List α} {items' : List β} {kept : List α} {kept' : List β}
    (hitems : List.Forall₂ S items items') (hkept : List.Forall₂ R kept kept')
    (htest : ∀ a b, S a b → (test a).Agrees world other
      (fun yes yes' => yes = yes' ∧ (yes = true → R a b)) (test' b)) :
    (List.filterAuxM test items kept).Agrees world other (List.Forall₂ R)
      (List.filterAuxM test' items' kept') := by
  induction hitems generalizing kept kept' with
  | nil => exact agrees_pure hkept
  | cons hitem _ ih =>
      rw [List.filterAuxM, List.filterAuxM]
      refine agrees_bind (htest _ _ hitem) ?_
      rintro yes _ ⟨rfl, hpasses⟩
      refine ih ?_
      cases yes with
      | false => exact hkept
      | true => exact .cons (hpasses rfl) hkept

theorem agrees_filterM {S R : α → β → Prop} {test : α → Program Bool}
    {test' : β → Program Bool} {items : List α} {items' : List β}
    (hitems : List.Forall₂ S items items')
    (htest : ∀ a b, S a b → (test a).Agrees world other
      (fun yes yes' => yes = yes' ∧ (yes = true → R a b)) (test' b)) :
    (items.filterM test).Agrees world other (List.Forall₂ R) (items'.filterM test') := by
  rw [List.filterM, List.filterM]
  refine agrees_bind (agrees_filterAuxM hitems .nil htest) fun kept kept' hkept => ?_
  exact agrees_pure (List.rel_reverse hkept)

end KeysetBundle.Files.Program
