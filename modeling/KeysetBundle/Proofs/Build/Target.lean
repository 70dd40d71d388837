import KeysetBundle.Proofs.Build.Freshness
import KeysetBundle.Proofs.Files.Looking
import KeysetBundle.Proofs.Files.Writing

/-!
# What becomes of a target

Building one target has three ends: it is left as it is because it is there
and its record is fresh, it fails, or it is made and written.  `Ending` says
for each of them what is reported and what happens to the tree; nothing more
is needed about the build of a target.

Main result.

- `run_buildTarget`: each build of a target comes to one of the three ends.
-/

namespace KeysetBundle.Build.Context

open KeysetBundle.Bundle (bundleIn inWorld)
open Files
open Freshness
open Report (Outcome)

/-! ## Looking at a target -/

/-- Whether something is at a path. -/
def existsIn (world : World) (path : Path) : Bool :=
  (world.tree.stat world.current path).toOption.isSome

theorem run_pathExists (world : World) (path : Path) :
    world.run (pathExists path) = (existsIn world path, world) := rfl

theorem existsIn_iff {world : World} {path : Path} (h : path.isAbsolute) :
    existsIn world path ↔ world.tree.Leads path ∧ world.tree.get? (place path) ≠ none := by
  have hstat : existsIn world path ↔ ∃ stat, world.tree.stat world.current path = .ok stat := by
    rw [existsIn, Option.isSome_iff_exists]
    simp only [toOption_eq_some]
  rw [hstat]
  constructor
  · rintro ⟨stat, hstat⟩
    obtain ⟨hleads, entry, hentry, -⟩ := (stat_eq_ok h).1 hstat
    refine ⟨hleads, ?_⟩
    rw [hentry]
    nofun
  · rintro ⟨hleads, hthere⟩
    obtain ⟨entry, hentry⟩ := Option.ne_none_iff_exists'.1 hthere
    exact ⟨entry.stat, (stat_eq_ok h).2 ⟨hleads, entry, hentry, rfl⟩⟩

/-- Whether a target is found to be up to date. -/
def isUpToDateIn (world : World) (context : Context) (target : Target) (record : Option Record) :
    Bool :=
  !context.force && (existsIn world target.path &&
    record.any fun record => isFreshIn world context target.language record)

theorem isUpToDateIn_iff {world : World} {context : Context} {target : Target}
    {record : Option Record} :
    isUpToDateIn world context target record ↔
      context.force = false ∧ existsIn world target.path ∧
        ∃ old, record = some old ∧ isFreshIn world context target.language old := by
  unfold isUpToDateIn
  cases record with
  | none => simp
  | some old => simp

theorem run_isUpToDate (world : World) (context : Context) (target : Target)
    (record : Option Record) :
    world.run (context.isUpToDate target record) =
      (isUpToDateIn world context target record, world) := by
  unfold isUpToDate isUpToDateIn
  cases context.force with
  | true => rfl
  | false =>
      rw [if_neg (by decide), World.run_bind, run_pathExists]
      cases existsIn world target.path with
      | false => rfl
      | true =>
          cases record with
          | none => rfl
          | some record =>
              rw [if_pos rfl]
              dsimp only
              rw [run_isFresh]
              rfl

/-! ## Making a target -/

/-- The ends to which the build of a target comes: what is reported of it, and the tree before and
after it. -/
inductive Ending (context : Context) (target : Target) (record : Option Record) (world : World) :
    Outcome × Option Record → FileTree → Prop
  /-- The target is there and its record is fresh. -/
  | upToDate {old : Record} (hold : record = some old) (hexists : existsIn world target.path)
    (hfresh : isFreshIn world context target.language old) :
    Ending context target record world (.upToDate, none) world.tree
  /-- The bundle cannot be made or written. -/
  | failed {message : String} {after : FileTree}
    (h : ∀ location, SideEffect target.path location (world.tree.get? location)
      (after.get? location)) :
    Ending context target record world (.failed message, none) after
  /-- The bundle is made and written, and its record is taken. -/
  | built {bundle : Bundle} {after : World}
    (hbundle : bundleIn (inWorld world) .localized (context.recipe target.language) = .ok bundle)
    (hwritten : Written target.path bundle.text (.ok ()) world.tree after.tree) :
    Ending context target record world
      (.built bundle.keysetCount bundle.keyCount (bundle.sources.map context.shown),
        recordIn after context bundle.sources) after.tree

theorem run_makeAndWrite (world : World) {context : Context} {target : Target}
    (hlayers : context.compactor = .localized) (habsolute : target.path.isAbsolute) :
    ∃ after, (world.run (context.makeAndWrite target)).2 = after ∧
      after.current = world.current ∧
      ((∃ failure, (world.run (context.makeAndWrite target)).1 = .error failure ∧
        ∀ location, SideEffect target.path location (world.tree.get? location)
          (after.tree.get? location)) ∨
      ∃ bundle, (world.run (context.makeAndWrite target)).1 = .ok bundle ∧
        bundleIn (inWorld world) .localized (context.recipe target.language) = .ok bundle ∧
        Written target.path bundle.text (.ok ()) world.tree after.tree) := by
  obtain ⟨modules, hmake⟩ := Bundle.run_make world .localized (context.recipe target.language)
  unfold makeAndWrite
  rw [World.run_bind, hlayers, hmake]
  cases hbundle : bundleIn (inWorld world) .localized (context.recipe target.language) with
  | error failure =>
      exact ⟨_, rfl, rfl, .inl ⟨failure, rfl, fun location => .same _⟩⟩
  | ok bundle =>
      obtain ⟨tree, clock, hrun, hwritten⟩ :=
        run_writeWhole { world with modules } habsolute bundle.text
      dsimp only
      rw [World.run_bind]
      generalize World.run _ (writeWhole target.path bundle.text) = reply at hrun hwritten
      obtain ⟨result, after⟩ := reply
      dsimp only at hrun hwritten ⊢
      subst hrun
      cases result with
      | error failure =>
          exact ⟨_, rfl, rfl, .inl ⟨_, rfl, fun location => hwritten.elsewhere location nofun⟩⟩
      | ok written => exact ⟨_, rfl, rfl, .inr ⟨bundle, rfl, rfl, hwritten⟩⟩

/-- **The ends of a target.** -/
theorem run_buildTarget (world : World) {context : Context} {target : Target}
    (record : Option Record) (hlayers : context.compactor = .localized)
    (habsolute : target.path.isAbsolute) :
    (world.run (context.buildTarget target record)).2.current = world.current ∧
      Ending context target record world (world.run (context.buildTarget target record)).1
        (world.run (context.buildTarget target record)).2.tree := by
  unfold buildTarget
  rw [World.run_bind, run_isUpToDate]
  dsimp only
  cases hfound : isUpToDateIn world context target record with
  | true =>
      rw [if_pos rfl]
      refine ⟨rfl, ?_⟩
      obtain ⟨-, hexists, old, hold, hfresh⟩ := isUpToDateIn_iff.1 hfound
      exact .upToDate hold hexists hfresh
  | false =>
      rw [if_neg (by decide), World.run_bind]
      obtain ⟨after, hafter, hcurrent, hends⟩ := run_makeAndWrite world hlayers habsolute
      generalize world.run (context.makeAndWrite target) = reply at hafter hends
      obtain ⟨result, state⟩ := reply
      dsimp only at hafter hends ⊢
      subst hafter
      rcases hends with ⟨failure, rfl, heffect⟩ | ⟨bundle, rfl, hbundle, hwritten⟩
      · exact ⟨hcurrent, .failed heffect⟩
      · have hrecord := run_takeRecord state context bundle.sources
        dsimp only
        rw [World.run_bind, hrecord]
        exact ⟨hcurrent, .built hbundle hwritten⟩

end KeysetBundle.Build.Context
