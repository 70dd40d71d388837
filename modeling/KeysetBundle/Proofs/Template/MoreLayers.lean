import KeysetBundle.Proofs.Template.Layers

/-!
# More layers

Layers that are put behind the ones of a compactor are asked only where all of
these are silent.  So a template that compiles gives the same expression with
more layers, and one that is rejected is rejected with the same error.  Only a
function that no layer provides may be found then.

`Keeps result other` says this of the results of two computations.  It is kept
by computations in sequence and by lists of them, so every function of the
compactor adds one step.

Main results.

- `Compactor.compileCall_of_answers`: the layer that answers a call decides alone.
- `Compactor.compact_append`: templates with more layers.
-/

namespace KeysetBundle.Template

variable {α β : Type}

/-- What one computation has settled the other one settles in the same way: a result, or an error
that is not about an unknown function. -/
def Keeps (result other : Except Error α) : Prop :=
  match result with
  | .ok a => other = .ok a
  | .error e => (∃ name, e.fault = .unknownFunction name) ∨ other = .error e

namespace Keeps

theorem refl (result : Except Error α) : Keeps result result := by
  cases result with
  | ok a => rfl
  | error e => exact .inr rfl

theorem ok {result other : Except Error α} {a : α} (h : Keeps result other)
    (hresult : result = .ok a) : other = .ok a := by
  subst hresult
  exact h

theorem error {result other : Except Error α} {e : Error} (h : Keeps result other)
    (hresult : result = .error e) (hfault : ∀ name, e.fault ≠ .unknownFunction name) :
    other = .error e := by
  subst hresult
  exact h.resolve_left fun ⟨name, hname⟩ => hfault name hname

/-- The first computation that fails decides, in both sequences. -/
theorem bind {result other : Except Error α} {next further : α → Except Error β}
    (h : Keeps result other) (hnext : ∀ a, Keeps (next a) (further a)) :
    Keeps (result >>= next) (other >>= further) := by
  cases result with
  | ok a =>
      have hother : other = .ok a := h
      subst hother
      exact hnext a
  | error e =>
      rcases h with hunknown | hother
      · exact .inl hunknown
      · subst hother
        exact .inr rfl

theorem mapM {f g : α → Except Error β} (h : ∀ a, Keeps (f a) (g a)) (as : List α) :
    Keeps (as.mapM f) (as.mapM g) := by
  induction as with
  | nil => exact refl _
  | cons a as ih =>
      rw [List.mapM_cons, List.mapM_cons]
      exact (h a).bind fun b => ih.bind fun bs => refl _

end Keeps

namespace Compactor

variable {function : String} {arguments : List Argument} {answer : Except String String}

/-- **The layer that answers a call decides alone**: its expression is that of the call, and if it
refuses the call, its reason is the error. -/
theorem compileCall_of_answers {compactor : Compactor}
    (h : compactor.Answers function arguments answer) (offset : Nat) :
    compactor.compileCall function arguments offset =
      answer.mapError fun reason => ⟨.refused reason, offset⟩ := by
  rw [compileCall, resolve_eq_some_iff.2 h]
  cases answer <;> rfl

variable {layers : List Layer}

/-- No layer behind the one that answers is asked. -/
theorem Answers.append (h : Answers ⟨layers⟩ function arguments answer) (more : List Layer) :
    Answers ⟨layers ++ more⟩ function arguments answer := by
  obtain ⟨front, layer, back, hlayers, hfront, hlayer⟩ := h
  have hlayers : layers = front ++ layer :: back := hlayers
  refine ⟨front, layer, back ++ more, ?_, hfront, hlayer⟩
  simp [hlayers]

theorem keeps_compileCall (layers more : List Layer) (function : String)
    (arguments : List Argument) (offset : Nat) :
    Keeps (compileCall ⟨layers⟩ function arguments offset)
      (compileCall ⟨layers ++ more⟩ function arguments offset) := by
  cases hresolve : resolve ⟨layers⟩ function (arguments.map Argument.expression) with
  | none =>
      rw [compileCall, hresolve]
      exact .inl ⟨function, rfl⟩
  | some answer =>
      have hanswers := resolve_eq_some_iff.1 hresolve
      rw [compileCall_of_answers hanswers, compileCall_of_answers (hanswers.append more)]
      exact .refl _

theorem keeps_compilePart (layers more : List Layer) (part : Part) :
    Keeps (compilePart ⟨layers⟩ part) (compilePart ⟨layers ++ more⟩ part) := by
  cases part with
  | text value => exact .refl _
  | subst value =>
      cases value with
      | param path => exact .refl _
      | call function arguments offset =>
          exact keeps_compileCall layers more function arguments offset

theorem keeps_compileParts (layers more : List Layer) (parts : List Part) :
    Keeps (compileParts ⟨layers⟩ parts) (compileParts ⟨layers ++ more⟩ parts) := by
  unfold compileParts
  cases plainText? parts with
  | some text => exact .refl _
  | none => exact (Keeps.mapM (keeps_compilePart layers more) parts).bind fun operands => .refl _

theorem keeps_compact (layers more : List Layer) (template : String) :
    Keeps (compact ⟨layers⟩ template) (compact ⟨layers ++ more⟩ template) :=
  (Keeps.refl (parse template)).bind fun parts => keeps_compileParts layers more parts

/-- **More layers change nothing that is settled.**  What compiles gives the same expression, and
what is rejected for another reason than an unknown function is rejected with the same error at the
same place.  In every call the first layer that provides the function decides alone. -/
theorem compact_append (layers more : List Layer) (template : String) :
    (∀ expression, compact ⟨layers⟩ template = .ok expression →
      compact ⟨layers ++ more⟩ template = .ok expression) ∧
    (∀ e, compact ⟨layers⟩ template = .error e → (∀ name, e.fault ≠ .unknownFunction name) →
      compact ⟨layers ++ more⟩ template = .error e) ∧
    ∀ front layer back function arguments answer offset,
      layers ++ more = front ++ layer :: back →
      (∀ other ∈ front, other.call function (arguments.map Argument.expression) = none) →
      layer.call function (arguments.map Argument.expression) = some answer →
      compileCall ⟨layers ++ more⟩ function arguments offset =
        answer.mapError fun reason => ⟨.refused reason, offset⟩ := by
  refine ⟨fun expression h => (keeps_compact layers more template).ok h,
    fun e h hfault => (keeps_compact layers more template).error h hfault, ?_⟩
  intro front layer back function arguments answer offset hlayers hfront hlayer
  exact compileCall_of_answers ⟨front, layer, back, hlayers, hfront, hlayer⟩ offset

/-- A layer that provides every function. -/
def generous : Layer where
  name := "all"
  call function _ := some (.ok function)

/-- A call that the first layer refuses is not passed on to one behind it that takes all calls. -/
theorem compact_append_generous :
    compact ⟨[Layer.localization] ++ [generous]⟩ "\x7bi18n \"k\" \"a\"\x7d" =
      .ok "function(params) \x7b return \"\" + i18n(\"k\", \"a\", params); \x7d" ∧
    compact ⟨[Layer.localization] ++ [generous]⟩ "\x7bi18n \"k\" \"a\"\x7d\x7bi18n 1\x7d" =
      .error ⟨.refused "`i18n` expects a keyset and a key, got 1 argument(s)", 14⟩ ∧
    compileCall ⟨[Layer.localization] ++ [generous]⟩ "i18n" [.number "1"] 14 =
      .error ⟨.refused "`i18n` expects a keyset and a key, got 1 argument(s)", 14⟩ := by
  refine ⟨(compact_append _ _ _).1 _ (by decide +kernel), (compact_append _ _ _).2.1 _
    (by decide +kernel) (by simp), ?_⟩
  exact (compact_append [Layer.localization] [generous] "").2.2 [] Layer.localization [generous]
    "i18n" [.number "1"] _ 14 rfl (by simp) rfl

end Compactor

end KeysetBundle.Template
