import KeysetBundle.Proofs.Except
import KeysetBundle.Template.Compactor

/-!
# Layers and calls

A call is answered by the first layer that provides its function, whatever
the layers behind it would say.  So a call is not compiled for one of two
reasons: no layer provides the function, or the first one that does refuses
the call.  The calls of a template are compiled from the left, and the first
one that is not compiled decides the error.

Main results.

- `Compactor.resolve_eq_some_iff`, `Compactor.resolve_eq_none_iff`: which layer
  answers.
- `Compactor.compileParts_error`: which call decides the error.
-/

namespace KeysetBundle.Template

namespace Compactor

/-- The answer to a call is that of the first layer that provides the function. -/
def Answers (compactor : Compactor) (function : String) (arguments : List Argument)
    (answer : Except String String) : Prop :=
  ∃ front layer back, compactor.layers = front ++ layer :: back ∧
    (∀ other ∈ front, other.call function (arguments.map Argument.expression) = none) ∧
    layer.call function (arguments.map Argument.expression) = some answer

/-- No layer provides the function of a call. -/
def Lacks (compactor : Compactor) (function : String) (arguments : List Argument) :
    Prop :=
  ∀ layer ∈ compactor.layers, layer.call function (arguments.map Argument.expression) = none

theorem resolve_eq_some_iff {compactor : Compactor} {function : String}
    {arguments : List Argument} {answer : Except String String} :
    compactor.resolve function (arguments.map Argument.expression) = some answer ↔
      compactor.Answers function arguments answer := by
  unfold Compactor.resolve Compactor.Answers
  rw [List.findSome?_eq_some_iff]
  constructor
  · rintro ⟨front, layer, back, hlayers, hlayer, hfront⟩
    exact ⟨front, layer, back, hlayers, hfront, hlayer⟩
  · rintro ⟨front, layer, back, hlayers, hfront, hlayer⟩
    exact ⟨front, layer, back, hlayers, hlayer, hfront⟩

theorem resolve_eq_none_iff {compactor : Compactor} {function : String}
    {arguments : List Argument} :
    compactor.resolve function (arguments.map Argument.expression) = none ↔
      compactor.Lacks function arguments :=
  List.findSome?_eq_none_iff

/-- Why a call is not compiled: no layer provides the function, or the first one that does refuses
the call. -/
def Fails (compactor : Compactor) (function : String) (arguments : List Argument)
    (fault : Fault) : Prop :=
  (compactor.Lacks function arguments ∧ fault = .unknownFunction function) ∨
    ∃ reason, compactor.Answers function arguments (.error reason) ∧ fault = .refused reason

theorem compilePart_error {compactor : Compactor} {part : Part} {e : Error}
    (h : compactor.compilePart part = .error e) :
    ∃ function arguments, part = .subst (.call function arguments e.offset) ∧
      compactor.Fails function arguments e.fault := by
  cases part with
  | text value => cases h
  | subst value =>
      cases value with
      | param path => cases h
      | call function arguments offset =>
          simp only [compilePart, compileCall] at h
          split at h
          · rename_i hnone
            cases h
            exact ⟨function, arguments, rfl, .inl ⟨resolve_eq_none_iff.1 hnone, rfl⟩⟩
          · rename_i reason hreason
            cases h
            exact ⟨function, arguments, rfl, .inr ⟨reason, resolve_eq_some_iff.1 hreason, rfl⟩⟩
          · cases h

theorem answers_of_compilePart {compactor : Compactor} {function expression : String}
    {arguments : List Argument} {offset : Nat}
    (h : compactor.compilePart (.subst (.call function arguments offset)) = .ok expression) :
    compactor.Answers function arguments (.ok expression) := by
  simp only [compilePart, compileCall] at h
  split at h
  · cases h
  · cases h
  · rename_i answer hanswer
    cases h
    exact resolve_eq_some_iff.1 hanswer

/-- **The first call that is not compiled decides**: all calls before it are. -/
theorem compileParts_error {compactor : Compactor} {parts : List Part} {e : Error}
    (h : compactor.compileParts parts = .error e) :
    ∃ before function arguments after,
      parts = before ++ .subst (.call function arguments e.offset) :: after ∧
      (∀ name others place, .subst (.call name others place) ∈ before →
        ∃ expression, compactor.Answers name others (.ok expression)) ∧
      compactor.Fails function arguments e.fault := by
  unfold compileParts at h
  split at h
  · cases h
  · rcases bind_eq_error.1 h with h | ⟨_, _, h⟩
    · obtain ⟨before, part, after, rfl, hbefore, hpart⟩ := mapM_eq_error.1 h
      obtain ⟨function, arguments, rfl, hfails⟩ := compilePart_error hpart
      refine ⟨before, function, arguments, after, rfl, fun name others place hmem => ?_, hfails⟩
      obtain ⟨expression, hexpression⟩ := hbefore _ hmem
      exact ⟨expression, answers_of_compilePart hexpression⟩
    · cases h

end Compactor

end KeysetBundle.Template
