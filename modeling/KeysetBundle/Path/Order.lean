import KeysetBundle.Path.Basic

/-!
# The order of paths

Paths are ordered by their components: the root before the current directory, that before the
directory above, and that before names, which stand in their own order.
-/

namespace KeysetBundle.Path

/-- The place of a kind of component among the others. -/
def Component.rank : Component → Nat
  | .root => 0
  | .current => 1
  | .parent => 2
  | .name _ => 3

/-- The name of a component; that of one without a name is empty. -/
def Component.nameText : Component → String
  | .name text => text
  | _ => ""

/-- Whether a component stands before another one. -/
def Component.before (a b : Component) : Bool :=
  a.rank < b.rank || (a.rank == b.rank && a.nameText < b.nameText)

/-- Whether a list of components stands before another one or is the same. -/
def componentsLe : List Component → List Component → Bool
  | [], _ => true
  | _ :: _, [] => false
  | a :: as, b :: bs => a.before b || (!b.before a && componentsLe as bs)

/-- Whether a path stands before another one or is the same. -/
def le (p q : Path) : Bool := componentsLe p.components q.components

end KeysetBundle.Path
