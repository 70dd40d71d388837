import KeysetBundle.Text.Surrogates

/-!
# Data texts

The values that a data text in JSON can hold. A text is kept by its code points, because an escape
may name half of a surrogate pair; a number is kept as it is written; an object keeps its members
in order, repeated ones included.
-/

namespace KeysetBundle

/-- A value of a data text. -/
inductive Json
  /-- The absence of a value. -/
  | null
  /-- A truth value. -/
  | bool (value : Bool)
  /-- A number as it is written. -/
  | number (digits : List Char)
  /-- A text by its code points. -/
  | text (points : List Nat)
  /-- A sequence. -/
  | array (items : List Json)
  /-- Members with their names. -/
  | object (members : List (List Nat × Json))
  deriving Repr, Inhabited

namespace Json

/-- The code points of a text. -/
def pointsOf (value : String) : List Nat := value.toList.map Char.toNat

/-- The value of a text. -/
def ofText (value : String) : Json := .text (pointsOf value)

/-- The value of a natural number. -/
def ofNat (n : Nat) : Json := .number (toString n).toList

/-- The value of a sequence of texts. -/
def ofTexts (values : List String) : Json := .array (values.map ofText)

/-- An object with the given members. -/
def ofMembers (members : List (String × Json)) : Json :=
  .object (members.map fun (name, value) => (pointsOf name, value))

end Json

end KeysetBundle
