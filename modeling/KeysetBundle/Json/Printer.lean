import KeysetBundle.Json.Basic
import KeysetBundle.Text.Quoted

/-!
# Writing data texts

Each element of a sequence and each member of an object stands on a line of its own, two blanks
deeper than the brackets around it. Empty brackets stand together.
-/

namespace KeysetBundle.Json

/-- A code point inside quotes; half of a surrogate pair is escaped. -/
def pointEscape (n : Nat) : List Char :=
  if Text.isHighHalf n || Text.isLowHalf n then Text.unitEscape n
  else Text.dataEscape (Char.ofNat n)

/-- Code points in quotes. -/
def quoted (points : List Nat) : List Char :=
  '"' :: points.flatMap pointEscape ++ ['"']

/-- A line break and the blanks of a depth. -/
def lineStart (depth : Nat) : List Char := '\n' :: List.replicate (2 * depth) ' '

mutual

/-- The characters of a value whose brackets stand at the given depth. -/
def render (depth : Nat) : Json → List Char
  | .null => ['n', 'u', 'l', 'l']
  | .bool true => ['t', 'r', 'u', 'e']
  | .bool false => ['f', 'a', 'l', 's', 'e']
  | .number digits => digits
  | .text points => quoted points
  | .array [] => ['[', ']']
  | .array (item :: items) =>
    '[' :: lineStart (depth + 1) ++ render (depth + 1) item ++ renderItems (depth + 1) items ++
      lineStart depth ++ [']']
  | .object [] => ['{', '}']
  | .object ((name, value) :: members) =>
    '{' :: lineStart (depth + 1) ++ quoted name ++ [':', ' '] ++ render (depth + 1) value ++
      renderMembers (depth + 1) members ++ lineStart depth ++ ['}']

/-- The elements after the first one. -/
def renderItems (depth : Nat) : List Json → List Char
  | [] => []
  | item :: items => ',' :: lineStart depth ++ render depth item ++ renderItems depth items

/-- The members after the first one. -/
def renderMembers (depth : Nat) : List (List Nat × Json) → List Char
  | [] => []
  | (name, value) :: members =>
    ',' :: lineStart depth ++ quoted name ++ [':', ' '] ++ render depth value ++
      renderMembers depth members

end

@[simp] theorem render_array_nil (depth : Nat) : render depth (.array []) = ['[', ']'] := by
  rw [render]

@[simp] theorem render_object_nil (depth : Nat) : render depth (.object []) = ['{', '}'] := by
  rw [render]

@[simp] theorem renderItems_nil (depth : Nat) : renderItems depth [] = [] := by rw [renderItems]

@[simp] theorem renderMembers_nil (depth : Nat) : renderMembers depth [] = [] := by
  rw [renderMembers]

/-- The text of a value. -/
def pretty (value : Json) : String := String.ofList (render 0 value)

end KeysetBundle.Json
