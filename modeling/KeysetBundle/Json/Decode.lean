import KeysetBundle.Dictionary
import KeysetBundle.Json.Basic
import KeysetBundle.Decimal.Digits

/-!
# Reading records from data texts

A record is an object with a member for each of its fields, or a sequence of the values of its
fields in their order, of which the last ones may be missing. A field may stand in an object once;
members that are no fields are passed over. In a dictionary the last member of a name counts.
-/

namespace KeysetBundle.Json

/-- The text of a value, if it is a text without lone halves of surrogate pairs. -/
def text? : Json → Option String
  | .text points => Text.ofCodePoints? points
  | _ => none

/-- The elements of a sequence, each read in the same way. -/
def items? {α : Type} (item? : Json → Option α) : Json → Option (List α)
  | .array items => items.mapM item?
  | _ => none

/-- A sequence of texts. -/
def texts? : Json → Option (List String) := items? text?

/-- A text, or nothing for the absent value. -/
def optionalText? : Json → Option (Option String)
  | .null => some none
  | value => value.text?.map some

/-- The bound `2 ^ 64` of the numbers of 64 bits. -/
def limit64 : Nat := 18446744073709551616

/-- A number of 64 bits without sign, fraction or exponent. -/
def nat64? : Json → Option Nat
  | .number digits => (Decimal.value? digits).filter (· < limit64)
  | _ => none

/-- A member with its name as a text. -/
def namedMember? (member : List Nat × Json) : Option (String × Json) :=
  (Text.ofCodePoints? member.1).map (·, member.2)

/-- The members of an object with their names as texts. -/
def members? : Json → Option (List (String × Json))
  | .object members => members.mapM namedMember?
  | _ => none

/-- A dictionary whose values are all read in the same way. -/
def dictionary? {α : Type} (value? : Json → Option α) (json : Json) : Option (Dictionary α) := do
  let members ← json.members?
  let entries ← members.mapM fun (name, value) => (value? value).map (name, ·)
  some (Dictionary.ofList entries)

/-- The values of the fields of a record; a field that is missing has none. -/
def record? (fields : List String) : Json → Option (List (Option Json))
  | .array items =>
    if items.length ≤ fields.length then
      some (items.map some ++ List.replicate (fields.length - items.length) none)
    else none
  | .object members => do
    let members ← members.mapM namedMember?
    let known := (members.map (·.1)).filter fields.contains
    if decide known.Nodup then some (fields.map fun field => members.lookup field) else none
  | _ => none

/-- The value of a field with a default. -/
def fieldOr? {α : Type} (default : α) (value? : Json → Option α) : Option Json → Option α
  | none => some default
  | some json => value? json

end KeysetBundle.Json
