import KeysetBundle.Freshness.Record
import KeysetBundle.Json.Parser
import KeysetBundle.Json.Printer

/-!
# The ledger of a directory

A ledger keeps the records of the targets in one directory, under the paths of the targets as they
are spelled. It is kept in a file beside the targets; a file that is missing or that cannot be
read counts as the empty ledger, so the worst that it causes is a build too many.
-/

namespace KeysetBundle.Freshness

open Files

/-- The records of targets. -/
structure Ledger where
  /-- The records by the paths of the targets. -/
  targets : Dictionary Record
  deriving DecidableEq

namespace Ledger

/-- The ledger without records. -/
def empty : Ledger := ⟨.empty⟩

instance : Inhabited Ledger := ⟨empty⟩

/-- The name of the file of a ledger. -/
def fileName : String := ".langjs-cache.json"

/-- The record of a target. -/
def get? (ledger : Ledger) (target : Path) : Option Record := ledger.targets.get? target.text

/-- The ledger with a record of a target. -/
def set (ledger : Ledger) (target : Path) (record : Record) : Ledger :=
  ⟨ledger.targets.insert target.text record⟩

/-! ## Files -/

/-- The ledger that a data value holds. -/
def ofJson? (json : Json) : Option Ledger := do
  match ← json.record? ["targets"] with
  | [targets] => some ⟨← Json.fieldOr? .empty (Json.dictionary? Record.ofJson?) targets⟩
  | _ => none

/-- The data value of a ledger. -/
def toJson (ledger : Ledger) : Json :=
  .ofMembers [("targets", Record.dictionaryJson Record.toJson ledger.targets)]

/-- The ledger of a file with the given text. -/
def ofText? (text : String) : Option Ledger := (Json.parse text).bind ofJson?

/-- The text of the file of a ledger. -/
def render (ledger : Ledger) : String := ledger.toJson.pretty

/-- Reads the ledger in a file. -/
def load (file : Path) : Program Ledger := do
  match ← readText file with
  | .ok text => return (ofText? text).getD empty
  | .error _ => return empty

/-- A ledger that could not be written. -/
structure SaveFailure where
  /-- The file of the ledger. -/
  file : Path
  /-- Why it could not be written. -/
  failure : Failure
  deriving DecidableEq, Repr

/-- The words for a ledger that could not be written. -/
def SaveFailure.message (e : SaveFailure) : String :=
  "Failed to write build cache: " ++ e.file.text ++ ": " ++ e.failure.message

/-- Writes the ledger to a file. -/
def save (ledger : Ledger) (file : Path) : Program (Except SaveFailure Unit) := do
  let written : Except Failure Unit ← Program.request (.writeText file ledger.render)
  match written with
  | .ok () => return .ok ()
  | .error failure => return .error ⟨file, failure⟩

end Ledger

end KeysetBundle.Freshness
