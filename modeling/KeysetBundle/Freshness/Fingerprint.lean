import KeysetBundle.Files.Program
import KeysetBundle.Json.Decode

/-!
# Fingerprints of files

A fingerprint stands for the content of a file: two fingerprints of one file that are the same are
taken for the same content.
-/

namespace KeysetBundle.Freshness

open Files

/-- A file with its size and time of modification. -/
structure Fingerprint where
  /-- The path of the file. -/
  path : Path
  /-- The number of bytes. -/
  size : Nat
  /-- The time of modification in milliseconds; a time before the epoch counts as the epoch. -/
  mtime : Nat
  deriving DecidableEq, Repr, Inhabited

namespace Fingerprint

/-- Whether two fingerprints are the same; the paths may be spelled in different ways. -/
def same (a b : Fingerprint) : Bool :=
  a.path.same b.path && a.size == b.size && a.mtime == b.mtime

/-- The fingerprint of what is at a path. A folder counts as a file of one block. -/
def ofStat (path : Path) : Stat → Fingerprint
  | .folder => ⟨path, 4096, 0⟩
  | .file size mtime => ⟨path, size, mtime.toNat⟩

/-- Takes the fingerprint of a file. -/
def read (path : Path) : Program (Except Failure Fingerprint) := do
  let answer : Except Failure Stat ← Program.request (.stat path)
  return answer.map (ofStat path)

/-- Takes the fingerprints of files in order; there are none if one of the files is not there. -/
def readAll : List Path → Program (Except Failure (List Fingerprint))
  | [] => return .ok []
  | path :: paths => do
    match ← read path with
    | .error failure => return .error failure
    | .ok fingerprint =>
      match ← readAll paths with
      | .error failure => return .error failure
      | .ok fingerprints => return .ok (fingerprint :: fingerprints)

/-- Whether the file at a path still has a fingerprint. -/
def holds (fingerprint : Fingerprint) (path : Path) : Program Bool := do
  match ← read path with
  | .ok now => return fingerprint.same now
  | .error _ => return false

/-! ## Data values -/

/-- The fingerprint that a data value holds. -/
def ofJson? (json : Json) : Option Fingerprint := do
  match ← json.record? ["path", "size", "mtime"] with
  | [some path, some size, some mtime] =>
    some ⟨⟨← path.text?⟩, ← size.nat64?, ← mtime.nat64?⟩
  | _ => none

/-- The data value of a fingerprint. -/
def toJson (fingerprint : Fingerprint) : Json :=
  .ofMembers [("path", .ofText fingerprint.path.text), ("size", .ofNat fingerprint.size),
    ("mtime", .ofNat fingerprint.mtime)]

end Fingerprint

end KeysetBundle.Freshness
