import KeysetBundle.Freshness.Fingerprint

/-!
# Records of targets

A record says what went into a target when it was built: files, lists of files and settings, each
under a name. The target is up to date as long as all of them are the same.
-/

namespace KeysetBundle.Freshness

open Files

/-- What went into a target. -/
structure Record where
  /-- Files. -/
  files : Dictionary Fingerprint
  /-- Lists of files. -/
  fileLists : Dictionary (List Fingerprint)
  /-- Settings. -/
  settings : Dictionary String
  deriving DecidableEq

namespace Record

/-- The record of nothing. -/
def empty : Record := ⟨.empty, .empty, .empty⟩

instance : Inhabited Record := ⟨empty⟩

/-! ## Questions -/

/-- Whether the file under a name is recorded and the same as the one at `path`. -/
def hasFile (record : Record) (name : String) (path : Path) : Program Bool :=
  match record.files.get? name with
  | some fingerprint => fingerprint.holds path
  | none => return false

/-- Whether the files at the paths still have the fingerprints, one by one. -/
def allHold : List Fingerprint → List Path → Program Bool
  | [], [] => return true
  | fingerprint :: fingerprints, path :: paths => do
    if ← fingerprint.holds path then allHold fingerprints paths else return false
  | _, _ => return false

/-- Whether the list under a name is recorded and the same as the files at `paths`, in number,
order and content. -/
def hasFileList (record : Record) (name : String) (paths : List Path) : Program Bool :=
  match record.fileLists.get? name with
  | some fingerprints => allHold fingerprints paths
  | none => return false

/-- Whether the setting under a name is recorded with the given value. -/
def hasSetting (record : Record) (name value : String) : Bool :=
  record.settings.get? name == some value

/-! ## Recording -/

/-- Records the file at a path under a name. A file that is not there leaves the record as it
is. -/
def addFile (record : Record) (name : String) (path : Path) :
    Program (Except Failure Record) := do
  match ← Fingerprint.read path with
  | .error failure => return .error failure
  | .ok fingerprint => return .ok { record with files := record.files.insert name fingerprint }

/-- Records the files at the paths under a name. -/
def addFileList (record : Record) (name : String) (paths : List Path) :
    Program (Except Failure Record) := do
  match ← Fingerprint.readAll paths with
  | .error failure => return .error failure
  | .ok fingerprints =>
    return .ok { record with fileLists := record.fileLists.insert name fingerprints }

/-- Records a setting. -/
def addSetting (record : Record) (name value : String) : Record :=
  { record with settings := record.settings.insert name value }

/-! ## Data values -/

/-- The record that a data value holds; parts that are missing are empty. -/
def ofJson? (json : Json) : Option Record := do
  match ← json.record? ["files", "fileLists", "settings"] with
  | [files, fileLists, settings] =>
    some ⟨← Json.fieldOr? .empty (Json.dictionary? Fingerprint.ofJson?) files,
      ← Json.fieldOr? .empty (Json.dictionary? (Json.items? Fingerprint.ofJson?)) fileLists,
      ← Json.fieldOr? .empty (Json.dictionary? Json.text?) settings⟩
  | _ => none

/-- The data value of a dictionary. -/
def dictionaryJson {α : Type} (value : α → Json) (dictionary : Dictionary α) : Json :=
  .ofMembers (dictionary.toList.map fun (name, item) => (name, value item))

/-- The data value of a record. -/
def toJson (record : Record) : Json :=
  .ofMembers [("files", dictionaryJson Fingerprint.toJson record.files),
    ("fileLists", dictionaryJson (fun list => .array (list.map Fingerprint.toJson))
      record.fileLists),
    ("settings", dictionaryJson Json.ofText record.settings)]

end Record

end KeysetBundle.Freshness
