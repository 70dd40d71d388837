import KeysetBundle.Proofs.Freshness.Stored

/-!
# Ledgers with numbers of 64 bits

Sizes and times of modification are numbers of 64 bits.  A ledger of such
numbers is read back as it was written, and every ledger that is read has such
numbers only.

Main results.

- `ofJson?_toJson`: what was written is read.
- `fits_loadedIn`: the numbers of a ledger that is loaded fit.
-/

namespace KeysetBundle.Freshness

open Files
open KeysetBundle.Json (limit64 mapM_write)

/-! ## Numbers that fit -/

/-- The numbers of a fingerprint have 64 bits. -/
structure Fingerprint.Fits (fingerprint : Fingerprint) : Prop where
  /-- The size. -/
  size : fingerprint.size < limit64
  /-- The time. -/
  mtime : fingerprint.mtime < limit64

/-- The numbers of a record have 64 bits. -/
structure Record.Fits (record : Record) : Prop where
  /-- Those of files. -/
  files : ∀ name fingerprint, record.files.get? name = some fingerprint → fingerprint.Fits
  /-- Those of lists of files. -/
  fileLists : ∀ name fingerprints, record.fileLists.get? name = some fingerprints →
    ∀ fingerprint ∈ fingerprints, fingerprint.Fits

/-- The numbers of a ledger have 64 bits. -/
def Ledger.Fits (ledger : Ledger) : Prop :=
  ∀ name record, ledger.targets.get? name = some record → record.Fits

/-! ## Reading what was written -/

theorem nat64?_ofNat {n : Nat} (h : n < limit64) : (Json.ofNat n).nat64? = some n := by
  rw [Json.nat64?_ofNat_eq]
  exact Option.filter_eq_some_iff.2 ⟨rfl, decide_eq_true h⟩

/-- Every result is the result of one of the items. -/
theorem exists_of_mapM {α β : Type} {f : α → Option β} {items : List α} {results : List β}
    (h : items.mapM f = some results) : ∀ result ∈ results, ∃ item ∈ items, f item = some result := by
  induction items generalizing results with
  | nil =>
      cases h
      intro result hresult
      cases hresult
  | cons item items ih =>
      rw [List.mapM_cons] at h
      obtain ⟨first, hfirst, h⟩ := bind_eq_some.1 h
      obtain ⟨rest, hrest, h⟩ := bind_eq_some.1 h
      cases h
      intro result hresult
      rcases List.mem_cons.1 hresult with rfl | hresult
      · exact ⟨item, by simp, hfirst⟩
      · obtain ⟨other, hother, heq⟩ := ih hrest result hresult
        exact ⟨other, by simp [hother], heq⟩

theorem dictionary?_dictionaryJson {α : Type} {value? : Json → Option α} {write : α → Json}
    {dictionary : Dictionary α}
    (h : ∀ name item, dictionary.get? name = some item → value? (write item) = some item) :
    Json.dictionary? value? (Record.dictionaryJson write dictionary) = some dictionary := by
  have hentries : (dictionary.toList.map fun entry => (entry.1, write entry.2)).mapM
      (fun (member : String × Json) => (value? member.2).map (member.1, ·)) =
        some dictionary.toList := by
    refine mapM_write (fun entry : String × α => (entry.1, write entry.2)) ?_
    rintro ⟨name, item⟩ hentry
    have hget := dictionary.get?_eq_some_iff_mem.2 hentry
    rw [h name item hget]
    rfl
  rw [dictionary?_dictionaryJson_eq, hentries, Option.map_some, dictionary.ofList_toList]

theorem Fingerprint.ofJson?_toJson {fingerprint : Fingerprint} (h : fingerprint.Fits) :
    Fingerprint.ofJson? fingerprint.toJson = some fingerprint := by
  unfold Fingerprint.ofJson?
  rw [fingerprint.record?_toJson]
  refine bind_eq_some.2 ⟨_, rfl, bind_eq_some.2 ⟨_, Json.text?_ofText _, ?_⟩⟩
  exact bind_eq_some.2 ⟨_, nat64?_ofNat h.size, bind_eq_some.2 ⟨_, nat64?_ofNat h.mtime, rfl⟩⟩

theorem Record.ofJson?_toJson {record : Record} (h : record.Fits) :
    Record.ofJson? record.toJson = some record := by
  unfold Record.ofJson?
  rw [record.record?_toJson]
  refine bind_eq_some.2 ⟨_, rfl, bind_eq_some.2 ⟨record.files, ?files, ?_⟩⟩
  case files =>
    exact dictionary?_dictionaryJson fun name fingerprint hget =>
      Fingerprint.ofJson?_toJson (h.files name fingerprint hget)
  refine bind_eq_some.2 ⟨record.fileLists, ?fileLists, bind_eq_some.2 ⟨record.settings, ?_, rfl⟩⟩
  case fileLists =>
    refine dictionary?_dictionaryJson fun name fingerprints hget => ?_
    exact mapM_write _ fun fingerprint hmem =>
      Fingerprint.ofJson?_toJson (h.fileLists name fingerprints hget fingerprint hmem)
  exact dictionary?_dictionaryJson fun name value _ => Json.text?_ofText value

/-- **What was written is read.** -/
theorem Ledger.ofJson?_toJson {ledger : Ledger} (h : ledger.Fits) :
    Ledger.ofJson? ledger.toJson = some ledger := by
  unfold Ledger.ofJson?
  rw [ledger.record?_toJson]
  refine bind_eq_some.2 ⟨_, rfl, bind_eq_some.2 ⟨ledger.targets, ?_, rfl⟩⟩
  exact dictionary?_dictionaryJson fun name record hget => Record.ofJson?_toJson (h name record hget)

/-! ## What is read fits -/

/-- What is read of the values of a dictionary holds of all its values. -/
theorem get?_of_dictionary? {α : Type} {value? : Json → Option α} {post : α → Prop}
    (h : ∀ json a, value? json = some a → post a) {json : Json} {dictionary : Dictionary α}
    (hread : Json.dictionary? value? json = some dictionary) :
    ∀ name a, dictionary.get? name = some a → post a := by
  intro name a hget
  unfold Json.dictionary? at hread
  obtain ⟨members, -, hread⟩ := bind_eq_some.1 hread
  obtain ⟨entries, hentries, hread⟩ := bind_eq_some.1 hread
  cases hread
  rw [Dictionary.get?_ofList] at hget
  have hmem : (name, a) ∈ entries := by
    obtain ⟨before, after, hsplit, -⟩ := List.lookup_eq_some_iff.1 hget
    have hreverse : (name, a) ∈ entries.reverse := by rw [hsplit]; simp
    exact List.mem_reverse.1 hreverse
  obtain ⟨⟨name', json⟩, -, hmember⟩ := exists_of_mapM hentries _ hmem
  obtain ⟨found, hfound, heq⟩ := Option.map_eq_some_iff.1 hmember
  cases heq
  exact h json _ hfound

/-- The same for a field that may be missing. -/
theorem get?_of_fieldOr? {α : Type} {value? : Json → Option α} {post : α → Prop}
    (h : ∀ json a, value? json = some a → post a) {field : Option Json}
    {dictionary : Dictionary α}
    (hread : Json.fieldOr? .empty (Json.dictionary? value?) field = some dictionary) :
    ∀ name a, dictionary.get? name = some a → post a := by
  cases field with
  | none =>
      cases hread
      intro name a hget
      cases hget
  | some json => exact get?_of_dictionary? h hread

theorem nat64?_lt {json : Json} {n : Nat} (h : json.nat64? = some n) : n < limit64 := by
  cases json with
  | number digits => exact of_decide_eq_true (Option.filter_eq_some_iff.1 h).2
  | _ => cases h

theorem Fingerprint.fits_of_ofJson? {json : Json} {fingerprint : Fingerprint}
    (h : Fingerprint.ofJson? json = some fingerprint) : fingerprint.Fits := by
  unfold Fingerprint.ofJson? at h
  obtain ⟨fields, -, h⟩ := bind_eq_some.1 h
  split at h
  · obtain ⟨path, -, h⟩ := bind_eq_some.1 h
    obtain ⟨size, hsize, h⟩ := bind_eq_some.1 h
    obtain ⟨mtime, hmtime, h⟩ := bind_eq_some.1 h
    cases h
    exact ⟨nat64?_lt hsize, nat64?_lt hmtime⟩
  · cases h

theorem Record.fits_of_ofJson? {json : Json} {record : Record}
    (h : Record.ofJson? json = some record) : record.Fits := by
  unfold Record.ofJson? at h
  obtain ⟨fields, -, h⟩ := bind_eq_some.1 h
  split at h
  · obtain ⟨files, hfiles, h⟩ := bind_eq_some.1 h
    obtain ⟨fileLists, hfileLists, h⟩ := bind_eq_some.1 h
    obtain ⟨settings, -, h⟩ := bind_eq_some.1 h
    cases h
    refine ⟨get?_of_fieldOr? (fun _ _ => Fingerprint.fits_of_ofJson?) hfiles, ?_⟩
    refine get?_of_fieldOr? (fun json fingerprints hread => ?_) hfileLists
    unfold Json.items? at hread
    split at hread
    · intro fingerprint hmem
      obtain ⟨item, -, hitem⟩ := exists_of_mapM hread _ hmem
      exact Fingerprint.fits_of_ofJson? hitem
    · cases hread
  · cases h

theorem Ledger.fits_of_ofJson? {json : Json} {ledger : Ledger}
    (h : Ledger.ofJson? json = some ledger) : ledger.Fits := by
  unfold Ledger.ofJson? at h
  obtain ⟨fields, -, h⟩ := bind_eq_some.1 h
  split at h
  · obtain ⟨targets, htargets, h⟩ := bind_eq_some.1 h
    cases h
    exact get?_of_fieldOr? (fun _ _ => Record.fits_of_ofJson?) htargets
  · cases h

theorem Ledger.fits_empty : Ledger.empty.Fits := by
  intro name record hget
  cases hget

theorem fits_of_ofText? (text : String) : ((Ledger.ofText? text).getD .empty).Fits := by
  cases hread : Ledger.ofText? text with
  | none => exact Ledger.fits_empty
  | some ledger =>
      obtain ⟨json, -, hjson⟩ := bind_eq_some.1 hread
      exact Ledger.fits_of_ofJson? hjson

/-- **The numbers of a ledger that is loaded fit.** -/
theorem fits_loadedIn (world : World) (file : Path) : (loadedIn world file).Fits := by
  unfold loadedIn
  split
  · exact fits_of_ofText? _
  · exact Ledger.fits_empty

/-! ## Trees with sizes and times of 64 bits -/

/-- The sizes and times of all files of a tree have 64 bits. -/
def Measured (tree : FileTree) : Prop :=
  ∀ entry ∈ tree.entries, ∀ size mtime, entry.2.stat = .file size mtime →
    size < limit64 ∧ mtime < (limit64 : Int)

instance (stat : Stat) (test : Nat → Int → Prop) [∀ size mtime, Decidable (test size mtime)] :
    Decidable (∀ size mtime, stat = .file size mtime → test size mtime) :=
  match stat with
  | .folder => .isTrue nofun
  | .file size mtime => decidable_of_iff (test size mtime)
      ⟨fun h _ _ heq => by cases heq; exact h, fun h => h size mtime rfl⟩

instance : DecidablePred Measured := fun _ => inferInstanceAs (Decidable (∀ _ ∈ _, _))

theorem Measured.file {tree : FileTree} (h : Measured tree) {location : Location}
    {bytes : ByteArray} {mtime : Int} (hfile : tree.get? location = some (.file bytes mtime)) :
    bytes.size < limit64 ∧ mtime < (limit64 : Int) := by
  unfold FileTree.get? at hfile
  split at hfile
  · cases hfile
  · obtain ⟨before, after, hsplit, -⟩ := List.lookup_eq_some_iff.1 hfile
    exact h (location, .file bytes mtime) (by rw [hsplit]; simp) _ _ rfl

/-- The fingerprint of a file of 64 bits has 64 bits. -/
theorem fits_ofStat {tree : FileTree} (h : Measured tree) {location : Location} {entry : Entry}
    (hentry : tree.get? location = some entry) (path : Path) :
    (Fingerprint.ofStat path entry.stat).Fits := by
  cases entry with
  | folder =>
      constructor
      · show 4096 < limit64
        decide
      · show 0 < limit64
        decide
  | file bytes mtime =>
      obtain ⟨hsize, hmtime⟩ := h.file hentry
      constructor
      · exact hsize
      · show mtime.toNat < limit64
        omega

theorem fits_printIn {world : World} (h : Measured world.tree) {path : Path}
    {fingerprint : Fingerprint} (hprint : printIn world path = .ok fingerprint) :
    fingerprint.Fits := by
  obtain ⟨stat, hstat, rfl⟩ := map_eq_ok.1 hprint
  obtain ⟨location, entry, hresolve, rfl⟩ := FileTree.stat_iff.1 hstat
  exact fits_ofStat h (FileTree.resolve_iff.1 hresolve).2 path

end KeysetBundle.Freshness
