import KeysetBundle.Freshness.Ledger
import KeysetBundle.Proofs.Json.Record

/-!
# A ledger reads back

A ledger that was written is read back as it was, or not at all: a number that
does not fit into 64 bits makes it unreadable, and then it counts as empty.  In
no case does the reader find a record that was not written.

Main result.

- `eq_of_ofText?_render`: what is read from the text of a ledger is the ledger.
-/

namespace KeysetBundle

/-! ## Numbers and sequences -/

namespace Json

/-- A number is read back if it has 64 bits. -/
theorem nat64?_ofNat_eq (n : Nat) : (ofNat n).nat64? = (some n).filter (· < limit64) := by
  have hread : (ofNat n).nat64? =
      (Decimal.value? (Nat.toDigits 10 n)).filter (· < limit64) := by
    rw [ofNat, Nat.toString_eq_repr, Nat.toList_repr]
    rfl
  rw [hread, Decimal.value?_toDigits]

theorem eq_of_nat64?_ofNat {n m : Nat} (h : (ofNat n).nat64? = some m) : m = n := by
  rw [nat64?_ofNat_eq] at h
  exact (Option.some.inj (Option.filter_eq_some_iff.1 h).1).symm

/-- What a reader of values gives of what a writer of values gives is what was written. -/
def Faithful {α : Type} (value? : Json → Option α) (write : α → Json) : Prop :=
  ∀ a b, value? (write a) = some b → b = a

theorem faithful_text : Faithful text? ofText := by
  intro value other h
  rw [text?_ofText] at h
  exact (Option.some.inj h).symm

theorem faithful_mapM {α β : Type} {value? : β → Option α} {write : α → β}
    (h : ∀ a b, value? (write a) = some b → b = a) {items results : List α}
    (hread : (items.map write).mapM value? = some results) : results = items := by
  induction items generalizing results with
  | nil =>
      cases hread
      rfl
  | cons item items ih =>
      rw [List.map_cons, List.mapM_cons] at hread
      cases hitem : value? (write item) with
      | none =>
          rw [hitem] at hread
          cases hread
      | some result =>
          rw [hitem] at hread
          cases hrest : (items.map write).mapM value? with
          | none =>
              simp only [hrest] at hread
              cases hread
          | some rest =>
              simp only [hrest] at hread
              cases hread
              rw [h item result hitem, ih hrest]

theorem faithful_items {α : Type} {value? : Json → Option α} {write : α → Json}
    (h : Faithful value? write) :
    Faithful (items? value?) fun list => .array (list.map write) :=
  fun _ _ hread => faithful_mapM h hread

end Json

/-! ## Dictionaries -/

namespace Dictionary

variable {α : Type}

theorem insertEntry_of_lt {key : String} {value : α} {entries : List (String × α)}
    (h : ∀ entry ∈ entries, entry.1 < key) :
    insertEntry key value entries = entries ++ [(key, value)] := by
  induction entries with
  | nil => rfl
  | cons entry entries ih =>
      have hfirst := h entry (by simp)
      have hnot : ¬key < entry.1 := String.lt_asymm hfirst
      have hne : key ≠ entry.1 := by
        intro heq
        rw [heq] at hfirst
        exact String.lt_irrefl _ hfirst
      rw [insertEntry, if_neg hnot, if_neg hne, ih fun other hother => h other (by simp [hother])]
      rfl

theorem entries_foldl_insert {pairs : List (String × α)} {d : Dictionary α}
    (h : (d.entries ++ pairs).Pairwise fun a b => a.1 < b.1) :
    (pairs.foldl (fun d pair => d.insert pair.1 pair.2) d).entries = d.entries ++ pairs := by
  induction pairs generalizing d with
  | nil => rw [List.foldl_nil, List.append_nil]
  | cons pair pairs ih =>
      have hlast : ∀ entry ∈ d.entries, entry.1 < pair.1 :=
        fun entry hentry => (List.pairwise_append.1 h).2.2 entry hentry pair (by simp)
      have hinsert : (d.insert pair.1 pair.2).entries = d.entries ++ [pair] :=
        insertEntry_of_lt hlast
      rw [List.foldl_cons, ih (by rw [hinsert, List.append_assoc]; exact h), hinsert,
        List.append_assoc]
      rfl

/-- The entries of a dictionary in their order make up the dictionary. -/
theorem ofList_toList (d : Dictionary α) : ofList d.toList = d := by
  apply ext
  have hempty : (empty : Dictionary α).entries = [] := rfl
  rw [ofList, entries_foldl_insert (by rw [hempty]; exact d.ascending), hempty]
  rfl

end Dictionary

namespace Freshness

open Json (Faithful Printed eq_of_nat64?_ofNat faithful_text)

/-- A dictionary is read from what was written by its entries. -/
theorem dictionary?_dictionaryJson_eq {α : Type} (value? : Json → Option α) (write : α → Json)
    (dictionary : Dictionary α) :
    Json.dictionary? value? (Record.dictionaryJson write dictionary) =
      ((dictionary.toList.map fun entry => (entry.1, write entry.2)).mapM
        fun (member : String × Json) => (value? member.2).map (member.1, ·)).map
          Dictionary.ofList := by
  have hmembers : ∀ members : List (String × Json),
      (Json.ofMembers members).members? = some members := Json.mapM_namedMember?
  unfold Json.dictionary? Record.dictionaryJson
  rw [hmembers]
  change ((dictionary.toList.map fun entry => (entry.1, write entry.2)).mapM
    (fun (member : String × Json) => (value? member.2).map (member.1, ·)) >>= _) = _
  rw [Option.map_eq_bind]
  rfl

theorem faithful_dictionary {α : Type} {value? : Json → Option α} {write : α → Json}
    (h : Faithful value? write) :
    Faithful (Json.dictionary? value?) (Record.dictionaryJson write) := by
  intro dictionary result hread
  rw [dictionary?_dictionaryJson_eq] at hread
  obtain ⟨entries, hentries, rfl⟩ := Option.map_eq_some_iff.1 hread
  have hsame : entries = dictionary.toList := by
    refine Json.faithful_mapM ?_ hentries
    rintro ⟨name, item⟩ ⟨name', item'⟩ hmember
    obtain ⟨found, hfound, heq⟩ := Option.map_eq_some_iff.1 hmember
    rw [← heq, h item found hfound]
  rw [hsame, Dictionary.ofList_toList]

/-! ## Fingerprints, records and ledgers -/

theorem Fingerprint.record?_toJson (fingerprint : Fingerprint) :
    fingerprint.toJson.record? ["path", "size", "mtime"] =
      some [some (.ofText fingerprint.path.text), some (.ofNat fingerprint.size),
        some (.ofNat fingerprint.mtime)] := Json.record?_ofMembers rfl (by decide)

theorem Record.record?_toJson (record : Record) :
    record.toJson.record? ["files", "fileLists", "settings"] =
      some [some (dictionaryJson Fingerprint.toJson record.files),
        some (dictionaryJson (fun list => .array (list.map Fingerprint.toJson)) record.fileLists),
        some (dictionaryJson Json.ofText record.settings)] :=
  Json.record?_ofMembers rfl (by decide)

theorem Ledger.record?_toJson (ledger : Ledger) :
    ledger.toJson.record? ["targets"] =
      some [some (Record.dictionaryJson Record.toJson ledger.targets)] :=
  Json.record?_ofMembers rfl (by decide)

theorem faithful_fingerprint : Faithful Fingerprint.ofJson? Fingerprint.toJson := by
  intro fingerprint result hread
  unfold Fingerprint.ofJson? at hread
  rw [fingerprint.record?_toJson] at hread
  obtain ⟨fields, hfields, hread⟩ := bind_eq_some.1 hread
  cases hfields
  obtain ⟨path, hpath, hread⟩ := bind_eq_some.1 hread
  obtain ⟨size, hsize, hread⟩ := bind_eq_some.1 hread
  obtain ⟨mtime, hmtime, hread⟩ := bind_eq_some.1 hread
  rw [← Option.some.inj hread, faithful_text _ _ hpath, eq_of_nat64?_ofNat hsize,
    eq_of_nat64?_ofNat hmtime]

theorem faithful_record : Faithful Record.ofJson? Record.toJson := by
  intro record result hread
  unfold Record.ofJson? at hread
  rw [record.record?_toJson] at hread
  obtain ⟨fields, hfields, hread⟩ := bind_eq_some.1 hread
  cases hfields
  obtain ⟨files, hfiles, hread⟩ := bind_eq_some.1 hread
  obtain ⟨fileLists, hfileLists, hread⟩ := bind_eq_some.1 hread
  obtain ⟨settings, hsettings, hread⟩ := bind_eq_some.1 hread
  rw [← Option.some.inj hread, faithful_dictionary faithful_fingerprint _ _ hfiles,
    faithful_dictionary (Json.faithful_items faithful_fingerprint) _ _ hfileLists,
    faithful_dictionary Json.faithful_text _ _ hsettings]

theorem faithful_ledger : Faithful Ledger.ofJson? Ledger.toJson := by
  intro ledger result hread
  unfold Ledger.ofJson? at hread
  rw [ledger.record?_toJson] at hread
  obtain ⟨fields, hfields, hread⟩ := bind_eq_some.1 hread
  cases hfields
  obtain ⟨targets, htargets, hread⟩ := bind_eq_some.1 hread
  rw [← Option.some.inj hread, faithful_dictionary faithful_record _ _ htargets]

/-! ## Texts of ledgers -/

theorem printed_dictionary {α : Type} {write : α → Json} (h : ∀ a, Printed (write a))
    (dictionary : Dictionary α) : Printed (Record.dictionaryJson write dictionary) := by
  apply Printed.object
  intro member hmember
  obtain ⟨entry, -, rfl⟩ := List.mem_map.1 hmember
  exact h entry.2

theorem printed_fingerprint (fingerprint : Fingerprint) : Printed fingerprint.toJson := by
  apply Printed.object
  simp only [List.mem_cons, List.not_mem_nil, or_false]
  rintro member (rfl | rfl | rfl)
  · exact .text _
  · exact .number _
  · exact .number _

theorem printed_record (record : Record) : Printed record.toJson := by
  apply Printed.object
  simp only [List.mem_cons, List.not_mem_nil, or_false]
  rintro member (rfl | rfl | rfl)
  · exact printed_dictionary printed_fingerprint _
  · refine printed_dictionary (fun list => .array ?_) _
    intro item hitem
    obtain ⟨fingerprint, -, rfl⟩ := List.mem_map.1 hitem
    exact printed_fingerprint fingerprint
  · exact printed_dictionary .text _

theorem printed_ledger (ledger : Ledger) : Printed ledger.toJson := by
  apply Printed.object
  simp only [List.mem_cons, List.not_mem_nil, or_false]
  rintro member rfl
  exact printed_dictionary printed_record _

/-- **What is read from the text of a ledger is the ledger.** -/
theorem eq_of_ofText?_render {ledger result : Ledger}
    (h : Ledger.ofText? ledger.render = some result) : result = ledger := by
  unfold Ledger.ofText? Ledger.render at h
  rw [Json.parse_pretty (printed_ledger ledger), Option.bind_some] at h
  exact faithful_ledger _ _ h

end Freshness

end KeysetBundle
