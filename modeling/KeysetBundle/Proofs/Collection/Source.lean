import KeysetBundle.Proofs.Script.Written

/-!
# Collections read back from their files

A collection that is written as a keyset file reads back: the file exports a
collection with the same names, and each of its keysets lists the same keys
with the same texts in the same order (`ofSource_fileText`).  The collection
can be written as one object, or each keyset on a line of its own; the order of
the lines plays no role then.

A keyset is written in property order, so the keyset that is read back may have
been given its keys in another order than the first one.  The two list the same.

The layout of a file plays no role either: `ofSource_of_tokens` says what any
source exports that has the tokens of such statements.
-/

namespace KeysetBundle

open KeysetBundle.Text

namespace Script

variable {β γ : Type}

/-! ## Values -/

theorem value_text {text : String} {node : Node} (h : IsTextNode text node) :
    node.value = .ok text := by
  obtain ⟨line, rfl⟩ := h
  rw [Node.value, ofCodePoints?_toNat]

theorem keyValue_entry {Value : β → Node → Prop} {entry : String × β} {node : Node}
    (h : IsEntryNode Value entry node) :
    ∃ value, node.keyValue = .ok (entry.1, value) ∧ Value entry.2 value := by
  obtain ⟨line, place, value, rfl, hvalue⟩ := h
  refine ⟨value, ?_, hvalue⟩
  rw [Node.keyValue, Node.keyName, ofCodePoints?_toNat]
  rfl

/-- The entries of an object are read one by one. -/
theorem mapM_entries {Value : β → Node → Prop} {read : Node → Except Unsupported (String × γ)}
    {result : β → γ}
    (hread : ∀ entry node, IsEntryNode Value entry node →
      read node = .ok (entry.1, result entry.2))
    {entries : List (String × β)} {nodes : List Node}
    (h : List.Forall₂ (IsEntryNode Value) entries nodes) :
    nodes.mapM read = .ok (entries.map fun entry => (entry.1, result entry.2)) := by
  induction h with
  | nil => rfl
  | cons hnode _ ih => exact mapM_cons_eq_ok.2 ⟨_, _, hread _ _ hnode, ih, rfl⟩

theorem keyset_node {keyset : Keyset} {node : Node} (h : IsKeysetNode keyset node) :
    node.keyset = .ok keyset.inPropertyOrder := by
  obtain ⟨line, properties, rfl, hproperties⟩ := h
  have hentry : ∀ (entry : String × String) (node : Node), IsEntryNode IsTextNode entry node →
      node.entry = .ok (entry.1, id entry.2) := by
    intro entry node hnode
    obtain ⟨value, hkey, hvalue⟩ := keyValue_entry hnode
    exact bind_eq_ok.2 ⟨_, hkey, bind_eq_ok.2 ⟨_, value_text hvalue, rfl⟩⟩
  refine bind_eq_ok.2 ⟨properties, rfl, bind_eq_ok.2 ⟨_, mapM_entries hentry hproperties, ?_⟩⟩
  simp [Keyset.inPropertyOrder]

end Script

/-! ## Collections in property order -/

namespace Collection

/-- The collection with all keysets in property order. -/
def inPropertyOrder (collection : Collection) : Collection where
  entries := collection.entries.map fun entry => (entry.1, entry.2.inPropertyOrder)
  ascending := by
    rw [List.pairwise_map]
    exact collection.ascending

/-- The names of a collection with the keys and texts of their keysets, as they are listed. -/
def listing (collection : Collection) : List (String × List (String × String)) :=
  collection.toList.map fun entry => (entry.1, entry.2.toList)

theorem listing_inPropertyOrder (collection : Collection) :
    collection.inPropertyOrder.listing = collection.listing := by
  have hentry : ∀ entry : String × Keyset,
      (entry.1, entry.2.inPropertyOrder.toList) = (entry.1, entry.2.toList) := by
    intro entry
    rw [Keyset.toList_inPropertyOrder]
  unfold listing inPropertyOrder Dictionary.toList
  rw [List.map_map]
  exact List.map_congr_left fun entry _ => hentry entry

/-- The order in which keysets are added plays no role. -/
theorem ofList_inPropertyOrder {collection : Collection} {entries : List (String × Keyset)}
    (h : entries.Perm collection.toList) :
    Dictionary.ofList (entries.map fun entry => (entry.1, entry.2.inPropertyOrder)) =
      collection.inPropertyOrder := by
  have hperm := h.map fun entry : String × Keyset => (entry.1, entry.2.inPropertyOrder)
  have hreversed := (List.reverse_perm _).trans hperm
  refine Dictionary.ext_get? fun name => ?_
  rw [Dictionary.get?_ofList]
  refine lookup_eq_of_perm hreversed ?_ name
  exact (hreversed.map Prod.fst).nodup_iff.2 collection.inPropertyOrder.nodup_keys

end Collection

/-! ## Exports -/

namespace Script

theorem collection_node {collection : Collection} {node : Node}
    (h : IsObjectNode IsKeysetNode collection.toList node) :
    node.collection = .ok collection.inPropertyOrder := by
  obtain ⟨line, properties, rfl, hproperties⟩ := h
  have hentry : ∀ (entry : String × Keyset) (node : Node), IsEntryNode IsKeysetNode entry node →
      node.keysetEntry = .ok (entry.1, entry.2.inPropertyOrder) := by
    intro entry node hnode
    obtain ⟨value, hkey, hvalue⟩ := keyValue_entry hnode
    exact bind_eq_ok.2 ⟨_, hkey, bind_eq_ok.2 ⟨_, keyset_node hvalue, rfl⟩⟩
  refine bind_eq_ok.2 ⟨properties, rfl, bind_eq_ok.2 ⟨_, mapM_entries hentry hproperties, ?_⟩⟩
  rw [Collection.ofList_inPropertyOrder (.refl _)]

/-- The exports after one more statement. -/
def WrittenExport.after (exports : Option Collection) : WrittenExport → Collection
  | .whole collection => collection.inPropertyOrder
  | .keyset name keys => (exports.getD .empty).insert name keys.inPropertyOrder

theorem ExportTarget.IsNode.exportTarget? {target : ExportTarget} {node : Node}
    (h : target.IsNode node) : node.exportTarget? = some target := by
  cases target with
  | whole =>
      obtain ⟨line, place, rfl⟩ := h
      rfl
  | keyset name =>
      obtain ⟨line, place, key, rfl, ⟨start, rfl⟩⟩ := h
      have hparts : Node.memberParts? (.index line (.name place "exports")
          (.text start (name.toList.map Char.toNat))) = some (.name place "exports", name) := by
        rw [Node.memberParts?, ofCodePoints?_toNat]
        rfl
      unfold Node.exportTarget? Node.isModuleExports
      rw [hparts]
      rfl

/-- A statement is an assignment that takes effect. -/
theorem assignments_node (statement : WrittenExport) {node : Node} (h : statement.IsNode node) :
    ∃ assignment, node.assignments = [assignment] ∧
      ∀ exports, Assignment.apply exports assignment = .ok (some (statement.after exports)) := by
  obtain ⟨line, place, left, value, rfl, hleft, hvalue⟩ := h
  refine ⟨⟨statement.target, value⟩, ?_, fun exports => ?_⟩
  · simp only [Node.assignments, Node.assignmentsOfAll, hleft.exportTarget?, List.append_nil]
  · cases statement with
    | whole collection => exact bind_eq_ok.2 ⟨_, collection_node hvalue, rfl⟩
    | keyset name keys => exact bind_eq_ok.2 ⟨_, keyset_node hvalue, rfl⟩

/-- What statements export one after the other. -/
theorem exportsOf_eq {statements : List WrittenExport} {items : List Node}
    (h : List.Forall₂ WrittenExport.IsNode statements items) :
    exportsOf items =
      .ok (statements.foldl (fun exports statement => some (statement.after exports)) none) := by
  have hcollect : ∀ exports, (Node.assignmentsOfAll items).foldlM Assignment.apply exports =
      .ok (statements.foldl (fun exports statement => some (statement.after exports)) exports) := by
    induction h with
    | nil => exact fun exports => rfl
    | @cons statement _ _ _ hnode _ ih =>
        intro exports
        obtain ⟨assignment, hassignment, happly⟩ := assignments_node statement hnode
        rw [Node.assignmentsOfAll, hassignment, List.singleton_append, List.foldlM_cons, happly]
        exact ih _
  exact hcollect none

end Script

namespace Collection

open Script

/-- **What a source with the tokens of statements exports.** -/
theorem ofSource_of_tokens {source : String} {statements : List WrittenExport}
    (h : tokens (withoutPreamble source.toList) = some (statements.flatMap WrittenExport.tokens))
    (path : Path) :
    ofSource source path =
      match statements.foldl (fun exports statement => some (statement.after exports)) none with
      | none => .error (.noExports path)
      | some collection => .ok collection := by
  obtain ⟨items, hparse, hnodes⟩ := exists_parse h
  rw [ofSource_eq hparse, exportsOf_eq hnodes]
  cases statements.foldl (fun exports statement => some (statement.after exports)) none <;> rfl

/-- Keysets that are exported one after the other are added to the collection. -/
theorem foldl_keysets (entries : List (String × Keyset)) (collection : Collection) :
    (entries.map fun entry => WrittenExport.keyset entry.1 entry.2).foldl
      (fun exports statement => some (statement.after exports)) (some collection) =
      some ((entries.map fun entry => (entry.1, entry.2.inPropertyOrder)).foldl
        (fun collection entry => collection.insert entry.1 entry.2) collection) := by
  induction entries generalizing collection with
  | nil => rfl
  | cons entry entries ih => exact ih (collection.insert entry.1 entry.2.inPropertyOrder)

/-- **A written collection reads back.**  The file exports a collection with the same names, whose
keysets list the same keys and texts in the same order: if it is written as one object, and if it
has a keyset at all and each keyset is written on its own, whatever the order. -/
theorem ofSource_fileText (collection : Collection) (path : Path) :
    (∃ loaded, ofSource (fileText [.whole collection]) path = .ok loaded ∧
      loaded.listing = collection.listing) ∧
    ∀ entries, entries.Perm collection.toList → entries ≠ [] →
      ∃ loaded, ofSource (fileText (entries.map fun entry => .keyset entry.1 entry.2)) path =
          .ok loaded ∧
        loaded.listing = collection.listing := by
  refine ⟨⟨_, ofSource_of_tokens (tokens_fileText _) path, listing_inPropertyOrder _⟩, ?_⟩
  intro entries hperm hsome
  obtain ⟨first, rest, rfl⟩ := List.exists_cons_of_ne_nil hsome
  refine ⟨collection.inPropertyOrder, ?_, listing_inPropertyOrder _⟩
  have hexports : ((first :: rest).map fun entry => WrittenExport.keyset entry.1 entry.2).foldl
      (fun exports statement => some (statement.after exports)) none =
        some collection.inPropertyOrder := by
    rw [← ofList_inPropertyOrder hperm]
    exact foldl_keysets (first :: rest) .empty
  rw [ofSource_of_tokens (tokens_fileText _) path, hexports]

/-- A keyset with keys that are array indices, in the order in which they were inserted. -/
def awkwardKeys : Keyset := .ofList [("", "\\"), ("9", "\"\u2028"), ("10", "\x00")]

/-- A collection with names that need care. -/
def awkwardCollection : Collection := .ofList [("'\n", awkwardKeys), ("__proto__", .empty)]

/-- The keysets may be written in any order. -/
theorem ofSource_fileText_reversed :
    [("__proto__", .empty), ("'\n", awkwardKeys)].Perm awkwardCollection.toList ∧
    ∃ loaded, ofSource (fileText [.keyset "__proto__" .empty, .keyset "'\n" awkwardKeys])
        ⟨"a.i18n/en.js"⟩ = .ok loaded ∧
      loaded.listing = [("'\n", [("9", "\"\u2028"), ("10", "\x00"), ("", "\\")]),
        ("__proto__", [])] := by
  have hperm : [("__proto__", .empty), ("'\n", awkwardKeys)].Perm awkwardCollection.toList := by
    decide
  have hlisting : awkwardCollection.listing =
      [("'\n", [("9", "\"\u2028"), ("10", "\x00"), ("", "\\")]), ("__proto__", [])] := by
    have hkeys : awkwardKeys.toList = [("9", "\"\u2028"), ("10", "\x00"), ("", "\\")] :=
      Keyset.toList_of_pairwise (by decide)
    have hempty : Keyset.empty.toList = [] := Keyset.toList_of_pairwise (by decide)
    show [("'\n", awkwardKeys.toList), ("__proto__", Keyset.empty.toList)] = _
    rw [hkeys, hempty]
  obtain ⟨loaded, hloaded, hsame⟩ :=
    (ofSource_fileText awkwardCollection ⟨"a.i18n/en.js"⟩).2 _ hperm (by simp)
  exact ⟨hperm, loaded, hloaded, hsame.trans hlisting⟩

end Collection

end KeysetBundle
