import KeysetBundle.Json.Decode
import KeysetBundle.Proofs.Dictionary
import KeysetBundle.Proofs.Json.RoundTrip
import KeysetBundle.Proofs.Text.Surrogates

/-!
# Records read back

Texts, sequences and objects that were written are read as they were written.
A reader of records has a list of fields: of an object whose members are all
different fields it gets the value of each field, and nothing for a field that
has no member (`record?_of_known`).
-/

namespace KeysetBundle

/-- A bind of optional values has a result if both parts have. -/
theorem bind_eq_some {α β : Type} {x : Option α} {f : α → Option β} {b : β} :
    (x >>= f) = some b ↔ ∃ a, x = some a ∧ f a = some b := Option.bind_eq_some_iff

namespace Json

/-! ## Texts and sequences -/

theorem ofCodePoints?_pointsOf (value : String) :
    Text.ofCodePoints? (pointsOf value) = some value := Text.ofCodePoints?_toNat value

theorem text?_ofText (value : String) : (ofText value).text? = some value :=
  ofCodePoints?_pointsOf value

/-- What is written item by item is read if each item is. -/
theorem mapM_write {α β : Type} {value? : β → Option α} (write : α → β) {items : List α}
    (h : ∀ item ∈ items, value? (write item) = some item) :
    (items.map write).mapM value? = some items := by
  induction items with
  | nil => rfl
  | cons item items ih =>
      rw [List.map_cons, List.mapM_cons, h item (by simp),
        ih fun other hother => h other (by simp [hother])]
      rfl

theorem texts?_ofTexts (values : List String) : (ofTexts values).texts? = some values :=
  mapM_write ofText fun value _ => text?_ofText value

/-! ## Objects -/

theorem mapM_namedMember? (members : List (String × Json)) :
    (pointsMembers members).mapM namedMember? = some members := by
  refine mapM_write (fun member : String × Json => (pointsOf member.1, member.2)) ?_
  rintro ⟨name, value⟩ -
  rw [namedMember?, ofCodePoints?_pointsOf]
  rfl

/-- **The fields of an object.**  If its members are different fields, a record has their values;
a field without a member has none. -/
theorem record?_of_known {fields : List String} {members : List (String × Json)}
    (hnodup : (members.map Prod.fst).Nodup) (hknown : ∀ name ∈ members.map Prod.fst, name ∈ fields) :
    (ofMembers members).record? fields = some (fields.map fun field => members.lookup field) := by
  have hfilter : (members.map Prod.fst).filter fields.contains = members.map Prod.fst := by
    rw [List.filter_eq_self]
    intro name hname
    exact List.contains_iff_mem.2 (hknown name hname)
  show ((pointsMembers members).mapM namedMember? >>= _) = _
  rw [mapM_namedMember?]
  show (if decide (List.Nodup ((members.map Prod.fst).filter _)) = true then _ else _) = _
  rw [hfilter, if_pos (decide_eq_true hnodup)]

/-- An object with exactly the fields of a record has all their values. -/
theorem record?_ofMembers {fields : List String} {members : List (String × Json)}
    (hfields : members.map Prod.fst = fields) (hnodup : fields.Nodup) :
    (ofMembers members).record? fields = some (members.map fun member => some member.2) := by
  subst hfields
  rw [record?_of_known hnodup fun _ hname => hname, List.map_map]
  refine congrArg some (List.map_congr_left fun member hmember => ?_)
  exact (lookup_eq_some_iff_mem hnodup).2 hmember

end Json

end KeysetBundle
