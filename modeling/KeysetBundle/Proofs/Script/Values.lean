import Mathlib.Data.List.Forall2
import KeysetBundle.Proofs.Dictionary
import KeysetBundle.Proofs.Except
import KeysetBundle.Proofs.Keyset.Listing
import KeysetBundle.Script.Exports

/-!
# The values of expressions

An expression has a text if its leaves have one: those of a sum, from left to
right, without parentheses.  A keyset is an object whose properties have a key
and a text, a collection one whose properties have a name and a keyset.  Where
something has no value, the first part that has none is at fault.

What follows says which values expressions have and which faults, each by a
relation of its own, and that the evaluation of expressions finds the value or
the fault (`Evaluates`).

Main results.

- `evaluates_value`: the texts.
- `evaluates_keyset`: the keysets, with the keys in the order of properties and
  the last value of each.
- `evaluates_collection`: the collections.
-/

namespace KeysetBundle.Script

open KeysetBundle.Text (ofCodePoints?)

/-! ## The first fault -/

section Evaluators

variable {α β γ ε : Type}

/-- The first item that has a fault, behind items that have values. -/
def First (Value : α → β → Prop) (Fault : α → ε → Prop) (items : List α) (e : ε) : Prop :=
  ∃ before item after, items = before ++ item :: after ∧
    (∀ other ∈ before, ∃ value, Value other value) ∧ Fault item e

/-- A computation finds the value of what it is given, or else the fault. -/
structure Evaluates (f : α → Except ε β) (Value : α → β → Prop) (Fault : α → ε → Prop) : Prop where
  /-- A result is a value. -/
  value : ∀ {a b}, f a = .ok b → Value a b
  /-- An error is a fault, and a fault is an error. -/
  fault : ∀ {a e}, f a = .error e ↔ Fault a e
  /-- What has a value has no fault. -/
  exclusive : ∀ {a b e}, Value a b → ¬Fault a e

namespace Evaluates

variable {f : α → Except ε β} {Value : α → β → Prop} {Fault : α → ε → Prop}

/-- Results that are the values and errors that are the faults. -/
theorem of_iff (hvalue : ∀ a b, f a = .ok b ↔ Value a b)
    (hfault : ∀ a e, f a = .error e ↔ Fault a e) :
    Evaluates f Value Fault where
  value := (hvalue _ _).1
  fault := hfault _ _
  exclusive := by
    intro a b e hb he
    have hok := (hvalue a b).2 hb
    rw [(hfault a e).2 he] at hok
    cases hok

theorem exists_ok_iff (h : Evaluates f Value Fault) {a : α} :
    (∃ b, f a = .ok b) ↔ ∃ b, Value a b := by
  constructor
  · intro ⟨b, hb⟩
    exact ⟨b, h.value hb⟩
  · intro ⟨b, hb⟩
    cases hf : f a with
    | ok b' => exact ⟨b', rfl⟩
    | error e => exact absurd (h.fault.1 hf) (h.exclusive hb)

/-- The items of a list are evaluated one after the other, up to the first fault. -/
theorem mapM (h : Evaluates f Value Fault) :
    Evaluates (fun items : List α => items.mapM f) (List.Forall₂ Value) (First Value Fault) where
  value := by
    intro items values hok
    induction items generalizing values with
    | nil =>
        cases hok
        exact .nil
    | cons item items ih =>
        obtain ⟨value, others, hvalue, hothers, rfl⟩ := mapM_cons_eq_ok.1 hok
        exact .cons (h.value hvalue) (ih hothers)
  fault := by
    intro items e
    simp only [mapM_eq_error, First, h.exists_ok_iff, h.fault]
  exclusive := by
    intro items values e hvalues hfirst
    obtain ⟨before, item, after, rfl, -, hfault⟩ := hfirst
    induction before generalizing values with
    | nil =>
        cases hvalues with
        | cons hvalue _ => exact h.exclusive hvalue hfault
    | cons first before ih =>
        cases hvalues with
        | cons _ hrest => exact ih hrest

/-- What is made of a value keeps the faults. -/
theorem map (h : Evaluates f Value Fault) (build : β → γ) :
    Evaluates (fun a => (f a).map build) (fun a c => ∃ b, Value a b ∧ c = build b) Fault where
  value := by
    intro a c hok
    obtain ⟨b, hb, rfl⟩ := map_eq_ok.1 hok
    exact ⟨b, h.value hb, rfl⟩
  fault := map_eq_error.trans h.fault
  exclusive := fun ⟨_, hb, _⟩ => h.exclusive hb

/-- A value may be described by less than what makes it up. -/
theorem weaken {Value' : α → β → Prop} (h : Evaluates f Value Fault)
    (hsub : ∀ {a b}, Value a b → Value' a b) (hsome : ∀ {a b}, Value' a b → ∃ b', Value a b') :
    Evaluates f Value' Fault where
  value := fun hok => hsub (h.value hok)
  fault := h.fault
  exclusive := by
    intro a b e hvalue hfault
    obtain ⟨b', hb'⟩ := hsome hvalue
    exact h.exclusive hb' hfault

end Evaluates

/-- The first fault of a list is that of its first item, or comes later if this has a value. -/
theorem first_cons {Value : α → β → Prop} {Fault : α → ε → Prop} {item : α} {rest : List α}
    {e : ε} :
    First Value Fault (item :: rest) e ↔
      Fault item e ∨ (∃ value, Value item value) ∧ First Value Fault rest e := by
  constructor
  · intro ⟨before, bad, after, hsplit, hbefore, hfault⟩
    cases before with
    | nil =>
        cases hsplit
        exact .inl hfault
    | cons first before =>
        cases hsplit
        exact .inr ⟨hbefore item (by simp),
          before, bad, after, rfl, fun other hother => hbefore other (by simp [hother]), hfault⟩
  · intro h
    rcases h with hfault | ⟨hitem, before, bad, after, rfl, hbefore, hfault⟩
    · exact ⟨[], item, rest, rfl, by simp, hfault⟩
    · refine ⟨item :: before, bad, after, rfl, ?_, hfault⟩
      intro other hother
      rcases List.mem_cons.1 hother with rfl | hother
      · exact hitem
      · exact hbefore other hother

end Evaluators

namespace Node

/-! ## Texts -/

/-- The leaves of a sum from left to right, without parentheses. -/
def leaves : Node → List Node
  | .paren _ inner => inner.leaves
  | .sum _ left right => left.leaves ++ right.leaves
  | node => [node]

/-- The text of a leaf: a text in quotes, or one in backquotes without substitutions. -/
inductive IsText : Node → String → Prop
  /-- A text in quotes. -/
  | text {line : Nat} {points : List Nat} {words : String} (h : ofCodePoints? points = some words) :
    IsText (.text line points) words
  /-- A text in backquotes. -/
  | template {line : Nat} {points : List Nat} {rest : List (Option (List Nat))} {words : String}
    (h : ofCodePoints? points = some words) : IsText (.template line (some points :: rest) []) words

/-- What is wrong with a leaf that has no text. -/
inductive IsNoText : Node → Unsupported → Prop
  /-- Half of a surrogate pair in quotes. -/
  | text {line : Nat} {points : List Nat} (h : ofCodePoints? points = none) :
    IsNoText (.text line points) ⟨line, .brokenText⟩
  /-- Half of a surrogate pair, or nothing, in backquotes. -/
  | template {line : Nat} {pieces : List (Option (List Nat))}
    (h : ∀ words, ¬IsText (.template line pieces []) words) :
    IsNoText (.template line pieces []) ⟨line, .brokenTemplate⟩
  /-- Substitutions in backquotes. -/
  | substitutions {line : Nat} {pieces : List (Option (List Nat))} {first : Node}
    {rest : List Node} :
    IsNoText (.template line pieces (first :: rest)) ⟨line, .substitutions⟩
  /-- Anything else. -/
  | other {node : Node} (htext : ∀ line points, node ≠ .text line points)
    (htemplate : ∀ line pieces substitutions, node ≠ .template line pieces substitutions) :
    IsNoText node ⟨node.line, .notText⟩

/-- The text of an expression: those of its leaves, one after the other. -/
def HasText (node : Node) (words : String) : Prop :=
  ∃ texts, List.Forall₂ IsText node.leaves texts ∧ words = String.join texts

/-- The first leaf without a text is at fault. -/
def TextFault (node : Node) (e : Unsupported) : Prop := First IsText IsNoText node.leaves e

/-- The text that the evaluation finds for a leaf. -/
def leafText (node : Node) : Except Unsupported String :=
  match node with
  | .paren .. | .sum .. => .error ⟨node.line, .notText⟩
  | leaf => leaf.value

/-- The text of an expression is that of its leaves. -/
theorem value_eq (node : Node) : node.value = (node.leaves.mapM leafText).map String.join := by
  fun_induction leaves node with
  | case1 line inner ih => exact ih
  | case2 line left right ihleft ihright =>
      rw [value, ihleft, ihright, List.mapM_append]
      cases left.leaves.mapM leafText with
      | error e => rfl
      | ok first =>
          cases right.leaves.mapM leafText with
          | error e => rfl
          | ok second => simp [bind, Except.bind, pure, Except.pure, Except.map]
  | case3 node hparen hsum =>
      have htext : leafText node = node.value := by
        unfold leafText
        split
        · exact absurd rfl (hparen _ _)
        · exact absurd rfl (hsum _ _ _)
        · rfl
      rw [List.mapM_cons, htext]
      cases node.value with
      | error e => rfl
      | ok words => simp [bind, Except.bind, pure, Except.pure, Except.map]

theorem isText_template_iff {line : Nat} {pieces : List (Option (List Nat))} {words : String} :
    IsText (.template line pieces []) words ↔
      pieces.head?.join.bind ofCodePoints? = some words := by
  constructor
  · intro h
    cases h with
    | template hwords => exact hwords
  · intro h
    cases pieces with
    | nil => cases h
    | cons piece rest =>
        cases piece with
        | none => cases h
        | some points => exact .template h

theorem leafText_eq_ok_iff (leaf : Node) (words : String) :
    leafText leaf = .ok words ↔ IsText leaf words := by
  constructor
  · intro h
    cases leaf with
    | text line points =>
        simp only [leafText, value] at h
        split at h
        · rename_i found hfound
          cases h
          exact .text hfound
        · cases h
    | template line pieces substitutions =>
        cases substitutions with
        | cons first rest => cases h
        | nil =>
            simp only [leafText, value] at h
            split at h
            · rename_i found hfound
              cases h
              exact isText_template_iff.2 hfound
            · cases h
    | _ => cases h
  · intro h
    cases h with
    | text hwords => simp only [leafText, value, hwords]
    | @template line points rest words hwords =>
        have hpieces : (some points :: rest).head?.join.bind ofCodePoints? = some words := hwords
        simp only [leafText, value, hpieces]

theorem leafText_eq_error_iff (leaf : Node) (e : Unsupported) :
    leafText leaf = .error e ↔ IsNoText leaf e := by
  constructor
  · intro h
    cases leaf with
    | text line points =>
        simp only [leafText, value] at h
        split at h
        · cases h
        · rename_i hnone
          cases h
          exact .text hnone
    | template line pieces substitutions =>
        cases substitutions with
        | cons first rest =>
            cases h
            exact .substitutions
        | nil =>
            have hnone : ∀ words, ¬IsText (.template line pieces []) words := by
              intro words htext
              rw [(leafText_eq_ok_iff _ words).2 htext] at h
              cases h
            simp only [leafText, value] at h
            split at h
            · cases h
            · cases h
              exact .template hnone
    | _ =>
        cases h
        exact .other nofun nofun
  · intro h
    cases h with
    | text hnone => simp only [leafText, value, hnone]
    | @template line pieces hnone =>
        cases hpieces : pieces.head?.join.bind ofCodePoints? with
        | some words => exact absurd (isText_template_iff.2 hpieces) (hnone words)
        | none => simp only [leafText, value, hpieces]
    | substitutions => rfl
    | other htext htemplate =>
        cases leaf with
        | text line points => exact absurd rfl (htext line points)
        | template line pieces substitutions =>
            exact absurd rfl (htemplate line pieces substitutions)
        | _ => rfl

theorem evaluates_leafText : Evaluates leafText IsText IsNoText :=
  .of_iff leafText_eq_ok_iff leafText_eq_error_iff

/-- **The text of an expression** is found, or else the first leaf that has none. -/
theorem evaluates_value : Evaluates value HasText TextFault := by
  have h := evaluates_leafText.mapM.map String.join
  exact ⟨fun hok => h.value ((value_eq _).symm.trans hok),
    fun {a e} => by rw [value_eq]; exact h.fault (a := a.leaves), h.exclusive⟩

/-! ## Properties -/

/-- The name that a key stands for. -/
inductive IsKey : Node → String → Prop
  /-- A name. -/
  | name {line : Nat} {id : String} : IsKey (.name line id) id
  /-- A text in quotes. -/
  | text {line : Nat} {points : List Nat} {id : String} (h : ofCodePoints? points = some id) :
    IsKey (.text line points) id
  /-- A number. -/
  | number {line : Nat} {n : Decimal.Binary64} : IsKey (.number line n) (numericName n)

/-- What is wrong with a key that stands for no name. -/
inductive KeyFault : Node → Unsupported → Prop
  /-- Half of a surrogate pair in quotes. -/
  | text {line : Nat} {points : List Nat} (h : ofCodePoints? points = none) :
    KeyFault (.text line points) ⟨line, .brokenKey⟩
  /-- Anything else. -/
  | other {node : Node} (hname : ∀ line id, node ≠ .name line id)
    (htext : ∀ line points, node ≠ .text line points) (hnumber : ∀ line n, node ≠ .number line n) :
    KeyFault node ⟨node.line, .computedKey⟩

theorem keyName_eq_ok_iff (key : Node) (id : String) : key.keyName = .ok id ↔ IsKey key id := by
  constructor
  · intro h
    cases key with
    | name line other =>
        cases h
        exact .name
    | text line points =>
        simp only [keyName] at h
        split at h
        · rename_i found hfound
          cases h
          exact .text hfound
        · cases h
    | number line n =>
        cases h
        exact .number
    | _ => cases h
  · intro h
    cases h with
    | name => rfl
    | text hid => simp only [keyName, hid]
    | number => rfl

theorem keyName_eq_error_iff (key : Node) (e : Unsupported) :
    key.keyName = .error e ↔ KeyFault key e := by
  constructor
  · intro h
    cases key with
    | name line id => cases h
    | text line points =>
        simp only [keyName] at h
        split at h
        · cases h
        · rename_i hnone
          cases h
          exact .text hnone
    | number line n => cases h
    | _ =>
        cases h
        exact .other nofun nofun nofun
  · intro h
    cases h with
    | text hnone => simp only [keyName, hnone]
    | other hname htext hnumber =>
        cases key with
        | name line id => exact absurd rfl (hname line id)
        | text line points => exact absurd rfl (htext line points)
        | number line n => exact absurd rfl (hnumber line n)
        | _ => rfl

theorem evaluates_keyName : Evaluates keyName IsKey KeyFault :=
  .of_iff keyName_eq_ok_iff keyName_eq_error_iff

section Entries

variable {α : Type}

/-- The name and the value of a property. -/
inductive IsEntry (Value : Node → α → Prop) : Node → String × α → Prop
  /-- A key and an expression. -/
  | mk {line : Nat} {key expression : Node} {id : String} {a : α} (hkey : IsKey key id)
    (hvalue : Value expression a) : IsEntry Value (.property line key expression) (id, a)

/-- What is wrong with a property: its key, or else its value, or else that it has none. -/
inductive EntryFault (Fault : Node → Unsupported → Prop) : Node → Unsupported → Prop
  /-- The key stands for no name. -/
  | key {line : Nat} {key expression : Node} {e : Unsupported} (h : KeyFault key e) :
    EntryFault Fault (.property line key expression) e
  /-- The expression has no value. -/
  | value {line : Nat} {key expression : Node} {id : String} {e : Unsupported} (hkey : IsKey key id)
    (h : Fault expression e) : EntryFault Fault (.property line key expression) e
  /-- Properties of another object. -/
  | spread {line : Nat} {comma : Bool} {inner : Node} :
    EntryFault Fault (.spread line comma inner) ⟨line, .spread⟩
  /-- Anything else, such as a method. -/
  | other {node : Node} (hproperty : ∀ line key expression, node ≠ .property line key expression)
    (hspread : ∀ line comma inner, node ≠ .spread line comma inner) :
    EntryFault Fault node ⟨node.line, .notKeyValue⟩

variable {f : Node → Except Unsupported α} {Value : Node → α → Prop}
  {Fault : Node → Unsupported → Prop}

theorem evaluates_entryOf (h : Evaluates f Value Fault) :
    Evaluates (fun property => do
      let (id, expression) ← keyValue property
      let a ← f expression
      .ok (id, a)) (IsEntry Value) (EntryFault Fault) where
  value := by
    intro property entry hok
    obtain ⟨⟨id, expression⟩, hpair, hok⟩ := bind_eq_ok.1 hok
    obtain ⟨a, ha, hok⟩ := bind_eq_ok.1 hok
    cases hok
    cases property with
    | property line key other =>
        obtain ⟨id', hid, hpair⟩ := bind_eq_ok.1 hpair
        cases hpair
        exact .mk (evaluates_keyName.value hid) (h.value ha)
    | _ => cases hpair
  fault := by
    intro property e
    simp only [bind_eq_error]
    constructor
    · rintro (hpair | ⟨⟨id, expression⟩, hpair, ha | ⟨a, -, hnone⟩⟩)
      · cases property with
        | property line key expression =>
            rcases bind_eq_error.1 hpair with hkey | ⟨id, -, hnone⟩
            · exact .key (evaluates_keyName.fault.1 hkey)
            · cases hnone
        | spread line comma inner =>
            cases hpair
            exact .spread
        | _ =>
            cases hpair
            exact .other nofun nofun
      · cases property with
        | property line key other =>
            obtain ⟨id', hid, hpair⟩ := bind_eq_ok.1 hpair
            cases hpair
            exact .value (evaluates_keyName.value hid) (h.fault.1 ha)
        | _ => cases hpair
      · cases hnone
    · intro hfault
      cases hfault with
      | key hkey => exact .inl (bind_eq_error.2 (.inl (evaluates_keyName.fault.2 hkey)))
      | value hkey ha =>
          refine .inr ⟨(_, _), bind_eq_ok.2 ⟨_, (keyName_eq_ok_iff _ _).2 hkey, rfl⟩, .inl ?_⟩
          exact h.fault.2 ha
      | spread => exact .inl rfl
      | other hproperty hspread =>
          refine .inl ?_
          cases property with
          | property line key expression => exact absurd rfl (hproperty line key expression)
          | spread line comma inner => exact absurd rfl (hspread line comma inner)
          | _ => rfl
  exclusive := by
    intro property entry e hentry hfault
    cases hentry with
    | mk hkey hvalue =>
        cases hfault with
        | key hno => exact evaluates_keyName.exclusive hkey hno
        | value _ hno => exact h.exclusive hvalue hno
        | other hproperty _ => exact hproperty _ _ _ rfl

theorem properties_eq_ok_iff {reason : Reason} {node : Node} {items : List Node} :
    properties reason node = .ok items ↔ ∃ line, node.unwrapped = .object line items := by
  unfold properties
  split <;> simp_all

theorem properties_eq_error_iff {reason : Reason} {node : Node} {e : Unsupported} :
    properties reason node = .error e ↔
      (∀ line items, node.unwrapped ≠ .object line items) ∧ e = ⟨node.unwrapped.line, reason⟩ := by
  unfold properties
  split
  · rename_i line items hobject
    simp [hobject]
  · rename_i hnone
    rw [Except.error.injEq, eq_comm]
    exact ⟨fun he => ⟨hnone, he⟩, fun h => h.2⟩

/-- The names and values of the properties of an object, which may stand in parentheses. -/
def HasEntries (Value : Node → α → Prop) (node : Node) (entries : List (String × α)) : Prop :=
  ∃ line properties, node.unwrapped = .object line properties ∧
    List.Forall₂ (IsEntry Value) properties entries

/-- What is wrong with an expression that should be an object: that it is none, or else the first
property with a fault. -/
inductive EntriesFault (Value : Node → α → Prop) (Fault : Node → Unsupported → Prop)
    (reason : Reason) : Node → Unsupported → Prop
  /-- It is no object. -/
  | shape {node : Node} (h : ∀ line properties, node.unwrapped ≠ .object line properties) :
    EntriesFault Value Fault reason node ⟨node.unwrapped.line, reason⟩
  /-- A property has a fault. -/
  | property {node : Node} {line : Nat} {properties : List Node} {e : Unsupported}
    (h : node.unwrapped = .object line properties)
    (hfirst : First (IsEntry Value) (EntryFault Fault) properties e) :
    EntriesFault Value Fault reason node e

theorem evaluates_entries (reason : Reason) {g : Node → Except Unsupported (String × α)}
    (h : Evaluates g (IsEntry Value) (EntryFault Fault)) :
    Evaluates (fun node => do
      let items ← properties reason node
      items.mapM g) (HasEntries Value) (EntriesFault Value Fault reason) where
  value := by
    intro node entries hok
    obtain ⟨items, hitems, hok⟩ := bind_eq_ok.1 hok
    obtain ⟨line, hobject⟩ := properties_eq_ok_iff.1 hitems
    exact ⟨line, items, hobject, h.mapM.value hok⟩
  fault := by
    intro node e
    simp only [bind_eq_error]
    constructor
    · rintro (hshape | ⟨items, hitems, hfirst⟩)
      · obtain ⟨hnone, rfl⟩ := properties_eq_error_iff.1 hshape
        exact .shape hnone
      · obtain ⟨line, hobject⟩ := properties_eq_ok_iff.1 hitems
        exact .property hobject (h.mapM.fault.1 hfirst)
    · intro hfault
      cases hfault with
      | shape hnone => exact .inl (properties_eq_error_iff.2 ⟨hnone, rfl⟩)
      | property hobject hfirst =>
          exact .inr ⟨_, properties_eq_ok_iff.2 ⟨_, hobject⟩, h.mapM.fault.2 hfirst⟩
  exclusive := by
    intro node entries e ⟨line, items, hobject, hentries⟩ hfault
    cases hfault with
    | shape hnone => exact hnone line items hobject
    | property hobject' hfirst =>
        rw [hobject] at hobject'
        cases hobject'
        exact h.mapM.exclusive hentries hfirst

end Entries

/-! ## Keysets -/

/-- A keyset that is written as entries: its keys are in the order of the properties of an object,
and the last value of a key stays. -/
structure IsKeysetOf (entries : List (String × String)) (keyset : Keyset) : Prop where
  /-- The keys. -/
  order : Keyset.PropertyOrder (entries.map Prod.fst) keyset.keys
  /-- The values. -/
  last : ∀ key, keyset.get? key = entries.reverse.lookup key

theorem isKeysetOf_ofList (entries : List (String × String)) :
    IsKeysetOf entries (Keyset.ofList entries) where
  order := Keyset.propertyOrder_keys _ (Keyset.map_fst_ofList entries)
  last := Keyset.get?_ofList entries

/-- The keyset of an expression. -/
def HasKeyset (node : Node) (keyset : Keyset) : Prop :=
  ∃ entries, HasEntries HasText node entries ∧ IsKeysetOf entries keyset

/-- What is wrong with an expression that has no keyset. -/
def KeysetFault : Node → Unsupported → Prop := EntriesFault HasText TextFault .notKeyset

theorem keyset_eq : keyset = fun node => (do
    let items ← properties .notKeyset node
    items.mapM entry : Except Unsupported _).map Keyset.ofList := by
  funext node
  unfold keyset
  cases properties .notKeyset node with
  | error e => rfl
  | ok items =>
      show (items.mapM entry >>= _) = (items.mapM entry).map _
      cases items.mapM entry <;> rfl

/-- **The keyset of an expression** is found, or else what is wrong first. -/
theorem evaluates_keyset : Evaluates keyset HasKeyset KeysetFault := by
  have h := evaluates_entries .notKeyset (evaluates_entryOf evaluates_value)
  refine (keyset_eq ▸ h.map Keyset.ofList).weaken ?_ ?_
  · intro node keyset h
    obtain ⟨entries, hentries, rfl⟩ := h
    exact ⟨entries, hentries, isKeysetOf_ofList entries⟩
  · intro node keyset h
    obtain ⟨entries, hentries, -⟩ := h
    exact ⟨_, entries, hentries, rfl⟩

/-! ## Collections -/

/-- The collection of an expression: the last keyset of a name stays. -/
def HasCollection (node : Node) (collection : Collection) : Prop :=
  ∃ entries, HasEntries HasKeyset node entries ∧
    ∀ name, collection.get? name = entries.reverse.lookup name

/-- What is wrong with an expression that has no collection. -/
def CollectionFault : Node → Unsupported → Prop :=
  EntriesFault HasKeyset KeysetFault .notCollection

theorem collection_eq : collection = fun node => (do
    let items ← properties .notCollection node
    items.mapM keysetEntry : Except Unsupported _).map Dictionary.ofList := by
  funext node
  unfold collection
  cases properties .notCollection node with
  | error e => rfl
  | ok items =>
      show (items.mapM keysetEntry >>= _) = (items.mapM keysetEntry).map _
      cases items.mapM keysetEntry <;> rfl

/-- **The collection of an expression** is found, or else what is wrong first. -/
theorem evaluates_collection : Evaluates collection HasCollection CollectionFault := by
  have h := evaluates_entries .notCollection (evaluates_entryOf evaluates_keyset)
  refine (collection_eq ▸ h.map Dictionary.ofList).weaken ?_ ?_
  · intro node collection h
    obtain ⟨entries, hentries, rfl⟩ := h
    exact ⟨entries, hentries, Dictionary.get?_ofList entries⟩
  · intro node collection h
    obtain ⟨entries, hentries, -⟩ := h
    exact ⟨_, entries, hentries, rfl⟩

end Node

end KeysetBundle.Script
