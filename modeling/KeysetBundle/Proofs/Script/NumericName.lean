import KeysetBundle.Script.Exports
import KeysetBundle.Proofs.Decimal.Shortest
import KeysetBundle.Proofs.Decimal.Whole
import KeysetBundle.Proofs.Except
import KeysetBundle.Proofs.Keyset.ArrayIndex
import KeysetBundle.Proofs.Keyset.Listing
import KeysetBundle.Proofs.Script.NumberTokens
import KeysetBundle.Proofs.Script.Numbers

/-!
# Properties that are named by numbers

A whole number is written as a natural number: up to the largest integer of 64
bits as it is, then as that integer, and from `10 ^ 21` on as one to which it is
the nearest value.  So two numbers have one name only if they are equal or both
of them are capped, and a keyset that is named by numbers loses no text
otherwise.

Main results.

- `exists_spells`: what is written for a whole number.
- `numericName_eq_iff`: which numbers have one name.
- `isNumbered_of_digits`: which digits name a property by their own number.
- `IsNumbered.name_apart`: the names of properties, and what a keyset keeps.
-/

namespace KeysetBundle.Script

open KeysetBundle.Decimal

/-! ## Whole numbers -/

/-- Whole numbers that are all written as the largest integer of 64 bits. -/
def IsCapped (n : Nat) : Prop := maxWholeName < n ∧ n < wholeNameLimit

/-- A whole number below the limit is written as an integer of 64 bits. -/
theorem numericName_of_lt {value : Binary64} {n : Nat} (hn : value.whole? = some n)
    (hlimit : n < wholeNameLimit) : numericName value = toString (min n maxWholeName) := by
  cases value with
  | infinite => cases hn
  | finite m e =>
      unfold numericName
      simp only [hn, if_pos hlimit]

/-- A whole number below `2 ^ 63` that a value has is not the largest integer of 64 bits. -/
theorem lt_maxWholeName {m : Nat} {e : Int} {n : Nat} (h : IsCanonical m e)
    (hvalue : dyadic m e = n) (hn : n ≤ maxWholeName) : n < maxWholeName := by
  refine lt_of_le_of_ne hn fun heq => ?_
  -- the value before `2 ^ 63` is far below
  have hbefore : IsCanonical (2 ^ 53 - 1) 10 := isCanonical_pred (by decide)
  have hlt : dyadic (2 ^ 53 - 1) 10 < dyadic m e := by
    rw [hvalue, heq]
    norm_num [dyadic, maxWholeName]
  have hstep := hbefore.add_step_le h hlt
  rw [hvalue, heq] at hstep
  norm_num [dyadic, maxWholeName] at hstep

/-! ## What is written -/

/-- What is written for a whole number that is a value. -/
inductive Spells (value : Binary64) : Nat → Nat → Prop
  /-- A number below the largest integer of 64 bits is written as it is. -/
  | exact {n : Nat} (hn : n < maxWholeName) : Spells value n n
  /-- A number above it is written as that integer. -/
  | capped {n : Nat} (hn : IsCapped n) : Spells value n maxWholeName
  /-- A large number is written as one to which it is nearest. -/
  | nearest {n k : Nat} (hn : wholeNameLimit ≤ n) (hk : maxWholeName < k) (h : value.Nearest k) :
    Spells value n k

/-- A large number has more than 63 binary digits. -/
theorem log2_of_large {m : Nat} {e : Int} {n : Nat} (hvalue : dyadic m e = n)
    (hn : wholeNameLimit ≤ n) : 0 < m ∧ 63 ≤ (m.log2 : Int) + e := by
  have hlarge : (2 : ℚ) ^ (63 : Int) ≤ dyadic m e := by
    rw [hvalue]
    have hle : 2 ^ 63 ≤ n := le_trans (by decide) hn
    exact_mod_cast hle
  have hpos : 0 < m := by
    refine Nat.pos_of_ne_zero fun hzero => ?_
    rw [hzero, dyadic_zero] at hlarge
    exact absurd hlarge (not_le.2 (step_pos 63))
  have hdigits : (m : ℚ) < 2 ^ ((m.log2 : Int) + 1) := by
    exact_mod_cast Nat.lt_log2_self
  have hless : (2 : ℚ) ^ (63 : Int) < 2 ^ ((m.log2 : Int) + 1 + e) := by
    rw [zpow_add₀ two_ne_zero _ e]
    calc (2 : ℚ) ^ (63 : Int) ≤ dyadic m e := hlarge
      _ < 2 ^ ((m.log2 : Int) + 1) * 2 ^ e := mul_lt_mul_of_pos_right hdigits (step_pos e)
  have hexponent := (zpow_lt_zpow_iff_right₀ one_lt_two).1 hless
  exact ⟨hpos, by omega⟩

/-- A number to which a large value is nearest is above the integers of 64 bits. -/
theorem lt_of_nearest {m : Nat} {e : Int} {k : Nat} (h : IsNearest m e k)
    (hlarge : (wholeNameLimit : ℚ) ≤ dyadic m e) : maxWholeName < k := by
  refine Nat.lt_of_not_le fun hle => ?_
  -- a smaller number is nearest to a value up to `2 ^ 63`
  have hpower : IsCanonical (2 ^ 52) 11 := isCanonical_pow (by decide)
  have hbound : (k : ℚ) ≤ dyadic (2 ^ 52) 11 := by
    have hcast : (k : ℚ) ≤ maxWholeName := by exact_mod_cast hle
    refine hcast.trans ?_
    norm_num [dyadic, maxWholeName]
  have hcontra := hlarge.trans (h.dyadic_le hpower hbound)
  norm_num [dyadic, wholeNameLimit] at hcontra

/-- **What is written for a whole number.** -/
theorem exists_spells {value : Binary64} {n : Nat} (hstored : value.IsStored)
    (hn : value.whole? = some n) :
    ∃ k : Nat, numericName value = toString k ∧ Spells value n k := by
  cases hstored with
  | infinite => cases hn
  | @finite m e hcanonical hmax =>
      have hvalue := dyadic_of_whole? hn
      by_cases hlimit : n < wholeNameLimit
      · refine ⟨_, numericName_of_lt hn hlimit, ?_⟩
        rcases Nat.lt_or_ge maxWholeName n with hmore | hless
        · rw [Nat.min_eq_right hmore.le]
          exact .capped ⟨hmore, hlimit⟩
        · rw [Nat.min_eq_left hless]
          exact .exact (lt_maxWholeName hcanonical hvalue hless)
      · obtain ⟨hpos, hdigits⟩ := log2_of_large hvalue (not_lt.1 hlimit)
        obtain ⟨k, hname, hnearest⟩ := positional_shortest hcanonical hpos hdigits
        refine ⟨k, ?_, .nearest (not_lt.1 hlimit) ?_ (.finite hnearest hmax)⟩
        · unfold numericName
          simp only [hn, if_neg hlimit, positionalName, if_neg hpos.ne', hname]
        · refine lt_of_nearest hnearest ?_
          rw [hvalue]
          exact_mod_cast not_lt.1 hlimit

/-! ## Shared names -/

/-- Two numbers have one name: they are equal, or both of them are capped. -/
def ShareName (n k : Nat) : Prop := n = k ∨ IsCapped n ∧ IsCapped k

/-- **Which whole numbers have one name.** -/
theorem numericName_eq_iff {v w : Binary64} {n k : Nat} (hv : v.IsStored) (hw : w.IsStored)
    (hn : v.whole? = some n) (hk : w.whole? = some k) :
    numericName v = numericName w ↔ ShareName n k := by
  constructor
  · intro hname
    obtain ⟨i, hi, hspells⟩ := exists_spells hv hn
    obtain ⟨j, hj, hother⟩ := exists_spells hw hk
    rw [hi, hj] at hname
    obtain rfl := toString_injective hname
    cases hspells with
    | exact hless =>
        cases hother with
        | exact => exact .inl rfl
        | capped => exact absurd hless (lt_irrefl _)
        | nearest _ hmore => exact absurd hmore hless.not_gt
    | capped hcapped =>
        cases hother with
        | exact hless => exact absurd hless (lt_irrefl _)
        | capped hother => exact .inr ⟨hcapped, hother⟩
        | nearest _ hmore => exact absurd hmore (lt_irrefl _)
    | nearest _ hmore hnearest =>
        cases hother with
        | exact hless => exact absurd hmore hless.not_gt
        | capped => exact absurd hmore (lt_irrefl _)
        | nearest _ _ hother =>
            rw [hnearest.unique hother, hk] at hn
            exact .inl (Option.some.inj hn).symm
  · rintro (rfl | ⟨hfirst, hsecond⟩)
    · rw [eq_of_whole? hv hw hn hk]
    · rw [numericName_of_lt hn hfirst.2, numericName_of_lt hk hsecond.2,
        Nat.min_eq_right hfirst.1.le, Nat.min_eq_right hsecond.1.le]

/-- A number below the limit is the array index of its name. -/
theorem arrayIndex?_numericName {v : Binary64} {n : Nat} (hn : v.whole? = some n)
    (hlimit : n < arrayIndexLimit) : arrayIndex? (numericName v) = some n := by
  have hless : n ≤ maxWholeName := hlimit.le.trans (by decide)
  refine arrayIndex?_eq_some_iff.2 ⟨hlimit, ?_⟩
  rw [numericName_of_lt hn (hlimit.trans (by decide)), Nat.min_eq_left hless]

/-! ## Keysets -/

/-- A property that is named by a whole number. -/
inductive IsNumbered : Node → Nat → Prop
  /-- The number is a value as it is kept. -/
  | mk {line keyLine : Nat} {value : Binary64} {expression : Node} {n : Nat}
    (hstored : value.IsStored) (hwhole : value.whole? = some n) :
    IsNumbered (.property line (.number keyLine value) expression) n

/-- Whatever is read as a number names a property by it, if it is whole. -/
theorem isNumbered_of_readNumber {cs rest : List Char} {value : Binary64} {n : Nat}
    (h : readNumber cs = some (.number value, rest)) (hwhole : value.whole? = some n)
    (line keyLine : Nat) (expression : Node) :
    IsNumbered (.property line (.number keyLine value) expression) n :=
  .mk (readNumber_isStored h) hwhole

/-- **A number that is written in digits names a property by itself**, up to 53 binary digits. -/
theorem isNumbered_of_digits {n : Nat} (hn : n < 2 ^ 53) :
    ∃ value, readNumber (toString n).toList = some (.number value, []) ∧
      ∀ line keyLine expression,
        IsNumbered (.property line (.number keyLine value) expression) n := by
  have hdigits : AreDigits (Nat.toDigits 10 n) :=
    ⟨Nat.toDigits_ne_nil, List.all_eq_true.2 fun c hc => isDigit_of_mem_toDigits hc⟩
  have hzero : startsWithZero (Nat.toDigits 10 n) = false := by
    unfold startsWithZero
    split
    · rename_i rest heq
      rw [(eq_zero_of_toDigits heq).2]
      rfl
    · rfl
  have hread := readNumber_decimal hdigits hzero (.inl rfl) (.inl rfl)
  rw [List.append_nil, List.append_nil] at hread
  rw [Nat.toString_eq_repr, Nat.toList_repr]
  refine ⟨_, hread, fun line keyLine expression => isNumbered_of_readNumber hread ?_ _ _ _⟩
  have hwritten : writtenValue (Nat.toDigits 10 n) [] 0 = n := by
    have hvalue : extendValue 0 (Nat.toDigits 10 n) = n := Nat.ofDigitChars_ten_toDigits
    simp [writtenValue, hvalue]
  have hnearest : (decimalNumber (Nat.toDigits 10 n) [] 0).Nearest n := by
    rw [← hwritten]
    exact decimalNumber_nearest (by simpa using hdigits.2) 0
  exact whole?_of_nearest hn hnearest

/-- The entries of properties before and behind one of them. -/
theorem mapM_entry_append {before after : List Node} {property : Node}
    {entries : List (String × String)}
    (h : (before ++ property :: after).mapM Node.entry = .ok entries) :
    ∃ first pair second, before.mapM Node.entry = .ok first ∧ property.entry = .ok pair ∧
      after.mapM Node.entry = .ok second ∧ entries = first ++ pair :: second := by
  rw [List.mapM_append] at h
  obtain ⟨first, hfirst, h⟩ := bind_eq_ok.1 h
  obtain ⟨rest, hrest, h⟩ := bind_eq_ok.1 h
  obtain ⟨pair, second, hpair, hsecond, rfl⟩ := mapM_cons_eq_ok.1 hrest
  cases h
  exact ⟨first, pair, second, hfirst, hpair, hsecond, rfl⟩

/-- A pair is found from the end if no pair behind it has its key. -/
theorem lookup_reverse_of_notMem {first second : List (String × String)} {key words : String}
    (h : key ∉ second.map Prod.fst) :
    (first ++ (key, words) :: second).reverse.lookup key = some words := by
  have hnone : second.reverse.lookup key = none := by
    rw [← Option.not_isSome_iff_eq_none, lookup_isSome_iff_mem, List.map_reverse, List.mem_reverse]
    exact h
  simp [List.lookup_append, hnone]

/-- A keyset keeps the text of a property if no property behind it has its name. -/
theorem get?_keyset_of_last {node property expression : Node} {line : Nat}
    {before after : List Node} {keyset : Keyset} {id : String}
    (hobject : node.unwrapped = .object line (before ++ property :: after))
    (hkeyset : node.keyset = .ok keyset) (hkey : property.keyValue = .ok (id, expression))
    (hafter : ∀ other ∈ after, ∀ otherId otherExpression,
      other.keyValue = .ok (otherId, otherExpression) → otherId ≠ id) :
    ∃ words, expression.value = .ok words ∧ keyset.get? id = some words := by
  have hproperties : node.properties .notKeyset = .ok (before ++ property :: after) := by
    unfold Node.properties
    rw [hobject]
  obtain ⟨items, hitems, hkeyset⟩ := bind_eq_ok.1 hkeyset
  obtain rfl := Except.ok.inj (hproperties.symm.trans hitems)
  obtain ⟨entries, hentries, hkeyset⟩ := bind_eq_ok.1 hkeyset
  cases hkeyset
  obtain ⟨first, pair, second, -, hpair, hsecond, rfl⟩ := mapM_entry_append hentries
  obtain ⟨found, hfound, hpair⟩ := bind_eq_ok.1 hpair
  obtain rfl := Except.ok.inj (hkey.symm.trans hfound)
  obtain ⟨words, hwords, hpair⟩ := bind_eq_ok.1 hpair
  cases hpair
  refine ⟨words, hwords, ?_⟩
  rw [Keyset.get?_ofList]
  refine lookup_reverse_of_notMem fun hmem => ?_
  obtain ⟨other, hother, hname⟩ := List.mem_map.1 hmem
  obtain ⟨item, hitem, hentry⟩ := exists_of_mem_mapM hsecond other hother
  obtain ⟨⟨otherId, otherExpression⟩, hotherKey, hrest⟩ := bind_eq_ok.1 hentry
  obtain ⟨otherWords, -, hrest⟩ := bind_eq_ok.1 hrest
  cases hrest
  exact hafter item hitem otherId otherExpression hotherKey hname

/-- **A property that is named by a whole number** has a name that only equal numbers share, apart
from the capped ones.  A number up to the largest array index is the index of its name.  And a
keyset keeps the text of the property, if no property behind it has a number that shares the
name. -/
theorem IsNumbered.name_apart {property : Node} {n : Nat} (h : IsNumbered property n) :
    ∃ id expression, property.keyValue = .ok (id, expression) ∧
      (∀ {other : Node} {k : Nat} {otherId : String} {otherExpression : Node},
        IsNumbered other k → other.keyValue = .ok (otherId, otherExpression) →
          (otherId = id ↔ ShareName k n)) ∧
      (n ≤ 4294967294 → arrayIndex? id = some n) ∧
      ∀ {node : Node} {line : Nat} {before after : List Node} {keyset : Keyset},
        node.unwrapped = .object line (before ++ property :: after) →
        node.keyset = .ok keyset →
        (∀ other ∈ after, ∃ k, IsNumbered other k ∧ ¬ShareName k n) →
          ∃ words, expression.value = .ok words ∧ keyset.get? id = some words := by
  cases h with
  | @mk _ _ value expression _ hstored hwhole =>
      have hshare {other : Node} {k : Nat} {otherId : String} {otherExpression : Node}
          (hother : IsNumbered other k) (hkey : other.keyValue = .ok (otherId, otherExpression)) :
          otherId = numericName value ↔ ShareName k n := by
        obtain ⟨hotherStored, hotherWhole⟩ := hother
        cases hkey
        exact numericName_eq_iff hotherStored hstored hotherWhole hwhole
      refine ⟨_, expression, rfl, hshare, fun hlimit =>
        arrayIndex?_numericName hwhole (Nat.lt_succ_of_le hlimit), ?_⟩
      intro node line before after keyset hobject hkeyset hafter
      refine get?_keyset_of_last hobject hkeyset rfl fun other hother otherId _ hkey hname => ?_
      obtain ⟨k, hnumbered, hnot⟩ := hafter other hother
      exact hnot ((hshare hnumbered hkey).1 hname)

/-- The property that is named by the largest array index. -/
def lastIndex : Node := .property 1 (.number 1 (.finite 9007199250546688 (-21))) (.text 1 [120])

theorem IsNumbered.name_apart_lastIndex :
    ∃ id expression, lastIndex.keyValue = .ok (id, expression) ∧
      arrayIndex? id = some 4294967294 ∧
      ∀ {node : Node} {keyset : Keyset}, node.unwrapped = .object 1 [lastIndex] →
        node.keyset = .ok keyset →
          ∃ words, expression.value = .ok words ∧ keyset.get? id = some words := by
  have hstored : (Binary64.finite 9007199250546688 (-21)).IsStored :=
    .finite ⟨by norm_num, by decide, .inl (by norm_num)⟩ (by decide)
  have hnumbered : IsNumbered lastIndex 4294967294 := .mk hstored (by decide +kernel)
  obtain ⟨id, expression, hkey, -, hindex, hkeyset⟩ := IsNumbered.name_apart hnumbered
  exact ⟨id, expression, hkey, hindex le_rfl, fun {node _} hobject hok =>
    hkeyset (show node.unwrapped = .object 1 ([] ++ lastIndex :: []) from hobject) hok nofun⟩

/-- Two numbers above the integers of 64 bits. -/
def cappedValues : Binary64 × Binary64 := (.finite 4503599627370496 11, .finite 4503599627370497 11)

/-- An object with a text for each of them. -/
def cappedObject : Node :=
  .object 1 [.property 1 (.number 1 cappedValues.1) (.text 1 [120]),
    .property 1 (.number 1 cappedValues.2) (.text 1 [121])]

/-- **Numbers above the integers of 64 bits have one name**, and the text of one of them is lost. -/
theorem IsNumbered.not_name_apart :
    readNumber "9223372036854775808".toList = some (.number cappedValues.1, []) ∧
      readNumber "9223372036854777856".toList = some (.number cappedValues.2, []) ∧
      cappedValues.1.whole? = some 9223372036854775808 ∧
      cappedValues.2.whole? = some 9223372036854777856 ∧
      numericName cappedValues.1 = numericName cappedValues.2 ∧
      cappedObject.keyset.map Keyset.toList = .ok [("9223372036854775807", "y")] := by
  decide +kernel

end KeysetBundle.Script
