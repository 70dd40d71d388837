import KeysetBundle.Dictionary
import KeysetBundle.Keyset.Basic

/-!
# Collections of keysets

A collection maps names to keysets and lists them by name. Collections merge key by key: a later
value of a key replaces an earlier one.
-/

namespace KeysetBundle

/-- Keysets by name. -/
abbrev Collection := Dictionary Keyset

namespace Collection

/-- The number of keys of all keysets. -/
def keyCount (collection : Collection) : Nat :=
  (collection.values.map Keyset.size).foldr (· + ·) 0

/-- Adds the keys of a keyset to the keyset of a name. -/
def mergeKeyset (collection : Collection) (name : String) (keyset : Keyset) : Collection :=
  collection.insert name (((collection.get? name).getD .empty).insertAll keyset.toList)

/-- Adds the keys of every keyset of `later`. -/
def mergeWith (collection later : Collection) : Collection :=
  later.toList.foldl (fun collection entry => collection.mergeKeyset entry.1 entry.2) collection

/-- The keys of all collections, with the value of the last collection that has the key. -/
def merge (collections : List Collection) : Collection :=
  collections.foldl mergeWith .empty

end Collection

end KeysetBundle
