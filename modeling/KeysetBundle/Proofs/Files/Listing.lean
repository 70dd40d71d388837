import KeysetBundle.Proofs.Files.Sound
import KeysetBundle.Proofs.Pairs

/-!
# Listings

The listing of a folder has everything that is below it, each entry once
(`mem_below`), and the names that lead to the entries ascend: they are compared
from the top, and what is in a folder stands behind it (`pairwise_below`).

In a sound tree these are the entries that one meets when one goes through the
entries of the folder by name and looks into each folder at once
(`below_eq_descend`).  So the entries of a folder are never torn apart by those
of another one, whatever characters the names have.
-/

namespace KeysetBundle.Files

/-! ## The order of names -/

/-- Names from the top are compared one by one, and a folder stands before what is in it. -/
def Before (names others : Location) : Prop := List.Lex (· < ·) names others

namespace Before

variable {names others third : Location} {name other : String}

theorem irrefl (names : Location) : ¬Before names names :=
  List.lex_irrefl String.lt_irrefl names

theorem trans (h : Before names others) (h' : Before others third) : Before names third :=
  List.lex_trans String.lt_trans h h'

theorem asymm (h : Before names others) : ¬Before others names :=
  fun h' => irrefl names (h.trans h')

theorem nil_left (h : names ≠ []) : Before [] names := by
  cases names with
  | nil => exact absurd rfl h
  | cons name names => exact .nil

theorem cons_iff : Before (name :: names) (other :: others) ↔
    name < other ∨ name = other ∧ Before names others := by
  constructor
  · intro h
    cases h with
    | rel hlt => exact .inl hlt
    | cons hlex => exact .inr ⟨rfl, hlex⟩
  · rintro (hlt | ⟨rfl, hlex⟩)
    · exact .rel hlt
    · exact .cons hlex

theorem trichotomy (names others : Location) :
    Before names others ∨ names = others ∨ Before others names := by
  induction names generalizing others with
  | nil =>
      cases others with
      | nil => exact .inr (.inl rfl)
      | cons other others => exact .inl .nil
  | cons name names ih =>
      cases others with
      | nil => exact .inr (.inr .nil)
      | cons other others =>
          by_cases hlt : name < other
          · exact .inl (.rel hlt)
          · by_cases hgt : other < name
            · exact .inr (.inr (.rel hgt))
            · obtain rfl : name = other :=
                String.le_antisymm (String.not_lt.1 hgt) (String.not_lt.1 hlt)
              rcases ih others with h | rfl | h
              · exact .inl (.cons h)
              · exact .inr (.inl rfl)
              · exact .inr (.inr (.cons h))

end Before

/-- Names that ascend are in the only order in which they can be. -/
theorem eq_of_ascending {α : Type} {items others : List (Location × α)}
    (h : items.Pairwise fun a b => Before a.1 b.1) (h' : others.Pairwise fun a b => Before a.1 b.1)
    (hmem : ∀ item, item ∈ items ↔ item ∈ others) : items = others := by
  have hnodup : ∀ {items : List (Location × α)}, items.Pairwise (fun a b => Before a.1 b.1) →
      items.Nodup := by
    intro items h
    refine List.nodup_iff_pairwise_ne.2 (h.imp ?_)
    rintro a b hlt rfl
    exact Before.irrefl _ hlt
  refine ((List.perm_ext_iff_of_nodup (hnodup h) (hnodup h')).2 hmem).eq_of_pairwise ?_ h h'
  exact fun a b _ _ hab hba => absurd hab hba.asymm

namespace FileTree

variable {tree : FileTree} {location : Location}

theorem below?_eq_some {location other names : Location} :
    below? location other = some names ↔ other = location ++ names := by
  induction location generalizing other with
  | nil => exact ⟨fun h => Option.some.inj h, fun h => congrArg some h⟩
  | cons name location ih =>
      cases other with
      | nil => exact ⟨nofun, nofun⟩
      | cons first other =>
          rw [below?, List.cons_append, List.cons.injEq]
          split
          · rename_i hname
            rw [ih]
            exact ⟨fun h => ⟨hname.symm, h⟩, fun h => h.2⟩
          · rename_i hname
            exact ⟨nofun, fun h => absurd h.1.symm hname⟩

theorem mem_entries {entry : Entry} (hne : location ≠ []) :
    (location, entry) ∈ tree.entries ↔ tree.get? location = some entry := by
  rw [get?_of_ne_nil _ hne]
  exact (lookup_eq_some_iff_mem tree.nodup).symm

/-! ## The order of a listing -/

theorem listedBefore_iff {names others : Location} :
    listedBefore names others = true ↔ names = others ∨ Before names others := by
  induction names generalizing others with
  | nil =>
      refine iff_of_true (by rw [listedBefore]) ?_
      by_cases hnil : others = []
      · exact .inl hnil.symm
      · exact .inr (Before.nil_left hnil)
  | cons name names ih =>
      cases others with
      | nil => exact iff_of_false (by rw [listedBefore]; nofun) (by rintro (h | h) <;> nomatch h)
      | cons other others =>
          rw [listedBefore, List.cons.injEq, Before.cons_iff]
          split
          · rename_i hlt
            exact iff_of_true rfl (.inr (.inl hlt))
          · rename_i hge
            split
            · rename_i hlt
              refine iff_of_false nofun ?_
              rintro (⟨rfl, -⟩ | h | ⟨rfl, -⟩)
              · exact String.lt_irrefl _ hlt
              · exact hge h
              · exact String.lt_irrefl _ hlt
            · rename_i hle
              obtain rfl : name = other :=
                String.le_antisymm (String.not_lt.1 hle) (String.not_lt.1 hge)
              simp only [ih, true_and, hge, false_or]

theorem listedBefore_trans {names others third : Location}
    (h : listedBefore names others = true) (h' : listedBefore others third = true) :
    listedBefore names third = true := by
  rw [listedBefore_iff] at h h' ⊢
  rcases h with rfl | h
  · exact h'
  · rcases h' with rfl | h'
    · exact .inr h
    · exact .inr (h.trans h')

theorem listedBefore_total (names others : Location) :
    listedBefore names others = true ∨ listedBefore others names = true := by
  rw [listedBefore_iff, listedBefore_iff]
  rcases Before.trichotomy names others with h | h | h
  · exact .inl (.inr h)
  · exact .inl (.inl h)
  · exact .inr (.inr h)

/-- What is below a location, as a search for it finds it. -/
def found (tree : FileTree) (location : Location) : List (Location × Entry) :=
  tree.entries.filterMap fun (other, entry) =>
    match below? location other with
    | some (name :: names) => some (name :: names, entry)
    | _ => none

theorem mem_found {names : Location} {entry : Entry} :
    (names, entry) ∈ tree.found location ↔
      names ≠ [] ∧ tree.get? (location ++ names) = some entry := by
  unfold found
  rw [List.mem_filterMap]
  constructor
  · rintro ⟨⟨other, entry'⟩, hmem, hnames⟩
    dsimp only at hnames
    split at hnames
    · rename_i name rest hbelow
      cases hnames
      rw [below?_eq_some.1 hbelow] at hmem
      exact ⟨nofun, (mem_entries (by simp)).1 hmem⟩
    · cases hnames
  · rintro ⟨hne, hget⟩
    obtain ⟨name, rest, rfl⟩ := List.exists_cons_of_ne_nil hne
    refine ⟨(location ++ name :: rest, entry), (mem_entries (by simp)).2 hget, ?_⟩
    dsimp only
    rw [below?_eq_some.2 rfl]

theorem nodup_found (tree : FileTree) (location : Location) :
    ((tree.found location).map Prod.fst).Nodup := by
  have hentries := tree.nodup
  rw [List.nodup_iff_pairwise_ne, List.pairwise_map] at hentries ⊢
  unfold found
  rw [List.pairwise_filterMap]
  refine hentries.imp fun {a b} hne names hnames others hothers heq => hne ?_
  dsimp only at hnames hothers
  split at hnames
  · rename_i hbelow
    cases hnames
    split at hothers
    · rename_i hbelow'
      cases hothers
      rw [below?_eq_some.1 hbelow, below?_eq_some.1 hbelow']
      exact congrArg (location ++ ·) heq
    · cases hothers
  · cases hnames

theorem mem_below {names : Location} {entry : Entry} :
    (names, entry) ∈ tree.below location ↔
      names ≠ [] ∧ tree.get? (location ++ names) = some entry := by
  rw [← mem_found]
  exact List.mem_mergeSort

/-- **The names of a listing ascend strictly.** -/
theorem pairwise_below (tree : FileTree) (location : Location) :
    (tree.below location).Pairwise fun a b => Before a.1 b.1 := by
  have hsorted : (tree.below location).Pairwise fun a b => listedBefore a.1 b.1 = true := by
    refine List.pairwise_mergeSort (fun a b c hab hbc => ?_) (fun a b => ?_) _
    · exact listedBefore_trans hab hbc
    · rw [Bool.or_eq_true]
      exact listedBefore_total a.1 b.1
  have hnodup : ((tree.below location).map Prod.fst).Nodup :=
    ((List.mergeSort_perm (tree.found location) _).map Prod.fst).nodup_iff.2
      (tree.nodup_found location)
  rw [List.nodup_iff_pairwise_ne, List.pairwise_map] at hnodup
  exact (hsorted.and hnodup).imp fun ⟨hle, hne⟩ => (listedBefore_iff.1 hle).resolve_left hne

/-- Names are compared one by one: a path as a text would stand in another place. -/
example : listedBefore ["a", "b"] ["a-b"] ∧ "a-b" < "a/b" := by decide

/-! ## Listings of paths -/

section Listed

variable {current : Location} {path : Path}
  (hpath : tree.resolve current path = .ok (location, .folder))

include hpath

theorem listing_eq : tree.listing current path =
    (tree.below location).map fun item => (item.1, item.2.stat) := by
  unfold listing
  rw [hpath]

theorem mem_listing {names : Location} {stat : Stat} :
    (names, stat) ∈ tree.listing current path ↔
      names ≠ [] ∧ (tree.get? (location ++ names)).map Entry.stat = some stat := by
  rw [listing_eq hpath, List.mem_map, Option.map_eq_some_iff]
  constructor
  · rintro ⟨⟨names', entry⟩, hmem, heq⟩
    cases heq
    obtain ⟨hne, hget⟩ := mem_below.1 hmem
    exact ⟨hne, entry, hget, rfl⟩
  · rintro ⟨hne, entry, hget, rfl⟩
    exact ⟨(names, entry), mem_below.2 ⟨hne, hget⟩, rfl⟩

theorem pairwise_listing : (tree.listing current path).Pairwise fun a b => Before a.1 b.1 := by
  rw [listing_eq hpath, List.pairwise_map]
  exact tree.pairwise_below location

end Listed

/-! ## Going down -/

/-- The entries directly in a folder, by name. -/
def children (tree : FileTree) (location : Location) : List (String × Entry) :=
  (tree.below location).filterMap fun (names, entry) =>
    match names with
    | [name] => some (name, entry)
    | _ => none

/-- An entry with one more name before those that lead to it. -/
def under (name : String) (item : Location × Entry) : Location × Entry := (name :: item.1, item.2)

/-- What one meets when one goes through the entries of a folder by name and looks into each folder
at once, up to a depth. -/
def descend (tree : FileTree) : Nat → Location → List (Location × Entry)
  | 0, _ => []
  | depth + 1, location =>
    (tree.children location).flatMap fun (name, entry) =>
      let inside := match entry with
        | .folder => tree.descend depth (location ++ [name])
        | .file .. => []
      (([], entry) :: inside).map (under name)

theorem mem_children {name : String} {entry : Entry} :
    (name, entry) ∈ tree.children location ↔ tree.get? (location ++ [name]) = some entry := by
  unfold children
  rw [List.mem_filterMap]
  constructor
  · rintro ⟨⟨names, entry'⟩, hmem, hname⟩
    dsimp only at hname
    split at hname
    · cases hname
      exact (mem_below.1 hmem).2
    · cases hname
  · exact fun hget => ⟨([name], entry), mem_below.2 ⟨nofun, hget⟩, rfl⟩

theorem pairwise_children (tree : FileTree) (location : Location) :
    (tree.children location).Pairwise fun a b => a.1 < b.1 := by
  unfold children
  rw [List.pairwise_filterMap]
  refine (tree.pairwise_below location).imp fun {a b} hlt x hx y hy => ?_
  obtain ⟨names, entry⟩ := a
  obtain ⟨others, entry'⟩ := b
  dsimp only at hx hy hlt
  split at hx
  · split at hy
    · cases hx
      cases hy
      exact (Before.cons_iff.1 hlt).resolve_right fun h => Before.irrefl _ h.2
    · cases hy
  · cases hx

theorem mem_descend (hsound : tree.Sound) {depth : Nat} {names : Location} {entry : Entry} :
    (names, entry) ∈ tree.descend depth location ↔
      names ≠ [] ∧ names.length ≤ depth ∧ tree.get? (location ++ names) = some entry := by
  induction depth generalizing location names with
  | zero =>
      refine iff_of_false nofun ?_
      rintro ⟨hne, hlength, -⟩
      exact hne (List.length_eq_zero_iff.1 (Nat.le_zero.1 hlength))
  | succ depth ih =>
      rw [descend, List.mem_flatMap]
      constructor
      · rintro ⟨⟨name, child⟩, hchild, hmem⟩
        have hget := mem_children.1 hchild
        obtain ⟨⟨rest, found⟩, hrest, heq⟩ := List.mem_map.1 hmem
        cases heq
        rcases List.mem_cons.1 hrest with heq | hrest
        · cases heq
          exact ⟨nofun, Nat.succ_le_succ (Nat.zero_le _), hget⟩
        · cases child with
          | file bytes mtime => nomatch hrest
          | folder =>
              obtain ⟨-, hlength, hfound⟩ := ih.1 hrest
              rw [List.append_assoc] at hfound
              exact ⟨nofun, Nat.succ_le_succ hlength, hfound⟩
      · rintro ⟨hne, hlength, hget⟩
        obtain ⟨name, rest, rfl⟩ := List.exists_cons_of_ne_nil hne
        by_cases hrest : rest = []
        · subst hrest
          exact ⟨(name, entry), mem_children.2 hget, List.mem_map.2 ⟨_, List.mem_cons_self, rfl⟩⟩
        · -- what has something below it is a folder, so it is looked into
          have hsplit : location ++ name :: rest = location ++ [name] ++ rest := by simp
          rw [hsplit] at hget
          have hfolder := hsound.folder_of_append hrest (by rw [hget]; nofun)
          have hinside : (rest, entry) ∈ tree.descend depth (location ++ [name]) :=
            ih.2 ⟨hrest, Nat.le_of_succ_le_succ hlength, hget⟩
          exact ⟨(name, .folder), mem_children.2 hfolder,
            List.mem_map.2 ⟨_, List.mem_cons_of_mem _ hinside, rfl⟩⟩

theorem pairwise_descend (hsound : tree.Sound) (depth : Nat) (location : Location) :
    (tree.descend depth location).Pairwise fun a b => Before a.1 b.1 := by
  induction depth generalizing location with
  | zero => exact .nil
  | succ depth ih =>
      rw [descend, List.pairwise_flatMap]
      constructor
      · -- a folder stands before what is in it
        rintro ⟨name, entry⟩ -
        refine List.pairwise_map.2 (List.Pairwise.imp (fun h => .cons h) ?_)
        cases entry with
        | file bytes mtime => exact List.pairwise_singleton _ _
        | folder =>
            refine List.pairwise_cons.2 ⟨fun item hitem => ?_, ih _⟩
            exact Before.nil_left ((mem_descend hsound).1 hitem).1
      · -- and all that is in it before the next entry
        refine (tree.pairwise_children location).imp fun {a b} hlt x hx y hy => ?_
        obtain ⟨below, -, rfl⟩ := List.mem_map.1 hx
        obtain ⟨beyond, -, rfl⟩ := List.mem_map.1 hy
        exact .rel hlt

/-- **A listing is what one meets on the way down.** -/
theorem below_eq_descend (hsound : tree.Sound) {depth : Nat}
    (hdepth : ∀ entry ∈ tree.entries, entry.1.length ≤ depth) (location : Location) :
    tree.below location = tree.descend depth location := by
  have hmem : ∀ item, item ∈ tree.below location ↔ item ∈ tree.descend depth location := by
    rintro ⟨names, entry⟩
    rw [mem_below, mem_descend hsound]
    refine ⟨fun ⟨hne, hget⟩ => ⟨hne, ?_, hget⟩, fun ⟨hne, _, hget⟩ => ⟨hne, hget⟩⟩
    have hlength := hdepth _ ((mem_entries (by simp [hne])).2 hget)
    rw [List.length_append] at hlength
    omega
  exact eq_of_ascending (tree.pairwise_below location) (pairwise_descend hsound depth location) hmem

end FileTree

end KeysetBundle.Files
