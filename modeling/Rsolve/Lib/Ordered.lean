import Mathlib.Data.Finset.Basic
import Rsolve.Lib.Sorting

/-!
# Maps in key order

A map keeps its entries in strictly increasing key order. Inserting under a key that is already
there replaces the value; the entries of a map are a function of its lookups.
-/
namespace Ordered

universe u v

/-- A finite map whose entries are in key order. -/
structure OrderedMap (κ : Type u) (ν : Type v) [Ord κ] where
  /-- The entries. -/
  entries : List (κ × ν)
  /-- The keys increase. -/
  ordered : entries.Pairwise (fun left right => compare left.1 right.1 = .lt)

namespace OrderedMap

variable {κ : Type u} {ν : Type v} [Ord κ]

/-- The empty map. -/
def empty : OrderedMap κ ν := ⟨[], List.Pairwise.nil⟩

/-- The values in key order. -/
def values (map : OrderedMap κ ν) : List ν := map.entries.map Prod.snd

/-- The keys in order. -/
def keys (map : OrderedMap κ ν) : List κ := map.entries.map Prod.fst

/-- The value stored under a key. -/
def get? (map : OrderedMap κ ν) (key : κ) : Option ν :=
  (map.entries.find? (fun entry => compare key entry.1 == .eq)).map Prod.snd

/-- Insert an entry at its place, or replace the value that is there. -/
def insertEntries (key : κ) (value : ν) : List (κ × ν) → List (κ × ν)
  | [] => [(key, value)]
  | entry :: rest =>
    match compare key entry.1 with
    | .lt => (key, value) :: entry :: rest
    | .eq => (entry.1, value) :: rest
    | .gt => entry :: insertEntries key value rest

/-- The map without an entry. -/
def erase (map : OrderedMap κ ν) (key : κ) : OrderedMap κ ν :=
  ⟨map.entries.filter (fun entry => compare key entry.1 != .eq), map.ordered.filter _⟩

/-- Nothing is stored in the empty map. -/
@[simp]
theorem get?_empty (key : κ) : (empty : OrderedMap κ ν).get? key = none := rfl

/-- The keys increase. -/
theorem keys_ordered (map : OrderedMap κ ν) :
    map.keys.Pairwise (fun left right => compare left right = .lt) :=
  List.pairwise_map.mpr map.ordered

section Lawful

variable [Std.TransOrd κ] [Std.LawfulEqOrd κ]

/-- An inserted list holds the new entry and the old entries of other keys. -/
theorem mem_insertEntries {key : κ} {value : ν} {entries : List (κ × ν)} {entry : κ × ν}
    (ordered : entries.Pairwise (fun left right => compare left.1 right.1 = .lt)) :
    entry ∈ insertEntries key value entries ↔
      entry = (key, value) ∨ (entry ∈ entries ∧ entry.1 ≠ key) := by
  induction entries with
  | nil => simp [insertEntries]
  | cons head rest ih =>
    obtain ⟨below, ordered⟩ := List.pairwise_cons.mp ordered
    have apart : ∀ {first second : κ}, compare first second = .lt → second ≠ first := by
      intro first second smaller equal
      have same : compare first second = .eq := Std.LawfulEqOrd.compare_eq_iff_eq.mpr equal.symm
      rw [same] at smaller
      cases smaller
    simp only [insertEntries]
    split
    · next smaller =>
      have later : ∀ other ∈ head :: rest, other.1 ≠ key := by
        intro other member
        rcases List.mem_cons.mp member with rfl | member
        · exact apart smaller
        · exact apart (Std.TransCmp.lt_trans smaller (below other member))
      rw [List.mem_cons]
      exact or_congr_right ⟨fun member => ⟨member, later entry member⟩, And.left⟩
    · next same =>
      have equal : key = head.1 := Std.LawfulEqOrd.compare_eq_iff_eq.mp same
      have later : ∀ other ∈ rest, other.1 ≠ key := by
        intro other member
        rw [equal]
        exact apart (below other member)
      rw [List.mem_cons, List.mem_cons, ← equal]
      constructor
      · rintro (rfl | member)
        · exact Or.inl rfl
        · exact Or.inr ⟨Or.inr member, later entry member⟩
      · rintro (rfl | ⟨rfl | member, differs⟩)
        · exact Or.inl rfl
        · exact absurd equal.symm differs
        · exact Or.inr member
    · next greater =>
      have differs : head.1 ≠ key := (apart (Std.OrientedCmp.lt_of_gt greater)).symm
      rw [List.mem_cons, List.mem_cons, ih ordered]
      constructor
      · rintro (rfl | rfl | ⟨member, apart⟩)
        · exact Or.inr ⟨Or.inl rfl, differs⟩
        · exact Or.inl rfl
        · exact Or.inr ⟨Or.inr member, apart⟩
      · rintro (rfl | ⟨rfl | member, apart⟩)
        · exact Or.inr (Or.inl rfl)
        · exact Or.inl rfl
        · exact Or.inr (Or.inr ⟨member, apart⟩)

/-- Insertion keeps the keys in order. -/
theorem insertEntries_ordered (key : κ) (value : ν) {entries : List (κ × ν)}
    (ordered : entries.Pairwise (fun left right => compare left.1 right.1 = .lt)) :
    (insertEntries key value entries).Pairwise
      (fun left right => compare left.1 right.1 = .lt) := by
  induction entries with
  | nil => exact List.pairwise_singleton _ _
  | cons head rest ih =>
    obtain ⟨below, rest⟩ := List.pairwise_cons.mp ordered
    simp only [insertEntries]
    split
    · next smaller =>
      refine List.pairwise_cons.mpr ⟨fun other member => ?_, ordered⟩
      rcases List.mem_cons.mp member with rfl | member
      · exact smaller
      · exact Std.TransCmp.lt_trans smaller (below other member)
    · exact List.pairwise_cons.mpr ⟨below, rest⟩
    · next greater =>
      refine List.pairwise_cons.mpr ⟨fun other member => ?_, ih rest⟩
      rcases (mem_insertEntries rest).mp member with rfl | ⟨member, -⟩
      · exact Std.OrientedCmp.lt_of_gt greater
      · exact below other member

/-- Store a value under a key. -/
def insert (map : OrderedMap κ ν) (key : κ) (value : ν) : OrderedMap κ ν :=
  ⟨insertEntries key value map.entries, insertEntries_ordered key value map.ordered⟩

/-- A map after an insertion holds the new entry and the old entries of other keys. -/
theorem mem_insert {map : OrderedMap κ ν} {key : κ} {value : ν} {entry : κ × ν} :
    entry ∈ (map.insert key value).entries ↔
      entry = (key, value) ∨ (entry ∈ map.entries ∧ entry.1 ≠ key) :=
  mem_insertEntries map.ordered

/-- Lookup finds exactly the entries. -/
theorem get?_eq_some_iff {map : OrderedMap κ ν} {key : κ} {value : ν} :
    map.get? key = some value ↔ (key, value) ∈ map.entries := by
  have found : ∀ {entries : List (κ × ν)},
      entries.Pairwise (fun left right => compare left.1 right.1 = .lt) →
      ((entries.find? (fun entry => compare key entry.1 == .eq)).map Prod.snd = some value ↔
        (key, value) ∈ entries) := by
    intro entries ordered
    induction entries with
    | nil => simp
    | cons head rest ih =>
      obtain ⟨below, ordered⟩ := List.pairwise_cons.mp ordered
      by_cases same : compare key head.1 = .eq
      · have equal : key = head.1 := Std.LawfulEqOrd.compare_eq_iff_eq.mp same
        have later : (key, value) ∉ rest := by
          intro member
          have smaller : compare head.1 key = .lt := below _ member
          rw [Std.OrientedCmp.eq_symm same] at smaller
          cases smaller
        rw [List.find?_cons_of_pos (by simpa using same)]
        rw [Option.map_some, Option.some.injEq, List.mem_cons, or_iff_left later, Prod.ext_iff]
        exact ⟨fun value => ⟨equal, value.symm⟩, fun both => both.2.symm⟩
      · have differs : (key, value) ≠ head := by
          rintro rfl
          exact same Std.ReflCmp.compare_self
        rw [List.find?_cons_of_neg (by simpa using same), ih ordered, List.mem_cons]
        simp [differs]
  exact found map.ordered

/-- The keys are those with a value. -/
theorem mem_keys {map : OrderedMap κ ν} {key : κ} :
    key ∈ map.keys ↔ ∃ value, map.get? key = some value := by
  simp only [keys, List.mem_map, get?_eq_some_iff]
  constructor
  · rintro ⟨entry, member, rfl⟩
    exact ⟨entry.2, member⟩
  · rintro ⟨value, member⟩
    exact ⟨(key, value), member, rfl⟩

/-- What a lookup finds after an insertion was inserted or was there before. -/
theorem get?_insert [DecidableEq κ] (map : OrderedMap κ ν) (key query : κ) (value : ν) :
    (map.insert key value).get? query = if query = key then some value else map.get? query := by
  apply Option.ext
  intro found
  rw [get?_eq_some_iff, mem_insert]
  split
  · next equal =>
    subst equal
    simp [eq_comm]
  · next differs => simp [differs, get?_eq_some_iff]

/-- What a lookup finds after keys were inserted with values of their own. -/
theorem get?_foldl_insert [DecidableEq κ] (value : κ → ν) (keys : List κ) (map : OrderedMap κ ν)
    (query : κ) :
    (keys.foldl (fun map key => map.insert key (value key)) map).get? query =
      if query ∈ keys then some (value query) else map.get? query := by
  induction keys generalizing map with
  | nil => simp
  | cons first rest ih =>
    rw [List.foldl_cons, ih, get?_insert]
    by_cases later : query ∈ rest
    · simp [later]
    · by_cases same : query = first
      · simp [same]
      · simp [later, same]

/-- A map built from entries of distinct fresh keys holds them and what it held before. -/
theorem mem_foldl_insert {items : List (κ × ν)} {map : OrderedMap κ ν}
    (distinct : (items.map Prod.fst).Nodup) (fresh : ∀ item ∈ items, item.1 ∉ map.keys)
    {entry : κ × ν} :
    entry ∈ (items.foldl (fun map item => map.insert item.1 item.2) map).entries ↔
      entry ∈ map.entries ∨ entry ∈ items := by
  induction items generalizing map with
  | nil => simp
  | cons first rest ih =>
    obtain ⟨apart, distinct⟩ := List.nodup_cons.mp distinct
    have absent : ∀ {other}, other ∈ map.entries → other.1 ≠ first.1 := fun member equal =>
      fresh first List.mem_cons_self (equal ▸ List.mem_map_of_mem member)
    have later : ∀ item ∈ rest, item.1 ∉ (map.insert first.1 first.2).keys := by
      intro item member inside
      obtain ⟨other, held, equal⟩ := List.mem_map.mp inside
      rcases mem_insert.mp held with rfl | ⟨old, -⟩
      · exact apart (List.mem_map.mpr ⟨item, member, equal.symm⟩)
      · exact fresh item (List.mem_cons_of_mem _ member) (equal ▸ List.mem_map_of_mem old)
    rw [List.foldl_cons, ih distinct later, mem_insert, List.mem_cons]
    constructor
    · rintro ((rfl | ⟨old, -⟩) | inside)
      · exact Or.inr (Or.inl rfl)
      · exact Or.inl old
      · exact Or.inr (Or.inr inside)
    · rintro (old | rfl | inside)
      · exact Or.inl (Or.inr ⟨old, absent old⟩)
      · exact Or.inl (Or.inl rfl)
      · exact Or.inr inside

/-- What a lookup finds after a removal was there before under another key. -/
theorem get?_erase [DecidableEq κ] (map : OrderedMap κ ν) (key query : κ) :
    (map.erase key).get? query = if query = key then none else map.get? query := by
  have kept : ∀ value, (query, value) ∈ (map.erase key).entries ↔
      (query, value) ∈ map.entries ∧ query ≠ key := by
    intro value
    simp only [erase, List.mem_filter, bne_iff_ne, ne_eq, Std.LawfulEqOrd.compare_eq_iff_eq]
    exact and_congr_right fun _ => not_congr eq_comm
  apply Option.ext
  intro found
  rw [get?_eq_some_iff, kept]
  split
  · next equal => simp [equal]
  · next differs => simp [differs, get?_eq_some_iff]

omit [Std.LawfulEqOrd κ] in
/-- Maps with the same entries are equal. -/
theorem ext_of_mem {left right : OrderedMap κ ν}
    (same : ∀ entry, entry ∈ left.entries ↔ entry ∈ right.entries) : left = right := by
  have lawful : Std.TransCmp (fun first second : κ × ν => compare first.1 second.1) :=
    inferInstanceAs (Std.TransCmp (compareOn Prod.fst))
  have entries := @Sorting.strict_ext (κ × ν) (fun first second => compare first.1 second.1) lawful
    left.entries right.entries left.ordered right.ordered same
  cases left
  cases right
  cases entries
  rfl

/-- An insertion replaces what was removed before. -/
theorem insert_erase (map : OrderedMap κ ν) (key : κ) (value : ν) :
    (map.erase key).insert key value = map.insert key value := by
  refine ext_of_mem fun entry => ?_
  rw [mem_insert, mem_insert]
  refine or_congr_right (and_congr_left fun differs => ?_)
  have apart : compare key entry.1 ≠ .eq := fun same =>
    differs (Std.LawfulEqOrd.compare_eq_iff_eq.mp same).symm
  simp [erase, apart]

end Lawful

end OrderedMap

/-- A finite set whose members are in order. -/
abbrev OrderedSet (κ : Type u) [Ord κ] := OrderedMap κ Unit

namespace OrderedSet

variable {κ : Type u} [Ord κ]

/-- The members of a set are its keys. -/
instance : Membership κ (OrderedSet κ) := ⟨fun set item => item ∈ set.keys⟩

/-- Membership is decided along the members. -/
instance [DecidableEq κ] (set : OrderedSet κ) (item : κ) : Decidable (item ∈ set) :=
  inferInstanceAs (Decidable (item ∈ set.keys))

/-- The members in order. -/
def toList (set : OrderedSet κ) : List κ := set.keys

/-- The members of a set are those of its list. -/
@[simp]
theorem mem_toList {set : OrderedSet κ} {item : κ} : item ∈ set.toList ↔ item ∈ set := Iff.rfl

/-- Nothing is in the empty set. -/
@[simp]
theorem not_mem_empty (item : κ) : item ∉ (OrderedMap.empty : OrderedSet κ) := List.not_mem_nil

/-- The members that are not in another set, in order. -/
def difference [DecidableEq κ] (set other : OrderedSet κ) : List κ :=
  set.toList.filter (fun item => item ∉ other)

/-- The members of a difference. -/
@[simp]
theorem mem_difference [DecidableEq κ] {set other : OrderedSet κ} {item : κ} :
    item ∈ set.difference other ↔ item ∈ set ∧ item ∉ other := by
  simp [difference]

/-- The set without a member. -/
def remove (set : OrderedSet κ) (item : κ) : OrderedSet κ := OrderedMap.erase set item

variable [Std.TransOrd κ] [Std.LawfulEqOrd κ]

/-- The set with one more member. -/
def add (set : OrderedSet κ) (item : κ) : OrderedSet κ := set.insert item ()

/-- A membership is a lookup. -/
theorem mem_iff_get? {set : OrderedSet κ} {item : κ} : item ∈ set ↔ set.get? item = some () :=
  OrderedMap.mem_keys.trans ⟨fun ⟨_, found⟩ => found, fun found => ⟨(), found⟩⟩

/-- The members after an addition. -/
@[simp]
theorem mem_add [DecidableEq κ] {set : OrderedSet κ} {item other : κ} :
    other ∈ set.add item ↔ other = item ∨ other ∈ set := by
  rw [mem_iff_get?, mem_iff_get?, add, OrderedMap.get?_insert]
  split
  · next same => simp [same]
  · next differs => simp [differs]

/-- The members after a removal. -/
@[simp]
theorem mem_remove [DecidableEq κ] {set : OrderedSet κ} {item other : κ} :
    other ∈ set.remove item ↔ other ≠ item ∧ other ∈ set := by
  rw [mem_iff_get?, mem_iff_get?, remove, OrderedMap.get?_erase]
  split
  · next same => simp [same]
  · next differs => simp [differs]

omit [Std.TransOrd κ] in
/-- A removal leaves fewer members. -/
theorem length_remove_lt {set : OrderedSet κ} {item : κ} (member : item ∈ set) :
    (set.remove item).toList.length < set.toList.length := by
  obtain ⟨entry, inside, rfl⟩ := List.mem_map.mp member
  simp only [toList, remove, OrderedMap.keys, OrderedMap.erase, List.length_map]
  exact List.length_filter_lt_length_iff_exists.mpr ⟨entry, inside, by simp⟩

/-- Add the members of a list. -/
def extend (set : OrderedSet κ) (items : List κ) : OrderedSet κ := items.foldl add set

/-- The members after the additions. -/
@[simp]
theorem mem_extend [DecidableEq κ] {set : OrderedSet κ} {items : List κ} {item : κ} :
    item ∈ set.extend items ↔ item ∈ set ∨ item ∈ items := by
  induction items generalizing set with
  | nil => simp [extend]
  | cons first rest ih =>
    have step := @ih (set.add first)
    simp only [extend, List.foldl_cons] at step ⊢
    rw [step, mem_add, List.mem_cons]
    tauto

/-- The set of the members of a list. -/
def ofList (items : List κ) : OrderedSet κ := OrderedSet.extend .empty items

/-- The members of the set of a list. -/
@[simp]
theorem mem_ofList [DecidableEq κ] {items : List κ} {item : κ} :
    item ∈ ofList items ↔ item ∈ items := by
  simp [ofList]

omit [Std.LawfulEqOrd κ] in
/-- Sets with the same members are equal. -/
theorem ext_of_mem {left right : OrderedSet κ} (same : ∀ item, item ∈ left ↔ item ∈ right) :
    left = right := by
  refine OrderedMap.ext_of_mem fun entry => ?_
  have member : ∀ set : OrderedSet κ, entry ∈ set.entries ↔ entry.1 ∈ set := fun set =>
    ⟨List.mem_map_of_mem, fun inside => by
      obtain ⟨other, inside, named⟩ := List.mem_map.mp inside
      exact (Prod.ext named rfl : other = entry) ▸ inside⟩
  rw [member, member, same]

/-- The set of the members of a finite set. -/
def ofFinset [DecidableEq κ] (items : Finset κ) : OrderedSet κ :=
  Quotient.lift ofList (fun _ _ order => ext_of_mem fun _ => by
    rw [mem_ofList, mem_ofList]
    exact List.Perm.mem_iff order) items.val

/-- The members of the set of a finite set. -/
@[simp]
theorem mem_ofFinset [DecidableEq κ] {items : Finset κ} {item : κ} :
    item ∈ ofFinset items ↔ item ∈ items := by
  obtain ⟨items, distinct⟩ := items
  induction items using Quotient.inductionOn with
  | h items => exact mem_ofList

end OrderedSet

end Ordered
