import Rsolve.Lib.Checked
import Rsolve.Lib.Ordered

/-!
# Joining items under their keys

Items are put into a table one after another; an item whose key is taken is merged with what is
there, and the merge may fail. When what stands for some items merges with one more exactly if that
is compatible with each of them, a whole list is put into the table exactly if any two of its items
with one key are compatible, in whatever order they come.
-/
open Checked Ordered

namespace Joins

universe u

variable {κ ν ε : Type u} [Ord κ] [Std.TransOrd κ] [Std.LawfulEqOrd κ]

/-- What a merge does to what stands for the items merged so far. -/
structure Merges (merge : ν → ν → Except ε ν) (Compatible : ν → ν → Prop)
    (Sums : List ν → ν → Prop) : Prop where
  /-- An item stands for itself. -/
  single : ∀ item, Sums [item] item
  /-- A merge succeeds exactly on items that are compatible with all before. -/
  succeeds : ∀ {items total item}, Sums items total →
    ((∃ next, merge total item = .ok next) ↔ ∀ other ∈ items, Compatible other item)
  /-- What was merged stands for one item more. -/
  merged : ∀ {items total item next}, Sums items total → merge total item = .ok next →
    Sums (items ++ [item]) next

/-- Put an item into a table. -/
def add (key : ν → κ) (merge : ν → ν → Except ε ν) (table : OrderedMap κ ν) (item : ν) :
    Except ε (OrderedMap κ ν) :=
  match table.get? (key item) with
  | some total => do
    let next ← merge total item
    return table.insert (key item) next
  | none => .ok (table.insert (key item) item)

/-- Each key of a table has what stands for the items of the key. -/
def Holds [DecidableEq κ] (key : ν → κ) (Sums : List ν → ν → Prop) (items : List ν)
    (table : OrderedMap κ ν) : Prop :=
  ∀ name, (table.get? name = none → ∀ item ∈ items, key item ≠ name) ∧
    ∀ total, table.get? name = some total →
      (∃ item ∈ items, key item = name) ∧ Sums (items.filter fun item => key item = name) total

section Tables

variable [DecidableEq κ] {key : ν → κ} {merge : ν → ν → Except ε ν} {Compatible : ν → ν → Prop}
  {Sums : List ν → ν → Prop} {items : List ν} {table reached : OrderedMap κ ν} {item : ν}

omit [Std.TransOrd κ] [Std.LawfulEqOrd κ] in
/-- The empty table has no items. -/
theorem holds_empty : Holds key Sums [] (OrderedMap.empty : OrderedMap κ ν) :=
  fun _ => ⟨fun _ _ member => absurd member List.not_mem_nil, nofun⟩

omit [Ord κ] [Std.TransOrd κ] [Std.LawfulEqOrd κ] in
/-- The items of a key with one item more at the end. -/
theorem filter_concat (items : List ν) (item : ν) (name : κ) :
    (items ++ [item]).filter (fun item => key item = name) =
      if key item = name then items.filter (fun item => key item = name) ++ [item]
      else items.filter fun item => key item = name := by
  rw [List.filter_append]
  split
  · next same => simp [same]
  · next differs => simp [differs]

/-- Where the value of a key is replaced by what stands for its items with one more, the table has
the items with one more. -/
theorem Holds.insert (holds : Holds key Sums items table) {next : ν}
    (sums : Sums (items.filter (fun other => key other = key item) ++ [item]) next) :
    Holds key Sums (items ++ [item]) (table.insert (key item) next) := by
  intro name
  rw [OrderedMap.get?_insert, filter_concat]
  by_cases same : key item = name
  · subst same
    rw [if_pos rfl, if_pos rfl]
    refine ⟨nofun, fun total found => ?_⟩
    obtain rfl := Option.some.inj found
    exact ⟨⟨item, List.mem_append_right _ (List.mem_singleton_self item), rfl⟩, sums⟩
  · rw [if_neg (Ne.symm same), if_neg same]
    refine ⟨fun absent other member => ?_, fun total found => ?_⟩
    · rcases List.mem_append.mp member with old | new
      · exact (holds name).1 absent other old
      · rw [List.mem_singleton.mp new]
        exact same
    · obtain ⟨⟨other, old, named⟩, sums⟩ := (holds name).2 total found
      exact ⟨⟨other, List.mem_append_left _ old, named⟩, sums⟩

/-- An item is put into a table exactly if it is compatible with the items of its key, and then the
table has it. -/
theorem Merges.add (merges : Merges merge Compatible Sums) (holds : Holds key Sums items table)
    (item : ν) :
    ((∃ reached, Joins.add key merge table item = .ok reached) ↔
      ∀ other ∈ items, key other = key item → Compatible other item) ∧
    ∀ reached, Joins.add key merge table item = .ok reached →
      Holds key Sums (items ++ [item]) reached := by
  obtain ⟨absent, present⟩ := holds (key item)
  unfold Joins.add
  cases found : table.get? (key item) with
  | none =>
    refine ⟨iff_of_true ⟨_, rfl⟩ fun other member same => absurd same (absent found other member),
      fun reached done => ?_⟩
    obtain rfl := Except.ok.inj done
    refine holds.insert ?_
    have none : items.filter (fun other => key other = key item) = [] :=
      List.filter_eq_nil_iff.mpr fun other member => by simpa using absent found other member
    rw [none]
    exact merges.single item
  | some total =>
    have sums := (present total found).2
    constructor
    · have here := @merges.succeeds _ _ item sums
      simp only [List.mem_filter, decide_eq_true_eq, and_imp] at here
      rw [← here]
      constructor
      · rintro ⟨reached, done⟩
        obtain ⟨next, merged, -⟩ := bind_eq_ok.mp done
        exact ⟨next, merged⟩
      · rintro ⟨next, merged⟩
        exact ⟨_, bind_eq_ok.mpr ⟨next, merged, rfl⟩⟩
    · intro reached done
      obtain ⟨next, merged, inserted⟩ := bind_eq_ok.mp done
      obtain rfl := Except.ok.inj inserted
      exact holds.insert (merges.merged sums merged)

/-- Items are put into a table exactly if each is compatible with those of its key that are there and
those of its key before it, and then the table has them. -/
theorem Merges.foldlM (merges : Merges merge Compatible Sums) (holds : Holds key Sums items table)
    (more : List ν) :
    ((∃ reached, more.foldlM (Joins.add key merge) table = .ok reached) ↔
      (∀ other ∈ items, ∀ item ∈ more, key other = key item → Compatible other item) ∧
        more.Pairwise fun other item => key other = key item → Compatible other item) ∧
    ∀ reached, more.foldlM (Joins.add key merge) table = .ok reached →
      Holds key Sums (items ++ more) reached := by
  induction more generalizing items table with
  | nil =>
    refine ⟨iff_of_true ⟨table, rfl⟩ ⟨fun _ _ _ member => absurd member List.not_mem_nil,
      List.Pairwise.nil⟩, fun reached done => ?_⟩
    obtain rfl := Except.ok.inj done
    rwa [List.append_nil]
  | cons first rest ih =>
    obtain ⟨succeeds, kept⟩ := merges.add holds first
    rw [List.foldlM_cons]
    constructor
    · constructor
      · rintro ⟨reached, done⟩
        obtain ⟨between, added, later⟩ := bind_eq_ok.mp done
        have here := succeeds.mp ⟨between, added⟩
        obtain ⟨before, pairwise⟩ := (ih (kept between added)).1.mp ⟨reached, later⟩
        refine ⟨fun other old item member => ?_, List.pairwise_cons.mpr ⟨fun item member => ?_,
          pairwise⟩⟩
        · rcases List.mem_cons.mp member with rfl | member
          · exact here other old
          · exact before other (List.mem_append_left _ old) item member
        · exact before first (List.mem_append_right _ (List.mem_singleton_self first)) item member
      · rintro ⟨before, pairwise⟩
        obtain ⟨ahead, pairwise⟩ := List.pairwise_cons.mp pairwise
        obtain ⟨between, added⟩ := succeeds.mpr fun other old => before other old first
          List.mem_cons_self
        obtain ⟨reached, later⟩ := (ih (kept between added)).1.mpr ⟨fun other old item member => by
          rcases List.mem_append.mp old with old | new
          · exact before other old item (List.mem_cons_of_mem _ member)
          · rw [List.mem_singleton.mp new]
            exact ahead item member, pairwise⟩
        exact ⟨reached, bind_eq_ok.mpr ⟨between, added, later⟩⟩
    · intro reached done
      obtain ⟨between, added, later⟩ := bind_eq_ok.mp done
      have after := (ih (kept between added)).2 reached later
      rwa [List.append_assoc] at after

/-- A list is put into the empty table exactly if any two items with one key are compatible, and then
the table has the list. -/
theorem Merges.run (merges : Merges merge Compatible Sums)
    (symmetric : ∀ left right, Compatible left right → Compatible right left)
    (reflexive : ∀ item, Compatible item item) (items : List ν) :
    ((∃ reached, items.foldlM (Joins.add key merge) OrderedMap.empty = .ok reached) ↔
      ∀ left ∈ items, ∀ right ∈ items, key left = key right → Compatible left right) ∧
    ∀ reached, items.foldlM (Joins.add key merge) OrderedMap.empty = .ok reached →
      Holds key Sums items reached := by
  obtain ⟨succeeds, kept⟩ := merges.foldlM (@holds_empty _ _ _ _ key Sums) items
  refine ⟨succeeds.trans ?_, fun reached done => kept reached done⟩
  have symm : Std.Symm fun left right => key left = key right → Compatible left right :=
    ⟨fun left right compatible same => symmetric _ _ (compatible same.symm)⟩
  constructor
  · rintro ⟨-, pairwise⟩ left leftIn right rightIn
    exact List.Pairwise.forall_of_forall (fun item _ _ => reflexive item) pairwise leftIn rightIn
  · intro all
    refine ⟨fun other member => absurd member List.not_mem_nil, ?_⟩
    exact List.pairwise_of_forall_mem_list fun left leftIn right rightIn => all left leftIn right rightIn

/-- What a table that has items holds under a key. -/
theorem Holds.entry (holds : Holds key Sums items table) {name : κ} {total : ν}
    (member : (name, total) ∈ table.entries) :
    (∃ item ∈ items, key item = name) ∧ Sums (items.filter fun item => key item = name) total :=
  (holds name).2 total (OrderedMap.get?_eq_some_iff.mpr member)

/-- A table that has items has something under the key of each. -/
theorem Holds.exists_entry (holds : Holds key Sums items table) {item : ν} (member : item ∈ items) :
    ∃ total, (key item, total) ∈ table.entries := by
  cases found : table.get? (key item) with
  | none => exact absurd rfl ((holds _).1 found item member)
  | some total => exact ⟨total, OrderedMap.get?_eq_some_iff.mp found⟩

/-- Tables that have items with the same keys have entries under the same keys in order. -/
theorem Holds.aligned {others : List ν} {other : OrderedMap κ ν} (holds : Holds key Sums items table)
    (holds' : Holds key Sums others other)
    (same : ∀ name, (∃ item ∈ items, key item = name) ↔ ∃ item ∈ others, key item = name) :
    List.Forall₂ (fun left right => left.1 = right.1) table.entries other.entries := by
  have lawful : Std.TransCmp (fun left right : κ × ν => compare left.1 right.1) :=
    inferInstanceAs (Std.TransCmp (compareOn Prod.fst))
  have aligned := @Sorting.forall₂_of_strict _ (fun left right : κ × ν => compare left.1 right.1)
    lawful table.entries other.entries table.ordered other.ordered ?_ ?_
  · exact aligned.imp fun _ _ equal => Std.LawfulEqOrd.compare_eq_iff_eq.mp equal
  · intro entry member
    obtain ⟨item, itemIn, named⟩ := (same entry.1).mp (holds.entry member).1
    obtain ⟨total, there⟩ := holds'.exists_entry itemIn
    exact ⟨_, there, Std.LawfulEqOrd.compare_eq_iff_eq.mpr named.symm⟩
  · intro entry member
    obtain ⟨item, itemIn, named⟩ := (same entry.1).mpr (holds'.entry member).1
    obtain ⟨total, there⟩ := holds.exists_entry itemIn
    exact ⟨_, there, Std.LawfulEqOrd.compare_eq_iff_eq.mpr named.symm⟩

/-- Tables that have items with the same keys have related values in the same order when values under
one key are related. -/
theorem Holds.aligned_values {others : List ν} {other : OrderedMap κ ν} {related : ν → ν → Prop}
    (holds : Holds key Sums items table) (holds' : Holds key Sums others other)
    (same : ∀ name, (∃ item ∈ items, key item = name) ↔ ∃ item ∈ others, key item = name)
    (relates : ∀ name left right, (name, left) ∈ table.entries → (name, right) ∈ other.entries →
      related left right) : List.Forall₂ related table.values other.values := by
  obtain ⟨lengths, pairs⟩ := List.forall₂_iff_zip.mp (holds.aligned holds' same)
  rw [OrderedMap.values, OrderedMap.values, List.forall₂_map_left_iff, List.forall₂_map_right_iff]
  refine List.forall₂_iff_zip.mpr ⟨lengths, fun pair => ?_⟩
  obtain ⟨here, there⟩ := List.of_mem_zip pair
  have name := pairs pair
  exact relates _ _ _ here (by rw [name]; exact there)

end Tables

end Joins
