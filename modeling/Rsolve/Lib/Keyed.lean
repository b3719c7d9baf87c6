import Mathlib.Data.List.Forall2
import Mathlib.Data.List.Induction
import Mathlib.Data.List.Pairwise

/-!
# Keys up to a representative, and maps keyed by them

Keys may carry spelling that comparison ignores. A type says how by naming the representative of
each class; two keys are the same when their representatives are. A keyed map holds at most one
entry of every class. Inserting under a key that is already there keeps the stored key and replaces
its value, and enumeration follows first insertion.
-/
namespace Keyed

universe u v

/-- A type whose values are compared through a representative of their class. -/
class Representative (α : Type u) where
  /-- The representative of a value's class. -/
  representative : α → α

export Representative (representative)

section Same

variable {α : Type u} [Representative α]

/-- Two values of one class. -/
def Same (left right : α) : Prop :=
  representative left = representative right

/-- Comparison of representatives decides sameness. -/
instance [DecidableEq α] (left right : α) : Decidable (Same left right) :=
  inferInstanceAs (Decidable (representative left = representative right))

/-- A value is the same as itself. -/
@[simp]
theorem Same.refl (value : α) : Same value value := rfl

/-- Equal values are the same. -/
theorem Same.of_eq {left right : α} (equal : left = right) : Same left right :=
  congrArg representative equal

/-- Sameness is symmetric. -/
theorem Same.symm {left right : α} (same : Same left right) : Same right left :=
  Eq.symm same

/-- Sameness is transitive. -/
theorem Same.trans {first second third : α} (left : Same first second)
    (right : Same second third) : Same first third :=
  Eq.trans left right

/-- Sameness with one value or with a value of its class is one question. -/
theorem Same.congr_right {left right : α} (value : α) (same : Same left right) :
    Same value left ↔ Same value right :=
  ⟨fun first => first.trans same, fun first => first.trans same.symm⟩

/-- Sameness of one value or of a value of its class is one question. -/
theorem Same.congr_left {left right : α} (value : α) (same : Same left right) :
    Same left value ↔ Same right value :=
  ⟨fun first => same.symm.trans first, fun first => same.trans first⟩

end Same

/-- A list is compared element by element. -/
instance {α : Type u} [Representative α] : Representative (List α) :=
  ⟨List.map representative⟩

/-- An optional value is compared through its content. -/
instance {α : Type u} [Representative α] : Representative (Option α) :=
  ⟨Option.map representative⟩

/-- Two optional values are the same exactly when both are absent or their contents are. -/
theorem same_some {α : Type u} [Representative α] {left right : α} :
    Same (some left) (some right) ↔ Same left right := by
  simp [Same, Representative.representative]

/-- Two lists are the same exactly when they are element by element. -/
theorem same_list {α : Type u} [Representative α] {left right : List α} :
    Same left right ↔ List.Forall₂ Same left right := by
  have related : (Same : α → α → Prop) = fun first second =>
      representative first = representative second := rfl
  rw [related, ← List.forall₂_map_right_iff, ← List.forall₂_map_left_iff, List.forall₂_eq_eq_eq]
  rfl

/-- A finite map whose keys belong to distinct classes. -/
structure KeyedMap (κ : Type u) (ν : Type v) [Representative κ] where
  /-- The entries in order of first insertion. -/
  entries : List (κ × ν)
  /-- No two entries have keys of one class. -/
  distinct : entries.Pairwise (fun left right => ¬ Same left.1 right.1)

namespace KeyedMap

variable {κ : Type u} {ν : Type v} [Representative κ]

/-- The map without entries. -/
def empty : KeyedMap κ ν := ⟨[], List.Pairwise.nil⟩

/-- The stored values in order of first insertion. -/
def values (map : KeyedMap κ ν) : List ν := map.entries.map Prod.snd

variable [DecidableEq κ]

/-- The value stored under a key's class. -/
def get? (map : KeyedMap κ ν) (key : κ) : Option ν :=
  (map.entries.find? (fun entry => Same entry.1 key)).map Prod.snd

/-- Replace the value under a key's class in place, or append a new entry. -/
def insertEntries (key : κ) (value : ν) : List (κ × ν) → List (κ × ν)
  | [] => [(key, value)]
  | entry :: rest =>
    if Same entry.1 key then (entry.1, value) :: rest
    else entry :: insertEntries key value rest

/-- Every entry after an insertion was there before or has the inserted value under the key's
class. -/
theorem mem_insertEntries {key : κ} {value : ν} {entries : List (κ × ν)} {entry : κ × ν}
    (member : entry ∈ insertEntries key value entries) :
    entry ∈ entries ∨ (Same entry.1 key ∧ entry.2 = value) := by
  induction entries with
  | nil =>
    obtain rfl := List.mem_singleton.mp member
    exact Or.inr ⟨Same.refl key, rfl⟩
  | cons head rest ih =>
    simp only [insertEntries] at member
    split at member
    · next same =>
      rcases List.mem_cons.mp member with rfl | member
      · exact Or.inr ⟨same, rfl⟩
      · exact Or.inl (List.mem_cons_of_mem _ member)
    · rcases List.mem_cons.mp member with rfl | member
      · exact Or.inl List.mem_cons_self
      · exact (ih member).imp_left (List.mem_cons_of_mem _)

/-- Every class keyed after an insertion was keyed before or is the inserted key's. -/
theorem exists_of_mem_insertEntries {key : κ} {value : ν} {entries : List (κ × ν)}
    {entry : κ × ν} (member : entry ∈ insertEntries key value entries) :
    (∃ old ∈ entries, old.1 = entry.1) ∨ entry.1 = key := by
  induction entries with
  | nil =>
    obtain rfl := List.mem_singleton.mp member
    exact Or.inr rfl
  | cons head rest ih =>
    simp only [insertEntries] at member
    split at member
    · rcases List.mem_cons.mp member with rfl | member
      · exact Or.inl ⟨head, List.mem_cons_self, rfl⟩
      · exact Or.inl ⟨entry, List.mem_cons_of_mem _ member, rfl⟩
    · rcases List.mem_cons.mp member with rfl | member
      · exact Or.inl ⟨entry, List.mem_cons_self, rfl⟩
      · rcases ih member with ⟨old, oldIn, equal⟩ | equal
        · exact Or.inl ⟨old, List.mem_cons_of_mem _ oldIn, equal⟩
        · exact Or.inr equal

/-- Insertion keeps the keys in distinct classes. -/
theorem insertEntries_distinct (key : κ) (value : ν) {entries : List (κ × ν)}
    (distinct : entries.Pairwise (fun left right => ¬ Same left.1 right.1)) :
    (insertEntries key value entries).Pairwise (fun left right => ¬ Same left.1 right.1) := by
  induction entries with
  | nil => exact List.pairwise_singleton _ _
  | cons head rest ih =>
    rw [List.pairwise_cons] at distinct
    simp only [insertEntries]
    split
    · exact List.pairwise_cons.mpr ⟨distinct.1, distinct.2⟩
    · next differs =>
      refine List.pairwise_cons.mpr ⟨fun entry member => ?_, ih distinct.2⟩
      rcases mem_insertEntries member with old | ⟨same, -⟩
      · exact distinct.1 entry old
      · exact fun agree => differs (agree.trans same)

/-- Store a value, keeping the key already there for its class. -/
def insert (map : KeyedMap κ ν) (key : κ) (value : ν) : KeyedMap κ ν :=
  ⟨insertEntries key value map.entries, insertEntries_distinct key value map.distinct⟩

/-- Insert entries in turn, so that a later value replaces an earlier one of its class. -/
def ofList (entries : List (κ × ν)) : KeyedMap κ ν :=
  entries.foldl (fun map entry => map.insert entry.1 entry.2) empty

/-- Nothing is stored in the empty map. -/
@[simp]
theorem get?_empty (key : κ) : (empty : KeyedMap κ ν).get? key = none := rfl

/-- Lookup depends on a key's class alone. -/
theorem get?_congr (map : KeyedMap κ ν) {left right : κ} (same : Same left right) :
    map.get? left = map.get? right := by
  unfold get?
  congr 2
  funext entry
  exact decide_eq_decide.mpr (same.congr_right entry.1)

/-- Lookup finds the value of the entry with the key's class. -/
theorem get?_eq_some_iff (map : KeyedMap κ ν) (key : κ) (value : ν) :
    map.get? key = some value ↔ ∃ entry ∈ map.entries, Same entry.1 key ∧ entry.2 = value := by
  obtain ⟨entries, distinct⟩ := map
  simp only [get?]
  induction entries with
  | nil => simp
  | cons head rest ih =>
    rw [List.pairwise_cons] at distinct
    by_cases same : Same head.1 key
    · simp only [List.find?_cons, same, decide_true, Option.map_some, Option.some.injEq]
      constructor
      · intro equal
        exact ⟨head, List.mem_cons_self, same, equal⟩
      · rintro ⟨entry, member, agrees, equal⟩
        rcases List.mem_cons.mp member with rfl | member
        · exact equal
        · exact absurd (same.trans agrees.symm) (distinct.1 entry member)
    · simp only [List.find?_cons, same, decide_false]
      rw [ih distinct.2]
      simp [same]

/-- Lookup fails when no entry has the key's class. -/
theorem get?_eq_none_iff (map : KeyedMap κ ν) (key : κ) :
    map.get? key = none ↔ ∀ entry ∈ map.entries, ¬ Same entry.1 key := by
  simp [get?]

/-- An insertion is found under its key's class. -/
theorem get?_insert_same (map : KeyedMap κ ν) {key query : κ} (value : ν)
    (same : Same key query) : (map.insert key value).get? query = some value := by
  obtain ⟨entries, distinct⟩ := map
  simp only [get?, insert]
  clear distinct
  induction entries with
  | nil => simp [insertEntries, same]
  | cons head rest ih =>
    simp only [insertEntries]
    split
    · next agrees => simp [agrees.trans same]
    · next differs =>
      have apart : ¬ Same head.1 query := fun agrees => differs (agrees.trans same.symm)
      simpa [List.find?_cons, apart] using ih

/-- An insertion leaves other classes alone. -/
theorem get?_insert_other (map : KeyedMap κ ν) {key query : κ} (value : ν)
    (differs : ¬ Same key query) : (map.insert key value).get? query = map.get? query := by
  obtain ⟨entries, distinct⟩ := map
  simp only [get?, insert]
  clear distinct
  induction entries with
  | nil => simp [insertEntries, differs]
  | cons head rest ih =>
    simp only [insertEntries]
    split
    · next agrees =>
      have apart : ¬ Same head.1 query := fun same => differs (agrees.symm.trans same)
      simp [apart]
    · by_cases same : Same head.1 query
      · simp [same]
      · simpa [List.find?_cons, same] using ih

/-- What a lookup finds after an insertion was inserted or was there before. -/
theorem get?_insert (map : KeyedMap κ ν) (key query : κ) (value : ν) :
    (map.insert key value).get? query = if Same key query then some value else map.get? query := by
  split
  · next same => exact get?_insert_same map value same
  · next differs => exact get?_insert_other map value differs

/-- A map built from entries stores the last entry of each class. -/
theorem get?_ofList_concat (entries : List (κ × ν)) (entry : κ × ν) (query : κ) :
    (ofList (entries ++ [entry])).get? query =
      if Same entry.1 query then some entry.2 else (ofList entries).get? query := by
  simp only [ofList, List.foldl_append, List.foldl_cons, List.foldl_nil]
  exact get?_insert _ entry.1 query entry.2

/-- A map built from entries stores, for each class, its last entry. -/
theorem get?_ofList (entries : List (κ × ν)) (query : κ) :
    (ofList entries).get? query =
      (entries.reverse.find? (fun entry => Same entry.1 query)).map Prod.snd := by
  induction entries using List.reverseRecOn with
  | nil => rfl
  | append_singleton entries last ih =>
    rw [get?_ofList_concat, List.reverse_append, List.reverse_singleton, List.singleton_append,
      List.find?_cons]
    by_cases same : Same last.1 query
    · simp [same]
    · simp [same, ih]

/-- A map built from entries has a value for the key of each entry. -/
theorem exists_get?_ofList {entries : List (κ × ν)} {entry : κ × ν} (member : entry ∈ entries) :
    ∃ value, (ofList entries).get? entry.1 = some value := by
  rw [get?_ofList]
  cases found : entries.reverse.find? (fun other => decide (Same other.1 entry.1)) with
  | none => simpa using List.find?_eq_none.mp found entry (List.mem_reverse.mpr member)
  | some other => exact ⟨other.2, rfl⟩

/-- Maps built from related entries whose keys match alike hold related values. -/
theorem get?_ofList_related {κ' : Type u} {ν' : Type v} [Representative κ'] [DecidableEq κ']
    {related : κ × ν → κ' × ν' → Prop} {left : List (κ × ν)} {right : List (κ' × ν')}
    (paired : List.Forall₂ related left right) {query : κ} {query' : κ'}
    (agree : ∀ first second, related first second → (Same first.1 query ↔ Same second.1 query'))
    {value : ν'} (stored : (ofList right).get? query' = some value) :
    ∃ first second, related first second ∧ Same first.1 query ∧
      (ofList left).get? query = some first.2 ∧ second.2 = value := by
  rw [get?_ofList] at stored ⊢
  have reversed := List.forall₂_reverse_iff.mpr paired
  generalize left.reverse = left at reversed ⊢
  generalize right.reverse = right at reversed stored
  induction reversed with
  | nil => simp at stored
  | @cons first second _ _ head _ ih =>
    rw [List.find?_cons] at stored ⊢
    by_cases same : Same first.1 query
    · have sameRight := (agree first second head).mp same
      simp only [sameRight, decide_true, Option.map_some, Option.some.injEq] at stored
      exact ⟨first, second, head, same, by simp [same], stored⟩
    · have differs := mt (agree first second head).mpr same
      simp only [differs, decide_false] at stored
      simp only [same, decide_false]
      exact ih stored

/-- Every stored entry of a map built from entries is an entry up to the spelling of its key. -/
theorem mem_ofList {entries : List (κ × ν)} {entry : κ × ν}
    (member : entry ∈ (ofList entries).entries) :
    ∃ source ∈ entries, Same source.1 entry.1 ∧ source.2 = entry.2 := by
  have found : (ofList entries).get? entry.1 = some entry.2 :=
    (get?_eq_some_iff _ _ _).mpr ⟨entry, member, Same.refl _, rfl⟩
  rw [get?_ofList] at found
  obtain ⟨source, first, equal⟩ := Option.map_eq_some_iff.mp found
  refine ⟨source, List.mem_reverse.mp (List.mem_of_find?_eq_some first), ?_, equal⟩
  simpa using List.find?_some first

end KeyedMap

end Keyed
