import Mathlib.Data.String.Basic
import Rsolve.Lib.Ordered

/-!
# Neighbours in an ordered set

A set in key order that looks only at the two neighbours of a new key finds every member that
covers the key or is covered by it, as long as no member lies between a key and what it covers.
For paths of words, a word covers the words that continue it after a separator; what lies between
continues it with something below the separator.
-/
namespace Ordered

universe u

namespace OrderedSet

variable {κ : Type u} [Ord κ]

/-- `range(..=key).next_back()` — the last member that is not above a key. -/
def floor? (set : OrderedSet κ) (key : κ) : Option κ :=
  (set.toList.filter (fun item => compare item key != .gt)).getLast?

/-- `range(key..).next()` — the first member that is not below a key. -/
def ceiling? (set : OrderedSet κ) (key : κ) : Option κ :=
  set.toList.find? (fun item => compare key item != .gt)

variable {set : OrderedSet κ} {key item other : κ}

/-- The last member that is not above a key is a member. -/
theorem mem_of_floor? (found : set.floor? key = some item) : item ∈ set :=
  (List.mem_filter.mp (List.mem_of_getLast? found)).1

/-- The first member that is not below a key is a member. -/
theorem mem_of_ceiling? (found : set.ceiling? key = some item) : item ∈ set :=
  List.mem_of_find?_eq_some found

/-- The last member that is not above a key is not above it. -/
theorem floor?_le (found : set.floor? key = some item) : compare item key ≠ .gt := by
  simpa using (List.mem_filter.mp (List.mem_of_getLast? found)).2

/-- The first member that is not below a key is not below it. -/
theorem le_ceiling? (found : set.ceiling? key = some item) : compare key item ≠ .gt := by
  simpa using List.find?_some found

/-- There is a last member that is not above a key when a member is not above it. -/
theorem exists_floor? (member : other ∈ set) (below : compare other key ≠ .gt) :
    ∃ found, set.floor? key = some found := by
  have inside : other ∈ set.toList.filter (fun item => compare item key != .gt) :=
    List.mem_filter.mpr ⟨member, by simpa using below⟩
  exact ⟨_, List.getLast?_eq_some_getLast (List.ne_nil_of_mem inside)⟩

/-- There is a first member that is not below a key when a member is not below it. -/
theorem exists_ceiling? (member : other ∈ set) (above : compare key other ≠ .gt) :
    ∃ found, set.ceiling? key = some found := by
  refine Option.isSome_iff_exists.mp (List.find?_isSome.mpr ⟨other, member, ?_⟩)
  simpa using above

variable [Std.TransOrd κ]

/-- A member is not above itself. -/
private theorem self_le (item : κ) : compare item item ≠ .gt := by
  rw [Std.ReflOrd.compare_self]
  decide

/-- No member that is not above a key is above the last one. -/
theorem le_floor? (found : set.floor? key = some item) (member : other ∈ set)
    (below : compare other key ≠ .gt) : compare other item ≠ .gt := by
  obtain ⟨front, parts⟩ := List.getLast?_eq_some_iff.mp found
  have inside : other ∈ set.toList.filter (fun item => compare item key != .gt) :=
    List.mem_filter.mpr ⟨member, by simpa using below⟩
  have ordered := (OrderedMap.keys_ordered set).filter (fun item => compare item key != .gt)
  change (set.toList.filter _).Pairwise _ at ordered
  rw [parts] at inside ordered
  rcases List.mem_append.mp inside with earlier | last
  · rw [(List.pairwise_append.mp ordered).2.2 other earlier item (List.mem_singleton.mpr rfl)]
    decide
  · rw [List.mem_singleton.mp last]
    exact self_le item

/-- No member that is not below a key is below the first one. -/
theorem ceiling?_le (found : set.ceiling? key = some item) (member : other ∈ set)
    (above : compare key other ≠ .gt) : compare item other ≠ .gt := by
  obtain ⟨-, front, back, parts, passed⟩ := List.find?_eq_some_iff_append.mp found
  have ordered := OrderedMap.keys_ordered set
  change set.toList.Pairwise _ at ordered
  replace member : other ∈ set.toList := member
  rw [parts] at member ordered
  rcases List.mem_append.mp member with earlier | later
  · have := passed other earlier
    simp [above] at this
  · rcases List.mem_cons.mp later with rfl | later
    · exact self_le other
    · have ordered := (List.pairwise_append.mp ordered).2.1
      rw [(List.pairwise_cons.mp ordered).1 other later]
      decide

end OrderedSet

/-! ### Covering -/

section Covering

variable {κ : Type u} [Ord κ] (covers : κ → κ → Bool)

/-- A neighbour of a key covers it or is covered by it. -/
def meetsNeighbour (set : OrderedSet κ) (key : κ) : Bool :=
  (set.floor? key).any (fun below => covers below key) ||
    (set.ceiling? key).any (fun above => covers key above)

/-- A key comes before what it covers, with nothing between that is not covered or separates. -/
structure Convex (separates : κ → κ → κ → Prop) : Prop where
  /-- A key does not follow what it covers. -/
  le : ∀ {key covered}, covers key covered = true → compare key covered ≠ .gt
  /-- What is between a key and a covered one is covered or separates them. -/
  between : ∀ {key middle covered}, covers key covered = true → compare key middle ≠ .gt →
    compare middle covered ≠ .gt → covers key middle = true ∨ separates key middle covered

/-- No member of a set covers another one. -/
def CoverFree (set : OrderedSet κ) : Prop :=
  ∀ first ∈ set, ∀ second ∈ set, covers first second = true → first = second

/-- No member separates a key from what it covers. -/
def Unbroken (separates : κ → κ → κ → Prop) (items : κ → Prop) : Prop :=
  ∀ key middle covered, items key → items middle → items covered →
    ¬ separates key middle covered

variable {covers} [Std.TransOrd κ] {separates : κ → κ → κ → Prop} {set : OrderedSet κ} {key : κ}

/-- A key that meets no neighbour neither covers a member nor is covered by one. -/
theorem not_covers_of_not_meetsNeighbour (convex : Convex covers separates)
    (free : CoverFree covers set)
    (unbroken : Unbroken separates (fun item => item = key ∨ item ∈ set))
    (clear : meetsNeighbour covers set key = false) {item : κ} (member : item ∈ set) :
    covers item key = false ∧ covers key item = false := by
  obtain ⟨clearBelow, clearAbove⟩ := Bool.or_eq_false_iff.mp clear
  constructor
  · by_contra covered
    replace covered : covers item key = true := by simpa using covered
    have below := convex.le covered
    obtain ⟨found, floor⟩ := OrderedSet.exists_floor? member below
    rw [floor] at clearBelow
    replace clearBelow : covers found key = false := by simpa using clearBelow
    have foundIn := OrderedSet.mem_of_floor? floor
    rcases convex.between covered (OrderedSet.le_floor? floor member below)
      (OrderedSet.floor?_le floor) with covers | separates
    · rw [free item member found foundIn covers, clearBelow] at covered
      cases covered
    · exact unbroken item found key (.inr member) (.inr foundIn) (.inl rfl) separates
  · by_contra covering
    replace covering : covers key item = true := by simpa using covering
    have above := convex.le covering
    obtain ⟨found, ceiling⟩ := OrderedSet.exists_ceiling? member above
    rw [ceiling] at clearAbove
    replace clearAbove : covers key found = false := by simpa using clearAbove
    have foundIn := OrderedSet.mem_of_ceiling? ceiling
    rcases convex.between covering (OrderedSet.le_ceiling? ceiling)
      (OrderedSet.ceiling?_le ceiling member above) with covers | separates
    · rw [covers] at clearAbove
      cases clearAbove
    · exact unbroken key found item (.inl rfl) (.inr foundIn) (.inr member) separates

omit [Std.TransOrd κ] in
/-- A key that neither covers a member nor is covered by one meets no neighbour. -/
theorem not_meetsNeighbour
    (clear : ∀ item ∈ set, covers item key = false ∧ covers key item = false) :
    meetsNeighbour covers set key = false := by
  refine Bool.or_eq_false_iff.mpr ⟨?_, ?_⟩
  · cases found : set.floor? key with
    | none => rfl
    | some item => exact (clear item (OrderedSet.mem_of_floor? found)).1
  · cases found : set.ceiling? key with
    | none => rfl
    | some item => exact (clear item (OrderedSet.mem_of_ceiling? found)).2

end Covering

/-! ### Words -/

section Words

variable {α : Type u}

/-- A word lengthens another one after a separator. -/
def Lengthens (separator : α) (word longer : List α) : Prop :=
  ∃ rest, longer = word ++ separator :: rest

/-- A word goes on from another one with something below a separator. -/
def Splits [LT α] (separator : α) (word longer : List α) : Prop :=
  ∃ item rest, item < separator ∧ longer = word ++ item :: rest

variable [LinearOrder α] {separator : α} {word middle longer : List α}

/-- A word is before its continuations. -/
theorem lt_append_cons (word : List α) (item : α) (rest : List α) :
    word < word ++ item :: rest := by
  simpa using @List.append_left_lt _ _ word _ _ (List.nil_lt_cons item rest)

/-- What splits a word is after the word. -/
theorem Splits.after (splits : Splits separator word middle) : word < middle := by
  obtain ⟨item, rest, -, parts⟩ := splits
  exact parts ▸ lt_append_cons word item rest

/-- What splits a word from its continuation is before the continuation. -/
theorem Splits.lt (splits : Splits separator word middle)
    (lengthens : Lengthens separator word longer) : middle < longer := by
  obtain ⟨item, front, below, rfl⟩ := splits
  obtain ⟨rest, rfl⟩ := lengthens
  exact List.append_left_lt (List.cons_lt_cons_iff.mpr (.inl below))

/-- Between a word and its continuation are the word, continuations and what splits them. -/
theorem between_lengthens (lengthens : Lengthens separator word longer) (above : ¬ middle < word)
    (below : ¬ longer < middle) :
    middle = word ∨ Lengthens separator word middle ∨ Splits separator word middle := by
  obtain ⟨rest, rfl⟩ := lengthens
  induction word generalizing middle with
  | nil =>
    cases middle with
    | nil => exact .inl rfl
    | cons item tail =>
      rw [List.nil_append, List.cons_lt_cons_iff, not_or] at below
      rcases lt_or_eq_of_le (not_lt.mp below.1) with less | rfl
      · exact .inr (.inr ⟨item, tail, less, rfl⟩)
      · exact .inr (.inl ⟨tail, rfl⟩)
  | cons first word ih =>
    cases middle with
    | nil => exact absurd (List.nil_lt_cons first word) above
    | cons item tail =>
      rw [List.cons_append, List.cons_lt_cons_iff, not_or, not_and] at below
      rw [List.cons_lt_cons_iff, not_or, not_and] at above
      obtain rfl : item = first := le_antisymm (not_lt.mp below.1) (not_lt.mp above.1)
      rcases ih (above.2 rfl) (below.2 rfl) with rfl | ⟨tail, rfl⟩ | ⟨other, tail, less, rfl⟩
      · exact .inl rfl
      · exact .inr (.inl ⟨tail, rfl⟩)
      · exact .inr (.inr ⟨other, tail, less, rfl⟩)

/-- What splits a word from others does not continue it. -/
theorem Splits.not_lengthens (splits : Splits separator word middle) :
    ¬ Lengthens separator word middle := by
  rintro ⟨rest, equal⟩
  obtain ⟨item, front, below, rfl⟩ := splits
  obtain ⟨rfl, -⟩ := List.cons.inj (List.append_cancel_left equal)
  exact lt_irrefl _ below

/-- A word and a continuation of what splits it do not meet. -/
theorem Splits.not_lengthens_of_lengthens (splits : Splits separator word middle)
    (lengthens : Lengthens separator word longer) : ¬ Lengthens separator middle longer := by
  rintro ⟨rest, equal⟩
  obtain ⟨item, front, below, rfl⟩ := splits
  obtain ⟨tail, rfl⟩ := lengthens
  rw [List.append_assoc] at equal
  obtain ⟨rfl, -⟩ := List.cons.inj (List.append_cancel_left equal)
  exact lt_irrefl _ below

end Words

end Ordered
