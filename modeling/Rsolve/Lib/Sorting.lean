import Mathlib.Data.List.Sort
import Mathlib.Data.List.Destutter

/-!
# Stable sorting and adjacent deduplication

A comparator sorts a list stably, and a run of elements that agree on a coarser comparator is
reduced to its first element. The canonical list so obtained is strictly increasing for the
coarser comparator, holds a representative of every class of its input, and is left unchanged by
a second pass. Comparators are three-way and lawful (`Std.TransCmp`); they need not separate
distinct elements.
-/
namespace Sorting

variable {α : Type*}

/-- Stable sort by a three-way comparator. -/
def sortBy (cmp : α → α → Ordering) (items : List α) : List α :=
  items.insertionSort (fun left right => (cmp left right).isLE)

/-- Keep the first element of every run of adjacent elements the test identifies. -/
def dedupBy (same : α → α → Bool) (items : List α) : List α :=
  items.destutter (fun left right => same left right = false)

/-- Sorting rearranges its input. -/
theorem sortBy_perm (cmp : α → α → Ordering) (items : List α) :
    (sortBy cmp items).Perm items :=
  List.perm_insertionSort _ items

/-- Sorting keeps exactly the elements of its input. -/
@[simp]
theorem mem_sortBy {cmp : α → α → Ordering} {items : List α} {item : α} :
    item ∈ sortBy cmp items ↔ item ∈ items :=
  (sortBy_perm cmp items).mem_iff

/-- A lawful comparator orders the sorted list. -/
theorem sortBy_pairwise (cmp : α → α → Ordering) [Std.TransCmp cmp] (items : List α) :
    (sortBy cmp items).Pairwise (fun left right => (cmp left right).isLE) := by
  have total : Std.Total (fun left right : α => (cmp left right).isLE = true) := by
    constructor
    intro left right
    have swapped : cmp right left = (cmp left right).swap := Std.OrientedCmp.eq_swap
    rw [swapped]
    cases cmp left right <;> simp
  have trans : IsTrans α (fun left right : α => (cmp left right).isLE = true) :=
    ⟨fun _ _ _ first second => Std.TransCmp.isLE_trans first second⟩
  exact List.pairwise_insertionSort _ items

/-- A list already in order is its own sorted list. -/
theorem sortBy_eq_self {cmp : α → α → Ordering} {items : List α}
    (ordered : items.Pairwise (fun left right => (cmp left right).isLE)) :
    sortBy cmp items = items :=
  List.Pairwise.insertionSort_eq ordered

/-- Two rearrangements of one list sort alike when the comparator separates its elements. -/
theorem sortBy_eq_of_perm (cmp : α → α → Ordering) [Std.TransCmp cmp] {left right : List α}
    (perm : left.Perm right)
    (separates : ∀ first ∈ left, ∀ second ∈ left, cmp first second = .eq → first = second) :
    sortBy cmp left = sortBy cmp right := by
  refine List.Perm.eq_of_pairwise ?_ (sortBy_pairwise cmp left) (sortBy_pairwise cmp right)
    (((sortBy_perm cmp left).trans perm).trans (sortBy_perm cmp right).symm)
  intro first second firstIn secondIn below above
  refine separates first (mem_sortBy.mp firstIn) second
    (perm.mem_iff.mpr (mem_sortBy.mp secondIn)) ?_
  exact Std.OrientedCmp.isLE_antisymm below above

/-- The last element of a sorted list is above all others. -/
theorem exists_last_sortBy (cmp : α → α → Ordering) [Std.TransCmp cmp] {items : List α} {item : α}
    (member : item ∈ items) :
    ∃ last ∈ items, (sortBy cmp items).getLast? = some last ∧
      ∀ other ∈ items, (cmp other last).isLE = true := by
  have nonempty : sortBy cmp items ≠ [] := List.ne_nil_of_mem (mem_sortBy.mpr member)
  have refl : Std.Refl (fun left right : α => (cmp left right).isLE = true) :=
    ⟨fun only => by
      have equal : cmp only only = .eq := Std.ReflCmp.compare_self
      rw [equal]
      rfl⟩
  refine ⟨(sortBy cmp items).getLast nonempty, mem_sortBy.mp (List.getLast_mem nonempty),
    List.getLast?_eq_some_getLast nonempty, fun other inside => ?_⟩
  exact (sortBy_pairwise cmp items).rel_getLast (mem_sortBy.mpr inside)

/-- Deduplication keeps a subsequence. -/
theorem dedupBy_sublist (same : α → α → Bool) (items : List α) :
    (dedupBy same items).Sublist items :=
  List.destutter_sublist _ items

/-- Every element kept by deduplication is an element of the input. -/
theorem mem_of_mem_dedupBy {same : α → α → Bool} {items : List α} {item : α}
    (kept : item ∈ dedupBy same items) : item ∈ items :=
  (dedupBy_sublist same items).mem kept

/-- Every element is identified with one that deduplication keeps. -/
theorem exists_mem_dedupBy {same : α → α → Bool} (refl : ∀ item, same item item = true)
    (trans : ∀ first second third, same first second = true → same second third = true →
      same first third = true)
    (symm : ∀ first second, same first second = true → same second first = true)
    {items : List α} {item : α} (member : item ∈ items) :
    ∃ kept ∈ dedupBy same items, same item kept = true := by
  suffices general : ∀ (rest : List α) (head item : α), item ∈ head :: rest →
      ∃ kept ∈ rest.destutter' (fun left right => same left right = false) head,
        same item kept = true by
    cases items with
    | nil => simp at member
    | cons head rest => exact general rest head item member
  intro rest
  induction rest with
  | nil =>
    intro head item member
    obtain rfl := List.mem_singleton.mp member
    exact ⟨item, by simp, refl item⟩
  | cons next rest ih =>
    intro head item member
    by_cases differs : same head next = false
    · simp only [List.destutter', differs, if_true]
      rcases List.mem_cons.mp member with rfl | member
      · exact ⟨item, List.mem_cons_self, refl item⟩
      · obtain ⟨kept, keptIn, agrees⟩ := ih next item member
        exact ⟨kept, List.mem_cons_of_mem _ keptIn, agrees⟩
    · simp only [List.destutter', differs]
      have agree : same head next = true := by simpa using differs
      rcases List.mem_cons.mp member with rfl | member
      · exact ih item item List.mem_cons_self
      · rcases List.mem_cons.mp member with rfl | member
        · obtain ⟨kept, keptIn, agrees⟩ := ih head head List.mem_cons_self
          exact ⟨kept, keptIn, trans _ _ _ (symm _ _ agree) agrees⟩
        · exact ih head item (List.mem_cons_of_mem _ member)

/-- Adjacent facts of two kinds combine. -/
theorem isChain_of_both {first second third : α → α → Prop} {items : List α}
    (left : items.IsChain first) (right : items.IsChain second)
    (combine : ∀ x y, first x y → second x y → third x y) : items.IsChain third := by
  induction items with
  | nil => exact .nil
  | cons head rest ih =>
    cases rest with
    | nil => exact .singleton head
    | cons next rest =>
      rw [List.isChain_cons_cons] at left right ⊢
      exact ⟨combine _ _ left.1 right.1, ih left.2 right.2⟩

/-- The tie break that separates nothing. -/
def noTie (_ _ : α) : Ordering := .eq

/-- The tie break that separates nothing is lawful. -/
instance : Std.TransCmp (noTie : α → α → Ordering) where
  eq_swap := rfl
  isLE_trans _ _ := rfl

/-- A comparator without tie break is the comparator. -/
@[simp]
theorem compareLex_noTie (cmp : α → α → Ordering) : compareLex cmp noTie = cmp := by
  funext left right
  simp only [compareLex, noTie]
  cases cmp left right <;> rfl

section Canonical

variable (coarse tie : α → α → Ordering)

/-- Sort by a comparator refined by a tie break, then keep the first element of every class of
the comparator. -/
def canonical (items : List α) : List α :=
  dedupBy (fun left right => coarse left right == .eq) (sortBy (compareLex coarse tie) items)

/-- The canonical list holds only elements of its input. -/
theorem mem_of_mem_canonical {items : List α} {item : α}
    (kept : item ∈ canonical coarse tie items) : item ∈ items :=
  mem_sortBy.mp (mem_of_mem_dedupBy kept)

/-- The canonical list represents every class of its input. -/
theorem exists_mem_canonical [Std.TransCmp coarse] {items : List α} {item : α} (member : item ∈ items) :
    ∃ kept ∈ canonical coarse tie items, coarse item kept = .eq := by
  have equivalence : ∃ kept ∈ canonical coarse tie items, (coarse item kept == .eq) = true := by
    refine exists_mem_dedupBy ?_ ?_ ?_ (mem_sortBy.mpr member)
    · intro item
      simp [Std.ReflCmp.compare_self]
    · intro first second third left right
      simp only [beq_iff_eq] at left right ⊢
      exact Std.TransCmp.eq_trans left right
    · intro first second agrees
      simp only [beq_iff_eq] at agrees ⊢
      exact Std.OrientedCmp.eq_symm agrees
  simpa using equivalence

/-- The canonical list is strictly increasing. -/
theorem canonical_strict [Std.TransCmp coarse] [Std.TransCmp tie] (items : List α) :
    (canonical coarse tie items).Pairwise (fun left right => coarse left right = .lt) := by
  have ordered : (canonical coarse tie items).Pairwise
      (fun left right => (compareLex coarse tie left right).isLE) :=
    (sortBy_pairwise (compareLex coarse tie) items).sublist (dedupBy_sublist _ _)
  have chain : (canonical coarse tie items).IsChain
      (fun left right => (coarse left right == .eq) = false) :=
    List.isChain_destutter _ _
  have strictChain : (canonical coarse tie items).IsChain
      (fun left right => coarse left right = .lt) := by
    refine isChain_of_both ordered.isChain chain ?_
    intro left right below differs
    simp only [compareLex] at below
    cases relation : coarse left right with
    | lt => rfl
    | eq => simp [relation] at differs
    | gt => simp [relation] at below
  have trans : IsTrans α (fun left right => coarse left right = .lt) :=
    ⟨fun _ _ _ first second => Std.TransCmp.lt_trans first second⟩
  exact strictChain.pairwise

/-- A strictly increasing list is its own canonical list. -/
theorem canonical_eq_self {items : List α}
    (strict : items.Pairwise (fun left right => coarse left right = .lt)) :
    canonical coarse tie items = items := by
  have sorted : sortBy (compareLex coarse tie) items = items := by
    refine sortBy_eq_self (strict.imp ?_)
    intro left right below
    simp [compareLex, below]
  rw [canonical, sorted]
  refine List.destutter_of_isChain _ _ (strict.isChain.imp ?_)
  intro left right below
  simp [below]

end Canonical

/-- In a strictly increasing list, elements the comparator identifies are one element. -/
theorem eq_of_strict {cmp : α → α → Ordering} [Std.TransCmp cmp] {items : List α}
    (strict : items.Pairwise (fun left right => cmp left right = .lt)) {left right : α}
    (leftIn : left ∈ items) (rightIn : right ∈ items) (agree : cmp left right = .eq) :
    left = right := by
  have symmetric : Std.Symm (fun first second => cmp first second ≠ .eq) :=
    ⟨fun _ _ apart same => apart (Std.OrientedCmp.eq_symm same)⟩
  have apart : items.Pairwise (fun first second => cmp first second ≠ .eq) :=
    strict.imp (fun below same => by simp [below] at same)
  by_contra differs
  exact apart.forall leftIn rightIn differs agree

/-- Two strictly increasing lists with the same classes agree class by class. -/
theorem forall₂_of_strict {cmp : α → α → Ordering} [Std.TransCmp cmp] :
    ∀ {left right : List α},
      left.Pairwise (fun first second => cmp first second = .lt) →
      right.Pairwise (fun first second => cmp first second = .lt) →
      (∀ item ∈ left, ∃ other ∈ right, cmp item other = .eq) →
      (∀ item ∈ right, ∃ other ∈ left, cmp item other = .eq) →
      List.Forall₂ (fun first second => cmp first second = .eq) left right
  | [], [], _, _, _, _ => List.Forall₂.nil
  | [], head :: rest, _, _, _, covered => by
    obtain ⟨other, otherIn, _⟩ := covered head List.mem_cons_self
    simp at otherIn
  | head :: rest, [], _, _, covers, _ => by
    obtain ⟨other, otherIn, _⟩ := covers head List.mem_cons_self
    simp at otherIn
  | first :: left, second :: right, leftStrict, rightStrict, covers, covered => by
    rw [List.pairwise_cons] at leftStrict rightStrict
    -- The two heads are the least elements of their lists, so each is below the other's match.
    have heads : cmp first second = .eq := by
      obtain ⟨other, otherIn, same⟩ := covers first List.mem_cons_self
      obtain ⟨back, backIn, sameBack⟩ := covered second List.mem_cons_self
      rcases List.mem_cons.mp otherIn with rfl | otherIn
      · exact same
      rcases List.mem_cons.mp backIn with rfl | backIn
      · exact Std.OrientedCmp.eq_symm sameBack
      have below : cmp second first = .lt :=
        Std.TransCmp.lt_of_lt_of_eq (rightStrict.1 other otherIn) (Std.OrientedCmp.eq_symm same)
      have above : cmp first second = .lt :=
        Std.TransCmp.lt_of_lt_of_eq (leftStrict.1 back backIn) (Std.OrientedCmp.eq_symm sameBack)
      have swapped : cmp second first = (cmp first second).swap := Std.OrientedCmp.eq_swap
      simp [swapped, above] at below
    refine List.Forall₂.cons heads (forall₂_of_strict leftStrict.2 rightStrict.2 ?_ ?_)
    · intro item member
      obtain ⟨other, otherIn, same⟩ := covers item (List.mem_cons_of_mem _ member)
      rcases List.mem_cons.mp otherIn with rfl | otherIn
      · have := Std.TransCmp.lt_of_lt_of_eq (leftStrict.1 item member) same
        simp [heads] at this
      · exact ⟨other, otherIn, same⟩
    · intro item member
      obtain ⟨other, otherIn, same⟩ := covered item (List.mem_cons_of_mem _ member)
      rcases List.mem_cons.mp otherIn with rfl | otherIn
      · have := Std.TransCmp.lt_of_lt_of_eq (rightStrict.1 item member) same
        simp [Std.OrientedCmp.eq_symm heads] at this
      · exact ⟨other, otherIn, same⟩

/-- A list whose elements all belong to a strictly increasing list, and which has all its
elements, canonicalizes to it. -/
theorem canonical_eq_of_strict (coarse tie : α → α → Ordering) [Std.TransCmp coarse]
    [Std.TransCmp tie] {items strictItems : List α}
    (strict : strictItems.Pairwise (fun left right => coarse left right = .lt))
    (same : ∀ item, item ∈ items ↔ item ∈ strictItems) :
    canonical coarse tie items = strictItems := by
  have agree := forall₂_of_strict (canonical_strict coarse tie items) strict
    (fun item kept => ⟨item, (same item).mp (mem_of_mem_canonical coarse tie kept),
      Std.ReflCmp.compare_self⟩)
    (fun item member => exists_mem_canonical coarse tie ((same item).mpr member))
  have equal : ∀ {left right : List α}, (∀ item ∈ left, item ∈ strictItems) →
      (∀ item ∈ right, item ∈ strictItems) →
      List.Forall₂ (fun first second => coarse first second = .eq) left right →
      left = right := by
    intro left right leftIn rightIn related
    induction related with
    | nil => rfl
    | cons head _ ih =>
      rw [eq_of_strict strict (leftIn _ List.mem_cons_self) (rightIn _ List.mem_cons_self) head,
        ih (fun item member => leftIn item (List.mem_cons_of_mem _ member))
          (fun item member => rightIn item (List.mem_cons_of_mem _ member))]
  exact equal (fun item kept => (same item).mp (mem_of_mem_canonical coarse tie kept))
    (fun _ member => member) agree

/-- Strictly increasing lists with the same elements are equal. -/
theorem strict_ext {cmp : α → α → Ordering} [Std.TransCmp cmp] {left right : List α}
    (leftStrict : left.Pairwise (fun first second => cmp first second = .lt))
    (rightStrict : right.Pairwise (fun first second => cmp first second = .lt))
    (same : ∀ item, item ∈ left ↔ item ∈ right) : left = right :=
  (canonical_eq_self cmp noTie leftStrict).symm.trans
    (canonical_eq_of_strict cmp noTie rightStrict same)

section Distinct

variable [Ord α] [Std.LawfulEqOrd α] [DecidableEq α]

/-- Sort a list by its natural order and drop repeated neighbours. -/
def sortDedup (items : List α) : List α :=
  dedupBy (fun left right => left == right) (sortBy compare items)

/-- Sorting and dropping repetitions is the canonical list of the natural order. -/
theorem sortDedup_eq (items : List α) : sortDedup items = canonical compare noTie items := by
  have tested : (fun left right : α => left == right) =
      fun left right => compare left right == .eq := by
    funext left right
    rw [Bool.eq_iff_iff, beq_iff_eq, beq_iff_eq]
    exact Std.LawfulEqOrd.compare_eq_iff_eq.symm
  rw [sortDedup, canonical, compareLex_noTie, tested]

variable [Std.TransOrd α]

/-- Nothing is lost and nothing is added. -/
@[simp]
theorem mem_sortDedup {items : List α} {item : α} : item ∈ sortDedup items ↔ item ∈ items := by
  rw [sortDedup_eq]
  refine ⟨mem_of_mem_canonical compare noTie, fun member => ?_⟩
  obtain ⟨kept, keptIn, equal⟩ := exists_mem_canonical compare noTie member
  rw [Std.LawfulEqOrd.compare_eq_iff_eq.mp equal]
  exact keptIn

/-- The sorted list increases strictly. -/
theorem sortDedup_strict (items : List α) :
    (sortDedup items).Pairwise (fun left right => compare left right = .lt) := by
  rw [sortDedup_eq]
  exact canonical_strict compare noTie items

/-- Two lists sort to one list exactly when they have the same elements. -/
theorem sortDedup_eq_iff {left right : List α} :
    sortDedup left = sortDedup right ↔ ∀ item, item ∈ left ↔ item ∈ right := by
  constructor
  · intro equal item
    rw [← mem_sortDedup, equal, mem_sortDedup]
  · intro same
    refine strict_ext (sortDedup_strict left) (sortDedup_strict right) fun item => ?_
    rw [mem_sortDedup, mem_sortDedup, same]

end Distinct

/-- Two lists hold the same elements up to a relation, in any order and any number. -/
def Matches {β : Type*} (related : α → β → Prop) (left : List α) (right : List β) : Prop :=
  (∀ first ∈ left, ∃ second ∈ right, related first second) ∧
    ∀ second ∈ right, ∃ first ∈ left, related first second

/-- Matching is looser for a looser relation. -/
theorem Matches.mono {β : Type*} {tight loose : α → β → Prop} {left : List α} {right : List β}
    (looser : ∀ first second, tight first second → loose first second)
    (matched : Matches tight left right) : Matches loose left right := by
  constructor
  · intro first firstIn
    obtain ⟨second, secondIn, agree⟩ := matched.1 first firstIn
    exact ⟨second, secondIn, looser first second agree⟩
  · intro second secondIn
    obtain ⟨first, firstIn, agree⟩ := matched.2 second secondIn
    exact ⟨first, firstIn, looser first second agree⟩

/-- Matching is transitive for a transitive relation. -/
theorem Matches.trans {related : α → α → Prop} {left middle right : List α}
    (transitive : ∀ first second third, related first second → related second third →
      related first third)
    (before : Matches related left middle) (after : Matches related middle right) :
    Matches related left right := by
  constructor
  · intro first firstIn
    obtain ⟨second, secondIn, agree⟩ := before.1 first firstIn
    obtain ⟨third, thirdIn, further⟩ := after.1 second secondIn
    exact ⟨third, thirdIn, transitive first second third agree further⟩
  · intro third thirdIn
    obtain ⟨second, secondIn, further⟩ := after.2 third thirdIn
    obtain ⟨first, firstIn, agree⟩ := before.2 second secondIn
    exact ⟨first, firstIn, transitive first second third agree further⟩

/-- Lists that match part by part match. -/
theorem Matches.append {β : Type*} {related : α → β → Prop} {left others : List α}
    {right more : List β} (heads : Matches related left right) (tails : Matches related others more) :
    Matches related (left ++ others) (right ++ more) := by
  constructor
  · intro first firstIn
    rcases List.mem_append.mp firstIn with member | member
    · obtain ⟨second, secondIn, agree⟩ := heads.1 first member
      exact ⟨second, List.mem_append_left _ secondIn, agree⟩
    · obtain ⟨second, secondIn, agree⟩ := tails.1 first member
      exact ⟨second, List.mem_append_right _ secondIn, agree⟩
  · intro second secondIn
    rcases List.mem_append.mp secondIn with member | member
    · obtain ⟨first, firstIn, agree⟩ := heads.2 second member
      exact ⟨first, List.mem_append_left _ firstIn, agree⟩
    · obtain ⟨first, firstIn, agree⟩ := tails.2 second member
      exact ⟨first, List.mem_append_right _ firstIn, agree⟩

/-- Lists with the same elements match for a reflexive relation. -/
theorem matches_of_mem_iff {related : α → α → Prop} {left right : List α}
    (reflexive : ∀ item, related item item) (same : ∀ item, item ∈ left ↔ item ∈ right) :
    Matches related left right :=
  ⟨fun item member => ⟨item, (same item).mp member, reflexive item⟩,
    fun item member => ⟨item, (same item).mpr member, reflexive item⟩⟩

/-- Lists that agree element by element match. -/
theorem matches_of_forall₂ {β : Type*} {related : α → β → Prop} {left : List α} {right : List β}
    (pointwise : List.Forall₂ related left right) : Matches related left right := by
  induction pointwise with
  | nil => exact ⟨by simp, by simp⟩
  | cons head _ ih =>
    constructor
    · intro first member
      rcases List.mem_cons.mp member with rfl | member
      · exact ⟨_, List.mem_cons_self, head⟩
      · obtain ⟨second, secondIn, agree⟩ := ih.1 first member
        exact ⟨second, List.mem_cons_of_mem _ secondIn, agree⟩
    · intro second member
      rcases List.mem_cons.mp member with rfl | member
      · exact ⟨_, List.mem_cons_self, head⟩
      · obtain ⟨first, firstIn, agree⟩ := ih.2 second member
        exact ⟨first, List.mem_cons_of_mem _ firstIn, agree⟩

/-- The canonical lists of two lists agree class by class exactly when the lists hold the same
classes. -/
theorem canonical_forall₂_iff (coarse tie : α → α → Ordering) [Std.TransCmp coarse]
    [Std.TransCmp tie] {left right : List α} :
    List.Forall₂ (fun first second => coarse first second = .eq) (canonical coarse tie left)
        (canonical coarse tie right) ↔
      Matches (fun first second => coarse first second = .eq) left right := by
  constructor
  · intro pointwise
    have kept := matches_of_forall₂ pointwise
    constructor
    · intro first firstIn
      obtain ⟨own, ownIn, ownSame⟩ := exists_mem_canonical coarse tie firstIn
      obtain ⟨second, secondIn, same⟩ := kept.1 own ownIn
      exact ⟨second, mem_of_mem_canonical coarse tie secondIn, Std.TransCmp.eq_trans ownSame same⟩
    · intro second secondIn
      obtain ⟨own, ownIn, ownSame⟩ := exists_mem_canonical coarse tie secondIn
      obtain ⟨first, firstIn, same⟩ := kept.2 own ownIn
      exact ⟨first, mem_of_mem_canonical coarse tie firstIn,
        Std.TransCmp.eq_trans same (Std.OrientedCmp.eq_symm ownSame)⟩
  · intro matched
    refine forall₂_of_strict (canonical_strict coarse tie left) (canonical_strict coarse tie right)
      ?_ ?_
    · intro item member
      obtain ⟨second, secondIn, same⟩ := matched.1 item (mem_of_mem_canonical coarse tie member)
      obtain ⟨other, otherIn, otherSame⟩ := exists_mem_canonical coarse tie secondIn
      exact ⟨other, otherIn, Std.TransCmp.eq_trans same otherSame⟩
    · intro item member
      obtain ⟨first, firstIn, same⟩ := matched.2 item (mem_of_mem_canonical coarse tie member)
      obtain ⟨other, otherIn, otherSame⟩ := exists_mem_canonical coarse tie firstIn
      exact ⟨other, otherIn, Std.TransCmp.eq_trans (Std.OrientedCmp.eq_symm same) otherSame⟩

section Encoded

variable {β : Type*} [Ord β] [Std.TransOrd β] [Std.LawfulEqOrd β] [DecidableEq β]
variable {encode : α → β} {related : α → α → Prop} {left right : List α}

/-- Lists that match have equal sorted encodings, when related elements are encoded alike. -/
theorem sortDedup_map_eq (alike : ∀ first second, related first second → encode first = encode second)
    (matched : Matches related left right) :
    sortDedup (left.map encode) = sortDedup (right.map encode) := by
  rw [sortDedup_eq_iff]
  intro record
  rw [List.mem_map, List.mem_map]
  constructor
  · rintro ⟨first, firstIn, rfl⟩
    obtain ⟨second, secondIn, agree⟩ := matched.1 first firstIn
    exact ⟨second, secondIn, (alike first second agree).symm⟩
  · rintro ⟨second, secondIn, rfl⟩
    obtain ⟨first, firstIn, agree⟩ := matched.2 second secondIn
    exact ⟨first, firstIn, alike first second agree⟩

/-- Lists with equal sorted encodings match, when the encoding tells unrelated elements apart. -/
theorem matches_of_sortDedup_map_eq
    (faithful : ∀ first ∈ left, ∀ second ∈ right,
      encode first = encode second → related first second)
    (equal : sortDedup (left.map encode) = sortDedup (right.map encode)) :
    Matches related left right := by
  have same := sortDedup_eq_iff.mp equal
  constructor
  · intro first firstIn
    obtain ⟨second, secondIn, agree⟩ :=
      List.mem_map.mp ((same (encode first)).mp (List.mem_map_of_mem firstIn))
    exact ⟨second, secondIn, faithful first firstIn second secondIn agree.symm⟩
  · intro second secondIn
    obtain ⟨first, firstIn, agree⟩ :=
      List.mem_map.mp ((same (encode second)).mpr (List.mem_map_of_mem secondIn))
    exact ⟨first, firstIn, faithful first firstIn second secondIn agree⟩

end Encoded

end Sorting
