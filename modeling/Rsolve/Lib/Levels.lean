import Mathlib.Data.Set.Finite.Basic
import Mathlib.Data.Set.Finite.Lattice

/-!
# The levels of a search

A search that works in rounds takes, in every round, what is one step away from the round before.
What is at most `n` steps away from the seeds grows with `n`, ends growing when finitely much can be
reached, and is then everything that can be reached.
-/
namespace Levels

universe u

variable {α : Type u} (seeds : Set α) (next : α → Set α)

/-- What can be reached from the seeds. -/
inductive Reached : α → Prop
  | seed {item : α} (member : item ∈ seeds) : Reached item
  | step {source item : α} (reached : Reached source) (edge : item ∈ next source) : Reached item

/-- What is at most `n` steps away from the seeds. -/
def within : Nat → Set α
  | 0 => seeds
  | n + 1 => {item | item ∈ within n ∨ ∃ source ∈ within n, item ∈ next source}

/-- What is less than `n` steps away from the seeds. -/
def before : Nat → Set α
  | 0 => ∅
  | n + 1 => within seeds next n

/-- One item is not farther from the seeds than another. -/
def NoFarther (item other : α) : Prop :=
  ∀ n, other ∈ within seeds next n → item ∈ within seeds next n

/-- What a search of `n` rounds keeps, when it lets go of absent items in the round that looks at
them and takes again whatever it comes to: an absent item is kept only if something that is not
nearer leads to it. -/
def Kept (absent : α → Prop) (n : Nat) (item : α) : Prop :=
  item ∈ within seeds next n ∧ (item ∈ before seeds next n → absent item →
    ∃ source ∈ before seeds next n, item ∈ next source ∧ NoFarther seeds next item source)

variable {seeds next} {n m : Nat} {item other : α}

/-- What is one step farther. -/
theorem mem_within_succ : item ∈ within seeds next (n + 1) ↔
    item ∈ within seeds next n ∨ ∃ source ∈ within seeds next n, item ∈ next source := Iff.rfl

/-- Levels grow. -/
theorem within_mono (le : n ≤ m) (near : item ∈ within seeds next n) :
    item ∈ within seeds next m := by
  induction le with
  | refl => exact near
  | step _ ih => exact .inl ih

/-- What is less than `n` steps away is at most `n` steps away. -/
theorem within_of_before (near : item ∈ before seeds next n) : item ∈ within seeds next n := by
  cases n with
  | zero => cases near
  | succ n => exact .inl near

/-- What is reached is some number of steps away. -/
theorem reached_iff : Reached seeds next item ↔ ∃ n, item ∈ within seeds next n := by
  constructor
  · intro reached
    induction reached with
    | seed member => exact ⟨0, member⟩
    | step _ edge ih =>
      obtain ⟨n, near⟩ := ih
      exact ⟨n + 1, .inr ⟨_, near, edge⟩⟩
  · rintro ⟨n, near⟩
    induction n generalizing item with
    | zero => exact .seed near
    | succ n ih =>
      rcases near with near | ⟨source, near, edge⟩
      · exact ih near
      · exact .step (ih near) edge

/-- What is one step from less than `n` steps away is at most `n` steps away. -/
theorem within_of_edge (near : other ∈ before seeds next n) (edge : item ∈ next other) :
    item ∈ within seeds next n := by
  cases n with
  | zero => cases near
  | succ n => exact .inr ⟨other, near, edge⟩

/-- A level that adds nothing is the last one. -/
theorem within_of_stable (stable : within seeds next (n + 1) ⊆ within seeds next n)
    (near : item ∈ within seeds next m) : item ∈ within seeds next n := by
  induction m generalizing item with
  | zero => exact within_mono (Nat.zero_le n) near
  | succ m ih =>
    rcases near with near | ⟨source, near, edge⟩
    · exact ih near
    · exact stable (.inr ⟨source, ih near, edge⟩)

/-- When a level adds nothing to the one before, everything was reached before. -/
theorem reached_iff_before (stable : within seeds next n ⊆ before seeds next n) :
    Reached seeds next item ↔ item ∈ before seeds next n := by
  rw [reached_iff]
  constructor
  · rintro ⟨m, near⟩
    cases n with
    | zero =>
      have empty : within seeds next 1 ⊆ within seeds next 0 := by
        rintro other (near | ⟨source, near, -⟩)
        · exact near
        · exact (stable near).elim
      exact stable (within_of_stable empty near)
    | succ n => exact within_of_stable stable near
  · intro near
    exact ⟨n, within_of_before near⟩

/-- What is not farther than an item of an earlier level is in that level too. -/
theorem NoFarther.mem_before (noFarther : NoFarther seeds next item other)
    (near : other ∈ before seeds next n) : item ∈ before seeds next n := by
  cases n with
  | zero => cases near
  | succ n => exact noFarther n near

/-- What is in a level is not farther than what is in no level before it. -/
theorem noFarther_of_fresh (near : item ∈ within seeds next n)
    (fresh : other ∉ before seeds next n) : NoFarther seeds next item other := by
  intro m inside
  cases n with
  | zero => exact within_mono (Nat.zero_le m) near
  | succ n =>
    have later : n < m := by
      by_contra early
      exact fresh (within_mono (Nat.le_of_not_lt early) inside)
    exact within_mono later near

/-- What is one step farther comes from the farthest items. -/
theorem mem_within_succ_iff_fresh : item ∈ within seeds next (n + 1) ↔ item ∈ within seeds next n ∨
    ∃ source ∈ within seeds next n, source ∉ before seeds next n ∧ item ∈ next source := by
  rw [mem_within_succ]
  constructor
  · rintro (near | ⟨source, near, edge⟩)
    · exact .inl near
    · by_cases nearer : source ∈ before seeds next n
      · exact .inl (within_of_edge nearer edge)
      · exact .inr ⟨source, near, nearer, edge⟩
  · rintro (near | ⟨source, near, -, edge⟩)
    · exact .inl near
    · exact .inr ⟨source, near, edge⟩

/-- One more round lets go of the absent items it looks at and takes what it comes to. -/
theorem kept_succ {absent : α → Prop} : Kept seeds next absent (n + 1) item ↔
    (Kept seeds next absent n item ∧
        ¬ ((item ∈ within seeds next n ∧ item ∉ before seeds next n) ∧ absent item)) ∨
      ∃ source ∈ within seeds next n, source ∉ before seeds next n ∧ item ∈ next source := by
  rw [Kept, mem_within_succ_iff_fresh]
  constructor
  · rintro ⟨near, stays⟩
    by_cases fresh : ∃ source ∈ within seeds next n, source ∉ before seeds next n ∧
        item ∈ next source
    · exact .inr fresh
    · have near : item ∈ within seeds next n := near.resolve_right fresh
      have earlier : absent item → ∃ source ∈ before seeds next n, item ∈ next source ∧
          NoFarther seeds next item source := by
        intro missing
        obtain ⟨source, inside, edge, noFarther⟩ := stays near missing
        by_cases nearer : source ∈ before seeds next n
        · exact ⟨source, nearer, edge, noFarther⟩
        · exact absurd ⟨source, inside, nearer, edge⟩ fresh
      refine .inl ⟨⟨near, fun _ => earlier⟩, fun looked => ?_⟩
      obtain ⟨source, nearer, -, noFarther⟩ := earlier looked.2
      exact looked.1.2 (noFarther.mem_before nearer)
  · rintro (⟨⟨near, stays⟩, unlooked⟩ | ⟨source, near, fresh, edge⟩)
    · refine ⟨.inl near, fun _ missing => ?_⟩
      have nearer : item ∈ before seeds next n := by
        by_contra fresh
        exact unlooked ⟨⟨near, fresh⟩, missing⟩
      obtain ⟨source, inside, rest⟩ := stays nearer missing
      exact ⟨source, within_of_before inside, rest⟩
    · exact ⟨.inr ⟨source, near, fresh, edge⟩,
        fun inside _ => ⟨source, near, edge, noFarther_of_fresh inside fresh⟩⟩

/-- What a finished search keeps. -/
theorem kept_iff_of_stable {absent : α → Prop}
    (stable : within seeds next n ⊆ before seeds next n) : Kept seeds next absent n item ↔
      Reached seeds next item ∧ (absent item → ∃ source, Reached seeds next source ∧
        item ∈ next source ∧ NoFarther seeds next item source) := by
  constructor
  · rintro ⟨near, stays⟩
    refine ⟨(reached_iff_before stable).mpr (stable near), fun missing => ?_⟩
    obtain ⟨source, inside, rest⟩ := stays (stable near) missing
    exact ⟨source, (reached_iff_before stable).mpr inside, rest⟩
  · rintro ⟨reached, stays⟩
    refine ⟨within_of_before ((reached_iff_before stable).mp reached), fun _ missing => ?_⟩
    obtain ⟨source, inside, rest⟩ := stays missing
    exact ⟨source, (reached_iff_before stable).mp inside, rest⟩

/-- When finitely much is reached, some level adds nothing. -/
theorem exists_stable (finite : {item | Reached seeds next item}.Finite) :
    ∃ n, within seeds next n ⊆ before seeds next n := by
  by_contra! grows
  have fresh : ∀ n, ∃ item ∈ within seeds next n, item ∉ before seeds next n :=
    fun n => Set.not_subset.mp (grows n)
  choose item near missing using fresh
  have apart : ∀ n m, n < m → item n ≠ item m := by
    intro n m less same
    refine missing m ?_
    cases m with
    | zero => cases less
    | succ m => exact same ▸ within_mono (Nat.le_of_lt_succ less) (near n)
  have injective : Function.Injective item := by
    intro n m same
    rcases Nat.lt_trichotomy n m with less | equal | greater
    · exact (apart n m less same).elim
    · exact equal
    · exact (apart m n greater same.symm).elim
  refine Set.infinite_of_injective_forall_mem injective (fun n => ?_) finite
  exact reached_iff.mpr ⟨n, near n⟩

/-- A search from finitely many seeds over finitely many branching items reaches finitely much. -/
theorem finite_reached (few : seeds.Finite) (branching : {item | (next item).Nonempty}.Finite)
    (narrow : ∀ item, (next item).Finite) : {item | Reached seeds next item}.Finite := by
  refine (few.union (branching.biUnion (fun item _ => narrow item))).subset ?_
  rintro item (member | ⟨reached, edge⟩)
  · exact .inl member
  · have branches : (next _).Nonempty := ⟨item, edge⟩
    exact .inr (Set.mem_biUnion branches edge)

end Levels
