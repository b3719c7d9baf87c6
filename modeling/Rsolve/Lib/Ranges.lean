import Mathlib.Data.List.Basic

/-!
# Sets of versions as unions of intervals

A set of versions is a list of intervals with open, closed or absent bounds. The operations a
provider uses are the empty set, singletons and unions; a solver may ask about any such set.
-/
namespace Intervals

universe u

variable {ν : Type u}

/-- `Bound` — an end of an interval. -/
inductive Bound (ν : Type u)
  | included (version : ν)
  | excluded (version : ν)
  | unbounded
deriving DecidableEq

/-- `Ranges` — a union of intervals. -/
structure Ranges (ν : Type u) where
  /-- The intervals. -/
  segments : List (Bound ν × Bound ν)
deriving DecidableEq

namespace Ranges

/-- `Ranges::empty`. -/
def empty : Ranges ν := ⟨[]⟩

/-- `Ranges::singleton`. -/
def singleton (version : ν) : Ranges ν := ⟨[(.included version, .included version)]⟩

/-- `Ranges::union`. -/
def union (left right : Ranges ν) : Ranges ν := ⟨left.segments ++ right.segments⟩

variable (cmp : ν → ν → Ordering)

/-- Whether a version is above a lower end. -/
def aboveLower (version : ν) : Bound ν → Bool
  | .included low => (cmp low version).isLE
  | .excluded low => (cmp low version).isLT
  | .unbounded => true

/-- Whether a version is below an upper end. -/
def belowUpper (version : ν) : Bound ν → Bool
  | .included high => (cmp version high).isLE
  | .excluded high => (cmp version high).isLT
  | .unbounded => true

/-- `Ranges::contains` — whether a version is in one of the intervals. -/
def contains (ranges : Ranges ν) (version : ν) : Bool :=
  ranges.segments.any (fun segment =>
    aboveLower cmp version segment.1 && belowUpper cmp version segment.2)

/-- The empty set contains nothing. -/
@[simp]
theorem contains_empty (version : ν) : (empty : Ranges ν).contains cmp version = false := rfl

/-- A union contains what either side contains. -/
@[simp]
theorem contains_union (left right : Ranges ν) (version : ν) :
    (left.union right).contains cmp version =
      (left.contains cmp version || right.contains cmp version) := by
  simp [contains, union, List.any_append]

/-- A singleton contains the versions that compare equal to its own. -/
@[simp]
theorem contains_singleton [Std.TransCmp cmp] (own version : ν) :
    (singleton own).contains cmp version = (cmp own version == .eq) := by
  have swapped : cmp version own = (cmp own version).swap := Std.OrientedCmp.eq_swap
  simp only [contains, singleton, List.any_cons, List.any_nil, Bool.or_false, aboveLower,
    belowUpper, swapped]
  cases cmp own version <;> rfl

end Ranges

end Intervals
