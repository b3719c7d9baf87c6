import Rsolve.Lock.Model

/-!
# The printed spelling of a version

A lock prints the components of a version without trailing zeros, but it keeps two of them. A
version that has only one component is printed as it is, so it is the one spelling that equal
versions do not share.
-/
open Keyed

namespace Rsolve

/-- A version of one component. -/
def RPackageVersion.Bare (version : RPackageVersion) : Prop :=
  version.values.length = 1

/-- The number of components decides whether a version is bare. -/
instance (version : RPackageVersion) : Decidable version.Bare :=
  inferInstanceAs (Decidable (version.values.length = 1))

/-- Fill a sequence up to two components. -/
def atLeastTwo : List Nat → List Nat
  | [] => [0, 0]
  | [only] => [only, 0]
  | values => values

/-- The components that `canonical_version` prints. -/
def canonicalValues (version : RPackageVersion) : List Nat :=
  (dropTrailingZeros version.values.reverse).reverse

/-- Two or more components lose their zeros down to two components. -/
theorem dropTrailingZeros_reverse (last second : Nat) (rest : List Nat) :
    (dropTrailingZeros (last :: second :: rest)).reverse =
      atLeastTwo (trimZeros (last :: second :: rest).reverse) := by
  induction rest generalizing last second with
  | nil =>
    by_cases zero : last = 0
    · by_cases both : second = 0
      · subst zero both
        rfl
      · simp [dropTrailingZeros, trimZeros, zero, both, atLeastTwo]
    · simp [dropTrailingZeros, trimZeros, zero, atLeastTwo]
  | cons third rest ih =>
    by_cases zero : last = 0
    · subst zero
      rw [dropTrailingZeros, ih, List.reverse_cons (a := 0), trimZeros_concat_zero]
    · have kept : dropTrailingZeros (last :: second :: third :: rest) =
          last :: second :: third :: rest := by
        unfold dropTrailingZeros
        split
        · next equal => simp_all
        · rfl
      rw [kept, List.reverse_cons, trimZeros_concat _ zero]
      have long : 2 < ((second :: third :: rest).reverse ++ [last]).length := by simp
      generalize (second :: third :: rest).reverse ++ [last] = values at long
      rcases values with _ | ⟨_, _ | ⟨_, _ | ⟨_, _⟩⟩⟩
      · exact absurd long (by simp)
      · exact absurd long (by simp)
      · exact absurd long (by simp)
      · rfl

namespace RPackageVersion

/-- A version with more than one component prints its comparison key, filled up to two
components. -/
theorem canonicalValues_of_not_bare {version : RPackageVersion} (many : ¬ version.Bare) :
    canonicalValues version = atLeastTwo version.key := by
  have nonempty := version.values_bounds.1
  have length : 2 ≤ version.values.reverse.length := by
    rw [List.length_reverse]
    have positive := List.length_pos_of_ne_nil nonempty
    unfold Bare at many
    omega
  rw [key_eq, canonicalValues]
  conv_rhs => rw [← List.reverse_reverse version.values]
  generalize version.values.reverse = values at length
  rcases values with _ | ⟨last, _ | ⟨second, rest⟩⟩
  · exact absurd length (by simp)
  · exact absurd length (by simp)
  · exact dropTrailingZeros_reverse last second rest

/-- A version of one component prints it. -/
theorem canonicalValues_of_bare {version : RPackageVersion} (one : version.Bare) :
    canonicalValues version = version.values := by
  unfold canonicalValues
  obtain ⟨only, equal⟩ := List.length_eq_one_iff.mp one
  simp [equal, dropTrailingZeros]

/-- What is printed has at least one component, and all fit 32 bits. -/
theorem canonicalValues_bounds (version : RPackageVersion) :
    canonicalValues version ≠ [] ∧ ∀ value ∈ canonicalValues version, value < componentBound := by
  have bounds := version.values_bounds
  by_cases bare : version.Bare
  · rw [canonicalValues_of_bare bare]
    exact bounds
  · rw [canonicalValues_of_not_bare bare, key_eq]
    have below := fun value member => bounds.2 value ((trimZeros_initial version.values).subset member)
    generalize trimZeros version.values = values at below
    rcases values with _ | ⟨first, _ | ⟨second, rest⟩⟩
    · simp [atLeastTwo, componentBound]
    · have small := below first (List.mem_singleton_self first)
      simp only [atLeastTwo, ne_eq, reduceCtorEq, not_false_eq_true, List.mem_cons,
        List.not_mem_nil, or_false, forall_eq_or_imp, forall_eq, true_and]
      exact ⟨small, by decide⟩
    · exact ⟨by simp [atLeastTwo], below⟩

/-- More than one component stays more than one component. -/
theorem two_le_atLeastTwo (values : List Nat) : 2 ≤ (atLeastTwo values).length := by
  rcases values with _ | ⟨first, _ | ⟨second, rest⟩⟩
  · exact le_rfl
  · exact le_rfl
  · simp [atLeastTwo]

/-- Equal versions print alike exactly when both or neither of them have one component. -/
theorem canonicalVersion_eq_iff {left right : RPackageVersion} (same : Same left right) :
    canonicalVersion left = canonicalVersion right ↔ (left.Bare ↔ right.Bare) := by
  have printed : canonicalVersion left = canonicalVersion right ↔
      canonicalValues left = canonicalValues right := by
    refine ⟨fun equal => ?_, fun equal => congrArg joinComponents equal⟩
    have parsed := parseComponents_joinComponents (canonicalValues_bounds left).1
      (canonicalValues_bounds left).2
    rw [show joinComponents (canonicalValues left) = joinComponents (canonicalValues right) from
      equal, parseComponents_joinComponents (canonicalValues_bounds right).1
        (canonicalValues_bounds right).2] at parsed
    exact (Except.ok.inj parsed).symm
  have keys := same_iff.mp same
  rw [printed]
  by_cases leftBare : left.Bare
  · by_cases rightBare : right.Bare
    · -- one component is its own key unless it is zero
      simp only [leftBare, rightBare, iff_true]
      obtain ⟨first, leftValues⟩ := List.length_eq_one_iff.mp leftBare
      obtain ⟨second, rightValues⟩ := List.length_eq_one_iff.mp rightBare
      rw [key_eq, key_eq, leftValues, rightValues] at keys
      rw [canonicalValues_of_bare leftBare, canonicalValues_of_bare rightBare, leftValues,
        rightValues]
      by_cases firstZero : first = 0 <;> by_cases secondZero : second = 0 <;>
        simp_all [trimZeros]
    · simp only [leftBare, rightBare, iff_false, not_true_eq_false]
      intro equal
      have lengths := two_le_atLeastTwo right.key
      rw [← canonicalValues_of_not_bare rightBare, ← equal, canonicalValues_of_bare leftBare,
        leftBare] at lengths
      omega
  · by_cases rightBare : right.Bare
    · simp only [leftBare, rightBare, iff_true]
      refine iff_of_false (fun equal => ?_) id
      have lengths := two_le_atLeastTwo left.key
      rw [← canonicalValues_of_not_bare leftBare, equal, canonicalValues_of_bare rightBare,
        rightBare] at lengths
      omega
    · simp only [leftBare, rightBare, iff_true]
      rw [canonicalValues_of_not_bare leftBare, canonicalValues_of_not_bare rightBare, keys]

end RPackageVersion

end Rsolve
