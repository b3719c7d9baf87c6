import Mathlib.Data.List.Infix
import Mathlib.Data.String.Basic

/-!
# Diverging texts

Two lists diverge when neither starts the other. Whatever follows them, the comparison of the whole
is then the comparison of the two, and never finds them equal. An encoding whose values diverge is a
code: lists of values, each followed by a stop, are encoded by a code again.
-/
namespace Divergence

universe u v

variable {α : Type u} {β : Type v}

/-- Neither list starts the other. -/
def Diverge (left right : List α) : Prop :=
  ¬ left <+: right ∧ ¬ right <+: left

/-- Divergence of lists of decidable items is checked. -/
instance [DecidableEq α] (left right : List α) : Decidable (Diverge left right) :=
  inferInstanceAs (Decidable (¬ left <+: right ∧ ¬ right <+: left))

/-- Divergence is symmetric. -/
theorem Diverge.symm {left right : List α} (diverge : Diverge left right) : Diverge right left :=
  ⟨diverge.2, diverge.1⟩

/-- Diverging lists differ. -/
theorem Diverge.ne {left right : List α} (diverge : Diverge left right) : left ≠ right := by
  rintro rfl
  exact diverge.1 List.prefix_rfl

/-- What follows diverging lists does not matter. -/
theorem Diverge.append {left right : List α} (diverge : Diverge left right)
    (rest others : List α) : Diverge (left ++ rest) (right ++ others) := by
  constructor
  · intro starts
    have leftStarts := (List.prefix_append left rest).trans starts
    rcases List.prefix_or_prefix_of_prefix leftStarts (List.prefix_append right others) with
      shorter | longer
    · exact diverge.1 shorter
    · exact diverge.2 longer
  · intro starts
    have rightStarts := (List.prefix_append right others).trans starts
    rcases List.prefix_or_prefix_of_prefix rightStarts (List.prefix_append left rest) with
      shorter | longer
    · exact diverge.2 shorter
    · exact diverge.1 longer

/-- What follows one of two diverging lists does not matter. -/
theorem Diverge.append_one {left right : List α} (diverge : Diverge left right) (rest : List α) :
    Diverge (left ++ rest) right := by
  simpa using diverge.append rest []

/-- What two lists share before they diverge does not matter. -/
@[simp]
theorem diverge_append_left (common left right : List α) :
    Diverge (common ++ left) (common ++ right) ↔ Diverge left right := by
  simp [Diverge, List.prefix_append_right_inj]

/-- Lists with one head diverge when their tails do. -/
@[simp]
theorem diverge_cons_self (item : α) (left right : List α) :
    Diverge (item :: left) (item :: right) ↔ Diverge left right :=
  diverge_append_left [item] left right

/-- Lists with different heads diverge. -/
theorem diverge_cons {item other : α} (differs : item ≠ other) (left right : List α) :
    Diverge (item :: left) (other :: right) := by
  simp [Diverge, List.cons_prefix_cons, differs, differs.symm]

/-- An empty list starts every other. -/
@[simp]
theorem not_diverge_nil_left (right : List α) : ¬ Diverge [] right :=
  fun diverge => diverge.1 List.nil_prefix

/-- An empty list starts every other. -/
@[simp]
theorem not_diverge_nil_right (left : List α) : ¬ Diverge left [] :=
  fun diverge => diverge.2 List.nil_prefix

/-! ### Codes -/

/-- Different values have diverging encodings. -/
def Code (encode : α → List β) : Prop :=
  ∀ left right, left ≠ right → Diverge (encode left) (encode right)

/-- A coded value decides, or leaves the decision to what follows it. -/
theorem Code.append {encode : α → List β} (code : Code encode) {left right : α}
    {rest others : List β} (otherwise : left = right → Diverge rest others) :
    Diverge (encode left ++ rest) (encode right ++ others) := by
  by_cases equal : left = right
  · rw [equal, diverge_append_left]
    exact otherwise equal
  · exact (code left right equal).append rest others

/-- Different lists of coded values diverge once they are stopped by an item that starts none of
their values. -/
theorem Code.flatMap {encode : α → List β} (code : Code encode) {stop : β} {left right : List α}
    (leftOpen : ∀ value ∈ left, ∃ first rest, encode value = first :: rest ∧ first ≠ stop)
    (rightOpen : ∀ value ∈ right, ∃ first rest, encode value = first :: rest ∧ first ≠ stop)
    (differs : left ≠ right) :
    Diverge (left.flatMap encode ++ [stop]) (right.flatMap encode ++ [stop]) := by
  induction left generalizing right with
  | nil =>
    cases right with
    | nil => exact absurd rfl differs
    | cons value values =>
      obtain ⟨first, rest, encoded, proceeds⟩ := rightOpen value List.mem_cons_self
      simp only [List.flatMap_nil, List.nil_append, List.flatMap_cons, encoded, List.cons_append]
      exact diverge_cons proceeds.symm _ _
  | cons head tail ih =>
    cases right with
    | nil =>
      obtain ⟨first, rest, encoded, proceeds⟩ := leftOpen head List.mem_cons_self
      simp only [List.flatMap_nil, List.nil_append, List.flatMap_cons, encoded, List.cons_append]
      exact diverge_cons proceeds _ _
    | cons value values =>
      simp only [List.flatMap_cons, List.append_assoc]
      refine code.append fun equal => ih (fun item member => leftOpen item
        (List.mem_cons_of_mem _ member)) (fun item member => rightOpen item
        (List.mem_cons_of_mem _ member)) fun tails => differs ?_
      rw [equal, tails]

/-- Different lists diverge once they are stopped by an item they do not hold. -/
theorem diverge_stopped {stop : α} {left right : List α} (leftOpen : stop ∉ left)
    (rightOpen : stop ∉ right) (differs : left ≠ right) :
    Diverge (left ++ [stop]) (right ++ [stop]) := by
  have single : Code (fun item : α => [item]) := fun item other differs =>
    diverge_cons differs [] []
  have opened : ∀ {items : List α}, stop ∉ items → ∀ item ∈ items,
      ∃ first rest, [item] = first :: rest ∧ first ≠ stop := by
    rintro items absent item member
    refine ⟨item, [], rfl, ?_⟩
    rintro rfl
    exact absent member
  simpa using single.flatMap (opened leftOpen) (opened rightOpen) differs

/-! ### Digits -/

/-- Digits of one base below seventeen are those of one number. -/
theorem digitChar_injective : ∀ left < 16, ∀ right < 16,
    Nat.digitChar left = Nat.digitChar right → left = right := by
  decide

/-- A number is determined by its hexadecimal digits. -/
theorem toDigits_sixteen_injective {left right : Nat}
    (equal : Nat.toDigits 16 left = Nat.toDigits 16 right) : left = right := by
  induction left using Nat.strong_induction_on generalizing right with
  | _ left ih =>
    rw [Nat.toDigits_eq_if (by decide), Nat.toDigits_eq_if (n := right) (by decide)] at equal
    split at equal <;> split at equal
    · next leftLess rightLess =>
      exact digitChar_injective left leftLess right rightLess (by simpa using equal)
    · have lengths := congrArg List.length equal
      simp at lengths
    · have lengths := congrArg List.length equal
      simp at lengths
    · next leftMore rightMore =>
      obtain ⟨front, last⟩ := List.append_inj' equal rfl
      have quotients := ih (left / 16) (by omega) front
      have remainders := digitChar_injective (left % 16) (by omega) (right % 16) (by omega)
        (by simpa using last)
      omega

/-- A character that is no hexadecimal digit is in no hexadecimal number. -/
theorem not_mem_toDigits_sixteen {character : Char}
    (other : ∀ digit < 16, Nat.digitChar digit ≠ character) (number : Nat) :
    character ∉ Nat.toDigits 16 number := by
  induction number using Nat.strong_induction_on with
  | _ number ih =>
    rw [Nat.toDigits_eq_if (by decide)]
    split
    · next less => simpa using (other number less).symm
    · next more =>
      simp only [List.mem_append, List.mem_singleton, not_or]
      exact ⟨ih (number / 16) (by omega), (other (number % 16) (by omega)).symm⟩

/-! ### Comparison -/

/-- What follows diverging lists does not change their lexicographic order. -/
theorem Diverge.lt_append [LT α] [Std.Irrefl (· < · : α → α → Prop)] {left right : List α}
    (diverge : Diverge left right) (rest others : List α) :
    left ++ rest < right ++ others ↔ left < right := by
  induction left generalizing right with
  | nil => exact absurd diverge (not_diverge_nil_left right)
  | cons item left ih =>
    cases right with
    | nil => exact absurd diverge (not_diverge_nil_right _)
    | cons other right =>
      rw [List.cons_append, List.cons_append, List.cons_lt_cons_iff, List.cons_lt_cons_iff]
      by_cases equal : item = other
      · subst equal
        rw [ih ((diverge_cons_self item left right).mp diverge)]
      · simp [equal]

/-- Texts that diverge are never compared as equal, and what follows them does not change how they
compare. -/
theorem Diverge.compare_append {left right : String}
    (diverge : Diverge left.toList right.toList) (rest others : String) :
    compare (left ++ rest) (right ++ others) = compare left right ∧
      compare left right ≠ .eq := by
  have differs : left ≠ right := fun equal => diverge.ne (by rw [equal])
  have longer : left ++ rest ≠ right ++ others := by
    intro equal
    refine (diverge.append rest.toList others.toList).ne ?_
    rw [← String.toList_append, equal, String.toList_append]
  have ordered : left ++ rest < right ++ others ↔ left < right := by
    rw [String.lt_iff_toList_lt, String.lt_iff_toList_lt, String.toList_append,
      String.toList_append]
    exact diverge.lt_append rest.toList others.toList
  constructor
  · change compareOfLessAndEq _ _ = compareOfLessAndEq _ _
    simp only [compareOfLessAndEq, ordered, longer, differs, if_false]
  · change compareOfLessAndEq _ _ ≠ _
    unfold compareOfLessAndEq
    split <;> simp

end Divergence
