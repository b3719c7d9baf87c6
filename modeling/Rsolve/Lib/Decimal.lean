import Mathlib.Data.List.Basic

/-!
# Bounded decimal numerals and separated texts

A numeral is read digit by digit into a bounded accumulator, so that reading stops at the digit
whose value no longer fits. The digits printed for a number below the bound read back as that
number. Texts joined by a separator that none of them contains split back into themselves.
-/
namespace Decimal

/-- The accumulator after one digit, when the value still fits below the bound. -/
def pushDigit (bound value : Nat) (digit : Char) : Option Nat :=
  if value * 10 < bound then
    let next := value * 10 + (digit.toNat - '0'.toNat)
    if next < bound then some next else none
  else none

/-- Why a numeral is not read. -/
inductive NumeralError
  /-- A character is not a decimal digit. -/
  | nonDigit
  /-- The value does not fit below the bound. -/
  | overflow
deriving Repr, DecidableEq

/-- Read the digits of a numeral onto an accumulator. -/
def readDigits (bound : Nat) : Nat → List Char → Except NumeralError Nat
  | value, [] => .ok value
  | value, digit :: rest =>
    if digit.isDigit then
      match pushDigit bound value digit with
      | some next => readDigits bound next rest
      | none => .error .overflow
    else .error .nonDigit

/-- One digit fits exactly when the extended value is below the bound. -/
theorem pushDigit_eq (bound value : Nat) (digit : Char) :
    pushDigit bound value digit =
      if 10 * value + (digit.toNat - '0'.toNat) < bound
      then some (10 * value + (digit.toNat - '0'.toNat)) else none := by
  have commuted : value * 10 = 10 * value := Nat.mul_comm value 10
  unfold pushDigit
  rw [commuted]
  split
  · rfl
  · next exceeds => rw [if_neg (by omega)]

/-- Reading further digits never lowers the value. -/
theorem le_ofDigitChars (digits : List Char) (value : Nat) :
    value ≤ Nat.ofDigitChars 10 digits value := by
  induction digits generalizing value with
  | nil => simp
  | cons digit rest ih =>
    rw [Nat.ofDigitChars_cons]
    exact Nat.le_trans (by omega) (ih _)

/-- A numeral is read exactly when it consists of digits and its value fits. -/
theorem readDigits_ok_iff (bound : Nat) (digits : List Char) (value result : Nat)
    (fits : value < bound) :
    readDigits bound value digits = .ok result ↔
      (∀ digit ∈ digits, digit.isDigit) ∧ Nat.ofDigitChars 10 digits value = result ∧
        result < bound := by
  induction digits generalizing value with
  | nil =>
    simp only [readDigits, Except.ok.injEq, Nat.ofDigitChars_nil, List.not_mem_nil, false_implies,
      implies_true, true_and]
    constructor
    · rintro rfl
      exact ⟨rfl, fits⟩
    · exact And.left
  | cons digit rest ih =>
    simp only [readDigits, List.forall_mem_cons, Nat.ofDigitChars_cons]
    by_cases isDigit : digit.isDigit
    · rw [if_pos isDigit, pushDigit_eq]
      by_cases below : 10 * value + (digit.toNat - '0'.toNat) < bound
      · rw [if_pos below]
        simp only
        rw [ih _ below]
        simp only [isDigit, true_and]
      · rw [if_neg below]
        simp only [reduceCtorEq, false_iff, not_and]
        rintro - rfl
        exact fun small => below (Nat.lt_of_le_of_lt (le_ofDigitChars rest _) small)
    · simp [isDigit]

/-- The digits of a number below the bound read back as the number. -/
theorem readDigits_toDigits (bound number : Nat) (below : number < bound) :
    readDigits bound 0 (Nat.toDigits 10 number) = .ok number := by
  rw [readDigits_ok_iff bound _ 0 number (by omega)]
  exact ⟨fun digit member => Nat.isDigit_of_mem_toDigits (by decide) (by decide) member,
    Nat.ofDigitChars_toDigits (by decide) (by decide), below⟩

/-- The decimal digits of a number in a fixed width, padded with zeros. -/
def fixedDigits : Nat → Nat → List Char
  | 0, _ => []
  | width + 1, number => fixedDigits width (number / 10) ++ [Nat.digitChar (number % 10)]

/-- A number has as many digits as its width. -/
@[simp]
theorem fixedDigits_length (width number : Nat) : (fixedDigits width number).length = width := by
  induction width generalizing number with
  | zero => rfl
  | succ width ih => simp [fixedDigits, ih]

/-- Digits are printed as distinct characters. -/
theorem digitChar_injective {left right : Nat} (leftDigit : left < 10) (rightDigit : right < 10)
    (equal : Nat.digitChar left = Nat.digitChar right) : left = right := by
  have distinct : ∀ first < 10, ∀ second < 10,
      Nat.digitChar first = Nat.digitChar second → first = second := by
    decide
  exact distinct left leftDigit right rightDigit equal

/-- Numbers that fit into a width are determined by their digits. -/
theorem fixedDigits_injective {width left right : Nat} (leftFits : left < Nat.pow 10 width)
    (rightFits : right < Nat.pow 10 width) (equal : fixedDigits width left = fixedDigits width right) :
    left = right := by
  induction width generalizing left right with
  | zero =>
    have leftZero : left < 1 := leftFits
    have rightZero : right < 1 := rightFits
    omega
  | succ width ih =>
    have power : Nat.pow 10 (width + 1) = 10 * Nat.pow 10 width := by
      rw [Nat.mul_comm]
      rfl
    rw [power] at leftFits rightFits
    have split := List.append_inj equal (by simp)
    have high : left / 10 = right / 10 :=
      ih (Nat.div_lt_of_lt_mul leftFits) (Nat.div_lt_of_lt_mul rightFits) split.1
    have low : left % 10 = right % 10 :=
      digitChar_injective (Nat.mod_lt _ (by decide)) (Nat.mod_lt _ (by decide))
        (by simpa using split.2)
    omega

/-- What texts joined by a separator hold is from one of them or from the separator. -/
theorem mem_intercalate {α : Type*} {separator item : α} {parts : List (List α)}
    (member : item ∈ [separator].intercalate parts) :
    item = separator ∨ ∃ part ∈ parts, item ∈ part := by
  induction parts with
  | nil => simp at member
  | cons part rest ih =>
    cases rest with
    | nil => exact .inr ⟨part, List.mem_singleton_self part, by simpa using member⟩
    | cons next rest =>
      rw [List.intercalate_cons_cons] at member
      simp only [List.mem_append, List.mem_singleton] at member
      rcases member with (here | between) | later
      · exact .inr ⟨part, List.mem_cons_self, here⟩
      · exact .inl between
      · rcases ih later with between | ⟨other, otherIn, there⟩
        · exact .inl between
        · exact .inr ⟨other, List.mem_cons_of_mem _ otherIn, there⟩

/-- Texts joined by a separator none of them contains split back into themselves. -/
theorem splitOnP_intercalate {α : Type*} (test : α → Bool) (separator : α)
    (separates : test separator = true) {parts : List (List α)} (nonempty : parts ≠ [])
    (clean : ∀ part ∈ parts, ∀ item ∈ part, test item = false) :
    ([separator].intercalate parts).splitOnP test = parts := by
  induction parts with
  | nil => exact absurd rfl nonempty
  | cons part rest ih =>
    cases rest with
    | nil => simpa using List.splitOnP_eq_singleton (clean part List.mem_cons_self)
    | cons next rest =>
      have recursive := ih (by simp) (fun part member => clean part (List.mem_cons_of_mem _ member))
      have joined : [separator].intercalate (part :: next :: rest) =
          part ++ separator :: [separator].intercalate (next :: rest) := by
        simp [List.intercalate]
      rw [joined, List.splitOnP_append_cons_of_forall_mem (clean part List.mem_cons_self)
        separator separates, recursive]

end Decimal
