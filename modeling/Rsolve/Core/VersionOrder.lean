import Mathlib.Order.PiLex
import Rsolve.Core.Constraints
import Rsolve.Lib.Panics

/-!
# The order of versions

Versions are compared as sequences of numbers that go on with zeros: the first number that differs
decides. Trailing zeros, separators, leading zeros and the representation of the components do not
count, so the order, the equality and the hash of versions are one. Reading a version stops nothing,
and it accepts the numerals of the component range between separators.
-/
open Keyed Panics

namespace Rsolve

/-- The numbers of a sequence, and zeros after them. -/
def padded (values : List Nat) : ℕ → ℕ := fun index => values.getD index 0

/-- The order of sequences that go on with zeros: the first number that differs decides. -/
noncomputable def comparePadded (left right : List Nat) : Ordering :=
  compare (toLex (padded left)) (toLex (padded right))

section Padding

/-- A zero at the end does not count. -/
theorem padded_concat_zero (values : List Nat) : padded (values ++ [0]) = padded values := by
  funext index
  simp only [padded, List.getD_eq_getElem?_getD]
  rcases lt_trichotomy index values.length with before | rfl | after
  · rw [List.getElem?_append_left before]
  · simp
  · rw [List.getElem?_append_right (by omega), List.getElem?_eq_none (by simp; omega),
      List.getElem?_eq_none (by omega)]

/-- Zeros at the end do not count. -/
theorem padded_trimZeros (values : List Nat) : padded (trimZeros values) = padded values := by
  induction values using List.reverseRecOn with
  | nil => rfl
  | append_singleton values last ih =>
    by_cases zero : last = 0
    · rw [zero, trimZeros_concat_zero, padded_concat_zero, ih]
    · rw [trimZeros_concat values zero]

/-- A sequence does not end in zero. -/
def Trimmed (values : List Nat) : Prop := values.getLast? ≠ some 0

/-- The rest of a sequence does not end in zero. -/
theorem Trimmed.tail {first : Nat} {rest : List Nat} (trimmed : Trimmed (first :: rest)) :
    Trimmed rest := by
  cases rest with
  | nil => exact nofun
  | cons second rest => rwa [Trimmed, List.getLast?_cons_cons] at trimmed

/-- A trimmed sequence does not end in zero. -/
theorem trimmed_trimZeros (values : List Nat) : Trimmed (trimZeros values) := by
  induction values using List.reverseRecOn with
  | nil => exact nofun
  | append_singleton values last ih =>
    by_cases zero : last = 0
    · rwa [zero, trimZeros_concat_zero]
    · rw [trimZeros_concat values zero, Trimmed, List.getLast?_concat]
      simpa using zero

/-- The first numbers decide unless they are equal. -/
theorem padded_cons_lt {first second : Nat} {left right : List Nat} :
    toLex (padded (first :: left)) < toLex (padded (second :: right)) ↔
      first < second ∨ first = second ∧ toLex (padded left) < toLex (padded right) := by
  constructor
  · rintro ⟨index, before, below⟩
    cases index with
    | zero => exact .inl below
    | succ index =>
      refine .inr ⟨before 0 (Nat.succ_pos index), index, fun earlier early => ?_, below⟩
      exact before (earlier + 1) (Nat.succ_lt_succ early)
  · rintro (below | ⟨rfl, index, before, below⟩)
    · exact ⟨0, fun earlier early => absurd early (Nat.not_lt_zero earlier), below⟩
    · refine ⟨index + 1, fun earlier early => ?_, below⟩
      cases earlier with
      | zero => rfl
      | succ earlier => exact before earlier (Nat.lt_of_succ_lt_succ early)

/-- The empty sequence is below every other one that does not end in zero. -/
theorem padded_nil_lt {first : Nat} {rest : List Nat} (trimmed : Trimmed (first :: rest)) :
    toLex (padded []) < toLex (padded (first :: rest)) := by
  induction rest generalizing first with
  | nil =>
    have positive : 0 < first := Nat.pos_of_ne_zero fun zero => trimmed (by rw [zero]; rfl)
    exact ⟨0, fun earlier early => absurd early (Nat.not_lt_zero earlier), positive⟩
  | cons second rest ih =>
    have nil : padded [] = padded [0] := (padded_concat_zero []).symm
    rw [nil, padded_cons_lt]
    rcases Nat.eq_zero_or_pos first with rfl | positive
    · exact .inr ⟨rfl, ih trimmed.tail⟩
    · exact .inl positive

/-- A sequence that comes first without padding comes first with it. -/
theorem padded_lt_of_compare {left right : List Nat} (leftTrimmed : Trimmed left)
    (rightTrimmed : Trimmed right) (below : compare left right = .lt) :
    toLex (padded left) < toLex (padded right) := by
  induction left generalizing right with
  | nil =>
    cases right with
    | nil => cases below
    | cons second rest => exact padded_nil_lt rightTrimmed
  | cons first left ih =>
    cases right with
    | nil => cases below
    | cons second right =>
      rw [List.compare_cons_cons, Ordering.then_eq_lt] at below
      rw [padded_cons_lt]
      rcases below with below | ⟨same, below⟩
      · exact .inl (Nat.compare_eq_lt.mp below)
      · exact .inr ⟨Nat.compare_eq_eq.mp same, ih leftTrimmed.tail rightTrimmed.tail below⟩

/-- Sequences that do not end in zero are compared alike with and without padding. -/
theorem compare_eq_comparePadded {left right : List Nat} (leftTrimmed : Trimmed left)
    (rightTrimmed : Trimmed right) : compare left right = comparePadded left right := by
  symm
  cases order : compare left right with
  | lt => exact compare_lt_iff_lt.mpr (padded_lt_of_compare leftTrimmed rightTrimmed order)
  | eq =>
    rw [Std.LawfulEqOrd.compare_eq_iff_eq.mp order]
    exact compare_eq_iff_eq.mpr rfl
  | gt =>
    have flipped : compare right left = .lt := Std.OrientedCmp.lt_of_gt order
    exact compare_gt_iff_gt.mpr (padded_lt_of_compare rightTrimmed leftTrimmed flipped)

end Padding

section Reading

/-- Subtraction of bytes, which stops the program below zero. -/
def subtractByte (left right : Nat) : Option Nat :=
  if right ≤ left then some (left - right) else none

/-- `copy_from_slice` to the start of a target, which stops the program beyond its end. -/
def copyPrefix (target values : List Nat) : Option (List Nat) :=
  if values.length ≤ target.length then some (values ++ target.drop values.length) else none

/-- The digit loop of `RPackageVersion::parse_with_minimum`. -/
def readDigitsGuarded (index value : Nat) : List Char → Guarded RPackageVersionError Nat
  | [] => pure value
  | digit :: rest =>
    if digit.isDigit then
      if value * 10 < componentBound then do
        let digit ← demand (subtractByte digit.toNat '0'.toNat)
        if value * 10 + digit < componentBound then
          readDigitsGuarded index (value * 10 + digit) rest
        else attempt (.error (.componentOverflow index))
      else attempt (.error (.componentOverflow index))
    else attempt (.error (.nonNumericComponent index))

/-- One component of a version text. -/
def readComponentGuarded (index : Nat) (component : List Char) :
    Guarded RPackageVersionError Nat :=
  if component.isEmpty then attempt (.error (.emptyComponent index))
  else readDigitsGuarded index 0 component

/-- The component loop of `RPackageVersion::parse_with_minimum`. -/
def readComponentsGuarded (index : Nat) :
    List (List Char) → Guarded RPackageVersionError (List Nat)
  | [] => pure []
  | component :: rest => do
    let value ← readComponentGuarded index component
    let values ← readComponentsGuarded (index + 1) rest
    return value :: values

/-- `Components::from_vec`. -/
def Components.fromVecGuarded (values : List Nat) : Guarded RPackageVersionError Components :=
  if values.length ≤ 8 then do
    let inline ← demand (copyPrefix (List.replicate 8 0) values)
    return .inline inline (values.length % 256)
  else pure (.spill values)

/-- `RPackageVersion::parse_with_minimum`, with the operations that could stop the program. -/
def parseGuarded (input : String) (minimum : Nat) :
    Guarded RPackageVersionError (String × Components) :=
  if input.isEmpty then attempt (.error .empty)
  else do
    let values ← readComponentsGuarded 0 (input.toList.splitOnP isSeparator)
    if values.length < minimum then attempt (.error (.tooFewComponents values.length minimum))
    else do
      let components ← Components.fromVecGuarded values
      return (input, components)

/-- A digit is not below the digit zero. -/
theorem subtractByte_digit {digit : Char} (isDigit : digit.isDigit = true) :
    subtractByte digit.toNat '0'.toNat = some (digit.toNat - '0'.toNat) := by
  have bound : '0'.toNat ≤ digit.toNat := by
    simp only [Char.isDigit, Bool.and_eq_true, decide_eq_true_eq] at isDigit
    exact UInt32.le_iff_toNat_le.mp isDigit.1
  exact if_pos bound

/-- The digit loop stops nothing. -/
theorem readDigitsGuarded_eq (index value : Nat) (digits : List Char) :
    readDigitsGuarded index value digits =
      attempt ((Decimal.readDigits componentBound value digits).mapError fun
        | .nonDigit => .nonNumericComponent index
        | .overflow => .componentOverflow index) := by
  induction digits generalizing value with
  | nil => rfl
  | cons digit rest ih =>
    by_cases isDigit : digit.isDigit = true
    · simp only [readDigitsGuarded, Decimal.readDigits, Decimal.pushDigit, if_pos isDigit]
      by_cases small : value * 10 < componentBound
      · rw [if_pos small, if_pos small, demand_of (subtractByte_digit isDigit), pure_bind]
        by_cases fits : value * 10 + (digit.toNat - '0'.toNat) < componentBound
        · rw [if_pos fits, if_pos fits, ih]
        · rw [if_neg fits, if_neg fits]
          rfl
      · rw [if_neg small, if_neg small]
        rfl
    · simp only [readDigitsGuarded, Decimal.readDigits, if_neg isDigit]
      rfl

/-- The component loop stops nothing. -/
theorem readComponentsGuarded_eq (index : Nat) (parts : List (List Char)) :
    readComponentsGuarded index parts = attempt (readComponents index parts) := by
  induction parts generalizing index with
  | nil => rfl
  | cons component rest ih =>
    have first : readComponentGuarded index component = attempt (readComponent index component) := by
      unfold readComponentGuarded readComponent
      split
      · rfl
      · rw [readDigitsGuarded_eq]
        cases Decimal.readDigits componentBound 0 component with
        | ok value => rfl
        | error cause => cases cause <;> rfl
    simp only [readComponentsGuarded, readComponents, first, ih, attempt_bind]
    rfl

/-- Storing components stops nothing. -/
theorem fromVecGuarded_eq (values : List Nat) :
    Components.fromVecGuarded values = pure (Components.fromVec values) := by
  unfold Components.fromVecGuarded Components.fromVec
  split
  · next short =>
    have copied : copyPrefix (List.replicate 8 0) values =
        some (values ++ List.replicate (8 - values.length) 0) := by
      rw [copyPrefix, List.length_replicate, if_pos short, List.drop_replicate]
    have fits : values.length % 256 = values.length := Nat.mod_eq_of_lt (by omega)
    rw [demand_of copied, pure_bind, fits]
  · rfl

/-- Reading a version stops nothing. -/
theorem parseGuarded_eq (input : String) (minimum : Nat) :
    parseGuarded input minimum = attempt ((RPackageVersion.parseWithMinimum input minimum).map
      fun version => (version.raw, version.components)) := by
  unfold parseGuarded RPackageVersion.parseWithMinimum
  split
  · next empty =>
    have parsed : parseComponents input = .error .empty := if_pos empty
    split
    · next cause failed =>
      rw [parsed] at failed
      cases failed
      rfl
    · next values read =>
      rw [parsed] at read
      cases read
  · next filled =>
    have parsed : parseComponents input =
        readComponents 0 (input.toList.splitOnP isSeparator) := if_neg filled
    rw [readComponentsGuarded_eq, ← parsed]
    split
    · next cause failed =>
      rw [failed]
      rfl
    · next values read =>
      have run : (attempt (parseComponents input) : Guarded RPackageVersionError (List Nat)) =
          pure values := by
        rw [read]
        rfl
      rw [run, pure_bind]
      split
      · rfl
      · rw [fromVecGuarded_eq]
        rfl

/-- The parts of a version text. -/
def versionParts (input : String) : List (List Char) := input.toList.splitOnP isSeparator

/-- The numbers that the parts of a version text spell. -/
def componentNumbers (input : String) : List Nat :=
  (versionParts input).map fun part => Nat.ofDigitChars 10 part 0

/-- A text spells a version of at least some components: it is not empty, and each of its parts is a
nonempty numeral in the component range. -/
structure SpellsVersion (input : String) (minimum : Nat) : Prop where
  filled : input ≠ ""
  many : minimum ≤ (versionParts input).length
  numerals : ∀ part ∈ versionParts input, part ≠ [] ∧ (∀ digit ∈ part, digit.isDigit = true) ∧
    Nat.ofDigitChars 10 part 0 < 4294967296

/-- A list that holds for each item its value under a function is the list of these values. -/
theorem forall₂_and_eq_iff {α β : Type*} {holds : α → Prop} {value : α → β} {items : List α}
    {values : List β} :
    List.Forall₂ (fun item found => holds item ∧ value item = found) items values ↔
      (∀ item ∈ items, holds item) ∧ values = items.map value := by
  induction items generalizing values with
  | nil => simp [List.forall₂_nil_left_iff]
  | cons first rest ih =>
    simp only [List.forall₂_cons_left_iff, ih, List.forall_mem_cons, List.map_cons]
    constructor
    · rintro ⟨found, values, ⟨here, rfl⟩, ⟨later, rfl⟩, rfl⟩
      exact ⟨⟨here, later⟩, rfl⟩
    · rintro ⟨⟨here, later⟩, rfl⟩
      exact ⟨_, _, ⟨here, rfl⟩, ⟨later, rfl⟩, rfl⟩

/-- The components of a text are the numbers of its parts, when these are numerals in range. -/
theorem parseComponents_eq_ok_iff {input : String} {values : List Nat} :
    parseComponents input = .ok values ↔ SpellsVersion input 0 ∧ values = componentNumbers input := by
  have part_iff : ∀ part value, (part ≠ [] ∧ Decimal.readDigits componentBound 0 part = .ok value) ↔
      (part ≠ [] ∧ (∀ digit ∈ part, digit.isDigit = true) ∧
        Nat.ofDigitChars 10 part 0 < 4294967296) ∧ Nat.ofDigitChars 10 part 0 = value := by
    intro part value
    rw [Decimal.readDigits_ok_iff _ part 0 value (by decide)]
    constructor
    · rintro ⟨filled, digits, rfl, below⟩
      exact ⟨⟨filled, digits, below⟩, rfl⟩
    · rintro ⟨⟨filled, digits, below⟩, rfl⟩
      exact ⟨filled, digits, rfl, below⟩
  unfold parseComponents
  split
  · next empty =>
    have blank : input = "" := String.isEmpty_iff.mp empty
    constructor
    · intro read
      cases read
    · intro spelled
      exact absurd blank spelled.1.filled
  · next filled =>
    have notBlank : input ≠ "" := fun blank => filled (String.isEmpty_iff.mpr blank)
    rw [readComponents_ok_iff, componentNumbers]
    change List.Forall₂ _ (versionParts input) values ↔ _
    simp only [part_iff, forall₂_and_eq_iff]
    constructor
    · rintro ⟨numerals, rfl⟩
      exact ⟨⟨notBlank, Nat.zero_le _, numerals⟩, rfl⟩
    · rintro ⟨spelled, rfl⟩
      exact ⟨spelled.numerals, rfl⟩

/-- A text is read as a version with its components exactly when it spells one of enough
components. -/
theorem parseWithMinimum_iff {input : String} {minimum : Nat} :
    (∃ version, RPackageVersion.parseWithMinimum input minimum = .ok version) ↔
      SpellsVersion input minimum := by
  unfold RPackageVersion.parseWithMinimum
  split
  · next cause failed =>
    constructor
    · rintro ⟨version, read⟩
      cases read
    · intro spelled
      have read := parseComponents_eq_ok_iff.mpr
        ⟨⟨spelled.filled, Nat.zero_le _, spelled.numerals⟩, rfl⟩
      rw [failed] at read
      cases read
  · next values read =>
    obtain ⟨spelled, rfl⟩ := parseComponents_eq_ok_iff.mp read
    have length : (componentNumbers input).length = (versionParts input).length :=
      List.length_map _
    split
    · next few =>
      constructor
      · rintro ⟨version, read⟩
        cases read
      · intro enough
        exact absurd enough.many (by omega)
    · next many =>
      exact ⟨fun _ => ⟨spelled.filled, by omega, spelled.numerals⟩, fun _ => ⟨_, rfl⟩⟩

/-- A version that was read has the components of its text. -/
theorem values_of_parseWithMinimum {input : String} {minimum : Nat} {version : RPackageVersion}
    (parsed : RPackageVersion.parseWithMinimum input minimum = .ok version) :
    version.raw = input ∧ version.values = componentNumbers input := by
  unfold RPackageVersion.parseWithMinimum at parsed
  split at parsed
  · cases parsed
  · next values read =>
    split at parsed
    · cases parsed
    · obtain rfl := Except.ok.inj parsed
      exact ⟨rfl, (Components.toList_fromVec values).trans (parseComponents_eq_ok_iff.mp read).2⟩

end Reading

namespace RPackageVersion

/-- `PartialEq::eq`. -/
def eq (left right : RPackageVersion) : Bool := left.cmp right == .eq

/-- `Hash::hash` — write the length without trailing zeros and then the components to a hasher. -/
def hash {η : Type*} (writeLength writeComponent : η → Nat → η) (state : η)
    (version : RPackageVersion) : η :=
  version.components.iter.foldl writeComponent (writeLength state version.components.canonicalLen)

/-- `parse` or `parse_bare` reads a version from a text. -/
def ReadFrom (version : RPackageVersion) (input : String) : Prop :=
  parse input = .ok version ∨ parseBare input = .ok version

/-- The order of versions is that of their padded components. -/
theorem cmp_eq_comparePadded (left right : RPackageVersion) :
    left.cmp right = comparePadded left.values right.values := by
  have trimmed := compare_eq_comparePadded (trimmed_trimZeros left.values)
    (trimmed_trimZeros right.values)
  rw [cmp, key_eq, key_eq, trimmed]
  simp only [comparePadded, padded_trimZeros]

/-- Versions are equal exactly when their components are without trailing zeros. -/
theorem eq_iff_key {left right : RPackageVersion} : left.eq right = true ↔ left.key = right.key := by
  rw [eq, beq_iff_eq, cmp_eq_iff_same, same_iff]

/-- Equal versions hash alike. -/
theorem hash_congr {η : Type*} (writeLength writeComponent : η → Nat → η) (state : η)
    {left right : RPackageVersion} (equal : left.eq right = true) :
    hash writeLength writeComponent state left = hash writeLength writeComponent state right := by
  have keys : left.components.iter = right.components.iter := eq_iff_key.mp equal
  have lengths : left.components.canonicalLen = right.components.canonicalLen := by
    have counted := congrArg List.length keys
    simpa only [Components.iter, List.length_map, List.length_range] using counted
  rw [hash, hash, keys, lengths]

/-- Versions that were read are ordered by the numbers in their texts, padded with zeros. This is a
total order whose equality is the equality of versions; equal versions hash alike and satisfy the same
constraints. Reading a version stops nothing and accepts the texts of two or more numerals in range
between separators. -/
theorem cmp_padded :
    (∀ (first second : String) (left right : RPackageVersion), left.ReadFrom first →
      right.ReadFrom second →
      left.cmp right = comparePadded (componentNumbers first) (componentNumbers second)) ∧
    (∀ left right : RPackageVersion, right.cmp left = (left.cmp right).swap) ∧
    (∀ first second third : RPackageVersion, (first.cmp second).isLE = true →
      (second.cmp third).isLE = true → (first.cmp third).isLE = true) ∧
    (∀ left right : RPackageVersion, left.eq right = true ↔ left.cmp right = .eq) ∧
    (∀ (η : Type) (writeLength writeComponent : η → Nat → η) (state : η)
      (left right : RPackageVersion), left.eq right = true →
      hash writeLength writeComponent state left = hash writeLength writeComponent state right) ∧
    (∀ (constraint : VersionConstraint) (left right : RPackageVersion), left.eq right = true →
      constraint.satisfies left = constraint.satisfies right) ∧
    ∀ input, ((∃ version, parse input = .ok version) ↔ SpellsVersion input 2) ∧
      Safe (parseGuarded input 2) ∧
      parseGuarded input 2 =
        attempt ((parse input).map fun version => (version.raw, version.components)) := by
  refine ⟨?_, ?_, ?_, ?_, ?_, ?_, ?_⟩
  · intro first second left right readLeft readRight
    have values : ∀ {input : String} {version : RPackageVersion}, version.ReadFrom input →
        version.values = componentNumbers input := by
      intro input version read
      rcases read with read | read
      · exact (values_of_parseWithMinimum read).2
      · exact (values_of_parseWithMinimum read).2
    rw [cmp_eq_comparePadded, values readLeft, values readRight]
  · exact fun left right => Std.OrientedCmp.eq_swap
  · exact fun first second third => Std.TransCmp.isLE_trans
  · exact fun left right => beq_iff_eq
  · exact fun η writeLength writeComponent state left right => hash_congr _ _ _
  · intro constraint left right equal
    exact constraint.satisfies_congr (same_iff.mpr (eq_iff_key.mp equal))
  · intro input
    refine ⟨parseWithMinimum_iff, ?_, parseGuarded_eq input 2⟩
    rw [parseGuarded_eq]
    exact safe_attempt _

/-- Leading zeros and separators do not count, and numbers are compared as numbers. -/
theorem cmp_padded_spellings :
    ∃ left right : RPackageVersion, left.ReadFrom "01.7-0" ∧ right.ReadFrom "1.10" ∧
      left.cmp right = comparePadded [1, 7, 0] [1, 10] ∧ right.cmp left = (left.cmp right).swap := by
  obtain ⟨left, readLeft⟩ := Checked.exists_of_isOk
    (show (parse "01.7-0").isOk = true by decide +kernel)
  obtain ⟨right, readRight⟩ := Checked.exists_of_isOk
    (show (parse "1.10").isOk = true by decide +kernel)
  have order := cmp_padded.1 _ _ left right (.inl readLeft) (.inl readRight)
  have leftNumbers : componentNumbers "01.7-0" = [1, 7, 0] := by decide +kernel
  have rightNumbers : componentNumbers "1.10" = [1, 10] := by decide +kernel
  rw [leftNumbers, rightNumbers] at order
  exact ⟨left, right, .inl readLeft, .inl readRight, order, cmp_padded.2.1 left right⟩

end RPackageVersion

end Rsolve
