import Mathlib.Data.List.Forall2
import Mathlib.Data.List.Induction
import Rsolve.Lib.Decimal
import Rsolve.Lib.Keyed

/-!
# R package versions

A version keeps the spelling it was read from and the numeric components of that spelling. Equality
and order ignore the spelling and trailing zero components, as `numeric_version` does. The spelling
field of the structure is tied to the components by the parser, so a version that does not parse
cannot be built.
-/
open Keyed

namespace Rsolve

/-- `RPackageVersionError` — why a text is not a version. -/
inductive RPackageVersionError
  | empty
  | emptyComponent (index : Nat)
  | nonNumericComponent (index : Nat)
  | componentOverflow (index : Nat)
  | tooFewComponents (found minimum : Nat)
deriving Repr, DecidableEq

/-- `RPackageVersionError::fmt` — the error text. -/
def RPackageVersionError.message : RPackageVersionError → String
  | .empty => "R version is empty"
  | .emptyComponent index => "R version component " ++ toString index ++ " is empty"
  | .nonNumericComponent index => "R version component " ++ toString index ++ " is not numeric"
  | .componentOverflow index => "R version component " ++ toString index ++ " overflows u32"
  | .tooFewComponents found minimum =>
    "R version has " ++ toString found ++ " component(s), minimum is " ++ toString minimum

/-- `Components` — up to eight components in place, longer sequences on the heap. -/
inductive Components
  | inline (values : List Nat) (len : Nat)
  | spill (values : List Nat)
deriving Repr, DecidableEq

namespace Components

/-- `Components::from_vec` — choose the representation by length. -/
def fromVec (values : List Nat) : Components :=
  if values.length ≤ 8 then
    .inline (values ++ List.replicate (8 - values.length) 0) values.length
  else .spill values

/-- `Components::len` — the number of components as spelled. -/
def len : Components → Nat
  | .inline _ len => len
  | .spill values => values.length

/-- `Components::get` — one component; the padding of the inline form is zero. -/
def get : Components → Nat → Nat
  | .inline values _, index => values.getD index 0
  | .spill values, index => values.getD index 0

/-- The loop of `Components::canonical_len`, from a given length downwards. -/
def canonicalLenFrom (components : Components) : Nat → Nat
  | 0 => 0
  | len + 1 => if components.get len = 0 then components.canonicalLenFrom len else len + 1

/-- `Components::canonical_len` — the length without trailing zeros. -/
def canonicalLen (components : Components) : Nat :=
  components.canonicalLenFrom components.len

/-- `RPackageVersion::components` — every component as spelled. -/
def toList (components : Components) : List Nat :=
  (List.range components.len).map components.get

/-- `Components::iter` — the components without trailing zeros. -/
def iter (components : Components) : List Nat :=
  (List.range components.canonicalLen).map components.get

/-- Both representations hold the components they were built from. -/
@[simp]
theorem toList_fromVec (values : List Nat) : (fromVec values).toList = values := by
  unfold fromVec
  split
  · next short =>
    refine List.ext_getElem (by simp [toList, len]) ?_
    intro index _ bound
    simp only [toList, len, get, List.getElem_map, List.getElem_range]
    rw [List.getD_eq_getElem?_getD, List.getElem?_append_left bound,
      List.getElem?_eq_getElem bound, Option.getD_some]
  · refine List.ext_getElem (by simp [toList, len]) ?_
    intro index _ bound
    simp [toList, len, get, bound]

end Components

/-- Drop the zeros at the end of a component sequence. -/
def trimZeros (values : List Nat) : List Nat :=
  (values.reverse.dropWhile (· == 0)).reverse

/-- A trailing zero is dropped. -/
@[simp]
theorem trimZeros_concat_zero (values : List Nat) : trimZeros (values ++ [0]) = trimZeros values := by
  simp [trimZeros]

/-- A sequence that does not end in zero is left alone. -/
theorem trimZeros_concat (values : List Nat) {last : Nat} (nonzero : last ≠ 0) :
    trimZeros (values ++ [last]) = values ++ [last] := by
  simp [trimZeros, nonzero]

/-- The comparison key of a component sequence is the sequence without trailing zeros, in either
representation. -/
theorem Components.iter_eq_trimZeros (components : Components) :
    components.iter = trimZeros components.toList := by
  have general : ∀ len, (List.range (components.canonicalLenFrom len)).map components.get =
      trimZeros ((List.range len).map components.get) := by
    intro len
    induction len with
    | zero => rfl
    | succ len ih =>
      rw [List.range_succ, List.map_append, List.map_singleton]
      simp only [Components.canonicalLenFrom]
      split
      · next zero => rw [zero, trimZeros_concat_zero, ih]
      · next nonzero =>
        rw [trimZeros_concat _ nonzero, List.range_succ, List.map_append, List.map_singleton]
  exact general components.len

/-- Trimming is idempotent. -/
@[simp]
theorem trimZeros_trimZeros (values : List Nat) : trimZeros (trimZeros values) = trimZeros values := by
  induction values using List.reverseRecOn with
  | nil => rfl
  | append_singleton values last ih =>
    by_cases zero : last = 0
    · simp [zero, ih]
    · simp [trimZeros_concat values zero]

/-- Trimming keeps a beginning of its input. -/
theorem trimZeros_initial (values : List Nat) : trimZeros values <+: values := by
  rw [trimZeros, ← List.reverse_suffix, List.reverse_reverse]
  exact List.dropWhile_suffix _

/-- The components of a version are below this bound, which is one above `u32::MAX`. -/
def componentBound : Nat := 4294967296

/-- One component of a version text; `index` is its position in the error. -/
def readComponent (index : Nat) (component : List Char) : Except RPackageVersionError Nat :=
  if component.isEmpty then .error (.emptyComponent index)
  else
    match Decimal.readDigits componentBound 0 component with
    | .ok value => .ok value
    | .error .nonDigit => .error (.nonNumericComponent index)
    | .error .overflow => .error (.componentOverflow index)

/-- The component loop of `RPackageVersion::parse_with_minimum`. -/
def readComponents (index : Nat) : List (List Char) → Except RPackageVersionError (List Nat)
  | [] => .ok []
  | component :: rest => do
    let value ← readComponent index component
    let values ← readComponents (index + 1) rest
    return value :: values

/-- The separators between version components. -/
def isSeparator (character : Char) : Bool :=
  character == '.' || character == '-'

/-- The components of a version text, without the lower bound on their number. -/
def parseComponents (input : String) : Except RPackageVersionError (List Nat) :=
  if input.isEmpty then .error .empty
  else readComponents 0 (input.toList.splitOnP isSeparator)

/-- `RPackageVersion` — a version with the spelling it was read from. -/
structure RPackageVersion where
  /-- The original spelling. -/
  raw : String
  /-- The numeric components of the spelling. -/
  components : Components
  /-- The spelling reads as the components. -/
  spelled : parseComponents raw = .ok components.toList
deriving DecidableEq

/-- A component is read exactly when it is a nonempty numeral below `2^32`. -/
theorem readComponent_ok_iff (index : Nat) (component : List Char) (value : Nat) :
    readComponent index component = .ok value ↔
      component ≠ [] ∧ Decimal.readDigits componentBound 0 component = .ok value := by
  unfold readComponent
  cases component with
  | nil => simp
  | cons digit rest =>
    simp only [List.isEmpty_cons, Bool.false_eq_true, ↓reduceIte, ne_eq, reduceCtorEq,
      not_false_eq_true, true_and]
    cases Decimal.readDigits componentBound 0 (digit :: rest) with
    | ok found => simp
    | error cause => cases cause <;> simp

/-- The component loop succeeds exactly when every part is a nonempty numeral below `2^32`. -/
theorem readComponents_ok_iff (index : Nat) (parts : List (List Char)) (values : List Nat) :
    readComponents index parts = .ok values ↔
      List.Forall₂ (fun part value => part ≠ [] ∧
        Decimal.readDigits componentBound 0 part = .ok value) parts values := by
  induction parts generalizing index values with
  | nil =>
    simp only [readComponents, Except.ok.injEq, List.forall₂_nil_left_iff]
    exact eq_comm
  | cons part rest ih =>
    simp only [readComponents]
    cases read : readComponent index part with
    | error cause =>
      have refused : ∀ value, ¬ (part ≠ [] ∧ Decimal.readDigits componentBound 0 part = .ok value) := by
        intro value accepted
        rw [(readComponent_ok_iff index part value).mpr accepted] at read
        simp at read
      constructor
      · intro parsed
        simp [bind, Except.bind] at parsed
      · intro related
        cases related with
        | cons head _ => exact absurd head (refused _)
    | ok value =>
      have accepted := (readComponent_ok_iff index part value).mp read
      constructor
      · intro parsed
        cases restRead : readComponents (index + 1) rest with
        | error cause => simp [bind, Except.bind, restRead] at parsed
        | ok restValues =>
          simp only [bind, Except.bind, restRead, pure, Except.pure, Except.ok.injEq] at parsed
          subst parsed
          exact List.Forall₂.cons accepted ((ih _ _).mp restRead)
      · intro related
        cases related with
        | @cons _ found _ restValues head tail =>
          have equal : found = value := by
            have := head.2.symm.trans accepted.2
            simpa using this
          subst equal
          simp [bind, Except.bind, (ih (index + 1) restValues).mpr tail, pure, Except.pure]

/-- The text printed for a component sequence. -/
def joinComponents (values : List Nat) : String :=
  String.intercalate "." (values.map toString)

/-- A printed component sequence reads back as itself. -/
theorem parseComponents_joinComponents {values : List Nat} (nonempty : values ≠ [])
    (bounded : ∀ value ∈ values, value < componentBound) :
    parseComponents (joinComponents values) = .ok values := by
  have characters : (joinComponents values).toList =
      ['.'].intercalate (values.map (Nat.toDigits 10)) := by
    simp [joinComponents, String.toList_intercalate, Function.comp_def, Nat.toList_repr]
  have split : (joinComponents values).toList.splitOnP isSeparator =
      values.map (Nat.toDigits 10) := by
    rw [characters]
    refine Decimal.splitOnP_intercalate isSeparator '.' rfl (by simpa using nonempty) ?_
    intro part partIn character characterIn
    obtain ⟨value, -, rfl⟩ := List.mem_map.mp partIn
    have digit := Nat.isDigit_of_mem_toDigits (by decide) (by decide) characterIn
    by_contra separator
    simp only [isSeparator, Bool.not_eq_false, Bool.or_eq_true, beq_iff_eq] at separator
    rcases separator with rfl | rfl <;> exact absurd digit (by decide)
  have spelled : (joinComponents values).isEmpty = false := by
    rw [Bool.eq_false_iff]
    intro isEmpty
    have noCharacters : (joinComponents values).toList = [] := by simpa using isEmpty
    rw [noCharacters] at split
    cases values with
    | nil => exact nonempty rfl
    | cons value rest =>
      simp only [List.splitOnP_nil, List.map_cons, List.cons.injEq] at split
      exact Nat.toDigits_ne_nil split.1.symm
  rw [parseComponents, spelled, if_neg (by simp), split, readComponents_ok_iff]
  rw [List.forall₂_map_left_iff, List.forall₂_same]
  intro value member
  exact ⟨Nat.toDigits_ne_nil, Decimal.readDigits_toDigits _ value (bounded value member)⟩

/-- Every value of a pointwise related list is related to some element. -/
theorem exists_part {α β : Type*} {related : α → β → Prop} {parts : List α} {values : List β}
    (pointwise : List.Forall₂ related parts values) {value : β} (member : value ∈ values) :
    ∃ part, related part value := by
  obtain ⟨index, bound, rfl⟩ := List.getElem_of_mem member
  have lengths := pointwise.length_eq
  exact ⟨parts[index], pointwise.get (by omega) bound⟩

/-- The components of a parsed text are nonempty and fit 32 bits. -/
theorem parseComponents_bounds {input : String} {values : List Nat}
    (parsed : parseComponents input = .ok values) :
    values ≠ [] ∧ ∀ value ∈ values, value < componentBound := by
  unfold parseComponents at parsed
  split at parsed
  · simp at parsed
  · rw [readComponents_ok_iff] at parsed
    constructor
    · rintro rfl
      rw [List.forall₂_nil_right_iff] at parsed
      exact List.splitOnP_ne_nil _ _ parsed
    · intro value member
      obtain ⟨part, read⟩ := exists_part parsed member
      exact ((Decimal.readDigits_ok_iff _ part 0 value (by decide)).mp read.2).2.2

namespace RPackageVersion

/-- `RPackageVersion::parse_with_minimum` — read a version of at least a number of components. -/
def parseWithMinimum (input : String) (minimum : Nat) :
    Except RPackageVersionError RPackageVersion :=
  match parsed : parseComponents input with
  | .error cause => .error cause
  | .ok values =>
    if values.length < minimum then .error (.tooFewComponents values.length minimum)
    else .ok ⟨input, .fromVec values, by rw [Components.toList_fromVec, parsed]⟩

/-- `RPackageVersion::parse` — package versions have at least two components. -/
def parse (input : String) : Except RPackageVersionError RPackageVersion :=
  parseWithMinimum input 2

/-- `RPackageVersion::parse_bare` — bare numeric versions may have one component. -/
def parseBare (input : String) : Except RPackageVersionError RPackageVersion :=
  parseWithMinimum input 1

/-- `RPackageVersion::components` — the components as spelled. -/
def values (version : RPackageVersion) : List Nat := version.components.toList

/-- The components that comparison reads. -/
def key (version : RPackageVersion) : List Nat := version.components.iter

/-- `Ord::cmp` — lexicographic order of the components without trailing zeros. -/
def cmp (left right : RPackageVersion) : Ordering := compare left.key right.key

/-- The comparison key is the spelled components without trailing zeros. -/
theorem key_eq (version : RPackageVersion) : version.key = trimZeros version.values :=
  Components.iter_eq_trimZeros version.components

/-- A version has components, all of which fit 32 bits. -/
theorem values_bounds (version : RPackageVersion) :
    version.values ≠ [] ∧ ∀ value ∈ version.values, value < componentBound :=
  parseComponents_bounds version.spelled

/-- The components of the shortest spelling that comparison does not distinguish. -/
def keySpelling (version : RPackageVersion) : List Nat :=
  if version.key = [] then [0] else version.key

/-- The shortest spelling is nonempty and fits 32 bits. -/
theorem keySpelling_bounds (version : RPackageVersion) :
    version.keySpelling ≠ [] ∧ ∀ value ∈ version.keySpelling, value < componentBound := by
  unfold keySpelling
  split
  · exact ⟨by simp, by simp [componentBound]⟩
  · next nonempty =>
    refine ⟨nonempty, fun value member => version.values_bounds.2 value ?_⟩
    rw [key_eq] at member
    exact (trimZeros_initial version.values).subset member

/-- Trimming the shortest spelling gives the comparison key back. -/
theorem trimZeros_keySpelling (version : RPackageVersion) :
    trimZeros version.keySpelling = version.key := by
  unfold keySpelling
  split
  · next empty => rw [empty]; rfl
  · rw [key_eq, trimZeros_trimZeros]

/-- Versions are compared through their shortest spelling. -/
instance : Representative RPackageVersion where
  representative version :=
    ⟨joinComponents version.keySpelling, .fromVec version.keySpelling, by
      rw [Components.toList_fromVec]
      exact parseComponents_joinComponents version.keySpelling_bounds.1
        version.keySpelling_bounds.2⟩

/-- Two versions are the same exactly when their comparison keys are equal. -/
theorem same_iff {left right : RPackageVersion} : Same left right ↔ left.key = right.key := by
  constructor
  · intro same
    have components : Components.fromVec left.keySpelling = Components.fromVec right.keySpelling :=
      congrArg RPackageVersion.components same
    have spelling : left.keySpelling = right.keySpelling := by
      simpa using congrArg Components.toList components
    rw [← trimZeros_keySpelling left, ← trimZeros_keySpelling right, spelling]
  · intro keys
    have spelling : left.keySpelling = right.keySpelling := by
      unfold keySpelling
      rw [keys]
    simp only [Same, representative, spelling]

/-- `PartialEq::eq` — versions are equal exactly when they compare equal. -/
theorem cmp_eq_iff_same {left right : RPackageVersion} :
    cmp left right = .eq ↔ Same left right := by
  rw [same_iff, cmp, Std.LawfulEqOrd.compare_eq_iff_eq]

/-- The version order is a lawful comparator. -/
instance : Std.TransCmp cmp :=
  inferInstanceAs (Std.TransCmp (compareOn key))

/-- Comparison does not depend on the spelling of its first argument. -/
theorem cmp_congr_left {left right : RPackageVersion} (other : RPackageVersion)
    (same : Same left right) : cmp left other = cmp right other := by
  rw [cmp, cmp, same_iff.mp same]

/-- Comparison does not depend on the spelling of its second argument. -/
theorem cmp_congr_right {left right : RPackageVersion} (other : RPackageVersion)
    (same : Same left right) : cmp other left = cmp other right := by
  rw [cmp, cmp, same_iff.mp same]

end RPackageVersion

end Rsolve
