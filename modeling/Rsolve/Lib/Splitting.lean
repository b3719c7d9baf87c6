import Mathlib.Data.List.Basic

/-!
# Texts split at separators

A text is split at the first place where a separator stands, or at the last. A text that is put
together around a separator comes apart again where the separator does not begin earlier.
-/
namespace Splitting

variable {α β : Type*}

section Once

variable [DecidableEq α]

/-- The text before the first place of a nonempty separator, and the text after it. -/
def splitOnce (separator : List α) : List α → Option (List α × List α)
  | [] => none
  | first :: rest =>
    if separator <+: first :: rest then some ([], (first :: rest).drop separator.length)
    else (splitOnce separator rest).map fun parts => (first :: parts.1, parts.2)

/-- The text before the last place of an item, and the text after it. -/
def rsplitOnce (separator : α) (text : List α) : Option (List α × List α) :=
  (splitOnce [separator] text.reverse).map fun parts => (parts.2.reverse, parts.1.reverse)

/-- The text after its first item when that is a given one. -/
def stripPrefix (item : α) : List α → Option (List α)
  | [] => none
  | first :: rest => if first = item then some rest else none

/-- What is split is put together again around the separator. -/
theorem eq_of_splitOnce {separator text : List α} {parts : List α × List α}
    (split : splitOnce separator text = some parts) : text = parts.1 ++ separator ++ parts.2 := by
  induction text generalizing parts with
  | nil => cases split
  | cons first rest ih =>
    rw [splitOnce] at split
    split at split
    · next found =>
      obtain ⟨after, whole⟩ := found
      rw [← whole, List.drop_left] at split
      rw [← Option.some.inj split, ← whole, List.nil_append]
    · obtain ⟨inner, found, rfl⟩ := Option.map_eq_some_iff.mp split
      rw [ih found]
      rfl

/-- A text splits at a separator whose first item stands nowhere before it. -/
theorem splitOnce_append {first : α} {more before : List α} (after : List α)
    (clean : first ∉ before) :
    splitOnce (first :: more) (before ++ (first :: more) ++ after) = some (before, after) := by
  induction before with
  | nil => simp [splitOnce]
  | cons head rest ih =>
    have other : first ≠ head := fun equal => clean (equal ▸ List.mem_cons_self)
    rw [List.cons_append, List.cons_append, splitOnce, if_neg (by simp [List.cons_prefix_cons, other]),
      ih fun member => clean (List.mem_cons_of_mem _ member)]
    rfl

/-- A text is split at an item exactly when it has the item. -/
theorem splitOnce_eq_none {item : α} {text : List α} :
    splitOnce [item] text = none ↔ item ∉ text := by
  induction text with
  | nil => simp [splitOnce]
  | cons first rest ih =>
    by_cases equal : item = first
    · simp [splitOnce, equal]
    · simp [splitOnce, equal, ih]

/-- A text is split at the first place of an item. -/
theorem notMem_of_splitOnce {item : α} {text : List α} {parts : List α × List α}
    (split : splitOnce [item] text = some parts) : item ∉ parts.1 := by
  induction text generalizing parts with
  | nil => cases split
  | cons first rest ih =>
    rw [splitOnce] at split
    split at split
    · rw [← Option.some.inj split]
      exact List.not_mem_nil
    · next missed =>
      obtain ⟨inner, found, rfl⟩ := Option.map_eq_some_iff.mp split
      have other : item ≠ first := fun equal => missed (by simp [equal])
      exact List.not_mem_cons_of_ne_of_not_mem other (ih found)

/-- What is split at the last place is put together again. -/
theorem eq_of_rsplitOnce {item : α} {text : List α} {parts : List α × List α}
    (split : rsplitOnce item text = some parts) : text = parts.1 ++ item :: parts.2 := by
  obtain ⟨inner, found, rfl⟩ := Option.map_eq_some_iff.mp split
  have whole := congrArg List.reverse (eq_of_splitOnce found)
  simpa using whole

/-- A text splits at the last place of an item. -/
theorem rsplitOnce_append {item : α} (before : List α) {after : List α} (clean : item ∉ after) :
    rsplitOnce item (before ++ item :: after) = some (before, after) := by
  have reversed : (before ++ item :: after).reverse = after.reverse ++ [item] ++ before.reverse := by
    simp
  rw [rsplitOnce, reversed, splitOnce_append before.reverse (by simpa using clean)]
  simp

/-- A text is split from the end at an item exactly when it has the item. -/
theorem rsplitOnce_eq_none {item : α} {text : List α} :
    rsplitOnce item text = none ↔ item ∉ text := by
  rw [rsplitOnce, Option.map_eq_none_iff, splitOnce_eq_none, List.mem_reverse]

/-- A text that starts otherwise has no such first item. -/
theorem stripPrefix_eq_none {item : α} {text : List α} :
    stripPrefix item text = none ↔ text.head? ≠ some item := by
  cases text with
  | nil => simp [stripPrefix]
  | cons first rest =>
    by_cases equal : first = item <;> simp [stripPrefix, equal]

/-- What is left of a text goes on after its first item. -/
theorem stripPrefix_eq_some {item : α} {text rest : List α} :
    stripPrefix item text = some rest ↔ text = item :: rest := by
  cases text with
  | nil => simp [stripPrefix]
  | cons first others =>
    by_cases equal : first = item <;> simp [stripPrefix, equal]

end Once

/-- Pieces are mapped with the text when the separators stay. -/
theorem splitOnP_map {test : β → Bool} (change : α → β) (text : List α) :
    (text.map change).splitOnP test =
      (text.splitOnP fun item => test (change item)).map (List.map change) := by
  induction text with
  | nil => simp
  | cons first rest ih =>
    rw [List.map_cons, List.splitOnP_cons_eq_if_modifyHead, List.splitOnP_cons_eq_if_modifyHead, ih]
    split
    · rfl
    · cases List.splitOnP (fun item => test (change item)) rest <;> rfl

/-- An item is a separator or in a piece. -/
theorem mem_splitOnP {test : α → Bool} {items : List α} {item : α}
    (member : item ∈ items) : test item = true ∨ ∃ part ∈ items.splitOnP test, item ∈ part := by
  induction items with
  | nil => cases member
  | cons head rest ih =>
    rw [List.splitOnP_cons_eq_if_modifyHead]
    by_cases separator : test head = true
    · rw [if_pos separator]
      rcases List.mem_cons.mp member with rfl | member
      · exact .inl separator
      · exact (ih member).imp_right fun ⟨part, inside, found⟩ =>
          ⟨part, List.mem_cons_of_mem _ inside, found⟩
    · rw [if_neg separator]
      cases split : rest.splitOnP test with
      | nil => exact absurd split (List.splitOnP_ne_nil _ _)
      | cons first parts =>
        rw [List.modifyHead_cons]
        rcases List.mem_cons.mp member with rfl | member
        · exact .inr ⟨_, List.mem_cons_self, List.mem_cons_self⟩
        · rcases ih member with test | ⟨part, inside, found⟩
          · exact .inl test
          · rw [split] at inside
            rcases List.mem_cons.mp inside with rfl | inside
            · exact .inr ⟨_, List.mem_cons_self, List.mem_cons_of_mem _ found⟩
            · exact .inr ⟨part, List.mem_cons_of_mem _ inside, found⟩

/-- Ended lines are cut into the lines and an empty rest. -/
theorem splitOn_flatMap [DecidableEq α] {separator : α} {lines : List (List α)}
    (whole : ∀ line ∈ lines, separator ∉ line) :
    (lines.flatMap (· ++ [separator])).splitOn separator = lines ++ [[]] := by
  induction lines with
  | nil => rfl
  | cons line lines ih =>
    rw [List.flatMap_cons, List.append_assoc, List.singleton_append,
      List.splitOn_append_cons_self_of_not_mem (whole line List.mem_cons_self),
      ih fun other member => whole other (List.mem_cons_of_mem _ member)]
    rfl

/-- `str::split_inclusive` — the pieces of a text, each with the separator at its end, and a last one
without it when the text does not end there. -/
def splitInclusive [DecidableEq α] (separator : α) : List α → List (List α)
  | [] => []
  | first :: rest =>
    if first = separator then [first] :: splitInclusive separator rest
    else
      match splitInclusive separator rest with
      | [] => [[first]]
      | piece :: pieces => (first :: piece) :: pieces

/-- The pieces of a text put together give the text. -/
@[simp]
theorem flatten_splitInclusive [DecidableEq α] (separator : α) (text : List α) :
    (splitInclusive separator text).flatten = text := by
  induction text with
  | nil => rfl
  | cons first rest ih =>
    rw [splitInclusive]
    split
    · rw [List.flatten_cons, ih]
      rfl
    · cases pieces : splitInclusive separator rest with
      | nil =>
        rw [pieces] at ih
        rw [← ih]
        rfl
      | cons piece pieces' =>
        rw [pieces] at ih
        rw [← ih]
        rfl

/-- Ended lines are the pieces of the text that they give. -/
theorem splitInclusive_flatMap [DecidableEq α] {separator : α} {lines : List (List α)}
    (whole : ∀ line ∈ lines, separator ∉ line) :
    splitInclusive separator (lines.flatMap (· ++ [separator])) =
      lines.map (· ++ [separator]) := by
  have piece : ∀ (line rest : List α), separator ∉ line →
      splitInclusive separator (line ++ separator :: rest) =
        (line ++ [separator]) :: splitInclusive separator rest := by
    intro line rest clean
    induction line with
    | nil => rw [List.nil_append, splitInclusive, if_pos rfl]; rfl
    | cons first others ih =>
      rw [List.mem_cons, not_or] at clean
      rw [List.cons_append, splitInclusive, if_neg (Ne.symm clean.1), ih clean.2]
      rfl
  induction lines with
  | nil => rfl
  | cons line lines ih =>
    rw [List.flatMap_cons, List.append_assoc, List.singleton_append,
      piece line _ (whole line List.mem_cons_self),
      ih fun other member => whole other (List.mem_cons_of_mem _ member), List.map_cons]

end Splitting
