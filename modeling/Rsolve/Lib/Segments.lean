import Mathlib.Data.List.Basic

/-!
# Paths as lists of segments

A path is a text of segments with a separator between neighbours. Cutting a path and putting the
segments together again gives the path, and segments without separators are what their path is cut
into.
-/
namespace Segments

/-- `str::split` at a character — the segments of a text, at least one. -/
def segments (separator : Char) (text : String) : List String :=
  (text.toList.splitOn separator).map String.ofList

/-- `[str]::join` with a character — segments put together. -/
def join (separator : Char) (parts : List String) : String :=
  (String.singleton separator).intercalate parts

/-- The characters of segments put together. -/
theorem toList_join (separator : Char) (parts : List String) :
    (join separator parts).toList = [separator].intercalate (parts.map String.toList) := by
  rw [join, String.toList_intercalate, String.toList_singleton]

/-- A text has a segment. -/
theorem segments_ne_nil (separator : Char) (text : String) : segments separator text ≠ [] := by
  simp [segments]

/-- The segments of a text put together give the text. -/
@[simp]
theorem join_segments (separator : Char) (text : String) :
    join separator (segments separator text) = text := by
  apply String.toList_injective
  have same : (segments separator text).map String.toList = text.toList.splitOn separator := by
    simp [segments, Function.comp_def]
  rw [toList_join, same, List.intercalate_splitOn]

/-- Segments without separators are the segments of the text they give. -/
theorem segments_join {separator : Char} {parts : List String} (nonempty : parts ≠ [])
    (clean : ∀ part ∈ parts, separator ∉ part.toList) :
    segments separator (join separator parts) = parts := by
  have split : (join separator parts).toList.splitOn separator = parts.map String.toList := by
    rw [toList_join]
    refine List.splitOn_intercalate separator ?_ (by simpa using nonempty)
    intro piece member
    obtain ⟨part, inside, rfl⟩ := List.mem_map.mp member
    exact clean part inside
  rw [segments, split, List.map_map]
  simp [Function.comp_def]

/-- No piece of a split list has the separator. -/
theorem notMem_of_mem_splitOn {separator : Char} {text piece : List Char}
    (member : piece ∈ text.splitOn separator) : separator ∉ piece := by
  induction text generalizing piece with
  | nil =>
    rw [List.splitOn_nil, List.mem_singleton] at member
    rw [member]
    exact List.not_mem_nil
  | cons first rest ih =>
    rw [List.splitOn_cons_eq_if_modifyHead] at member
    split at member
    · rcases List.mem_cons.mp member with rfl | later
      · exact List.not_mem_nil
      · exact ih later
    · next other =>
      cases pieces : rest.splitOn separator with
      | nil => exact absurd pieces (List.splitOn_ne_nil _ _)
      | cons head tail =>
        rw [pieces] at member ih
        rcases List.mem_cons.mp member with rfl | later
        · intro inside
          rcases List.mem_cons.mp inside with equal | inside
          · exact other (beq_iff_eq.mpr equal.symm)
          · exact ih (List.mem_cons_self ..) inside
        · exact ih (List.mem_cons_of_mem _ later)

/-- What a piece of a split list holds is from the list. -/
theorem mem_of_mem_splitOn {separator item : Char} {text piece : List Char}
    (member : piece ∈ text.splitOn separator) (inside : item ∈ piece) : item ∈ text := by
  induction text generalizing piece with
  | nil =>
    rw [List.splitOn_nil, List.mem_singleton] at member
    rw [member] at inside
    cases inside
  | cons first rest ih =>
    rw [List.splitOn_cons_eq_if_modifyHead] at member
    split at member
    · rcases List.mem_cons.mp member with rfl | later
      · cases inside
      · exact List.mem_cons_of_mem _ (ih later inside)
    · cases pieces : rest.splitOn separator with
      | nil => exact absurd pieces (List.splitOn_ne_nil _ _)
      | cons head tail =>
        rw [pieces] at member ih
        rcases List.mem_cons.mp member with rfl | later
        · rcases List.mem_cons.mp inside with rfl | inside
          · exact List.mem_cons_self
          · exact List.mem_cons_of_mem _ (ih (List.mem_cons_self ..) inside)
        · exact List.mem_cons_of_mem _ (ih (List.mem_cons_of_mem _ later) inside)

/-- No segment has a separator. -/
theorem notMem_of_mem_segments {separator : Char} {text part : String}
    (member : part ∈ segments separator text) : separator ∉ part.toList := by
  obtain ⟨piece, inside, rfl⟩ := List.mem_map.mp member
  rw [String.toList_ofList]
  exact notMem_of_mem_splitOn inside

end Segments
