import Mathlib.Data.List.Chain
import Mathlib.Data.List.Forall2
import Rsolve.Lib.Checked

/-!
# Lists that are related element by element

What holds of the elements of a list, of any two of them or of neighbours, holds of the elements of
a related list when the relation carries it over. A list that was written element by element is read
back element by element.
-/
open Checked

namespace Related

universe u v

variable {α : Type u} {β : Type v} {related : α → β → Prop} {left : List α} {right : List β}

/-- Elements of the first list are related to elements of the second one. -/
theorem exists_mem_right (pairs : List.Forall₂ related left right) {first : α}
    (member : first ∈ left) : ∃ second ∈ right, related first second := by
  induction pairs with
  | nil => cases member
  | cons head _ ih =>
    rcases List.mem_cons.mp member with rfl | later
    · exact ⟨_, List.mem_cons_self, head⟩
    · obtain ⟨second, secondIn, pair⟩ := ih later
      exact ⟨second, List.mem_cons_of_mem _ secondIn, pair⟩

/-- A relation between any two elements is carried over. -/
theorem pairwise {within : α → α → Prop} {between : β → β → Prop}
    (pairs : List.Forall₂ related left right) (ordered : right.Pairwise between)
    (carried : ∀ {first second one two}, related first one → related second two → between one two →
      within first second) : left.Pairwise within := by
  induction pairs with
  | nil => exact .nil
  | cons head tail ih =>
    rw [List.pairwise_cons] at ordered ⊢
    refine ⟨fun second secondIn => ?_, ih ordered.2⟩
    obtain ⟨two, twoIn, pair⟩ := exists_mem_right tail secondIn
    exact carried head pair (ordered.1 two twoIn)

/-- A relation between neighbours is carried over. -/
theorem isChain {within : α → α → Prop} {between : β → β → Prop}
    (pairs : List.Forall₂ related left right) (chained : right.IsChain between)
    (carried : ∀ {first second one two}, related first one → related second two → between one two →
      within first second) : left.IsChain within := by
  induction pairs with
  | nil => exact .nil
  | cons head tail ih =>
    cases tail with
    | nil => exact .singleton _
    | cons next rest =>
      rw [List.isChain_cons_cons] at chained ⊢
      exact ⟨carried head next chained.1, ih chained.2⟩

/-- A list is read back when every element that was written is. -/
theorem exists_mapM_back {α β γ ε : Type} {write : α → Except ε β} (read : β → Except ε γ)
    (related : γ → α → Prop) {items : List α} {texts : List β}
    (written : items.mapM write = .ok texts)
    (back : ∀ item ∈ items, ∀ text, write item = .ok text →
      ∃ result, read text = .ok result ∧ related result item) :
    ∃ results, texts.mapM read = .ok results ∧ List.Forall₂ related results items := by
  have pairs := mapM_eq_ok.mp written
  clear written
  induction pairs with
  | nil => exact ⟨[], rfl, .nil⟩
  | @cons item text rest _ head _ ih =>
    obtain ⟨result, reads, pair⟩ := back item List.mem_cons_self text head
    obtain ⟨results, others, tail⟩ :=
      ih fun item member => back item (List.mem_cons_of_mem _ member)
    refine ⟨result :: results, ?_, .cons pair tail⟩
    rw [List.mapM_cons, reads, others]
    rfl

end Related
