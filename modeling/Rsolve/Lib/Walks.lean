import Mathlib.Data.List.Basic
import Mathlib.Data.List.Induction
import Mathlib.Data.List.Infix

/-!
# Walks through a tree of names

A walk starts somewhere in a tree and makes steps: it stays, goes down to a name, or goes up. Going
up takes back the last step down that was not taken back yet, and above the start it only counts.
Where a walk has not gone above its start, the first name of its end is that step down which nothing
after it takes back, and before which everything is taken back.
-/
namespace Walks

universe u

/-- What a step does. -/
inductive Move
  | stay
  | up
  | down
deriving DecidableEq, Repr

variable {α : Type u} (move : α → Move)

/-- Where a walk has come to: so far above its start, and then down some names, the last one first. -/
@[ext]
structure Position (α : Type u) where
  above : Nat
  names : List α
deriving DecidableEq, Repr

/-- The start. -/
def Position.start : Position α := ⟨0, []⟩

/-- One step. -/
def Position.step (position : Position α) (item : α) : Position α :=
  match move item, position.names with
  | .stay, _ => position
  | .down, names => ⟨position.above, item :: names⟩
  | .up, [] => ⟨position.above + 1, []⟩
  | .up, _ :: names => ⟨position.above, names⟩

/-- A walk. -/
def walk (position : Position α) (items : List α) : Position α :=
  items.foldl (Position.step move) position

/-- The steps up. -/
def ups (items : List α) : Nat := items.countP fun item => move item = .up

/-- The steps down. -/
def downs (items : List α) : Nat := items.countP fun item => move item = .down

/-- A walk does not go above its start: no beginning of it has more steps up than down. -/
def Within (items : List α) : Prop :=
  ∀ front ∈ items.inits, ups move front ≤ downs move front

/-- A walk ends where it starts without going above: each step down is taken back. -/
def Returns (items : List α) : Prop :=
  Within move items ∧ ups move items = downs move items

/-- A step down that nothing after it takes back, and before which everything is taken back. -/
def Foremost (items : List α) (item : α) : Prop :=
  ∃ before after, items = before ++ item :: after ∧ move item = .down ∧ Returns move before ∧
    Within move after

instance (items : List α) : Decidable (Within move items) :=
  inferInstanceAs (Decidable (∀ front ∈ items.inits, _))

instance (items : List α) : Decidable (Returns move items) :=
  inferInstanceAs (Decidable (_ ∧ _))

variable {move}

@[simp]
theorem walk_nil (position : Position α) : walk move position [] = position := rfl

@[simp]
theorem walk_cons (position : Position α) (item : α) (items : List α) :
    walk move position (item :: items) = walk move (position.step move item) items := rfl

/-- A walk in two parts. -/
theorem walk_append (position : Position α) (front back : List α) :
    walk move position (front ++ back) = walk move (walk move position front) back :=
  List.foldl_append ..

/-- A step that stays. -/
theorem step_stay {position : Position α} {item : α} (stays : move item = .stay) :
    position.step move item = position := by
  simp only [Position.step, stays]

/-- A step down. -/
theorem step_down {position : Position α} {item : α} (down : move item = .down) :
    position.step move item = ⟨position.above, item :: position.names⟩ := by
  simp only [Position.step, down]

/-- A step up takes back the last step down. -/
theorem step_up_cons {above : Nat} {item name : α} {names : List α} (up : move item = .up) :
    Position.step move ⟨above, name :: names⟩ item = ⟨above, names⟩ := by
  simp only [Position.step, up]

/-- A step up from where nothing is to be taken back. -/
theorem step_up_nil {above : Nat} {item : α} (up : move item = .up) :
    Position.step move ⟨above, []⟩ item = ⟨above + 1, []⟩ := by
  simp only [Position.step, up]

/-- A walk never comes back from above its start. -/
theorem above_le_walk (position : Position α) (items : List α) :
    position.above ≤ (walk move position items).above := by
  induction items generalizing position with
  | nil => exact Nat.le_refl _
  | cons item items ih =>
    refine Nat.le_trans ?_ (ih _)
    obtain ⟨above, names⟩ := position
    cases moves : move item with
    | stay => rw [step_stay moves]
    | down => rw [step_down moves]
    | up =>
      cases names with
      | nil =>
        rw [step_up_nil moves]
        exact Nat.le_succ above
      | cons name names => rw [step_up_cons moves]

@[simp]
theorem ups_append (front back : List α) :
    ups move (front ++ back) = ups move front + ups move back :=
  List.countP_append

@[simp]
theorem downs_append (front back : List α) :
    downs move (front ++ back) = downs move front + downs move back :=
  List.countP_append

/-- What one step counts. -/
theorem counts_singleton (item : α) :
    ups move [item] = (if move item = .up then 1 else 0) ∧
      downs move [item] = (if move item = .down then 1 else 0) := by
  simp only [ups, downs, List.countP_singleton, decide_eq_true_eq, and_self]

/-- The empty walk stays within. -/
theorem within_nil : Within move [] := by
  intro front member
  rw [List.prefix_nil.mp ((List.mem_inits _ _).mp member)]
  exact Nat.le_refl _

/-- A walk with one step more stays within when it did before and the counts allow the step. -/
theorem within_concat {items : List α} {item : α} : Within move (items ++ [item]) ↔
    Within move items ∧ ups move (items ++ [item]) ≤ downs move (items ++ [item]) := by
  simp only [Within, List.mem_inits, List.prefix_concat_iff]
  constructor
  · exact fun inside => ⟨fun front begins => inside front (.inr begins), inside _ (.inl rfl)⟩
  · rintro ⟨inside, last⟩ front (rfl | begins)
    · exact last
    · exact inside front begins

/-- A walk is above its start exactly when it has gone there, and otherwise as far down as it made more
steps down than up. -/
theorem walk_start (items : List α) :
    ((walk move .start items).above = 0 ↔ Within move items) ∧
      ((walk move .start items).above = 0 →
        (walk move .start items).names.length + ups move items = downs move items) := by
  induction items using List.reverseRecOn with
  | nil => exact ⟨⟨fun _ => within_nil, fun _ => rfl⟩, fun _ => rfl⟩
  | append_singleton items item ih =>
    obtain ⟨inside, length⟩ := ih
    obtain ⟨up, down⟩ := @counts_singleton _ move item
    rw [walk_append, walk_cons, walk_nil, within_concat, ups_append, downs_append, up, down]
    cases moves : move item with
    | stay =>
      rw [step_stay moves, inside]
      simp only [reduceCtorEq, if_false, Nat.add_zero]
      rw [inside] at length
      exact ⟨⟨fun within => ⟨within, by have := length within; omega⟩, And.left⟩, length⟩
    | down =>
      rw [step_down moves, inside]
      simp only [reduceCtorEq, if_false, if_true, Nat.add_zero, List.length_cons]
      rw [inside] at length
      refine ⟨⟨fun within => ⟨within, ?_⟩, And.left⟩, fun within => ?_⟩
      all_goals
        have counted := length within
        omega
    | up =>
      cases reached : walk move .start items with
      | mk above names =>
        rw [reached] at inside length
        simp only [if_true, reduceCtorEq, if_false, Nat.add_zero] at inside length ⊢
        rw [← inside]
        cases names with
        | nil =>
          rw [step_up_nil moves]
          simp only [List.length_nil, Nat.zero_add] at length
          refine ⟨⟨fun zero => absurd zero (Nat.succ_ne_zero _), fun both => ?_⟩,
            fun zero => absurd zero (Nat.succ_ne_zero _)⟩
          have counted := length both.1
          omega
        | cons name names =>
          rw [step_up_cons moves]
          simp only [List.length_cons] at length
          refine ⟨⟨fun zero => ⟨zero, ?_⟩, And.left⟩, fun zero => ?_⟩
          · have counted := length zero
            omega
          · have counted := length zero
            change names.length + (ups move items + 1) = downs move items
            omega

/-- A walk that stays within leads from everywhere to where it leads from the start. -/
theorem walk_within {items : List α} (inside : Within move items) (position : Position α) :
    walk move position items =
      ⟨position.above, (walk move .start items).names ++ position.names⟩ := by
  induction items using List.reverseRecOn with
  | nil => rfl
  | append_singleton items item ih =>
    obtain ⟨before, counts⟩ := within_concat.mp inside
    have length := (walk_start items).2 ((walk_start items).1.mpr before)
    rw [walk_append, walk_append, ih before, walk_cons, walk_nil, walk_cons, walk_nil]
    have above := (walk_start items).1.mpr before
    cases reached : walk move .start items with
    | mk start names =>
      rw [reached] at length above
      cases moves : move item with
      | stay => rw [step_stay moves, step_stay moves]
      | down => rw [step_down moves, step_down moves, List.cons_append]
      | up =>
        obtain ⟨up, down⟩ := @counts_singleton _ move item
        rw [ups_append, downs_append, up, down] at counts
        simp only [moves, if_true, reduceCtorEq, if_false] at counts
        cases names with
        | nil =>
          simp only [List.length_nil] at length
          omega
        | cons name names => rw [step_up_cons moves, List.cons_append, step_up_cons moves]

/-- A walk that returns leads back to the start. -/
theorem walk_returns {items : List α} (returns : Returns move items) :
    walk move .start items = .start := by
  have above := (walk_start items).1.mpr returns.1
  have length := (walk_start items).2 above
  have counts := returns.2
  exact Position.ext above (List.length_eq_zero_iff.mp (by omega))

/-- A walk that leads back to the start returns. -/
theorem returns_of_walk {items : List α} (back : walk move .start items = .start) :
    Returns move items := by
  have length := (walk_start items).2 (by rw [back]; rfl)
  rw [back] at length
  exact ⟨(walk_start items).1.mp (by rw [back]; rfl), by simpa [Position.start] using length⟩

/-- A foremost step down stays foremost after a step that leaves some name. -/
theorem Foremost.concat {items : List α} {item next : α} (foremost : Foremost move items item)
    (left : (walk move .start (items ++ [next])).names ≠ []) :
    Foremost move (items ++ [next]) item := by
  obtain ⟨before, after, rfl, down, returns, inside⟩ := foremost
  refine ⟨before, after ++ [next], by rw [List.append_assoc, List.cons_append], down, returns,
    within_concat.mpr ⟨inside, ?_⟩⟩
  have reached : walk move .start (before ++ item :: after) =
      ⟨0, (walk move .start after).names ++ [item]⟩ := by
    rw [walk_append, walk_returns returns, walk_cons, step_down down, walk_within inside]
    rfl
  have length := (walk_start after).2 ((walk_start after).1.mpr inside)
  obtain ⟨up, down⟩ := @counts_singleton _ move next
  rw [walk_append, reached, walk_cons, walk_nil] at left
  rw [ups_append, downs_append, up, down]
  cases moves : move next with
  | stay =>
    simp only [reduceCtorEq, if_false]
    omega
  | down =>
    simp only [reduceCtorEq, if_false, if_true]
    omega
  | up =>
    simp only [reduceCtorEq, if_false, if_true]
    cases names : (walk move .start after).names with
    | nil =>
      rw [names, List.nil_append, step_up_cons moves] at left
      exact absurd rfl left
    | cons name rest =>
      rw [names, List.length_cons] at length
      omega

/-- The first name of the end of a walk that has not gone above its start is its foremost step down. -/
theorem foremost_iff {items : List α} {item : α} :
    Foremost move items item ↔
      (walk move .start items).above = 0 ∧ (walk move .start items).names.getLast? = some item := by
  constructor
  · rintro ⟨before, after, rfl, down, returns, inside⟩
    rw [walk_append, walk_returns returns, walk_cons, step_down down, walk_within inside]
    exact ⟨rfl, List.getLast?_concat⟩
  · rintro ⟨above, last⟩
    induction items using List.reverseRecOn with
    | nil => cases last
    | append_singleton items next ih =>
      have start := (walk_start items).1.mpr (within_concat.mp ((walk_start _).1.mp above)).1
      have left : (walk move .start (items ++ [next])).names ≠ [] := by
        intro nothing
        rw [nothing] at last
        cases last
      suffices same : (walk move .start items).names.getLast? = some item ∨
          (walk move .start items = .start ∧ move next = .down ∧ next = item) by
        rcases same with same | ⟨back, down, rfl⟩
        · exact (ih start same).concat left
        · exact ⟨items, [], rfl, down, returns_of_walk back, within_nil⟩
      rw [walk_append, walk_cons, walk_nil] at last left
      cases reached : walk move .start items with
      | mk above names =>
        rw [reached] at last left start
        cases moves : move next with
        | stay =>
          rw [step_stay moves] at last
          exact .inl last
        | down =>
          rw [step_down moves] at last
          cases names with
          | nil => exact .inr ⟨Position.ext start rfl, rfl, Option.some.inj last⟩
          | cons name names => exact .inl last
        | up =>
          cases names with
          | nil =>
            rw [step_up_nil moves] at left
            exact absurd rfl left
          | cons name names =>
            rw [step_up_cons moves] at last left
            cases names with
            | nil => exact absurd rfl left
            | cons second names => exact .inl last

/-- The names at the end of a walk are names from before and steps down of the walk. -/
theorem mem_names_walk {items : List α} {position : Position α} {name : α}
    (member : name ∈ (walk move position items).names) :
    name ∈ position.names ∨ name ∈ items ∧ move name = .down := by
  induction items generalizing position with
  | nil => exact .inl member
  | cons item items ih =>
    rcases ih member with there | ⟨inside, down⟩
    · obtain ⟨above, names⟩ := position
      cases moves : move item with
      | stay =>
        rw [step_stay moves] at there
        exact .inl there
      | down =>
        rw [step_down moves] at there
        rcases List.mem_cons.mp there with rfl | there
        · exact .inr ⟨List.mem_cons_self, moves⟩
        · exact .inl there
      | up =>
        cases names with
        | nil =>
          rw [step_up_nil moves] at there
          cases there
        | cons first names =>
          rw [step_up_cons moves] at there
          exact .inl (List.mem_cons_of_mem _ there)
    · exact .inr ⟨List.mem_cons_of_mem _ inside, down⟩

/-- Steps down only. -/
theorem walk_downs {items : List α} (downs : ∀ item ∈ items, move item = .down)
    (position : Position α) :
    walk move position items = ⟨position.above, items.reverse ++ position.names⟩ := by
  induction items generalizing position with
  | nil => rfl
  | cons item items ih =>
    rw [walk_cons, step_down (downs item List.mem_cons_self),
      ih fun other member => downs other (List.mem_cons_of_mem _ member), List.reverse_cons,
      List.append_assoc, List.singleton_append]

/-- Steps up from where there is nothing to take back. -/
theorem walk_ups {items : List α} (ups : ∀ item ∈ items, move item = .up) (above : Nat) :
    walk move ⟨above, []⟩ items = ⟨above + items.length, []⟩ := by
  induction items generalizing above with
  | nil => rfl
  | cons item items ih =>
    rw [walk_cons, step_up_nil (ups item List.mem_cons_self),
      ih fun other member => ups other (List.mem_cons_of_mem _ member), List.length_cons]
    congr 1
    omega

end Walks
