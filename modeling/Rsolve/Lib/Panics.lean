import Mathlib.Data.List.Induction
import Rsolve.Lib.Checked

/-!
# Computations that may panic

A guarded computation returns a value or an error, or stops the program. A partial operation, such
as a slice, stops the program outside of its domain; a checked computation never does.
-/
namespace Panics

universe u

variable {ε α β : Type u}

/-- A computation that returns a value or an error, or stops the program. -/
abbrev Guarded (ε α : Type u) : Type u := ExceptT ε Option α

/-- A checked computation stops nothing. -/
def attempt (result : Except ε α) : Guarded ε α :=
  ExceptT.mk (some result)

/-- A partial operation stops the program where it has no result. -/
def demand (result : Option α) : Guarded ε α :=
  ExceptT.lift result

/-- A computation returns a value. -/
def Returns (computation : Guarded ε α) (value : α) : Prop :=
  computation.run = some (.ok value)

/-- A computation does not stop the program. -/
def Safe (computation : Guarded ε α) : Prop :=
  computation.run ≠ none

/-- A computation returns one value. -/
theorem Returns.unique {computation : Guarded ε α} {left right : α}
    (first : Returns computation left) (second : Returns computation right) : left = right :=
  Except.ok.inj (Option.some.inj (first.symm.trans second))

/-- Returning a value. -/
@[simp]
theorem returns_pure {value result : α} :
    Returns (pure value : Guarded ε α) result ↔ value = result := by
  simp [Returns]

/-- A checked computation returns what it succeeds with. -/
@[simp]
theorem returns_attempt {result : Except ε α} {value : α} :
    Returns (attempt result) value ↔ result = .ok value := by
  simp [Returns, attempt]

/-- A partial operation returns its result. -/
@[simp]
theorem returns_demand {result : Option α} {value : α} :
    Returns (demand result : Guarded ε α) value ↔ result = some value := by
  simp [Returns, demand]

/-- A checked computation runs to its outcome. -/
@[simp]
theorem run_attempt (result : Except ε α) : (attempt result).run = some result :=
  rfl

/-- A sequence returns what its second step does on the value of its first. -/
theorem returns_bind {first : Guarded ε α} {next : α → Guarded ε β} {result : β} :
    Returns (first >>= next) result ↔
      ∃ value, Returns first value ∧ Returns (next value) result := by
  unfold Returns
  rw [ExceptT.run_bind]
  cases first.run with
  | none => simp
  | some outcome => cases outcome <;> simp

/-- Returning a value stops nothing. -/
theorem safe_pure (value : α) : Safe (pure value : Guarded ε α) := by
  simp [Safe]

/-- A checked computation stops nothing. -/
theorem safe_attempt (result : Except ε α) : Safe (attempt result) := by
  simp [Safe, attempt]

/-- A sequence of checked computations is a checked computation. -/
theorem attempt_bind {first : Except ε α} {next : α → Except ε β} :
    attempt (first >>= next) = attempt first >>= fun value => attempt (next value) := by
  cases first <;> rfl

/-- A partial operation with a result returns it. -/
theorem demand_of {result : Option α} {value : α} (defined : result = some value) :
    (demand result : Guarded ε α) = pure value := by
  rw [defined]
  rfl

/-- A partial operation in its domain stops nothing. -/
theorem safe_demand {result : Option α} {value : α} (defined : result = some value) :
    Safe (demand result : Guarded ε α) := by
  simp [Safe, demand, defined]

/-- A sequence stops nothing when its first step does not and its second does not on the value of
the first. -/
theorem safe_bind {first : Guarded ε α} {next : α → Guarded ε β} (safe : Safe first)
    (continues : ∀ value, Returns first value → Safe (next value)) : Safe (first >>= next) := by
  unfold Safe at safe ⊢
  rw [ExceptT.run_bind]
  cases outcome : first.run with
  | none => exact absurd outcome safe
  | some result =>
    cases result with
    | error cause => simp
    | ok value => exact continues value outcome

/-- A fold of steps that stop nothing stops nothing. -/
theorem safe_foldlM {step : α → β → Guarded ε α} {items : List β}
    (safe : ∀ state, ∀ item ∈ items, Safe (step state item)) (start : α) :
    Safe (items.foldlM step start) := by
  induction items generalizing start with
  | nil => exact safe_pure start
  | cons item items ih =>
    rw [List.foldlM_cons]
    exact safe_bind (safe start item List.mem_cons_self) fun next _ =>
      ih (fun state other member => safe state other (List.mem_cons_of_mem _ member)) next

/-- A fold whose every step has a result has one. -/
theorem exists_foldlM_eq_some {σ α : Type*} {step : σ → α → Option σ} {items : List α}
    (total : ∀ state item, item ∈ items → ∃ next, step state item = some next) (start : σ) :
    ∃ final, items.foldlM step start = some final := by
  induction items generalizing start with
  | nil => exact ⟨start, rfl⟩
  | cons item items ih =>
    obtain ⟨next, stepped⟩ := total start item List.mem_cons_self
    rw [List.foldlM_cons, stepped]
    exact ih (fun state other member => total state other (List.mem_cons_of_mem _ member)) next

/-- What holds at the start and is kept by each step, with the elements so far, holds at the end. -/
theorem foldlM_some_invariant {σ α : Type*} {step : σ → α → Option σ} {items : List α}
    {start final : σ} (folded : items.foldlM step start = some final)
    {invariant : List α → σ → Prop} (initial : invariant [] start)
    (keeps : ∀ done item state next, item ∈ items → invariant done state →
      step state item = some next → invariant (done ++ [item]) next) : invariant items final := by
  induction items using List.reverseRecOn generalizing final with
  | nil => exact Option.some.inj folded ▸ initial
  | append_singleton items item ih =>
    rw [List.foldlM_append] at folded
    obtain ⟨state, before, folded⟩ := Option.bind_eq_some_iff.mp folded
    rw [List.foldlM_cons] at folded
    obtain ⟨next, stepped, finished⟩ := Option.bind_eq_some_iff.mp folded
    obtain rfl := Option.some.inj finished
    have earlier := ih before fun done other state next member =>
      keeps done other state next (List.mem_append_left _ member)
    exact keeps items item state next (List.mem_append_right _ List.mem_cons_self) earlier stepped

/-- A mapping whose every element has a result has one. -/
theorem exists_mapM_eq_some {α β : Type*} {step : α → Option β} {items : List α}
    (total : ∀ item ∈ items, ∃ result, step item = some result) :
    ∃ results, items.mapM step = some results := by
  induction items with
  | nil => exact ⟨[], rfl⟩
  | cons item items ih =>
    obtain ⟨result, stepped⟩ := total item List.mem_cons_self
    obtain ⟨results, mapped⟩ := ih fun other member => total other (List.mem_cons_of_mem _ member)
    exact ⟨result :: results, by rw [List.mapM_cons, stepped, mapped]; rfl⟩

end Panics
