import Mathlib.Data.List.Forall2

/-!
# Checked computations

A checked computation returns a value or the first error it meets. Conditions enter as `ensure`,
and a successful computation is taken apart into its successful steps.
-/
namespace Checked

universe u v

variable {ε : Type u} {α β : Type v}

/-- Continue only under a condition. -/
def ensure (condition : Prop) [Decidable condition] (cause : ε) : Except ε Unit :=
  if condition then .ok () else .error cause

/-- A condition that holds lets the computation continue. -/
theorem ensure_of {condition : Prop} [Decidable condition] {cause : ε} (holds : condition) :
    ensure condition cause = .ok () :=
  if_pos holds

/-- A condition that fails ends the computation. -/
theorem ensure_of_not {condition : Prop} [Decidable condition] {cause : ε} (fails : ¬ condition) :
    ensure condition cause = .error cause :=
  if_neg fails

/-- The computation continues exactly under the condition. -/
@[simp]
theorem ensure_eq_ok {condition : Prop} [Decidable condition] {cause : ε} {value : Unit} :
    ensure condition cause = .ok value ↔ condition := by
  unfold ensure
  split <;> simp_all

/-- The computation ends exactly when the condition fails, with the given error. -/
@[simp]
theorem ensure_eq_error {condition : Prop} [Decidable condition] {cause found : ε} :
    ensure condition cause = .error found ↔ ¬ condition ∧ cause = found := by
  unfold ensure
  split <;> simp_all

/-- Continuing from a value. -/
@[simp]
theorem ok_bind (value : α) (next : α → Except ε β) : (Except.ok value >>= next) = next value :=
  rfl

/-- A result that tests as a success holds a value. -/
theorem exists_of_isOk {result : Except ε α} (succeeds : result.isOk = true) :
    ∃ value, result = .ok value := by
  cases result with
  | ok value => exact ⟨value, rfl⟩
  | error cause => cases succeeds

/-- Continuing from an error. -/
@[simp]
theorem error_bind (cause : ε) (next : α → Except ε β) :
    ((Except.error cause : Except ε α) >>= next) = .error cause :=
  rfl

/-- A sequence succeeds when its first step does and the rest does on its value. -/
theorem bind_eq_ok {first : Except ε α} {next : α → Except ε β} {result : β} :
    (first >>= next) = .ok result ↔ ∃ value, first = .ok value ∧ next value = .ok result := by
  cases first <;> simp

/-- A sequence fails when its first step does or the rest does on its value. -/
theorem bind_eq_error {first : Except ε α} {next : α → Except ε β} {cause : ε} :
    (first >>= next) = .error cause ↔
      first = .error cause ∨ ∃ value, first = .ok value ∧ next value = .error cause := by
  cases first <;> simp

/-- A computation whose error is renamed succeeds as before. -/
theorem mapError_eq_ok {δ : Type u} {result : Except ε α} {rename : ε → δ} {value : α} :
    result.mapError rename = .ok value ↔ result = .ok value := by
  cases result <;> simp [Except.mapError]

/-- A mapping succeeds exactly when every element does. -/
theorem mapM_eq_ok {step : α → Except ε β} {items : List α} {results : List β} :
    items.mapM step = .ok results ↔
      List.Forall₂ (fun item result => step item = .ok result) items results := by
  induction items generalizing results with
  | nil =>
    simp only [List.mapM_nil, List.forall₂_nil_left_iff]
    exact ⟨fun h => by simpa [pure, Except.pure] using h.symm, fun h => by rw [h]; rfl⟩
  | cons head rest ih =>
    rw [List.mapM_cons, bind_eq_ok]
    constructor
    · rintro ⟨value, stepped, continued⟩
      obtain ⟨values, mapped, finished⟩ := bind_eq_ok.mp continued
      obtain rfl : value :: values = results := by simpa [pure, Except.pure] using finished
      exact List.Forall₂.cons stepped (ih.mp mapped)
    · intro related
      cases related with
      | cons stepped mapped =>
        exact ⟨_, stepped, bind_eq_ok.mpr ⟨_, ih.mpr mapped, rfl⟩⟩

/-- A mapping whose every element succeeds succeeds. -/
theorem exists_mapM_eq_ok {step : α → Except ε β} {items : List α}
    (total : ∀ item ∈ items, ∃ result, step item = .ok result) :
    ∃ results, items.mapM step = .ok results := by
  induction items with
  | nil => exact ⟨[], rfl⟩
  | cons head rest ih =>
    obtain ⟨result, stepped⟩ := total head List.mem_cons_self
    obtain ⟨results, mapped⟩ := ih fun item member => total item (List.mem_cons_of_mem _ member)
    refine ⟨result :: results, ?_⟩
    rw [List.mapM_cons, stepped, ok_bind, mapped]
    rfl

/-- The results of a mapping are the results of its elements. -/
theorem mem_of_mapM_eq_ok {step : α → Except ε β} {items : List α} {results : List β}
    (mapped : items.mapM step = .ok results) {result : β} :
    result ∈ results ↔ ∃ item ∈ items, step item = .ok result := by
  have related := mapM_eq_ok.mp mapped
  clear mapped
  induction related with
  | nil => simp
  | cons stepped _ ih =>
    refine List.mem_cons.trans ((or_congr eq_comm ih).trans ?_)
    simp only [List.mem_cons, exists_eq_or_imp, stepped, Except.ok.injEq]

/-- An element of a list that is mapped has a result. -/
theorem exists_mem_of_mapM_eq_ok {step : α → Except ε β} {items : List α} {results : List β}
    (mapped : items.mapM step = .ok results) {item : α} (member : item ∈ items) :
    ∃ result ∈ results, step item = .ok result := by
  have related := mapM_eq_ok.mp mapped
  clear mapped
  induction related with
  | nil => cases member
  | cons stepped _ ih =>
    rcases List.mem_cons.mp member with rfl | member
    · exact ⟨_, List.mem_cons_self, stepped⟩
    · obtain ⟨result, resultIn, made⟩ := ih member
      exact ⟨result, List.mem_cons_of_mem _ resultIn, made⟩

/-- A traversal for effect succeeds exactly when every element does. -/
theorem forM_eq_ok {step : α → Except ε Unit} {items : List α} {value : Unit} :
    items.forM step = .ok value ↔ ∀ item ∈ items, step item = .ok () := by
  induction items with
  | nil => simp [pure, Except.pure]
  | cons head rest ih =>
    rw [List.forM_eq_forM, List.forM_cons, bind_eq_ok, List.forall_mem_cons, ← List.forM_eq_forM,
      ih]
    constructor
    · rintro ⟨_, stepped, continued⟩
      exact ⟨stepped, continued⟩
    · rintro ⟨stepped, continued⟩
      exact ⟨(), stepped, continued⟩

/-- A traversal for effect that fails fails at one of its elements. -/
theorem exists_of_forM_eq_error {step : α → Except ε Unit} {items : List α} {cause : ε}
    (failed : items.forM step = .error cause) : ∃ item ∈ items, step item = .error cause := by
  induction items with
  | nil => cases failed
  | cons head rest ih =>
    rw [List.forM_eq_forM, List.forM_cons, ← List.forM_eq_forM] at failed
    rcases bind_eq_error.mp failed with stopped | ⟨_, _, continued⟩
    · exact ⟨head, List.mem_cons_self, stopped⟩
    · obtain ⟨item, member, stopped⟩ := ih continued
      exact ⟨item, List.mem_cons_of_mem _ member, stopped⟩

/-- A fold whose every step keeps an invariant keeps it. -/
theorem foldlM_invariant {step : β → α → Except ε β} {invariant : β → Prop} {items : List α}
    {start result : β}
    (keeps : ∀ state item next, item ∈ items → step state item = .ok next → invariant state →
      invariant next)
    (initial : invariant start) (folded : items.foldlM step start = .ok result) :
    invariant result := by
  induction items generalizing start with
  | nil =>
    rw [List.foldlM_nil] at folded
    exact Except.ok.inj folded ▸ initial
  | cons head rest ih =>
    rw [List.foldlM_cons] at folded
    obtain ⟨next, stepped, continued⟩ := bind_eq_ok.mp folded
    exact ih (fun state item after member => keeps state item after (List.mem_cons_of_mem _ member))
      (keeps start head next List.mem_cons_self stepped initial) continued

end Checked
