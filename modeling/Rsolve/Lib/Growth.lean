import Mathlib.Data.List.Forall2
import Mathlib.Order.Monotone.Defs

/-!
# Computations over a growing state

A computation reads and extends a state and returns a value or an error; the state it reached
survives either way. Triples say that a computation keeps an invariant, never takes anything out of
the state, and establishes a postcondition on its value. Postconditions that survive growth compose:
what a step established still holds when the whole computation ends. A second kind of triple says
that a computation does not fail.
-/
namespace Growth

universe u

variable {σ ε : Type u} {α β : Type u}

/-- A computation over a state; the state survives an error. -/
def Attempt (σ ε α : Type u) : Type u := σ → Except ε α × σ

/-- Return a value and leave the state alone. -/
instance : Monad (Attempt σ ε) where
  pure value := fun state => (.ok value, state)
  bind first next := fun state =>
    match first state with
    | (.ok value, reached) => next value reached
    | (.error cause, reached) => (.error cause, reached)

/-- Computations obey the monad laws. -/
instance : LawfulMonad (Attempt σ ε) := by
  refine LawfulMonad.mk' _ ?_ ?_ ?_
  · intro α first
    funext state
    simp only [Functor.map]
    cases outcome : first state with
    | mk result reached => cases result <;> rfl
  · intro α β value next
    rfl
  · intro α β γ first next last
    funext state
    simp only [Bind.bind]
    cases outcome : first state with
    | mk result reached => cases result <;> rfl

/-- A computation that does not touch the state. -/
def Attempt.ofExcept (result : Except ε α) : Attempt σ ε α := fun state => (result, state)

/-- A sequence whose first step returned a value continues with it. -/
theorem Attempt.bind_ok {first : Attempt σ ε α} {next : α → Attempt σ ε β} {state reached : σ}
    {value : α} (returned : first state = (.ok value, reached)) :
    (first >>= next) state = next value reached := by
  simp only [Bind.bind, returned]

/-- Replace an error by a value computed from it. -/
def Attempt.recover (first : Attempt σ ε α) (fallback : ε → α) : Attempt σ ε α := fun state =>
  match first state with
  | (.ok value, reached) => (.ok value, reached)
  | (.error cause, reached) => (.ok (fallback cause), reached)

section Triples

variable [Preorder σ] {inv : σ → Prop}

/-- A computation keeps an invariant, grows the state and establishes a postcondition. -/
def Ensures (inv : σ → Prop) (first : Attempt σ ε α) (post : α → σ → Prop) : Prop :=
  ∀ state, inv state → state ≤ (first state).2 ∧ inv (first state).2 ∧
    ∀ value, (first state).1 = .ok value → post value (first state).2

/-- Returning a value establishes that it is the value. -/
theorem Ensures.pure (value : α) :
    Ensures inv (Pure.pure value : Attempt σ ε α) (fun result _ => result = value) := by
  intro state kept
  refine ⟨le_refl _, kept, fun result returned => ?_⟩
  exact (Except.ok.inj returned).symm

/-- A stateless computation establishes how it succeeded. -/
theorem Ensures.ofExcept (result : Except ε α) :
    Ensures inv (Attempt.ofExcept result : Attempt σ ε α) (fun value _ => result = .ok value) := by
  intro state kept
  exact ⟨le_refl _, kept, fun _ returned => returned⟩

/-- A postcondition may be weakened. -/
theorem Ensures.weaken {first : Attempt σ ε α} {post weaker : α → σ → Prop}
    (ensured : Ensures inv first post)
    (implied : ∀ value state, inv state → post value state → weaker value state) :
    Ensures inv first weaker := by
  intro state kept
  obtain ⟨grown, invariant, established⟩ := ensured state kept
  exact ⟨grown, invariant, fun value returned =>
    implied value _ invariant (established value returned)⟩

/-- In a sequence, a postcondition of the first step that survives growth holds at the end. -/
theorem Ensures.bind {first : Attempt σ ε α} {next : α → Attempt σ ε β} {post : α → σ → Prop}
    {final : α → β → σ → Prop} (stable : ∀ value, Monotone (post value))
    (ensured : Ensures inv first post) (continued : ∀ value, Ensures inv (next value) (final value)) :
    Ensures inv (first >>= next) (fun result state =>
      ∃ value, post value state ∧ final value result state) := by
  intro state kept
  obtain ⟨grown, invariant, established⟩ := ensured state kept
  simp only [Bind.bind]
  cases outcome : first state with
  | mk result reached =>
    rw [outcome] at grown invariant established
    cases result with
    | error cause => exact ⟨grown, invariant, fun _ returned => by simp at returned⟩
    | ok value =>
      obtain ⟨grownAgain, invariantAgain, finished⟩ := continued value reached invariant
      exact ⟨le_trans grown grownAgain, invariantAgain, fun result returned =>
        ⟨value, stable value grownAgain (established value rfl), finished result returned⟩⟩

/-- A recovered computation establishes only what its fallback may establish too. -/
theorem Ensures.recover {first : Attempt σ ε α} {post : α → σ → Prop} (fallback : ε → α)
    (ensured : Ensures inv first post) :
    Ensures inv (first.recover fallback) (fun value state =>
      post value state ∨ ∃ cause, value = fallback cause) := by
  intro state kept
  obtain ⟨grown, invariant, established⟩ := ensured state kept
  simp only [Attempt.recover]
  cases outcome : first state with
  | mk result reached =>
    rw [outcome] at grown invariant established
    cases result with
    | error cause =>
      exact ⟨grown, invariant, fun value returned => Or.inr ⟨cause, (Except.ok.inj returned).symm⟩⟩
    | ok found =>
      refine ⟨grown, invariant, fun value returned => Or.inl ?_⟩
      exact established value returned

/-- A traversal establishes the postcondition of every element. -/
theorem Ensures.mapM {γ : Type u} {step : γ → Attempt σ ε α} {post : γ → α → σ → Prop}
    (stable : ∀ item value, Monotone (post item value))
    (ensured : ∀ item, Ensures inv (step item) (post item)) (items : List γ) :
    Ensures inv (items.mapM step) (fun values state =>
      List.Forall₂ (fun item value => post item value state) items values) := by
  induction items with
  | nil =>
    rw [List.mapM_nil]
    refine (Ensures.pure []).weaken ?_
    rintro _ state - rfl
    exact List.Forall₂.nil
  | cons head rest ih =>
    rw [List.mapM_cons]
    have pointwise : ∀ values : List α, Monotone (fun state =>
        List.Forall₂ (fun item value => post item value state) rest values) := by
      intro values low high grown related
      exact related.imp (fun item value held => stable item value grown held)
    refine (Ensures.bind (stable head) (ensured head) fun value =>
      Ensures.bind pointwise ih fun values => Ensures.pure (value :: values)).weaken ?_
    rintro _ state - ⟨value, held, values, related, rfl⟩
    exact List.Forall₂.cons held related

end Triples

/-! ### Total correctness -/

/-- A computation started under a precondition returns a value and establishes a postcondition. -/
def Succeeds (pre : σ → Prop) (first : Attempt σ ε α) (post : α → σ → Prop) : Prop :=
  ∀ state, pre state → ∃ value reached, first state = (.ok value, reached) ∧ post value reached

/-- Returning a value succeeds and changes nothing. -/
theorem Succeeds.pure {pre : σ → Prop} (value : α) :
    Succeeds pre (Pure.pure value : Attempt σ ε α) (fun result state => result = value ∧ pre state) :=
  fun state held => ⟨value, state, rfl, rfl, held⟩

/-- A postcondition may be weakened. -/
theorem Succeeds.weaken {pre : σ → Prop} {first : Attempt σ ε α} {post weaker : α → σ → Prop}
    (succeeds : Succeeds pre first post)
    (implied : ∀ value state, post value state → weaker value state) :
    Succeeds pre first weaker := by
  intro state held
  obtain ⟨value, reached, returned, established⟩ := succeeds state held
  exact ⟨value, reached, returned, implied value reached established⟩

/-- A sequence succeeds when each step establishes what the next one needs. -/
theorem Succeeds.bind {pre : σ → Prop} {first : Attempt σ ε α} {next : α → Attempt σ ε β}
    {middle : α → σ → Prop} {post : β → σ → Prop} (succeeds : Succeeds pre first middle)
    (continued : ∀ value, Succeeds (middle value) (next value) post) :
    Succeeds pre (first >>= next) post := by
  intro state held
  obtain ⟨value, reached, returned, established⟩ := succeeds state held
  obtain ⟨result, final, finished, ends⟩ := continued value reached established
  exact ⟨result, final, by rw [Attempt.bind_ok returned, finished], ends⟩

/-- A traversal succeeds when every step keeps an invariant and succeeds. -/
theorem Succeeds.mapM {γ : Type u} {inv : σ → Prop} {step : γ → Attempt σ ε α} {items : List γ}
    (succeeds : ∀ item ∈ items, Succeeds inv (step item) (fun _ => inv)) :
    Succeeds inv (items.mapM step) (fun _ => inv) := by
  induction items with
  | nil => exact (Succeeds.pure []).weaken fun _ _ held => held.2
  | cons head rest ih =>
    rw [List.mapM_cons]
    refine Succeeds.bind (succeeds head List.mem_cons_self) fun value => ?_
    refine Succeeds.bind (ih fun item member => succeeds item (List.mem_cons_of_mem _ member))
      fun values => ?_
    exact (Succeeds.pure _).weaken fun _ _ held => held.2

end Growth
