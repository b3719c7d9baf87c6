import Mathlib.Data.List.Infix

/-!
# Programs that may stop after any operation

A program reads a state and performs operations on it. An operation takes effect as a whole, so a
program that is interrupted has performed a first part of its operations. What holds before every
operation of a program and at its end holds wherever it stops.
-/
namespace Journal

/-- The effect of operations on a state. -/
class Operates (σ ω : Type) where
  /-- The state after an operation. -/
  apply : ω → σ → σ

export Operates (apply)

/-- A program: from a state, the operations it performs and its result. -/
structure Program (σ ω ε α : Type) where
  /-- The operations and the result. -/
  run : σ → List ω × Except ε α

variable {σ ω ε α β : Type} [Operates σ ω]

/-- The state after some operations. -/
def replay (operations : List ω) (state : σ) : σ :=
  operations.foldl (fun state operation => apply operation state) state

@[simp]
theorem replay_nil (state : σ) : replay ([] : List ω) state = state := rfl

@[simp]
theorem replay_cons (operation : ω) (operations : List ω) (state : σ) :
    replay (operation :: operations) state = replay operations (apply operation state) := rfl

/-- Operations take effect one after the other. -/
theorem replay_append (first second : List ω) (state : σ) :
    replay (first ++ second) state = replay second (replay first state) :=
  List.foldl_append ..

namespace Program

/-- A program that continues with the result of another one, unless that one fails. -/
def andThen (first : Program σ ω ε α) (next : α → Program σ ω ε β) : Program σ ω ε β where
  run state :=
    match (first.run state).2 with
    | .error cause => ((first.run state).1, .error cause)
    | .ok value =>
      ((first.run state).1 ++ ((next value).run (replay (first.run state).1 state)).1,
        ((next value).run (replay (first.run state).1 state)).2)

/-- A program that continues with the failure of another one. -/
def orElse (first : Program σ ω ε α) (next : ε → Program σ ω ε α) : Program σ ω ε α where
  run state :=
    match (first.run state).2 with
    | .ok value => ((first.run state).1, .ok value)
    | .error cause =>
      ((first.run state).1 ++ ((next cause).run (replay (first.run state).1 state)).1,
        ((next cause).run (replay (first.run state).1 state)).2)

instance : Monad (Program σ ω ε) where
  pure value := ⟨fun _ => ([], .ok value)⟩
  bind := andThen

instance : MonadExceptOf ε (Program σ ω ε) where
  throw cause := ⟨fun _ => ([], .error cause)⟩
  tryCatch := orElse

/-- A check performs no operation. -/
instance : MonadLift (Except ε) (Program σ ω ε) where
  monadLift result := ⟨fun _ => ([], result)⟩

/-- Perform an operation. -/
def perform (operation : ω) : Program σ ω ε Unit := ⟨fun _ => ([operation], .ok ())⟩

/-- Read the state. -/
def look : Program σ ω ε σ := ⟨fun state => ([], .ok state)⟩

@[simp]
theorem run_pure (value : α) (state : σ) :
    (pure value : Program σ ω ε α).run state = ([], .ok value) := rfl

@[simp]
theorem run_throw (cause : ε) (state : σ) :
    (throw cause : Program σ ω ε α).run state = ([], .error cause) := rfl

omit [Operates σ ω] in
@[simp]
theorem run_lift (result : Except ε α) (state : σ) :
    (liftM result : Program σ ω ε α).run state = ([], result) := rfl

omit [Operates σ ω] in
@[simp]
theorem run_perform (operation : ω) (state : σ) :
    (perform operation : Program σ ω ε Unit).run state = ([operation], .ok ()) := rfl

omit [Operates σ ω] in
@[simp]
theorem run_look (state : σ) :
    (look : Program σ ω ε σ).run state = ([], .ok state) := rfl

/-- The operations of a program that succeeds come before those of its continuation. -/
theorem run_bind_ok {first : Program σ ω ε α} {next : α → Program σ ω ε β} {state : σ}
    {operations : List ω} {value : α} (ran : first.run state = (operations, .ok value)) :
    (first >>= next).run state =
      (operations ++ ((next value).run (replay operations state)).1,
        ((next value).run (replay operations state)).2) := by
  change (andThen first next).run state = _
  simp only [andThen, ran]

/-- A program that fails is not continued. -/
theorem run_bind_error {first : Program σ ω ε α} {next : α → Program σ ω ε β} {state : σ}
    {operations : List ω} {cause : ε} (ran : first.run state = (operations, .error cause)) :
    (first >>= next).run state = (operations, .error cause) := by
  change (andThen first next).run state = _
  simp only [andThen, ran]

/-- A program that succeeds is not caught. -/
theorem run_tryCatch_ok {first : Program σ ω ε α} {next : ε → Program σ ω ε α} {state : σ}
    {operations : List ω} {value : α} (ran : first.run state = (operations, .ok value)) :
    (tryCatch first next).run state = (operations, .ok value) := by
  change (orElse first next).run state = _
  simp only [orElse, ran]

/-- The operations of a program that fails come before those of its handler. -/
theorem run_tryCatch_error {first : Program σ ω ε α} {next : ε → Program σ ω ε α} {state : σ}
    {operations : List ω} {cause : ε} (ran : first.run state = (operations, .error cause)) :
    (tryCatch first next).run state =
      (operations ++ ((next cause).run (replay operations state)).1,
        ((next cause).run (replay operations state)).2) := by
  change (orElse first next).run state = _
  simp only [orElse, ran]

/-- A program that fails is cleaned up after, and fails with its cause. -/
theorem run_tryCatch_rethrow {first : Program σ ω ε α} {state : σ} {operations : List ω} {cause : ε}
    (operation : ω) (ran : first.run state = (operations, .error cause)) :
    (tryCatch first (fun cause => do
        perform operation
        throw cause)).run state = (operations ++ [operation], .error cause) := by
  rw [run_tryCatch_error ran]
  rfl

/-- Reading the state is no operation. -/
theorem run_look_bind (next : σ → Program σ ω ε β) (state : σ) :
    (look >>= next).run state = (next state).run state := rfl

/-- An operation takes effect before the continuation. -/
theorem run_perform_bind (operation : ω) (next : Unit → Program σ ω ε β) (state : σ) :
    (perform operation >>= next).run state =
      (operation :: ((next ()).run (apply operation state)).1,
        ((next ()).run (apply operation state)).2) := rfl

/-- A check that passes performs nothing. -/
theorem run_lift_bind_ok {result : Except ε α} {value : α} (next : α → Program σ ω ε β) (state : σ)
    (passed : result = .ok value) :
    ((liftM result : Program σ ω ε α) >>= next).run state = (next value).run state := by
  subst passed
  rfl

/-- A check that fails ends the program without an operation. -/
theorem run_lift_bind_error {result : Except ε α} {cause : ε} (next : α → Program σ ω ε β)
    (state : σ) (failed : result = .error cause) :
    ((liftM result : Program σ ω ε α) >>= next).run state = ([], .error cause) := by
  subst failed
  rfl

end Program

/-- An invariant holds before each of some operations and after the last one, and every operation is
allowed where it is performed. -/
def Guarded (invariant : σ → Prop) (allowed : σ → ω → Prop) : List ω → σ → Prop
  | [], state => invariant state
  | operation :: operations, state =>
    invariant state ∧ allowed state operation ∧
      Guarded invariant allowed operations (apply operation state)

namespace Guarded

variable {invariant : σ → Prop} {allowed : σ → ω → Prop} {operations : List ω} {state : σ}

/-- The invariant holds at the start. -/
theorem initial (guarded : Guarded invariant allowed operations state) : invariant state := by
  cases operations with
  | nil => exact guarded
  | cons => exact guarded.1

/-- The invariant holds wherever the operations stop. -/
theorem stop (guarded : Guarded invariant allowed operations state) {performed : List ω}
    (first : performed <+: operations) : invariant (replay performed state) := by
  induction performed generalizing operations state with
  | nil => exact guarded.initial
  | cons operation performed ih =>
    obtain ⟨rest, rfl⟩ := first
    exact ih guarded.2.2 (List.prefix_append ..)

/-- Every operation is allowed where it is performed. -/
theorem allowedAt (guarded : Guarded invariant allowed operations state) {performed : List ω}
    {operation : ω} (next : performed ++ [operation] <+: operations) :
    allowed (replay performed state) operation := by
  induction performed generalizing operations state with
  | nil =>
    obtain ⟨rest, rfl⟩ := next
    exact guarded.2.1
  | cons before performed ih =>
    obtain ⟨rest, rfl⟩ := next
    exact ih guarded.2.2 (List.prefix_append ..)

/-- Every operation is allowed somewhere. -/
theorem of_mem (guarded : Guarded invariant allowed operations state) {operation : ω}
    (member : operation ∈ operations) : ∃ state, allowed state operation := by
  induction operations generalizing state with
  | nil => cases member
  | cons first operations ih =>
    rcases List.mem_cons.mp member with rfl | member
    · exact ⟨state, guarded.2.1⟩
    · exact ih guarded.2.2 member

/-- A weaker invariant holds as well, and a weaker allowance. -/
theorem imp {weaker : σ → Prop} {granted : σ → ω → Prop}
    (guarded : Guarded invariant allowed operations state)
    (holds : ∀ state, invariant state → weaker state)
    (grants : ∀ state operation, allowed state operation → granted state operation) :
    Guarded weaker granted operations state := by
  induction operations generalizing state with
  | nil => exact holds state guarded
  | cons operation operations ih =>
    exact ⟨holds state guarded.1, grants state operation guarded.2.1, ih guarded.2.2⟩

/-- Operations are guarded one part after the other. -/
theorem append {later : List ω} (guarded : Guarded invariant allowed operations state)
    (next : Guarded invariant allowed later (replay operations state)) :
    Guarded invariant allowed (operations ++ later) state := by
  induction operations generalizing state with
  | nil => exact next
  | cons operation operations ih => exact ⟨guarded.1, guarded.2.1, ih guarded.2.2 next⟩

end Guarded

omit [Operates σ ω] in
/-- Operations that stop with one of a kind have gone past a part without that kind. -/
theorem exists_of_prefix_append {performed first later : List ω} {kind : ω → Prop}
    (stopped : performed <+: first ++ later) (without : ∀ operation ∈ first, ¬ kind operation)
    (reached : ∃ operation ∈ performed, kind operation) :
    ∃ more, performed = first ++ more ∧ more <+: later ∧ ∃ operation ∈ more, kind operation := by
  obtain ⟨operation, member, isKind⟩ := reached
  rcases List.prefix_or_prefix_of_prefix stopped (List.prefix_append ..) with early | late
  · exact absurd isKind (without operation (early.subset member))
  · obtain ⟨more, rfl⟩ := late
    refine ⟨more, rfl, (List.prefix_append_right_inj first).mp stopped, operation, ?_, isKind⟩
    exact (List.mem_append.mp member).resolve_left fun inside => without operation inside isKind

end Journal
