import Rsolve.Lib.Checked

/-!
# Programs whose operations may fail

A program performs operations on a state, one after the other. The environment decides what becomes
of each: it works, it fails without effect, or the program stops before it. A failure ends the
program with an error, except for lookups, whose failure the program takes for an answer; so the
environment decides on these apart from the others. The state in which a program stops is the state
at that point, so what holds of every ending holds at every point.
-/
namespace Faults

universe u

/-- What becomes of an operation. -/
inductive Fate
  | works
  | fails
  | stops
deriving DecidableEq, Repr

/-- What becomes of the operations to come. Where a list ends, operations work. -/
structure Fates where
  /-- The fates of operations whose failure ends the program or loses nothing. -/
  operations : List Fate
  /-- The fates of lookups whose failure is taken for an answer. -/
  lookups : List Fate
deriving DecidableEq, Repr

/-- No lookup fails. -/
def Fates.Calm (fates : Fates) : Prop :=
  Fate.fails ∉ fates.lookups

instance (fates : Fates) : Decidable fates.Calm :=
  inferInstanceAs (Decidable (_ ∉ _))

/-- The fates after one operation. -/
def Fates.operated (fates : Fates) : Fates :=
  { fates with operations := fates.operations.tail }

/-- The fates after one lookup. -/
def Fates.looked (fates : Fates) : Fates :=
  { fates with lookups := fates.lookups.tail }

/-- An operation fails no lookup. -/
theorem Fates.Calm.operated {fates : Fates} (calm : fates.Calm) : fates.operated.Calm := calm

/-- A lookup fails none of the later ones. -/
theorem Fates.Calm.looked {fates : Fates} (calm : fates.Calm) : fates.looked.Calm :=
  fun member => calm (List.mem_of_mem_tail member)

/-- Where no lookup fails, the next one does not. -/
theorem Fates.Calm.next {fates : Fates} (calm : fates.Calm) :
    fates.lookups.headD .works ≠ .fails := by
  intro failing
  cases listed : fates.lookups with
  | nil => rw [listed] at failing; cases failing
  | cons first rest =>
    rw [listed] at failing
    exact calm (listed ▸ failing ▸ List.mem_cons_self)

/-- How a program ends. -/
inductive Ending (ε α : Type u)
  | returned (value : α)
  | raised (cause : ε)
  | stopped
deriving DecidableEq, Repr

variable {σ ε α β γ : Type u}

/-- A program: from a state and the fates to come, its ending, the state there and the fates left. -/
def Faulty (σ ε α : Type u) : Type u := σ → Fates → Ending ε α × σ × Fates

namespace Faulty

/-- Go on with a value, and with nothing else. -/
def andThen (first : Faulty σ ε α) (next : α → Faulty σ ε β) : Faulty σ ε β := fun state fates =>
  match first state fates with
  | (.returned value, reached, later) => next value reached later
  | (.raised cause, reached, later) => (.raised cause, reached, later)
  | (.stopped, reached, later) => (.stopped, reached, later)

instance : Monad (Faulty σ ε) where
  pure value := fun state fates => (.returned value, state, fates)
  bind := andThen

/-- Programs obey the monad laws. -/
instance : LawfulMonad (Faulty σ ε) := by
  refine LawfulMonad.mk' _ ?_ ?_ ?_
  · intro α first
    funext state fates
    change andThen first (fun value state fates => (.returned value, state, fates)) state fates = _
    unfold andThen
    rcases first state fates with ⟨ending, reached, later⟩
    cases ending <;> rfl
  · intro α β value next
    rfl
  · intro α β γ first next last
    funext state fates
    change andThen (andThen first next) last state fates =
      andThen first (fun value => andThen (next value) last) state fates
    unfold andThen
    rcases first state fates with ⟨ending, reached, later⟩
    cases ending <;> rfl

/-- A check performs no operation. -/
def check (result : Except ε α) : Faulty σ ε α := fun state fates =>
  match result with
  | .ok value => (.returned value, state, fates)
  | .error cause => (.raised cause, state, fates)

/-- Perform an operation, which raises an error of its own or a given one when it fails. -/
def operate (broken : ε) (effect : σ → Except ε (α × σ)) : Faulty σ ε α := fun state fates =>
  match fates.operations.headD .works with
  | .works =>
    match effect state with
    | .ok (value, reached) => (.returned value, reached, fates.operated)
    | .error cause => (.raised cause, state, fates.operated)
  | .fails => (.raised broken, state, fates.operated)
  | .stops => (.stopped, state, fates.operated)

/-- Perform an operation and go on with its error when it fails. -/
def trial (broken : ε) (effect : σ → Except ε (α × σ)) : Faulty σ ε (Except ε α) :=
  fun state fates =>
    match fates.operations.headD .works with
    | .works =>
      match effect state with
      | .ok (value, reached) => (.returned (.ok value), reached, fates.operated)
      | .error cause => (.returned (.error cause), state, fates.operated)
    | .fails => (.returned (.error broken), state, fates.operated)
    | .stops => (.stopped, state, fates.operated)

/-- Perform an operation whose failure goes unnoticed. -/
def endeavor (effect : σ → σ) : Faulty σ ε PUnit := fun state fates =>
  match fates.operations.headD .works with
  | .works => (.returned ⟨⟩, effect state, fates.operated)
  | .fails => (.returned ⟨⟩, state, fates.operated)
  | .stops => (.stopped, state, fates.operated)

/-- Ask a question, where a failure counts as a given answer. -/
def ask (default : α) (question : σ → α) : Faulty σ ε α := fun state fates =>
  match fates.operations.headD .works with
  | .works => (.returned (question state), state, fates.operated)
  | .fails => (.returned default, state, fates.operated)
  | .stops => (.stopped, state, fates.operated)

/-- Look something up, where a failure counts as a given answer. -/
def look (default : α) (question : σ → α) : Faulty σ ε α := fun state fates =>
  match fates.lookups.headD .works with
  | .works => (.returned (question state), state, fates.looked)
  | .fails => (.returned default, state, fates.looked)
  | .stops => (.stopped, state, fates.looked)

/-- Clean up after a program that returned or raised an error. -/
def ensuring (program : Faulty σ ε α) (cleanup : Faulty σ ε PUnit) : Faulty σ ε α :=
  fun state fates =>
    match program state fates with
    | (.returned value, reached, later) =>
      (cleanup >>= fun _ => (pure value : Faulty σ ε α)) reached later
    | (.raised cause, reached, later) =>
      (cleanup >>= fun _ => (check (.error cause) : Faulty σ ε α)) reached later
    | (.stopped, reached, later) => (.stopped, reached, later)

/-- Clean up after a program that raised an error. -/
def recovering (program : Faulty σ ε α) (cleanup : Faulty σ ε PUnit) : Faulty σ ε α :=
  fun state fates =>
    match program state fates with
    | (.returned value, reached, later) => (.returned value, reached, later)
    | (.raised cause, reached, later) =>
      (cleanup >>= fun _ => (check (.error cause) : Faulty σ ε α)) reached later
    | (.stopped, reached, later) => (.stopped, reached, later)

/-- Rename the errors of a program. -/
def mapErrors {δ : Type u} (program : Faulty σ ε α) (rename : ε → δ) : Faulty σ δ α :=
  fun state fates =>
    match program state fates with
    | (.returned value, reached, later) => (.returned value, reached, later)
    | (.raised cause, reached, later) => (.raised (rename cause), reached, later)
    | (.stopped, reached, later) => (.stopped, reached, later)

end Faulty

open Faulty

/-! ### What a program does from a state on -/

section Triples

variable {inv pre : σ → Prop} {related : σ → σ → Prop} {post : α → σ → Prop}

/-- An ending in calm fates and in a state that satisfies an invariant and a goal; a value that was
returned meets a postcondition there. -/
def Meets (inv goal : σ → Prop) (post : α → σ → Prop) (outcome : Ending ε α × σ × Fates) : Prop :=
  (outcome.2.2.Calm ∧ inv outcome.2.1 ∧ goal outcome.2.1) ∧
    ∀ value, outcome.1 = .returned value → post value outcome.2.1

/-- Where no lookup fails, a program started in a state that satisfies an invariant and a
precondition ends in a state that satisfies the invariant and is related to the first one, and a
value it returns meets a postcondition there. -/
def Traces (inv pre : σ → Prop) (program : Faulty σ ε α) (related : σ → σ → Prop)
    (post : α → σ → Prop) : Prop :=
  ∀ state fates, fates.Calm → inv state → pre state →
    Meets inv (related state) post (program state fates)

/-- A program that returned meets the postcondition. -/
theorem Meets.returned {goal : σ → Prop} {value : α} {state : σ} {fates : Fates}
    (calm : fates.Calm) (kept : inv state) (reached : goal state) (held : post value state) :
    Meets inv goal post ((.returned value, state, fates) : Ending ε α × σ × Fates) :=
  ⟨⟨calm, kept, reached⟩, fun result returned => by cases returned; exact held⟩

/-- A program that raised an error meets every postcondition. -/
theorem Meets.raised {goal : σ → Prop} {cause : ε} {state : σ} {fates : Fates}
    (calm : fates.Calm) (kept : inv state) (reached : goal state) :
    Meets inv goal post ((.raised cause, state, fates) : Ending ε α × σ × Fates) :=
  ⟨⟨calm, kept, reached⟩, fun result returned => by cases returned⟩

/-- A program that stopped meets every postcondition. -/
theorem Meets.stopped {goal : σ → Prop} {state : σ} {fates : Fates}
    (calm : fates.Calm) (kept : inv state) (reached : goal state) :
    Meets inv goal post ((.stopped, state, fates) : Ending ε α × σ × Fates) :=
  ⟨⟨calm, kept, reached⟩, fun result returned => by cases returned⟩

namespace Traces

/-- A precondition may be strengthened and a postcondition weakened. -/
theorem weaken {program : Faulty σ ε α} {tighter : σ → Prop} {looser : α → σ → Prop}
    (traces : Traces inv pre program related post)
    (start : ∀ state, inv state → tighter state → pre state)
    (finish : ∀ value state, inv state → post value state → looser value state) :
    Traces inv tighter program related looser := by
  intro state fates calm kept held
  obtain ⟨ended, established⟩ := traces state fates calm kept (start state kept held)
  exact ⟨ended, fun value returned => finish value _ ended.2.1 (established value returned)⟩

/-- A fact that does not depend on the state may be taken out of the precondition. -/
theorem assuming {program : Faulty σ ε α} {fact : Prop}
    (traces : fact → Traces inv pre program related post) :
    Traces inv (fun state => fact ∧ pre state) program related post :=
  fun state fates calm kept held => traces held.1 state fates calm kept held.2

/-- A value that the precondition speaks of may be chosen before the program runs. -/
theorem choosing {program : Faulty σ ε α} {choice : γ → σ → Prop}
    (chosen : ∀ state, pre state → ∃ value, choice value state)
    (traces : ∀ value, Traces inv (choice value) program related post) :
    Traces inv pre program related post := by
  intro state fates calm kept held
  obtain ⟨value, known⟩ := chosen state held
  exact traces value state fates calm kept known

/-- A fact may be the whole precondition. -/
theorem assumed {program : Faulty σ ε α} {fact : Prop}
    (traces : fact → Traces inv (fun _ => True) program related post) :
    Traces inv (fun _ => fact) program related post :=
  fun state fates calm kept held => traces held state fates calm kept trivial

/-- Nothing is to be shown where a program cannot start. -/
theorem unreachable {program : Faulty σ ε α} (never : ∀ state, inv state → ¬ pre state) :
    Traces inv pre program related post :=
  fun state _ _ kept held => (never state kept held).elim

/-- The relation may be weakened. -/
theorem relate {program : Faulty σ ε α} {wider : σ → σ → Prop}
    (traces : Traces inv pre program related post)
    (implied : ∀ state reached, inv state → pre state → related state reached →
      wider state reached) : Traces inv pre program wider post := by
  intro state fates calm kept held
  obtain ⟨⟨calmer, invariant, step⟩, established⟩ := traces state fates calm kept held
  exact ⟨⟨calmer, invariant, implied _ _ kept held step⟩, established⟩

/-- What a program does from every state on, it does where an invariant holds that the relation
keeps. -/
theorem under {program : Faulty σ ε α} (traces : Traces (fun _ => True) pre program related post)
    (keeps : ∀ state reached, related state reached → inv state → inv reached) :
    Traces inv pre program related post := by
  intro state fates calm kept held
  obtain ⟨⟨calmer, -, step⟩, established⟩ := traces state fates calm trivial held
  exact ⟨⟨calmer, keeps _ _ step kept, step⟩, established⟩

/-- What the relation keeps may be carried along. -/
theorem carry {program : Faulty σ ε α} {fact : σ → Prop}
    (traces : Traces inv pre program related post)
    (keeps : ∀ state reached, related state reached → fact state → fact reached) :
    Traces inv (fun state => pre state ∧ fact state) program related
      (fun value state => post value state ∧ fact state) := by
  intro state fates calm kept held
  obtain ⟨ended, established⟩ := traces state fates calm kept held.1
  exact ⟨ended, fun value returned => ⟨established value returned, keeps _ _ ended.2.2 held.2⟩⟩

/-- In a sequence, the second step starts where the first one returned. -/
theorem bind_related {program : Faulty σ ε α} {next : α → Faulty σ ε β}
    {middle : α → σ → Prop} {final : β → σ → Prop} {first second whole : σ → σ → Prop}
    (traces : Traces inv pre program first middle)
    (continued : ∀ value, Traces inv (middle value) (next value) second final)
    (composed : ∀ state between reached, first state between → second between reached →
      whole state reached)
    (early : ∀ state reached, first state reached → whole state reached) :
    Traces inv pre (program >>= next) whole final := by
  intro state fates calm kept held
  have sequence : (program >>= next) state fates = andThen program next state fates := rfl
  have met := traces state fates calm kept held
  rw [sequence, andThen]
  generalize program state fates = outcome at met ⊢
  obtain ⟨ending, reached, later⟩ := outcome
  obtain ⟨⟨calmer, invariant, step⟩, established⟩ := met
  cases ending with
  | raised cause => exact .raised calmer invariant (early _ _ step)
  | stopped => exact .stopped calmer invariant (early _ _ step)
  | returned value =>
    obtain ⟨⟨calmest, invariantAgain, stepAgain⟩, finished⟩ :=
      continued value reached later calmer invariant (established value rfl)
    exact ⟨⟨calmest, invariantAgain, composed _ _ _ step stepAgain⟩, finished⟩

/-- Steps of one transitive relation follow each other. -/
theorem bind [IsTrans σ related] {program : Faulty σ ε α} {next : α → Faulty σ ε β}
    {middle : α → σ → Prop} {final : β → σ → Prop}
    (traces : Traces inv pre program related middle)
    (continued : ∀ value, Traces inv (middle value) (next value) related final) :
    Traces inv pre (program >>= next) related final :=
  traces.bind_related continued (fun _ _ _ first second => Trans.trans first second)
    fun _ _ step => step

section Steps

variable [Std.Refl related]

/-- Returning a value changes nothing. -/
theorem pure (value : α) :
    Traces inv pre (Pure.pure value : Faulty σ ε α) related
      (fun result state => result = value ∧ pre state) :=
  fun state _ calm kept held => .returned calm kept (Std.Refl.refl state) ⟨rfl, held⟩

/-- A check changes nothing. -/
theorem check (result : Except ε α) :
    Traces inv pre (Faulty.check result : Faulty σ ε α) related
      (fun value state => result = .ok value ∧ pre state) := by
  intro state fates calm kept held
  unfold Faulty.check
  cases result with
  | ok value => exact .returned calm kept (Std.Refl.refl state) ⟨rfl, held⟩
  | error cause => exact .raised calm kept (Std.Refl.refl state)

/-- An operation has its effect or none. -/
theorem operate {broken : ε} {effect : σ → Except ε (α × σ)}
    (works : ∀ state value reached, inv state → pre state → effect state = .ok (value, reached) →
      inv reached ∧ related state reached ∧ post value reached) :
    Traces inv pre (Faulty.operate broken effect : Faulty σ ε α) related post := by
  intro state fates calm kept held
  unfold Faulty.operate
  cases fates.operations.headD .works with
  | fails => exact .raised calm.operated kept (Std.Refl.refl state)
  | stops => exact .stopped calm.operated kept (Std.Refl.refl state)
  | works =>
    cases outcome : effect state with
    | error cause => exact .raised calm.operated kept (Std.Refl.refl state)
    | ok found =>
      obtain ⟨invariant, step, established⟩ := works state found.1 found.2 kept held outcome
      exact .returned calm.operated invariant step established

/-- A tried operation has its effect or none. -/
theorem trial {broken : ε} {effect : σ → Except ε (α × σ)} {post : Except ε α → σ → Prop}
    (idle : ∀ state cause, inv state → pre state → post (.error cause) state)
    (works : ∀ state value reached, inv state → pre state → effect state = .ok (value, reached) →
      inv reached ∧ related state reached ∧ post (.ok value) reached) :
    Traces inv pre (Faulty.trial broken effect : Faulty σ ε (Except ε α)) related post := by
  intro state fates calm kept held
  unfold Faulty.trial
  cases fates.operations.headD .works with
  | fails => exact .returned calm.operated kept (Std.Refl.refl state) (idle state broken kept held)
  | stops => exact .stopped calm.operated kept (Std.Refl.refl state)
  | works =>
    cases outcome : effect state with
    | error cause =>
      exact .returned calm.operated kept (Std.Refl.refl state) (idle state cause kept held)
    | ok found =>
      obtain ⟨invariant, step, established⟩ := works state found.1 found.2 kept held outcome
      exact .returned calm.operated invariant step established

/-- An unnoticed operation has its effect or none. -/
theorem endeavor {effect : σ → σ} {post : σ → Prop}
    (idle : ∀ state, inv state → pre state → post state)
    (works : ∀ state, inv state → pre state →
      inv (effect state) ∧ related state (effect state) ∧ post (effect state)) :
    Traces inv pre (Faulty.endeavor effect : Faulty σ ε PUnit) related (fun _ => post) := by
  intro state fates calm kept held
  unfold Faulty.endeavor
  cases fates.operations.headD .works with
  | fails => exact .returned calm.operated kept (Std.Refl.refl state) (idle state kept held)
  | stops => exact .stopped calm.operated kept (Std.Refl.refl state)
  | works =>
    obtain ⟨invariant, step, established⟩ := works state kept held
    exact .returned calm.operated invariant step established

/-- A question is answered from the state or with the given answer. -/
theorem asked {default : α} {question : σ → α} :
    Traces inv pre (Faulty.ask default question : Faulty σ ε α) related
      (fun value state => (value = question state ∨ value = default) ∧ pre state) := by
  intro state fates calm kept held
  unfold Faulty.ask
  cases fates.operations.headD .works with
  | stops => exact .stopped calm.operated kept (Std.Refl.refl state)
  | fails => exact .returned calm.operated kept (Std.Refl.refl state) ⟨.inr rfl, held⟩
  | works => exact .returned calm.operated kept (Std.Refl.refl state) ⟨.inl rfl, held⟩

/-- A question changes nothing. -/
theorem ask {default : α} {question : σ → α} :
    Traces inv pre (Faulty.ask default question : Faulty σ ε α) related (fun _ => pre) :=
  asked.weaken (fun _ _ held => held) fun _ _ _ held => held.2

/-- Where no lookup fails, a lookup is answered from the state. -/
theorem look {default : α} {question : σ → α} :
    Traces inv pre (Faulty.look default question : Faulty σ ε α) related
      (fun value state => value = question state ∧ pre state) := by
  intro state fates calm kept held
  have working := calm.next
  unfold Faulty.look
  cases fate : fates.lookups.headD .works with
  | stops => exact .stopped calm.looked kept (Std.Refl.refl state)
  | fails => exact absurd fate working
  | works => exact .returned calm.looked kept (Std.Refl.refl state) ⟨rfl, held⟩

end Steps

/-- Cleaning up adds its own steps. -/
theorem ensuring {program : Faulty σ ε α} {cleanup : Faulty σ ε PUnit} {whole quiet : σ → σ → Prop}
    {final : α → σ → Prop} (traces : Traces inv pre program whole post)
    (cleans : Traces inv (fun _ => True) cleanup quiet (fun _ _ => True))
    (composed : ∀ state between reached, whole state between → quiet between reached →
      whole state reached)
    (keeps : ∀ value state reached, quiet state reached → post value state → final value reached) :
    Traces inv pre (program.ensuring cleanup) whole final := by
  intro state fates calm kept held
  have met := traces state fates calm kept held
  unfold Faulty.ensuring
  generalize program state fates = outcome at met ⊢
  obtain ⟨ending, reached, later⟩ := outcome
  obtain ⟨⟨calmer, invariant, step⟩, established⟩ := met
  have cleaning := cleans reached later calmer invariant trivial
  cases ending with
  | stopped => exact .stopped calmer invariant step
  | returned value =>
    simp only [Bind.bind, andThen]
    generalize cleanup reached later = outcome at cleaning ⊢
    obtain ⟨cleaned, after, last⟩ := outcome
    obtain ⟨⟨calmest, invariantAgain, stepAgain⟩, -⟩ := cleaning
    cases cleaned with
    | returned done =>
      exact .returned calmest invariantAgain (composed _ _ _ step stepAgain)
        (keeps value _ _ stepAgain (established value rfl))
    | raised cause => exact .raised calmest invariantAgain (composed _ _ _ step stepAgain)
    | stopped => exact .stopped calmest invariantAgain (composed _ _ _ step stepAgain)
  | raised cause =>
    simp only [Bind.bind, andThen]
    generalize cleanup reached later = outcome at cleaning ⊢
    obtain ⟨cleaned, after, last⟩ := outcome
    obtain ⟨⟨calmest, invariantAgain, stepAgain⟩, -⟩ := cleaning
    cases cleaned with
    | returned done => exact .raised calmest invariantAgain (composed _ _ _ step stepAgain)
    | raised cause => exact .raised calmest invariantAgain (composed _ _ _ step stepAgain)
    | stopped => exact .stopped calmest invariantAgain (composed _ _ _ step stepAgain)

/-- Cleaning up after an error adds its own steps. -/
theorem recovering [IsTrans σ related] {program : Faulty σ ε α} {cleanup : Faulty σ ε PUnit}
    (traces : Traces inv pre program related post)
    (cleans : Traces inv (fun _ => True) cleanup related (fun _ _ => True)) :
    Traces inv pre (program.recovering cleanup) related post := by
  intro state fates calm kept held
  have met := traces state fates calm kept held
  unfold Faulty.recovering
  generalize program state fates = outcome at met ⊢
  obtain ⟨ending, reached, later⟩ := outcome
  obtain ⟨⟨calmer, invariant, step⟩, established⟩ := met
  cases ending with
  | stopped => exact .stopped calmer invariant step
  | returned value => exact .returned calmer invariant step (established value rfl)
  | raised cause =>
    have cleaning := cleans reached later calmer invariant trivial
    simp only [Bind.bind, andThen]
    generalize cleanup reached later = outcome at cleaning ⊢
    obtain ⟨cleaned, after, last⟩ := outcome
    obtain ⟨⟨calmest, invariantAgain, stepAgain⟩, -⟩ := cleaning
    have whole : related state after := Trans.trans step stepAgain
    cases cleaned with
    | returned done => exact .raised calmest invariantAgain whole
    | raised cause => exact .raised calmest invariantAgain whole
    | stopped => exact .stopped calmest invariantAgain whole

/-- Renaming errors changes nothing else. -/
theorem mapErrors {δ : Type u} {program : Faulty σ ε α} {rename : ε → δ}
    (traces : Traces inv pre program related post) :
    Traces inv pre (program.mapErrors rename) related post := by
  intro state fates calm kept held
  have met := traces state fates calm kept held
  unfold Faulty.mapErrors
  generalize program state fates = outcome at met ⊢
  obtain ⟨ending, reached, later⟩ := outcome
  obtain ⟨⟨calmer, invariant, step⟩, established⟩ := met
  cases ending with
  | returned value => exact .returned calmer invariant step (established value rfl)
  | raised cause => exact .raised calmer invariant step
  | stopped => exact .stopped calmer invariant step

/-- A traversal repeats the steps of its elements. -/
theorem mapM [Std.Refl related] [IsTrans σ related] {step : γ → Faulty σ ε α} {items : List γ}
    {post : γ → α → σ → Prop}
    (keeps : ∀ item value state reached, related state reached → post item value state →
      post item value reached)
    (traces : ∀ item ∈ items, Traces inv pre (step item) related
      (fun value state => post item value state ∧ pre state)) :
    Traces inv pre (items.mapM step) related (fun values state =>
      List.Forall₂ (fun item value => post item value state) items values ∧ pre state) := by
  induction items with
  | nil =>
    rw [List.mapM_nil]
    refine (Traces.pure []).weaken (fun _ _ held => held) ?_
    rintro _ state - ⟨rfl, held⟩
    exact ⟨List.Forall₂.nil, held⟩
  | cons head rest ih =>
    rw [List.mapM_cons]
    refine (traces head List.mem_cons_self).bind fun value => ?_
    have later := ih fun item member => traces item (List.mem_cons_of_mem _ member)
    refine ((later.carry (keeps head value)).weaken
      (fun _ _ held => ⟨held.2, held.1⟩) fun _ _ _ held => held).bind fun values => ?_
    refine (Traces.pure (value :: values)).weaken (fun _ _ held => held) ?_
    rintro _ state - ⟨rfl, ⟨related, held⟩, first⟩
    exact ⟨List.Forall₂.cons first related, held⟩

/-- A traversal for effect repeats the steps of its elements. -/
theorem forM [Std.Refl related] [IsTrans σ related] {step : γ → Faulty σ ε PUnit} {items : List γ}
    (traces : ∀ item ∈ items, Traces inv pre (step item) related (fun _ => pre)) :
    Traces inv pre (items.forM step) related (fun _ => pre) := by
  induction items with
  | nil => exact (Traces.pure PUnit.unit).weaken (fun _ _ held => held) fun _ _ _ held => held.2
  | cons head rest ih =>
    rw [List.forM_eq_forM, List.forM_cons, ← List.forM_eq_forM]
    exact (traces head List.mem_cons_self).bind fun _ =>
      ih fun item member => traces item (List.mem_cons_of_mem _ member)

end Traces

end Triples

/-! ### What a program does when its operations work -/

section Working

variable {state between reached : σ} {lookups left rest : List Fate} {value : α} {result : β}

/-- Where operations work and lookups have given fates, a program returns a value, and it reaches a
state with the fates of the later lookups left. -/
def Works (program : Faulty σ ε α) (state : σ) (lookups : List Fate) (value : α) (reached : σ)
    (left : List Fate) : Prop :=
  program state ⟨[], lookups⟩ = (.returned value, reached, ⟨[], left⟩)

/-- A value is returned at once. -/
theorem Works.pure : Works (Pure.pure value : Faulty σ ε α) state lookups value state lookups := rfl

/-- A check that passes returns its value. -/
theorem Works.check {outcome : Except ε α} (passes : outcome = .ok value) :
    Works (Faulty.check outcome) state lookups value state lookups := by
  rw [passes]
  rfl

/-- An operation that has an effect returns its value. -/
theorem Works.operate {broken : ε} {effect : σ → Except ε (α × σ)}
    (has : effect state = .ok (value, reached)) :
    Works (Faulty.operate broken effect) state lookups value reached lookups := by
  simp only [Works, Faulty.operate, List.headD_nil, has]
  rfl

/-- An operation that is tried and has an effect returns its value. -/
theorem Works.trial {broken : ε} {effect : σ → Except ε (α × σ)}
    (has : effect state = .ok (value, reached)) :
    Works (Faulty.trial broken effect) state lookups (.ok value) reached lookups := by
  simp only [Works, Faulty.trial, List.headD_nil, has]
  rfl

/-- An operation whose failure goes unnoticed has its effect. -/
theorem Works.endeavor {effect : σ → σ} :
    Works (Faulty.endeavor effect : Faulty σ ε PUnit) state lookups ⟨⟩ (effect state) lookups := rfl

/-- A question is answered. -/
theorem Works.ask {default : α} {question : σ → α} :
    Works (Faulty.ask default question : Faulty σ ε α) state lookups (question state) state
      lookups := rfl

/-- A lookup that works finds what it looks for. -/
theorem Works.look {default : α} {question : σ → α} :
    Works (Faulty.look default question : Faulty σ ε α) state [] (question state) state [] := rfl

/-- A lookup that fails finds the given answer. -/
theorem Works.missed {default : α} {question : σ → α} :
    Works (Faulty.look default question : Faulty σ ε α) state (.fails :: left) default state left :=
  rfl

/-- A program goes on with the value it returned. -/
theorem Works.bind {first : Faulty σ ε α} {next : α → Faulty σ ε β}
    (works : Works first state lookups value between left)
    (onward : Works (next value) between left result reached rest) :
    Works (first >>= next) state lookups result reached rest := by
  change andThen first next state ⟨[], lookups⟩ = _
  unfold andThen
  rw [works]
  exact onward

/-- A program takes the branch of a condition that holds. -/
theorem Works.branch {condition : Prop} [Decidable condition] {first second : Faulty σ ε α}
    (holds : condition) (works : Works first state lookups value reached left) :
    Works (if condition then first else second) state lookups value reached left := by
  rw [if_pos holds]
  exact works

/-- A program takes the other branch of a condition that fails. -/
theorem Works.otherwise {condition : Prop} [Decidable condition] {first second : Faulty σ ε α}
    (fails : ¬ condition) (works : Works second state lookups value reached left) :
    Works (if condition then first else second) state lookups value reached left := by
  rw [if_neg fails]
  exact works

/-- A program that returned is cleaned up after. -/
theorem Works.ensuring {program : Faulty σ ε α} {cleanup : Faulty σ ε PUnit}
    (works : Works program state lookups value between left)
    (cleans : Works cleanup between left ⟨⟩ reached rest) :
    Works (Faulty.ensuring program cleanup) state lookups value reached rest := by
  unfold Works Faulty.ensuring
  rw [works]
  exact cleans.bind .pure

/-- A program that returned is not cleaned up after an error. -/
theorem Works.recovering {program : Faulty σ ε α} {cleanup : Faulty σ ε PUnit}
    (works : Works program state lookups value reached left) :
    Works (Faulty.recovering program cleanup) state lookups value reached left := by
  unfold Works Faulty.recovering
  rw [works]

/-- The errors of a program that returned do not matter. -/
theorem Works.mapErrors {δ : Type u} {program : Faulty σ ε α} {rename : ε → δ}
    (works : Works program state lookups value reached left) :
    Works (program.mapErrors rename) state lookups value reached left := by
  unfold Works Faulty.mapErrors
  rw [works]

/-- A traversal for effect has the effects of its elements, one after another. -/
theorem Works.forM {step : γ → Faulty σ ε PUnit} {effect : σ → γ → σ} {items : List γ}
    (works : ∀ item state, Works (step item) state lookups ⟨⟩ (effect state item) lookups) :
    Works (items.forM step) state lookups ⟨⟩ (items.foldl effect state) lookups := by
  induction items generalizing state with
  | nil => exact .pure
  | cons head rest ih =>
    rw [List.forM_eq_forM, List.forM_cons, ← List.forM_eq_forM]
    exact (works head state).bind ih

/-- Where operations work and lookups have given fates, a program raises an error, and it reaches a
state with the fates of the later lookups left. -/
def Raises (program : Faulty σ ε α) (state : σ) (lookups : List Fate) (cause : ε) (reached : σ)
    (left : List Fate) : Prop :=
  program state ⟨[], lookups⟩ = (.raised cause, reached, ⟨[], left⟩)

/-- A check that fails raises its error. -/
theorem Raises.check {outcome : Except ε α} {cause : ε} (fails : outcome = .error cause) :
    Raises (Faulty.check outcome) state lookups cause state lookups := by
  rw [fails]
  rfl

/-- A program that raised an error does not go on. -/
theorem Raises.bind {first : Faulty σ ε α} {next : α → Faulty σ ε β} {cause : ε}
    (raises : Raises first state lookups cause reached left) :
    Raises (first >>= next) state lookups cause reached left := by
  change andThen first next state ⟨[], lookups⟩ = _
  unfold andThen
  rw [raises]

/-- A program may go on to raise an error. -/
theorem Works.bind_raises {first : Faulty σ ε α} {next : α → Faulty σ ε β} {cause : ε}
    (works : Works first state lookups value between left)
    (onward : Raises (next value) between left cause reached rest) :
    Raises (first >>= next) state lookups cause reached rest := by
  change andThen first next state ⟨[], lookups⟩ = _
  unfold andThen
  rw [works]
  exact onward

/-- A program that raised an error is cleaned up after. -/
theorem Raises.ensuring {program : Faulty σ ε α} {cleanup : Faulty σ ε PUnit} {cause : ε}
    (raises : Raises program state lookups cause between left)
    (cleans : Works cleanup between left ⟨⟩ reached rest) :
    Raises (Faulty.ensuring program cleanup) state lookups cause reached rest := by
  unfold Raises Faulty.ensuring
  rw [raises]
  exact cleans.bind_raises (.check rfl)

/-- The errors of a program are renamed. -/
theorem Raises.mapErrors {δ : Type u} {program : Faulty σ ε α} {rename : ε → δ} {cause : ε}
    (raises : Raises program state lookups cause reached left) :
    Raises (program.mapErrors rename) state lookups (rename cause) reached left := by
  unfold Raises Faulty.mapErrors
  rw [raises]

end Working

end Faults
