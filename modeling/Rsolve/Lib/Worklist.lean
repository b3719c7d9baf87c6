import Mathlib.Algebra.Order.BigOperators.Group.List
import Mathlib.Algebra.Order.Group.Nat
import Mathlib.Algebra.Ring.Nat
import Mathlib.Data.Set.Basic
import Rsolve.Lib.Keyed

/-!
# Worklists with two strengths

A worklist pops jobs until none is left. A job is a key and a strength; the work of a job may add
jobs and extends an output. A key is worked on again only when a strong job follows a weak one.
Whatever the order of the jobs, the output is what the jobs reached from the first ones contribute.
-/
open Keyed

namespace Worklist

universe u v w

/-- The jobs that are left, the next one first, and what was put out so far. -/
structure Work (κ : Type u) (ω : Type v) where
  /-- The jobs that are left. -/
  pending : List (κ × Bool)
  /-- The output so far. -/
  output : ω

variable {κ : Type u} {ω : Type v} {ε : Type w} [Representative κ] [DecidableEq κ]

/-- Whether a key was worked on at least as strongly. -/
def settled (visited : KeyedMap κ Bool) (key : κ) (strong : Bool) : Bool :=
  (visited.get? key).any (fun strongest => strongest || !strong)

/-- Work until no job is left; no result means that the fuel ran out. -/
def drain (body : κ → Bool → Work κ ω → Except ε (Work κ ω)) :
    Nat → KeyedMap κ Bool → Work κ ω → Option (Except ε ω)
  | 0, _, _ => none
  | _ + 1, _, ⟨[], output⟩ => some (.ok output)
  | fuel + 1, visited, ⟨(key, strong) :: rest, output⟩ =>
    if settled visited key strong then drain body fuel visited ⟨rest, output⟩
    else
      match body key strong ⟨rest, output⟩ with
      | .error cause => some (.error cause)
      | .ok work => drain body fuel (visited.insert key strong) work

/-- More fuel does not change a result. -/
theorem drain_mono {body : κ → Bool → Work κ ω → Except ε (Work κ ω)} {fuel more : Nat}
    {visited : KeyedMap κ Bool} {work : Work κ ω} {result : Except ε ω}
    (ended : drain body fuel visited work = some result) (enough : fuel ≤ more) :
    drain body more visited work = some result := by
  induction fuel generalizing more visited work with
  | zero => simp [drain] at ended
  | succ fuel ih =>
    obtain ⟨more, rfl⟩ : ∃ less, more = less + 1 := ⟨more - 1, by omega⟩
    have enough : fuel ≤ more := by omega
    obtain ⟨_ | ⟨⟨key, strong⟩, rest⟩, output⟩ := work
    · exact ended
    · simp only [drain] at ended ⊢
      split
      · next skipped =>
        rw [if_pos skipped] at ended
        exact ih ended enough
      · next fresh =>
        rw [if_neg fresh] at ended
        cases worked : body key strong ⟨rest, output⟩ with
        | error cause => rwa [worked] at ended
        | ok next =>
          rw [worked] at ended
          exact ih ended enough

section Closure

variable {α : Type*}

/-- Work that grew by some jobs, put before the others, and by some facts. -/
structure Adds (observe : ω → Set α) (work next : Work κ ω) (jobs : Set (κ × Bool))
    (facts : Set α) : Prop where
  /-- The jobs are put before the others. -/
  pushes : ∃ pushed, next.pending = pushed ++ work.pending ∧ ∀ job, job ∈ pushed ↔ job ∈ jobs
  /-- The facts are put out. -/
  gains : observe next.output = observe work.output ∪ facts

/-- A body that always succeeds: it adds the jobs of its key and what the key gains. A strong job
does all that a weak one does, and a key's class decides both. -/
structure Expands (body : κ → Bool → Work κ ω → Except ε (Work κ ω)) (observe : ω → Set α)
    (jobs : κ → Bool → Set (κ × Bool)) (gain : κ → Bool → Set α) : Prop where
  /-- The work of a job succeeds, and adds its jobs and gains. -/
  works : ∀ key strong work, ∃ next, body key strong work = .ok next ∧
    Adds observe work next (jobs key strong) (gain key strong)
  /-- A strong job pushes what a weak one does. -/
  jobsMono : ∀ key, jobs key false ⊆ jobs key true
  /-- A strong job gains what a weak one does. -/
  gainMono : ∀ key, gain key false ⊆ gain key true
  /-- Keys of one class push alike. -/
  jobsCongr : ∀ left right strong, Same left right → jobs left strong = jobs right strong
  /-- Keys of one class gain alike. -/
  gainCongr : ∀ left right strong, Same left right → gain left strong = gain right strong

/-- The jobs that are reached from seeds. -/
inductive Reached (seeds : List (κ × Bool)) (jobs : κ → Bool → Set (κ × Bool)) : κ × Bool → Prop
  | seed {job : κ × Bool} (member : job ∈ seeds) : Reached seeds jobs job
  | step {job next : κ × Bool} (reached : Reached seeds jobs job)
      (pushed : next ∈ jobs job.1 job.2) : Reached seeds jobs next

/-- What the jobs reached from seeds gain. -/
def gains (seeds : List (κ × Bool)) (jobs : κ → Bool → Set (κ × Bool))
    (gain : κ → Bool → Set α) : Set α :=
  {fact | ∃ job, Reached seeds jobs job ∧ fact ∈ gain job.1 job.2}

/-- A job is left, or its key was worked on at least as strongly. -/
def Covered (visited : KeyedMap κ Bool) (pending : List (κ × Bool)) (job : κ × Bool) : Prop :=
  job ∈ pending ∨ settled visited job.1 job.2

/-- What holds before every round: only reached jobs are left and worked on, nothing but their gains
is put out, and neither a job nor a gain of a key that was worked on is lost. -/
structure Invariant (observe : ω → Set α) (jobs : κ → Bool → Set (κ × Bool))
    (gain : κ → Bool → Set α) (seeds : List (κ × Bool)) (start : Set α)
    (visited : KeyedMap κ Bool) (work : Work κ ω) : Prop where
  /-- The jobs that are left are reached. -/
  pendingReached : ∀ job ∈ work.pending, Reached seeds jobs job
  /-- The visited keys are reached. -/
  visitedReached : ∀ key strong, visited.get? key = some strong →
    ∃ other, Same other key ∧ Reached seeds jobs (other, strong)
  /-- Only gains are put out. -/
  outputSound : observe work.output ⊆ start ∪ gains seeds jobs gain
  /-- The first output is kept. -/
  startKept : start ⊆ observe work.output
  /-- No seed is lost. -/
  seedsCovered : ∀ job ∈ seeds, Covered visited work.pending job
  /-- No job of a visited key is lost. -/
  jobsCovered : ∀ key strong, visited.get? key = some strong →
    ∀ job ∈ jobs key strong, Covered visited work.pending job
  /-- No gain of a visited key is lost. -/
  gainsKept : ∀ key strong, visited.get? key = some strong → gain key strong ⊆ observe work.output

variable {body : κ → Bool → Work κ ω → Except ε (Work κ ω)} {observe : ω → Set α}
  {jobs : κ → Bool → Set (κ × Bool)} {gain : κ → Bool → Set α} {seeds : List (κ × Bool)}
  {start : Set α} {visited : KeyedMap κ Bool}

omit [Representative κ] [DecidableEq κ] in
/-- Work that is left alone adds nothing. -/
theorem Adds.refl (work : Work κ ω) : Adds observe work work ∅ ∅ where
  pushes := ⟨[], rfl, by simp⟩
  gains := (Set.union_empty _).symm

omit [Representative κ] [DecidableEq κ] in
/-- What is added one after the other is added together. -/
theorem Adds.trans {work between next : Work κ ω} {early late : Set (κ × Bool)}
    {before after : Set α} (left : Adds observe work between early before)
    (right : Adds observe between next late after) :
    Adds observe work next (early ∪ late) (before ∪ after) where
  pushes := by
    obtain ⟨pushed, first, members⟩ := left.pushes
    obtain ⟨more, second, others⟩ := right.pushes
    refine ⟨more ++ pushed, by rw [second, first, List.append_assoc], fun job => ?_⟩
    rw [List.mem_append, members, others, Set.mem_union, or_comm]
  gains := by rw [right.gains, left.gains, Set.union_assoc]

omit [Representative κ] [DecidableEq κ] in
/-- A loop whose rounds succeed adds what its rounds add. -/
theorem Adds.foldlM {β : Type*} {round : Work κ ω → β → Except ε (Work κ ω)}
    {pushes : β → Set (κ × Bool)} {facts : β → Set α}
    (rounds : ∀ work item, ∃ next, round work item = .ok next ∧
      Adds observe work next (pushes item) (facts item)) (items : List β) (work : Work κ ω) :
    ∃ next, items.foldlM round work = .ok next ∧
      Adds observe work next {job | ∃ item ∈ items, job ∈ pushes item}
        {fact | ∃ item ∈ items, fact ∈ facts item} := by
  induction items generalizing work with
  | nil => exact ⟨work, rfl, by simpa using Adds.refl work⟩
  | cons item items ih =>
    obtain ⟨between, first, grown⟩ := rounds work item
    obtain ⟨next, others, added⟩ := ih between
    refine ⟨next, ?_, ?_⟩
    · rw [List.foldlM_cons, first]
      exact others
    · have both := grown.trans added
      simp only [List.exists_mem_cons_iff]
      exact both

omit [Representative κ] [DecidableEq κ] in
/-- A loop adds what its rounds add. -/
theorem Adds.foldl {β : Type*} {round : Work κ ω → β → Work κ ω}
    {pushes : β → Set (κ × Bool)} {facts : β → Set α}
    (rounds : ∀ work item, Adds observe work (round work item) (pushes item) (facts item))
    (items : List β) (work : Work κ ω) :
    Adds observe work (items.foldl round work) {job | ∃ item ∈ items, job ∈ pushes item}
      {fact | ∃ item ∈ items, fact ∈ facts item} := by
  induction items generalizing work with
  | nil => simpa using Adds.refl work
  | cons item items ih =>
    have both := (rounds work item).trans (ih (round work item))
    simp only [List.exists_mem_cons_iff, List.foldl_cons]
    exact both

/-- A visited key settles the jobs of its strength. -/
theorem settled_of_get? {key : κ} {strong : Bool} (found : visited.get? key = some strong) :
    settled visited key strong := by
  simp [settled, found]

/-- A settled job was worked on as strongly. -/
theorem exists_of_settled {key : κ} {strong : Bool} (done : settled visited key strong) :
    ∃ strongest, visited.get? key = some strongest ∧ (strongest = true ∨ strong = strongest) := by
  obtain ⟨strongest, found, stronger⟩ := (Option.any_eq_true _ _).mp done
  refine ⟨strongest, found, ?_⟩
  cases strongest <;> simp_all

/-- Visiting a key that is not settled keeps the settled jobs. -/
theorem settled_insert {key other : κ} {strong weaker : Bool}
    (fresh : ¬ settled visited key strong) (done : settled visited other weaker) :
    settled (visited.insert key strong) other weaker := by
  by_cases same : Same key other
  · have equal : visited.get? key = visited.get? other := visited.get?_congr same
    simp only [settled, equal] at fresh
    simp only [settled, visited.get?_insert_same strong same, Option.any_some]
    obtain ⟨strongest, found, stronger⟩ := (Option.any_eq_true _ _).mp done
    simp only [found, Option.any_some] at fresh
    cases strong <;> simp_all
  · simpa only [settled, visited.get?_insert_other strong same] using done

/-- The first round starts from the invariant. -/
theorem Invariant.initial (seeds : List (κ × Bool)) (output : ω) :
    Invariant observe jobs gain seeds (observe output) KeyedMap.empty ⟨seeds, output⟩ where
  pendingReached _ member := .seed member
  visitedReached _ _ found := by simp at found
  outputSound := Set.subset_union_left
  startKept := subset_rfl
  seedsCovered _ member := .inl member
  jobsCovered _ _ found := by simp at found
  gainsKept _ _ found := by simp at found

/-- Leaving a settled job alone keeps the invariant. -/
theorem Invariant.skip {key : κ} {strong : Bool} {rest : List (κ × Bool)} {output : ω}
    (invariant : Invariant observe jobs gain seeds start visited ⟨(key, strong) :: rest, output⟩)
    (done : settled visited key strong) :
    Invariant observe jobs gain seeds start visited ⟨rest, output⟩ := by
  have kept : ∀ job, Covered visited ((key, strong) :: rest) job → Covered visited rest job := by
    rintro job (member | settledJob)
    · rcases List.mem_cons.mp member with rfl | member
      · exact .inr done
      · exact .inl member
    · exact .inr settledJob
  exact {
    pendingReached := fun job member => invariant.pendingReached job (List.mem_cons_of_mem _ member)
    visitedReached := invariant.visitedReached
    outputSound := invariant.outputSound
    startKept := invariant.startKept
    seedsCovered := fun job member => kept job (invariant.seedsCovered job member)
    jobsCovered := fun key strong found job member =>
      kept job (invariant.jobsCovered key strong found job member)
    gainsKept := invariant.gainsKept }

/-- Working on a job keeps the invariant. -/
theorem Invariant.visit {key : κ} {strong : Bool} {rest : List (κ × Bool)} {output : ω}
    {next : Work κ ω} (expands : Expands body observe jobs gain)
    (invariant : Invariant observe jobs gain seeds start visited ⟨(key, strong) :: rest, output⟩)
    (fresh : ¬ settled visited key strong)
    (grown : Adds observe ⟨rest, output⟩ next (jobs key strong) (gain key strong)) :
    Invariant observe jobs gain seeds start (visited.insert key strong) next := by
  obtain ⟨pending, final⟩ := next
  obtain ⟨⟨pushed, rfl, adds⟩, gained⟩ := grown
  dsimp only at gained
  have reached : Reached seeds jobs (key, strong) :=
    invariant.pendingReached _ List.mem_cons_self
  have kept : ∀ job, Covered visited ((key, strong) :: rest) job →
      Covered (visited.insert key strong) (pushed ++ rest) job := by
    rintro job (member | done)
    · rcases List.mem_cons.mp member with rfl | member
      · exact .inr (settled_of_get? (visited.get?_insert_same strong (Same.refl key)))
      · exact .inl (List.mem_append_right _ member)
    · exact .inr (settled_insert fresh done)
  refine {
    pendingReached := ?_
    visitedReached := ?_
    outputSound := ?_
    startKept := ?_
    seedsCovered := fun job member => kept job (invariant.seedsCovered job member)
    jobsCovered := ?_
    gainsKept := ?_ }
  · intro job member
    rcases List.mem_append.mp member with new | old
    · exact .step reached ((adds job).mp new)
    · exact invariant.pendingReached job (List.mem_cons_of_mem _ old)
  · intro other level found
    rw [visited.get?_insert] at found
    split at found
    · next same =>
      cases found
      exact ⟨key, same, reached⟩
    · exact invariant.visitedReached other level found
  · rw [gained]
    refine Set.union_subset invariant.outputSound fun fact member => ?_
    exact .inr ⟨(key, strong), reached, member⟩
  · rw [gained]
    exact invariant.startKept.trans Set.subset_union_left
  · intro other level found job member
    rw [visited.get?_insert] at found
    split at found
    · next same =>
      cases found
      rw [← expands.jobsCongr key other strong same] at member
      exact .inl (List.mem_append_left _ ((adds job).mpr member))
    · exact kept job (invariant.jobsCovered other level found job member)
  · intro other level found
    rw [visited.get?_insert] at found
    rw [gained]
    split at found
    · next same =>
      cases found
      rw [← expands.gainCongr key other strong same]
      exact Set.subset_union_right
    · exact (invariant.gainsKept other level found).trans Set.subset_union_left

/-- When no job is left, the output is what the reached jobs gain. -/
theorem Invariant.finish {output : ω} (expands : Expands body observe jobs gain)
    (invariant : Invariant observe jobs gain seeds start visited ⟨[], output⟩) :
    observe output = start ∪ gains seeds jobs gain := by
  have all : ∀ job, Reached seeds jobs job → settled visited job.1 job.2 := by
    intro job reached
    induction reached with
    | seed member =>
      rcases invariant.seedsCovered _ member with left | done
      · cases left
      · exact done
    | @step job next _ pushed ih =>
      obtain ⟨strongest, found, stronger⟩ := exists_of_settled ih
      have member : next ∈ jobs job.1 strongest := by
        rcases stronger with rfl | equal
        · cases weak : job.2 with
          | true => rwa [weak] at pushed
          | false => exact expands.jobsMono job.1 (by rwa [weak] at pushed)
        · rwa [← equal]
      rcases invariant.jobsCovered job.1 strongest found next member with left | done
      · cases left
      · exact done
  refine Set.Subset.antisymm invariant.outputSound (Set.union_subset invariant.startKept ?_)
  rintro fact ⟨job, reached, member⟩
  obtain ⟨strongest, found, stronger⟩ := exists_of_settled (all job reached)
  refine invariant.gainsKept job.1 strongest found ?_
  rcases stronger with rfl | equal
  · cases weak : job.2 with
    | true => rwa [weak] at member
    | false => exact expands.gainMono job.1 (by rwa [weak] at member)
  · rwa [← equal]

/-- The rounds a key may still take. -/
def level : Option Bool → Nat
  | none => 2
  | some false => 1
  | some true => 0

/-- The rounds that known keys may still take. -/
def remaining (keys : List κ) (visited : KeyedMap κ Bool) : Nat :=
  (keys.map (fun key => level (visited.get? key))).sum

/-- A round takes one of the rounds of its key. -/
theorem level_insert {key other : κ} {strong : Bool} (fresh : ¬ settled visited key strong)
    (same : Same key other) :
    level ((visited.insert key strong).get? other) < level (visited.get? other) := by
  rw [visited.get?_insert_same strong same, ← visited.get?_congr same]
  cases found : visited.get? key with
  | none => cases strong <;> simp [level]
  | some strongest =>
    simp only [settled, found, Option.any_some] at fresh
    cases strongest <;> cases strong <;> simp_all [level]

/-- A round on a known key leaves fewer rounds. -/
theorem remaining_insert {keys : List κ} {key known : κ} {strong : Bool} (member : known ∈ keys)
    (same : Same key known) (fresh : ¬ settled visited key strong) :
    remaining keys (visited.insert key strong) < remaining keys visited := by
  refine List.sum_lt_sum _ _ (fun other _ => ?_) ⟨known, member, level_insert fresh same⟩
  by_cases agrees : Same key other
  · exact (level_insert fresh agrees).le
  · rw [visited.get?_insert_other strong agrees]

/-- Every job has a known key. -/
def Known (keys : List κ) (pending : List (κ × Bool)) : Prop :=
  ∀ job ∈ pending, ∃ key ∈ keys, Same job.1 key

/-- Work on finitely many keys ends with the invariant. -/
theorem Invariant.ends {keys : List κ} (expands : Expands body observe jobs gain)
    (closed : ∀ key strong job, job ∈ jobs key strong → ∃ known ∈ keys, Same job.1 known)
    {work : Work κ ω} (known : Known keys work.pending)
    (invariant : Invariant observe jobs gain seeds start visited work) :
    ∃ fuel output, drain body fuel visited work = some (.ok output) ∧
      observe output = start ∪ gains seeds jobs gain := by
  -- a skipped job shortens the list of jobs, a round takes one of finitely many
  induction measure : remaining keys visited using Nat.strong_induction_on
    generalizing visited work with
  | _ rounds fewer =>
    obtain ⟨pending, output⟩ := work
    induction pending with
    | nil => exact ⟨1, output, rfl, invariant.finish expands⟩
    | cons job rest shorter =>
      obtain ⟨key, strong⟩ := job
      have restKnown : Known keys rest := fun job member =>
        known job (List.mem_cons_of_mem _ member)
      by_cases done : settled visited key strong
      · obtain ⟨fuel, final, ended, facts⟩ := shorter restKnown (invariant.skip done)
        refine ⟨fuel + 1, final, ?_, facts⟩
        rw [drain, if_pos done]
        exact ended
      · obtain ⟨next, worked, grown⟩ := expands.works key strong ⟨rest, output⟩
        obtain ⟨old, member, same⟩ := known (key, strong) List.mem_cons_self
        have nextKnown : Known keys next.pending := by
          obtain ⟨pushed, extended, adds⟩ := grown.pushes
          intro job inside
          rw [extended] at inside
          rcases List.mem_append.mp inside with new | before
          · exact closed key strong job ((adds job).mp new)
          · exact restKnown job before
        obtain ⟨fuel, final, ended, facts⟩ := fewer _
          (measure ▸ remaining_insert member same done) nextKnown
          (invariant.visit expands done grown) rfl
        refine ⟨fuel + 1, final, ?_, facts⟩
        rw [drain, if_neg done, worked]
        exact ended

/-- Work on finitely many keys ends, with what the jobs reached from the seeds gain. -/
theorem drain_closure {keys : List κ} (expands : Expands body observe jobs gain)
    (closed : ∀ key strong job, job ∈ jobs key strong → ∃ known ∈ keys, Same job.1 known)
    (known : Known keys seeds) (output : ω) :
    ∃ final enough, (∀ fuel, enough ≤ fuel →
      drain body fuel KeyedMap.empty ⟨seeds, output⟩ = some (.ok final)) ∧
      observe final = observe output ∪ gains seeds jobs gain := by
  obtain ⟨fuel, final, ended, facts⟩ :=
    (Invariant.initial seeds output).ends expands closed known
  exact ⟨final, fuel, fun more enough => drain_mono ended enough, facts⟩

end Closure

end Worklist
