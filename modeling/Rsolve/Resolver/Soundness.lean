import Rsolve.Resolver.Projection

/-!
# Resolutions of sound runs

A run that ends in a solution always yields a resolution: its package names are distinct, and the
publication cutoff holds for every package in it. The cutoff only narrows the choice of a version;
it never leaves a range without one.
-/
open Keyed Checked Growth Intervals

namespace Rsolve

namespace Provider

variable (provider : Provider)

/-- A solution of a sound run is projected to a resolution. -/
theorem solve_of_driven {pubgrub : PubGrub} (sound : pubgrub.SoundFor provider) {fuel : Nat}
    {selected : List (PackageId × SolverVersion)} {transcript : Transcript} {state : ProviderState}
    (driven : provider.drive pubgrub fuel [] .initial = some (.solved selected, transcript, state)) :
    ∃ packages resolution, provider.solve pubgrub fuel = some (.ok resolution) ∧
      provider.projectSelection selected state = (.ok resolution, state) ∧
      provider.GathersAll state selected selected packages ∧
      provider.Projects packages resolution := by
  obtain ⟨reached, ended⟩ := provider.drive_ends .start driven
  obtain ⟨packages, resolution, projected, -, gathers, projects⟩ :=
    projectSelection_projects reached (sound _ _ _ reached ended)
  refine ⟨packages, resolution, ?_, projected, gathers, projects⟩
  simp only [solve, driven, projected]

/-- A resolution comes from a solution. -/
theorem driven_of_solve {pubgrub : PubGrub} {fuel : Nat} {resolution : Resolution}
    (solved : provider.solve pubgrub fuel = some (.ok resolution)) :
    ∃ selected transcript state,
      provider.drive pubgrub fuel [] .initial = some (.solved selected, transcript, state) := by
  unfold solve at solved
  split at solved
  · simp at solved
  · simp at solved
  · simp at solved
  · next selected transcript state driven => exact ⟨selected, transcript, state, driven⟩

/-! ### A small universe

One registry offers a handful of releases through one repository, to every subject that names their
package. A scripted solver asks a fixed list of questions and then reports a fixed selection. -/

end Provider

/-- A solver that asks fixed questions and then reports a fixed selection. -/
def PubGrub.scripted (calls : List Call) (selected : List (PackageId × SolverVersion)) : PubGrub :=
  ⟨fun transcript => match calls[transcript.length]? with
    | some call => .ask call
    | none => .solved selected, fun _ => ""⟩

namespace Small

/-- The occurrence of a release in the repository. -/
def occurrence : RepositoryOccurrence :=
  occurrenceIn repository 0

/-- A candidate of the repository. -/
def candidate (name : PackageName) (version : RPackageVersion)
    (dependencies : List DeclaredDependency) : PreparedCandidate where
  release := release name version dependencies
  exposure := .none
  occurrences := [occurrence]
  runtime := by simp
  distinct := by simp
  ordered := by simp
  exposed := by simp
  projected := by simp [occurrence, occurrenceIn]
  covered := by simp [release]

/-- A requirement on a package from any source. -/
def requirement (name : PackageName) (constraint : VersionConstraint) : PackageRequirement :=
  ⟨name, .any, constraint, namesPackage_any name⟩

/-- A provider that offers candidates to every subject of their package. -/
def provider (offered : List PreparedCandidate) (roots : List PackageRequirement)
    (cutoff : Option PublicationCutoff) : Provider where
  loader := fun subject => .ok ⟨offered.filter (fun candidate =>
    subject.subjectName == some candidate.identity.name), []⟩
  preference := defaultCandidatePreference ⟨fun _ => "", fun _ => ""⟩
  lockPolicy := unlocked
  request := ⟨roots.map (⟨·, .hardOnly⟩), ⟨newer⟩, .unconstrained, .empty, cutoff⟩
  debug := ⟨fun _ => "", fun _ => ""⟩

/-- The candidate interned first. -/
def first : SolverVersion := .candidate ⟨0⟩

/-- The candidate interned second. -/
def second : SolverVersion := .candidate ⟨1⟩

/-- The questions about a selection, its root first. -/
def questions (selected : List (PackageId × SolverVersion)) : List Call :=
  .getDependencies .root .root :: selected.tail.flatMap (fun item =>
    [.chooseVersion item.1 (.singleton item.2), .getDependencies item.1 item.2])

/-- The solver that reports a selection after asking about all of it. -/
def solver (selected : List (PackageId × SolverVersion)) : PubGrub :=
  .scripted (questions selected) selected

/-- Whether a run ends in a solution of the recorded answers that passes a test. -/
def ends (provider : Provider) (pubgrub : PubGrub) (fuel : Nat)
    (test : List (PackageId × SolverVersion) → Transcript → ProviderState → Bool) : Bool :=
  match provider.drive pubgrub fuel [] .initial with
  | some (.solved selected, transcript, state) =>
    decide (SelectionSound transcript selected) && test selected transcript state
  | _ => false

/-- A run that ends in a solution is a run of a sound solver. -/
theorem exists_of_ends {provider : Provider} {pubgrub : PubGrub} {fuel : Nat}
    {test : List (PackageId × SolverVersion) → Transcript → ProviderState → Bool}
    (passed : ends provider pubgrub fuel test = true) :
    pubgrub.SoundFor provider ∧ ∃ selected transcript state,
      provider.drive pubgrub fuel [] .initial = some (.solved selected, transcript, state) ∧
      test selected transcript state = true := by
  unfold ends at passed
  split at passed
  · next selected transcript state driven =>
    simp only [Bool.and_eq_true, decide_eq_true_eq] at passed
    exact ⟨provider.soundFor_of_drive driven passed.1, selected, transcript, state, driven,
      passed.2⟩
  · simp at passed

/-- A package required from any source and from the repository. -/
def shared : Provider :=
  provider [candidate alpha newer []]
    [requirement alpha .unconstrained, ⟨alpha, .repository repository, .unconstrained,
      namesPackage_repository repository alpha⟩] (some ⟨published⟩)

/-- The selection of the shared package. -/
def sharedSelection : List (PackageId × SolverVersion) :=
  [(.root, .root), (.subject .r, .r newer), (.subject (.installedName alpha), first),
    (.subject (.repository repository alpha), first), (.occupancy alpha, first)]

/-- The run on the shared package ends in a solution. -/
theorem shared_ends : ends shared (solver sharedSelection) 10 (fun _ _ _ => true) = true := by
  decide +kernel

end Small

namespace Provider

variable (provider : Provider)

/-! ### Installed names -/

end Provider

end Rsolve
