import Rsolve.Acquisition.Closure

/-!
# The coverage of a published snapshot

A snapshot is published with the histories of the packages that were collected for it, and says that
it covers no more than these. Before a snapshot is reused, the packages that a resolution may look
at are walked again, this time over the snapshot itself.
-/
open Keyed Checked Ordered Levels

namespace Rsolve

/-- `LookupStateV1` — whether a history is whole. -/
inductive LookupState
  | present
  | incomplete
deriving Repr, DecidableEq

/-- `PackageHistoryV1` — what a snapshot says about one package, as a lookup reads it. -/
structure PackageHistory where
  /-- The package. -/
  package : PackageName
  /-- Whether the history is whole. -/
  state : LookupState
  /-- The eligible releases. -/
  eligibleReleases : List RawCandidateObservation
  /-- The quarantined versions. -/
  quarantined : List QuarantinedCandidate

/-- `ReadOnlySnapshotCandidateLoader` — one immutable generation. A history that cannot be decoded
or is not valid is stored as what is wrong with it. -/
structure ReadOnlySnapshotCandidateLoader where
  /-- The state of the coverage. -/
  coverageState : String
  /-- The histories. -/
  histories : OrderedMap PackageName (Except String PackageHistory)

namespace ReadOnlySnapshotCandidateLoader

/-- `releases_for_name` — a package without a history is absent only when the coverage is
complete. -/
def releasesForName (loader : ReadOnlySnapshotCandidateLoader) (name : PackageName) :
    Except CandidateLoadError RawCandidateLoadResult :=
  match loader.histories.get? name with
  | none =>
    if loader.coverageState = "complete" then
      .error ⟨.notFound, "metadata snapshot has no candidates for " ++ name.text⟩
    else .error ⟨.metadataInvalid, "metadata snapshot is partial for missing package " ++ name.text⟩
  | some (.error cause) => .error ⟨.metadataInvalid, cause⟩
  | some (.ok history) => do
    ensure (history.package = name) ⟨.metadataInvalid, "history key/package mismatch"⟩
    ensure (history.state = .present)
      ⟨.metadataInvalid, "package history is incomplete and cannot provide candidates"⟩
    return ⟨history.eligibleReleases, history.quarantined⟩

end ReadOnlySnapshotCandidateLoader

/-- `CranSnapshotPublishError` — why a snapshot was not published. -/
inductive CranSnapshotPublishError
  | acquisition (cause : CandidateLoadError)
deriving DecidableEq

/-- `CranResolutionError` — why a repository could not be prepared. -/
inductive CranResolutionError
  | refresh (cause : CandidateLoadError)
  | publish (cause : CranSnapshotPublishError)
deriving DecidableEq

/-- `default_context` — the state of the coverage that a snapshot is published with. -/
def defaultCoverageState : String := "partial"

/-- The history of a package that a refresh has acquired. -/
def historyOf (snapshot : CranCandidateSnapshot) (name : PackageName) :
    Except String PackageHistory :=
  match snapshot.load name with
  | .ok result => .ok ⟨name, .present, result.observations, result.quarantined⟩
  | .error cause => .error cause.diagnostic

/-- `refresh_and_publish_snapshot` — acquire the packages of a closure once more, and publish their
histories. -/
def refreshAndPublishSnapshot (refresh : RefreshBatch) (closure : List PackageName) :
    Except CranSnapshotPublishError ReadOnlySnapshotCandidateLoader := do
  let snapshot ← (refresh closure).mapError .acquisition
  return ⟨defaultCoverageState,
    closure.foldl (fun histories name => histories.insert name (historyOf snapshot name)) .empty⟩

/-- `prepare_cran_repository_loader_with_optional_demands`, without a cached snapshot: nothing is
published for an empty closure. -/
def prepareCold (request : ClosureRequest) (refresh : RefreshBatch) (fuel : Nat) :
    Option (Except CranResolutionError (Option ReadOnlySnapshotCandidateLoader)) :=
  (collectCranDependencyClosure request refresh fuel).map fun collected => do
    let closure ← collected.mapError .refresh
    if closure = [] then return none
    else
      let loader ← (refreshAndPublishSnapshot refresh closure).mapError .publish
      return some loader

/-- A loader of the candidates of a name. -/
abbrev NameLoader := PackageName → Except CandidateLoadError RawCandidateLoadResult

/-- The sets that a walk over a snapshot changes. -/
structure CoverageWalk where
  /-- The packages to walk. -/
  pending : OrderedSet PackageName
  /-- The packages that the snapshot need not have. -/
  optional : OrderedSet PackageName
  /-- The packages that were walked. -/
  visited : OrderedSet PackageName

namespace CoverageWalk

/-- The sets before the walk. -/
def initial (request : ClosureRequest) : CoverageWalk where
  pending := request.requiredRoots
  optional := .ofList request.optionalDemands
  visited := .empty

/-- Add a dependency. It is optional unless it is a required root. -/
def enqueue (request : ClosureRequest) (walk : CoverageWalk) (dependency : PackageName) :
    CoverageWalk :=
  { walk with
    optional := if dependency ∈ request.requiredRoots then walk.optional
      else walk.optional.add dependency
    pending := walk.pending.add dependency }

/-- Walk the candidates of a package. -/
def examine (request : ClosureRequest) (loader : NameLoader) (walk : CoverageWalk)
    (package : PackageName) : Except CandidateLoadError CoverageWalk :=
  match loader package with
  | .error cause =>
    if package ∈ walk.optional ∧ cause.category = .notFound then .ok walk else .error cause
  | .ok candidates =>
    if candidates.observations = [] then
      if package ∈ walk.optional then .ok walk
      else .error ⟨.snapshotInvalid,
        "CRAN snapshot has no eligible releases for " ++ package.text⟩
    else
      .ok ((ClosureProgress.dependenciesOf request package
        (candidates.observations.map RawCandidateObservation.release)).foldl (enqueue request) walk)

/-- Take the first pending package, for at most some packages. -/
def run (request : ClosureRequest) (loader : NameLoader) :
    Nat → CoverageWalk → Option (Except CandidateLoadError Unit)
  | 0, _ => none
  | fuel + 1, walk =>
    match walk.pending.toList with
    | [] => some (.ok ())
    | package :: _ =>
      let rest := { walk with pending := walk.pending.remove package }
      if package ∈ walk.visited then run request loader fuel rest
      else
        match examine request loader { rest with visited := rest.visited.add package } package with
        | .error cause => some (.error cause)
        | .ok next => run request loader fuel next

end CoverageWalk

/-- `ensure_cran_closure_is_covered`, for at most some packages. -/
def ensureCranClosureIsCovered (request : ClosureRequest) (loader : NameLoader) (fuel : Nat) :
    Option (Except CandidateLoadError Unit) :=
  CoverageWalk.run request loader fuel (.initial request)

/-- What a loader has for a package. -/
def catalogOf (loader : NameLoader) (package : PackageName) : List PackageRelease :=
  match loader package with
  | .ok candidates => candidates.observations.map RawCandidateObservation.release
  | .error _ => []

/-- The releases of a package that was loaded. -/
theorem catalogOf_of_ok {loader : NameLoader} {package : PackageName}
    {candidates : RawCandidateLoadResult} (loaded : loader package = .ok candidates) :
    catalogOf loader package = candidates.observations.map RawCandidateObservation.release := by
  rw [catalogOf, loaded]

/-- A package that was not loaded has no releases. -/
theorem catalogOf_of_error {loader : NameLoader} {package : PackageName} {cause : CandidateLoadError}
    (failed : loader package = .error cause) : catalogOf loader package = [] := by
  rw [catalogOf, failed]

/-- A loader has a release of a package, or reports it as absent. -/
def Known (loader : NameLoader) (package : PackageName) : Prop :=
  catalogOf loader package ≠ [] ∨
    ∃ cause, loader package = .error cause ∧ cause.category = .notFound

namespace ClosureRequest

variable (request : ClosureRequest)

/-- The closure that the required roots generate without the optional demands. -/
abbrev Required (catalog : PackageName → List PackageRelease) (package : PackageName) : Prop :=
  Reached {root | root ∈ request.requiredRoots} (request.successors catalog) package

/-- What the required roots lead to is demanded. -/
theorem Required.demanded {request : ClosureRequest} {catalog : PackageName → List PackageRelease}
    {package : PackageName} (required : request.Required catalog package) :
    request.Demanded catalog package := by
  induction required with
  | seed member => exact .seed (.inl member)
  | step _ edge ih => exact .step ih edge

/-- Whether a package that is not there is passed over: it is an optional demand, or not a required
root. -/
def Passable (package : PackageName) : Prop :=
  package ∈ request.optionalDemands ∨ package ∉ request.requiredRoots

/-- What a walk accepts of a package: it has a release, or it is passed over because it is absent or
has no release. -/
def Accepts (loader : NameLoader) (package : PackageName) : Prop :=
  catalogOf loader package ≠ [] ∨ (request.Passable package ∧
    ((∃ cause, loader package = .error cause ∧ cause.category = .notFound) ∨
      ∃ candidates, loader package = .ok candidates ∧ candidates.observations = []))

end ClosureRequest

namespace CoverageWalk

variable {request : ClosureRequest} {loader : NameLoader}

section Adding

variable {dependencies : List PackageName} {walk : CoverageWalk} {package : PackageName}

/-- The pending packages after some dependencies are added. -/
theorem mem_pending_foldl_enqueue :
    package ∈ (dependencies.foldl (enqueue request) walk).pending ↔
      package ∈ walk.pending ∨ package ∈ dependencies := by
  induction dependencies generalizing walk with
  | nil => simp
  | cons first rest ih =>
    rw [List.foldl_cons, ih, enqueue, OrderedSet.mem_add, List.mem_cons]
    tauto

/-- The optional packages after some dependencies are added. -/
theorem mem_optional_foldl_enqueue :
    package ∈ (dependencies.foldl (enqueue request) walk).optional ↔
      package ∈ walk.optional ∨ (package ∉ request.requiredRoots ∧ package ∈ dependencies) := by
  induction dependencies generalizing walk with
  | nil => simp
  | cons first rest ih =>
    have added : package ∈ (enqueue request walk first).optional ↔
        package ∈ walk.optional ∨ (package ∉ request.requiredRoots ∧ package = first) := by
      unfold enqueue
      by_cases required : first ∈ request.requiredRoots
      · simp only [required, if_true]
        constructor
        · exact .inl
        · rintro (member | ⟨other, rfl⟩)
          · exact member
          · exact absurd required other
      · simp only [required, if_false, OrderedSet.mem_add]
        constructor
        · rintro (rfl | member)
          · exact .inr ⟨required, rfl⟩
          · exact .inl member
        · rintro (member | ⟨-, rfl⟩)
          · exact .inr member
          · exact .inl rfl
    rw [List.foldl_cons, ih, added, List.mem_cons]
    tauto

/-- Adding dependencies walks no package. -/
theorem visited_foldl_enqueue :
    (dependencies.foldl (enqueue request) walk).visited = walk.visited := by
  induction dependencies generalizing walk with
  | nil => rfl
  | cons first rest ih => exact ih

end Adding

/-- What a walk has done so far: everything walked was accepted and led on, nothing was taken that
the roots do not lead to, and a package is optional when it is passed over. -/
structure Progress (request : ClosureRequest) (loader : NameLoader) (walk : CoverageWalk) :
    Prop where
  /-- The required roots are walked or pending. -/
  roots : ∀ package ∈ request.requiredRoots, package ∈ walk.visited ∨ package ∈ walk.pending
  /-- What was walked leads to what is walked or pending. -/
  closed : ∀ package ∈ walk.visited, ∀ dependency ∈ request.successors (catalogOf loader) package,
    dependency ∈ walk.visited ∨ dependency ∈ walk.pending
  /-- What was walked was accepted. -/
  accepted : ∀ package ∈ walk.visited, request.Accepts loader package
  /-- The required roots lead to what is walked. -/
  visited : ∀ package ∈ walk.visited, request.Required (catalogOf loader) package
  /-- The required roots lead to what is pending. -/
  pending : ∀ package ∈ walk.pending, request.Required (catalogOf loader) package
  /-- A pending package is optional when it is passed over. -/
  optional : ∀ package ∈ walk.pending, package ∈ walk.optional ↔ request.Passable package
  /-- An optional required root is an optional demand. -/
  demanded : ∀ package ∈ walk.optional, request.Passable package
  /-- An optional demand is optional. -/
  demands : ∀ package ∈ request.optionalDemands, package ∈ walk.optional

/-- The sets before the walk. -/
theorem Progress.initial : Progress request loader (.initial request) where
  roots := fun _ member => .inr member
  closed := fun package member => absurd member (OrderedSet.not_mem_empty package)
  accepted := fun package member => absurd member (OrderedSet.not_mem_empty package)
  visited := fun package member => absurd member (OrderedSet.not_mem_empty package)
  pending := fun _ member => .seed member
  optional := by
    intro package member
    exact OrderedSet.mem_ofList.trans ⟨.inl, fun passable => passable.resolve_right
      (not_not_intro member)⟩
  demanded := fun _ member => .inl (OrderedSet.mem_ofList.mp member)
  demands := fun _ member => OrderedSet.mem_ofList.mpr member

/-- What a walk gains from a package that it accepts. -/
structure Gains (request : ClosureRequest) (loader : NameLoader) (package : PackageName)
    (walk next : CoverageWalk) : Prop where
  /-- Nothing else was walked. -/
  visited : next.visited = walk.visited
  /-- What the package leads to is pending. -/
  pending : ∀ other, other ∈ next.pending ↔
    other ∈ walk.pending ∨ other ∈ request.successors (catalogOf loader) package
  /-- What the package leads to is optional unless it is a required root. -/
  optional : ∀ other, other ∈ next.optional ↔ other ∈ walk.optional ∨
    (other ∉ request.requiredRoots ∧ other ∈ request.successors (catalogOf loader) package)

/-- Nothing is gained from a package without releases. -/
theorem Gains.none {walk : CoverageWalk} {package : PackageName}
    (empty : catalogOf loader package = []) : Gains request loader package walk walk := by
  have leaf : ∀ other, other ∉ request.successors (catalogOf loader) package := by
    rintro other edge
    exact ClosureProgress.present_of_successor edge empty
  exact ⟨rfl, fun other => (or_iff_left (leaf other)).symm,
    fun other => (or_iff_left fun gained => leaf other gained.2).symm⟩

/-- A package that is accepted is walked. -/
theorem examine_of_accepts {walk : CoverageWalk} {package : PackageName}
    (optional : package ∈ walk.optional ↔ request.Passable package)
    (accepts : request.Accepts loader package) :
    ∃ next, examine request loader walk package = .ok next ∧
      Gains request loader package walk next := by
  unfold examine
  rcases accepts with there | ⟨passable, ⟨cause, failed, notFound⟩ | ⟨candidates, loaded, empty⟩⟩
  · cases loaded : loader package with
    | error cause => exact absurd (catalogOf_of_error loaded) there
    | ok candidates =>
      have releases := catalogOf_of_ok loaded
      have observed : candidates.observations ≠ [] := by
        rintro empty
        exact there (by rw [releases, empty, List.map_nil])
      refine ⟨_, if_neg observed, visited_foldl_enqueue, fun other => ?_, fun other => ?_⟩
      · rw [mem_pending_foldl_enqueue, ← releases, ClosureProgress.mem_dependenciesOf]
      · rw [mem_optional_foldl_enqueue, ← releases, ClosureProgress.mem_dependenciesOf]
  · rw [failed]
    exact ⟨walk, if_pos ⟨optional.mpr passable, notFound⟩, Gains.none (catalogOf_of_error failed)⟩
  · have none : catalogOf loader package = [] := by
      rw [catalogOf_of_ok loaded, empty, List.map_nil]
    rw [loaded]
    refine ⟨walk, ?_, Gains.none none⟩
    simp only [if_pos empty, if_pos (optional.mpr passable)]

/-- A package that is not accepted ends the walk. -/
theorem examine_of_not_accepts {walk : CoverageWalk} {package : PackageName}
    (optional : package ∈ walk.optional ↔ request.Passable package)
    (rejects : ¬ request.Accepts loader package) :
    ∃ cause, examine request loader walk package = .error cause := by
  unfold examine
  cases loaded : loader package with
  | error cause =>
    refine ⟨cause, if_neg ?_⟩
    rintro ⟨member, notFound⟩
    exact rejects (.inr ⟨optional.mp member, .inl ⟨cause, loaded, notFound⟩⟩)
  | ok candidates =>
    have empty : candidates.observations = [] := by
      by_contra observed
      refine rejects (.inl ?_)
      rw [catalogOf_of_ok loaded]
      simpa using observed
    have needed : package ∉ walk.optional := fun member =>
      rejects (.inr ⟨optional.mp member, .inr ⟨candidates, loaded, empty⟩⟩)
    simp only [if_pos empty, if_neg needed]
    exact ⟨_, rfl⟩

/-- A package that was walked before is taken from the pending ones. -/
theorem Progress.skip {walk : CoverageWalk} (progress : Progress request loader walk)
    {package : PackageName} (done : package ∈ walk.visited) :
    Progress request loader { walk with pending := walk.pending.remove package } where
  roots := by
    intro root required
    rcases progress.roots root required with visited | pending
    · exact .inl visited
    · by_cases same : root = package
      · exact .inl (same ▸ done)
      · exact .inr (OrderedSet.mem_remove.mpr ⟨same, pending⟩)
  closed := by
    intro source visited dependency edge
    rcases progress.closed source visited dependency edge with visited | pending
    · exact .inl visited
    · by_cases same : dependency = package
      · exact .inl (same ▸ done)
      · exact .inr (OrderedSet.mem_remove.mpr ⟨same, pending⟩)
  accepted := progress.accepted
  visited := progress.visited
  pending := fun other member => progress.pending other (OrderedSet.mem_remove.mp member).2
  optional := fun other member => progress.optional other (OrderedSet.mem_remove.mp member).2
  demanded := progress.demanded
  demands := progress.demands

/-- A package that is accepted is walked, and what it leads to becomes pending. -/
theorem Progress.visit {walk next : CoverageWalk} (progress : Progress request loader walk)
    {package : PackageName} (member : package ∈ walk.pending)
    (accepts : request.Accepts loader package)
    (gains : Gains request loader package
      { walk with
        pending := walk.pending.remove package
        visited := walk.visited.add package } next) :
    Progress request loader next where
  roots := by
    intro root required
    rw [gains.visited, gains.pending]
    rcases progress.roots root required with visited | pending
    · exact .inl (OrderedSet.mem_add.mpr (.inr visited))
    · by_cases same : root = package
      · exact .inl (OrderedSet.mem_add.mpr (.inl same))
      · exact .inr (.inl (OrderedSet.mem_remove.mpr ⟨same, pending⟩))
  closed := by
    intro source visited dependency edge
    rw [gains.visited] at visited ⊢
    rw [gains.pending]
    rcases OrderedSet.mem_add.mp visited with rfl | visited
    · exact .inr (.inr edge)
    · rcases progress.closed source visited dependency edge with visited | pending
      · exact .inl (OrderedSet.mem_add.mpr (.inr visited))
      · by_cases same : dependency = package
        · exact .inl (OrderedSet.mem_add.mpr (.inl same))
        · exact .inr (.inl (OrderedSet.mem_remove.mpr ⟨same, pending⟩))
  accepted := by
    intro other visited
    rw [gains.visited] at visited
    rcases OrderedSet.mem_add.mp visited with rfl | visited
    · exact accepts
    · exact progress.accepted other visited
  visited := by
    intro other visited
    rw [gains.visited] at visited
    rcases OrderedSet.mem_add.mp visited with rfl | visited
    · exact progress.pending other member
    · exact progress.visited other visited
  pending := by
    intro other pending
    rcases (gains.pending other).mp pending with pending | edge
    · exact progress.pending other (OrderedSet.mem_remove.mp pending).2
    · exact .step (progress.pending package member) edge
  optional := by
    intro other pending
    rw [gains.optional]
    constructor
    · rintro (member | ⟨other, -⟩)
      · exact progress.demanded _ member
      · exact .inr other
    · rintro (demanded | other)
      · exact .inl (progress.demands _ demanded)
      · rcases (gains.pending _).mp pending with pending | edge
        · exact .inl ((progress.optional _ (OrderedSet.mem_remove.mp pending).2).mpr (.inr other))
        · exact .inr ⟨other, edge⟩
  demanded := by
    intro other member
    rcases (gains.optional other).mp member with member | ⟨other, -⟩
    · exact progress.demanded _ member
    · exact .inr other
  demands := fun other member => (gains.optional other).mpr (.inl (progress.demands other member))

/-- When nothing is pending, everything that the required roots lead to was accepted. -/
theorem Progress.finish {walk : CoverageWalk} (progress : Progress request loader walk)
    (empty : walk.pending.toList = []) {package : PackageName}
    (required : request.Required (catalogOf loader) package) :
    request.Accepts loader package := by
  have none : ∀ other, other ∉ walk.pending := by
    intro other member
    rw [← OrderedSet.mem_toList, empty] at member
    cases member
  have visited : package ∈ walk.visited := by
    induction required with
    | seed member => exact (progress.roots _ member).resolve_right (none _)
    | step _ edge ih => exact (progress.closed _ ih _ edge).resolve_right (none _)
  exact progress.accepted package visited

/-- A walk ends, and succeeds exactly when everything that the required roots lead to is accepted. -/
theorem Progress.ends (finite : {package | request.Required (catalogOf loader) package}.Finite)
    {walk : CoverageWalk} (progress : Progress request loader walk) :
    ∃ enough outcome, (∀ fuel, enough ≤ fuel → run request loader fuel walk = some outcome) ∧
      (outcome = .ok () ↔
        ∀ package, request.Required (catalogOf loader) package →
          request.Accepts loader package) := by
  cases taken : walk.pending.toList with
  | nil =>
    refine ⟨1, .ok (), fun fuel more => ?_, iff_of_true rfl fun package required =>
      progress.finish taken required⟩
    obtain ⟨fuel, rfl⟩ := Nat.exists_eq_add_of_le' more
    rw [run, taken]
  | cons package later =>
    have member : package ∈ walk.pending := by
      rw [← OrderedSet.mem_toList, taken]
      exact List.mem_cons_self
    by_cases done : package ∈ walk.visited
    · obtain ⟨enough, outcome, ended, facts⟩ := (progress.skip done).ends finite
      refine ⟨enough + 1, outcome, fun fuel more => ?_, facts⟩
      obtain ⟨fuel, rfl⟩ := Nat.exists_eq_add_of_le' (Nat.le_of_add_left_le more)
      rw [run, taken]
      simp only [if_pos done]
      exact ended fuel (by omega)
    · by_cases accepts : request.Accepts loader package
      · obtain ⟨next, examined, gains⟩ := @examine_of_accepts request loader
          { walk with
            pending := walk.pending.remove package
            visited := walk.visited.add package } package (progress.optional package member) accepts
        obtain ⟨enough, outcome, ended, facts⟩ :=
          (progress.visit member accepts gains).ends finite
        refine ⟨enough + 1, outcome, fun fuel more => ?_, facts⟩
        obtain ⟨fuel, rfl⟩ := Nat.exists_eq_add_of_le' (Nat.le_of_add_left_le more)
        rw [run, taken]
        simp only [if_neg done, examined]
        exact ended fuel (by omega)
      · obtain ⟨cause, failed⟩ := @examine_of_not_accepts request loader
          { walk with
            pending := walk.pending.remove package
            visited := walk.visited.add package } package (progress.optional package member) accepts
        refine ⟨1, .error cause, fun fuel more => ?_, iff_of_false (by simp) fun all =>
          accepts (all package (progress.pending package member))⟩
        obtain ⟨fuel, rfl⟩ := Nat.exists_eq_add_of_le' more
        rw [run, taken]
        simp only [if_neg done, failed]
termination_by ((finite.toFinset.filter (fun package => package ∉ walk.visited)).card,
  walk.pending.toList.length)
decreasing_by
  · exact Prod.Lex.right _ (OrderedSet.length_remove_lt member)
  · refine Prod.Lex.left _ _ (Finset.card_lt_card (Finset.ssubset_iff_of_subset ?_ |>.mpr ?_))
    · intro other unvisited
      rw [gains.visited] at unvisited
      simp only [Finset.mem_filter, OrderedSet.mem_add, not_or] at unvisited ⊢
      exact ⟨unvisited.1, unvisited.2.2⟩
    · refine ⟨package, ?_, ?_⟩
      · exact Finset.mem_filter.mpr
          ⟨finite.mem_toFinset.mpr (progress.pending package member), done⟩
      · rw [gains.visited]
        simp

end CoverageWalk

/-- The check succeeds. -/
def IsCovered (request : ClosureRequest) (loader : NameLoader) : Prop :=
  ∃ enough, ∀ fuel, enough ≤ fuel → ensureCranClosureIsCovered request loader fuel = some (.ok ())

/-- The check ends, and succeeds exactly when everything that the required roots lead to is
accepted. -/
theorem isCovered_iff {request : ClosureRequest} {loader : NameLoader}
    (finite : {package | catalogOf loader package ≠ []}.Finite) :
    IsCovered request loader ↔ ∀ package, request.Required (catalogOf loader) package →
      request.Accepts loader package := by
  have few : {package | request.Required (catalogOf loader) package}.Finite :=
    (request.finite_demanded finite).subset fun package required => required.demanded
  obtain ⟨enough, outcome, ended, facts⟩ := CoverageWalk.Progress.initial.ends few
  rw [← facts]
  constructor
  · rintro ⟨enough', covered⟩
    have first := ended (max enough enough') (le_max_left _ _)
    have second := covered (max enough enough') (le_max_right _ _)
    exact Option.some.inj (first.symm.trans second)
  · rintro rfl
    exact ⟨enough, ended⟩

namespace ReadOnlySnapshotCandidateLoader

/-- A loader has releases of finitely many packages. -/
theorem finite_catalogOf (loader : ReadOnlySnapshotCandidateLoader) :
    {package | catalogOf loader.releasesForName package ≠ []}.Finite := by
  refine loader.histories.keys.finite_toSet.subset fun package there => ?_
  cases found : loader.histories.get? package with
  | some history => exact OrderedMap.mem_keys.mpr ⟨history, found⟩
  | none =>
    have failed : ∃ cause, loader.releasesForName package = .error cause := by
      unfold releasesForName
      rw [found]
      dsimp only
      split
      · exact ⟨_, rfl⟩
      · exact ⟨_, rfl⟩
    obtain ⟨cause, failed⟩ := failed
    exact absurd (catalogOf_of_error failed) there

end ReadOnlySnapshotCandidateLoader

section Published

variable {request : ClosureRequest} {catalog : PackageName → List PackageRelease}
  {refresh : RefreshBatch} {closure : List PackageName} {loader : ReadOnlySnapshotCandidateLoader}

/-- A published snapshot has the releases of its closure. -/
theorem catalogOf_of_mem (answers : AnswersFrom catalog refresh)
    (published : refreshAndPublishSnapshot refresh closure = .ok loader) {package : PackageName}
    (member : package ∈ closure) :
    catalog package ≠ [] ∧ catalogOf loader.releasesForName package = catalog package := by
  have present : ∀ package ∈ closure, catalog package ≠ [] := by
    intro package member absent
    obtain ⟨cause, failed, -⟩ := answers.absent closure ⟨package, member, absent⟩
    unfold refreshAndPublishSnapshot at published
    rw [failed] at published
    cases published
  obtain ⟨snapshot, answer, candidates⟩ := answers.present closure present
  obtain ⟨result, loaded, releases⟩ := candidates package member
  unfold refreshAndPublishSnapshot at published
  rw [answer] at published
  obtain rfl := Except.ok.inj published
  refine ⟨present package member, ?_⟩
  have read : ReadOnlySnapshotCandidateLoader.releasesForName ⟨defaultCoverageState,
      closure.foldl (fun histories name => histories.insert name (historyOf snapshot name)) .empty⟩
      package = .ok ⟨result.observations, result.quarantined⟩ := by
    have found := OrderedMap.get?_foldl_insert (historyOf snapshot) closure .empty package
    rw [if_pos member, historyOf, loaded] at found
    unfold ReadOnlySnapshotCandidateLoader.releasesForName
    rw [found]
    simp only [ensure_of, ok_bind]
    rfl
  exact (catalogOf_of_ok read).trans releases

/-- A published snapshot reports every other package as outside its coverage. -/
theorem releasesForName_of_not_mem
    (published : refreshAndPublishSnapshot refresh closure = .ok loader) {package : PackageName}
    (outside : package ∉ closure) :
    loader.releasesForName package = .error
      ⟨.metadataInvalid, "metadata snapshot is partial for missing package " ++ package.text⟩ := by
  unfold refreshAndPublishSnapshot at published
  obtain ⟨snapshot, -, published⟩ := bind_eq_ok.mp published
  obtain rfl := Except.ok.inj published
  have missing := OrderedMap.get?_foldl_insert (historyOf snapshot) closure .empty package
  rw [if_neg outside, OrderedMap.get?_empty] at missing
  unfold ReadOnlySnapshotCandidateLoader.releasesForName
  rw [missing]
  have partly : defaultCoverageState ≠ "complete" := by decide
  exact if_neg partly

/-- A cold preparation that publishes a snapshot has collected its closure. -/
theorem published_of_prepareCold {fuel : Nat}
    (prepared : prepareCold request refresh fuel = some (.ok (some loader))) :
    ∃ closure, collectCranDependencyClosure request refresh fuel = some (.ok closure) ∧
      refreshAndPublishSnapshot refresh closure = .ok loader := by
  obtain ⟨collected, ended, prepared⟩ := Option.map_eq_some_iff.mp prepared
  cases collected with
  | error cause => cases prepared
  | ok closure =>
    refine ⟨closure, ended, ?_⟩
    by_cases empty : closure = []
    · simp only [Except.mapError, ok_bind, if_pos empty] at prepared
      cases prepared
    · simp only [Except.mapError, ok_bind, if_neg empty] at prepared
      cases published : refreshAndPublishSnapshot refresh closure with
      | error cause =>
        rw [published] at prepared
        cases prepared
      | ok loader' =>
        rw [published] at prepared
        obtain rfl := Option.some.inj (Except.ok.inj prepared)
        rfl

/-- What a cold preparation publishes are the demanded packages that have candidates; every other
package is outside the coverage. -/
theorem prepareCold_covers {fuel : Nat} (finite : {package | catalog package ≠ []}.Finite)
    (answers : AnswersFrom catalog refresh)
    (prepared : prepareCold request refresh fuel = some (.ok (some loader)))
    {package : PackageName} (demanded : request.Demanded catalog package) :
    catalogOf loader.releasesForName package = catalog package ∧ (catalog package = [] →
      loader.releasesForName package = .error
        ⟨.metadataInvalid, "metadata snapshot is partial for missing package " ++ package.text⟩) := by
  obtain ⟨closure, ended, published⟩ := published_of_prepareCold prepared
  have complete : ¬ request.LacksRoot catalog := by
    intro lacks
    obtain ⟨cause, failed⟩ := collectCranDependencyClosure_fails answers lacks
    have later := collectCranDependencyClosure_mono ended (le_max_left fuel 1)
    cases later.symm.trans (failed (max fuel 1) (le_max_right _ _))
  obtain ⟨enough, closure', ended', facts⟩ :=
    collectCranDependencyClosure_ends finite answers complete
  have same : closure' = closure := by
    have first := collectCranDependencyClosure_mono ended (le_max_left fuel enough)
    have second := ended' (max fuel enough) (le_max_right _ _)
    exact Except.ok.inj (Option.some.inj (second.symm.trans first))
  rw [same] at facts
  by_cases member : package ∈ closure
  · obtain ⟨there, read⟩ := catalogOf_of_mem answers published member
    exact ⟨read, fun absent => absurd absent there⟩
  · have outside := releasesForName_of_not_mem published member
    have absent : catalog package = [] := by
      by_contra there
      exact member ((facts package).mpr ⟨demanded, fun absent => absurd absent there⟩)
    exact ⟨(catalogOf_of_error outside).trans absent.symm, fun _ => outside⟩

/-- The snapshot of a cold preparation generates the closures that its catalog generates. -/
theorem prepareCold_required_iff {fuel : Nat} (finite : {package | catalog package ≠ []}.Finite)
    (answers : AnswersFrom catalog refresh)
    (prepared : prepareCold request refresh fuel = some (.ok (some loader)))
    {package : PackageName} :
    request.Required (catalogOf loader.releasesForName) package ↔
      request.Required catalog package := by
  constructor
  · intro required
    induction required with
    | seed member => exact .seed member
    | @step source item _ edge ih =>
      have read := (prepareCold_covers finite answers prepared (ClosureRequest.Required.demanded ih)).1
      unfold ClosureRequest.successors at edge
      rw [read] at edge
      exact .step ih edge
  · intro required
    induction required with
    | seed member => exact .seed member
    | @step source item before edge ih =>
      have read :=
        (prepareCold_covers finite answers prepared (ClosureRequest.Required.demanded before)).1
      refine .step ih ?_
      unfold ClosureRequest.successors at edge ⊢
      rw [read]
      exact edge

/-- The snapshot of a cold preparation is reused exactly when no package that the required roots lead
to is absent. -/
theorem isCovered_prepareCold_iff {fuel : Nat} (finite : {package | catalog package ≠ []}.Finite)
    (answers : AnswersFrom catalog refresh)
    (prepared : prepareCold request refresh fuel = some (.ok (some loader))) :
    IsCovered request loader.releasesForName ↔
      ∀ package, request.Required catalog package → catalog package ≠ [] := by
  rw [isCovered_iff loader.finite_catalogOf]
  refine forall_congr' fun package => ?_
  rw [prepareCold_required_iff finite answers prepared]
  refine imp_congr_right fun required => ?_
  obtain ⟨read, outside⟩ := prepareCold_covers finite answers prepared required.demanded
  constructor
  · rintro (there | ⟨-, ⟨cause, failed, notFound⟩ | ⟨candidates, loaded, -⟩⟩) absent
    · exact there (read.trans absent)
    · rw [outside absent] at failed
      obtain rfl := Except.error.inj failed
      cases notFound
    · rw [outside absent] at loaded
      cases loaded
  · intro there
    exact .inl (read ▸ there)

end Published

/-- Every package of the closure of roots and optional demands is known to a loader, if the check
succeeds. -/
def CoveredIsKnown (request : ClosureRequest) (loader : ReadOnlySnapshotCandidateLoader) : Prop :=
  IsCovered request loader.releasesForName → ∀ package,
    request.Demanded (catalogOf loader.releasesForName) package →
      Known loader.releasesForName package

/-- A loader has a package of the required roots that the check rejects. -/
def Rejected (request : ClosureRequest) (loader : ReadOnlySnapshotCandidateLoader) : Prop :=
  ∃ package, request.Required (catalogOf loader.releasesForName) package ∧
    ¬ request.Accepts loader.releasesForName package

/-- What the check does not look at is known, and what it looks at has a release unless it is
reported as absent. -/
structure Whole (request : ClosureRequest) (loader : ReadOnlySnapshotCandidateLoader) : Prop where
  /-- A package that only optional demands lead to is known. -/
  demanded : ∀ package, request.Demanded (catalogOf loader.releasesForName) package →
    ¬ request.Required (catalogOf loader.releasesForName) package →
      Known loader.releasesForName package
  /-- A package that the required roots lead to has no history without releases. -/
  required : ∀ package, request.Required (catalogOf loader.releasesForName) package →
    ∀ candidates, loader.releasesForName package = .ok candidates → candidates.observations ≠ []

/-- The check speaks for the whole closure exactly when it fails, or when nothing that it does not
look at, and no history without releases, is outside of what the loader knows. -/
theorem coveredIsKnown_iff (request : ClosureRequest) (loader : ReadOnlySnapshotCandidateLoader) :
    CoveredIsKnown request loader ↔ Rejected request loader ∨ Whole request loader := by
  have covered := @isCovered_iff request loader.releasesForName loader.finite_catalogOf
  by_cases accepted : IsCovered request loader.releasesForName
  · have unrejected : ¬ Rejected request loader := by
      rintro ⟨package, required, rejects⟩
      exact rejects (covered.mp accepted package required)
    rw [or_iff_right unrejected]
    constructor
    · intro known
      refine ⟨fun package demanded _ => known accepted package demanded, ?_⟩
      intro package required candidates loaded empty
      rcases known accepted package required.demanded with there | ⟨cause, failed, -⟩
      · exact there (by rw [catalogOf_of_ok loaded, empty, List.map_nil])
      · rw [loaded] at failed
        cases failed
    · intro whole _ package demanded
      by_cases required : request.Required (catalogOf loader.releasesForName) package
      · rcases covered.mp accepted package required with there | ⟨-, absent | ⟨candidates, loaded, empty⟩⟩
        · exact .inl there
        · exact .inr absent
        · exact absurd empty (whole.required package required candidates loaded)
      · exact whole.demanded package demanded required
  · have rejected : Rejected request loader := by
      by_contra none
      refine accepted (covered.mpr fun package required => ?_)
      by_contra rejects
      exact none ⟨package, required, rejects⟩
    exact iff_of_true (fun passes => absurd passes accepted) (.inl rejected)

namespace Small

/-- One package without dependencies is not absent. -/
def leaf (package : PackageName) : List PackageRelease :=
  if package = rcpp then [release rcpp newer []] else []

/-- A snapshot that covers one package without dependencies. -/
def leafSnapshot : ReadOnlySnapshotCandidateLoader :=
  ⟨"partial", OrderedMap.empty.insert rcpp
    (.ok ⟨rcpp, .present, [⟨release rcpp newer [], .current⟩], []⟩)⟩

/-- Nothing is followed in the snapshot. -/
theorem leafSnapshot_successors {request : ClosureRequest} {package dependency : PackageName}
    (edge : dependency ∈ request.successors (catalogOf leafSnapshot.releasesForName) package) :
    False := by
  obtain ⟨release', member, declared, inside, -⟩ := edge
  by_cases same : package = rcpp
  · have only : catalogOf leafSnapshot.releasesForName rcpp = [release rcpp newer []] := rfl
    rw [same, only] at member
    obtain rfl := List.mem_singleton.mp member
    cases inside
  · have missing : leafSnapshot.histories.get? package = none := by
      rw [leafSnapshot, OrderedMap.get?_insert, if_neg same, OrderedMap.get?_empty]
    have outside : leafSnapshot.releasesForName package = .error
        ⟨.metadataInvalid, "metadata snapshot is partial for missing package " ++ package.text⟩ := by
      unfold ReadOnlySnapshotCandidateLoader.releasesForName
      rw [missing]
      rfl
    rw [catalogOf_of_error outside] at member
    cases member

/-- The roots of a closure for one root. -/
theorem requiredRoots_of_mem {root package : PackageName} {request : ClosureRequest}
    (roots : request.rootRequirements = (closureOf root).rootRequirements)
    (member : package ∈ request.requiredRoots) : package = root := by
  obtain ⟨requirement, kept, rfl⟩ := List.mem_map.mp (OrderedSet.mem_ofList.mp member)
  rw [roots] at kept
  obtain rfl := List.mem_singleton.mp (List.mem_of_mem_filter kept)
  rfl

/-- A check that starts at the package that the snapshot covers succeeds. -/
theorem leafSnapshot_isCovered {request : ClosureRequest}
    (roots : request.rootRequirements = (closureOf rcpp).rootRequirements) :
    IsCovered request leafSnapshot.releasesForName := by
  refine (isCovered_iff leafSnapshot.finite_catalogOf).mpr fun package required => .inl ?_
  cases required with
  | seed member =>
    rw [requiredRoots_of_mem roots member]
    exact List.cons_ne_nil _ _
  | step _ edge => exact (leafSnapshot_successors edge).elim

end Small

/-- A snapshot is reused for the request it was published for exactly when no package that the
required roots lead to is absent; and a check that succeeds speaks for the whole closure exactly
when nothing that it does not look at is outside of what the loader knows. -/
theorem ensureCranClosureIsCovered_iff (request : ClosureRequest) :
    (∀ (catalog : PackageName → List PackageRelease) (refresh : RefreshBatch) (fuel : Nat)
      (loader : ReadOnlySnapshotCandidateLoader),
      {package | catalog package ≠ []}.Finite → AnswersFrom catalog refresh →
      prepareCold request refresh fuel = some (.ok (some loader)) →
      (IsCovered request loader.releasesForName ↔
        ∀ package, request.Required catalog package → catalog package ≠ [])) ∧
    ∀ loader : ReadOnlySnapshotCandidateLoader,
      CoveredIsKnown request loader ↔ Rejected request loader ∨ Whole request loader :=
  ⟨fun _ _ _ _ finite answers prepared => isCovered_prepareCold_iff finite answers prepared,
    coveredIsKnown_iff request⟩

/-- A snapshot whose root has no dependencies is reused, and the check speaks for its closure. -/
theorem ensureCranClosureIsCovered_leaf :
    IsCovered (Small.closureOf Small.rcpp) Small.leafSnapshot.releasesForName ∧
      CoveredIsKnown (Small.closureOf Small.rcpp) Small.leafSnapshot := by
  have finite : {package | Small.leaf package ≠ []}.Finite := by
    refine (Set.finite_singleton Small.rcpp).subset fun package there => ?_
    by_contra other
    exact there (if_neg other)
  have prepared : prepareCold (Small.closureOf Small.rcpp) (Small.refreshFrom Small.leaf) 4 =
      some (.ok (some Small.leafSnapshot)) := rfl
  have alone : ∀ package dependency,
      dependency ∉ (Small.closureOf Small.rcpp).successors Small.leaf package := by
    rintro package dependency ⟨release, member, declared, inside, -⟩
    unfold Small.leaf at member
    split at member
    · obtain rfl := List.mem_singleton.mp member
      cases inside
    · cases member
  refine ⟨?_, ?_⟩
  · refine ((ensureCranClosureIsCovered_iff _).1 _ _ _ _ finite (Small.refreshFrom_answers _)
      prepared).mpr fun package required => ?_
    cases required with
    | seed member =>
      rw [Small.requiredRoots_of_mem rfl member]
      exact List.cons_ne_nil _ _
    | step _ edge => exact absurd edge (alone _ _)
  · refine ((ensureCranClosureIsCovered_iff _).2 _).mpr (.inr ⟨?_, ?_⟩)
    · intro package demanded unrequired
      rcases demanded with required | ⟨-, edge⟩
      · rcases required with required | ⟨demanded, -⟩
        · exact absurd (.seed required) unrequired
        · cases demanded
      · exact (Small.leafSnapshot_successors edge).elim
    · intro package required candidates loaded
      cases required with
      | seed member =>
        rw [Small.requiredRoots_of_mem rfl member] at loaded
        obtain rfl := Except.ok.inj loaded
        exact List.cons_ne_nil _ _
      | step _ edge => exact (Small.leafSnapshot_successors edge).elim

/-- A snapshot that was just published is not reused when a dependency of its root is absent: the
snapshot reports it as outside of its coverage. And a snapshot is reused although an optional demand
is outside of its coverage. -/
theorem ensureCranClosureIsCovered_fails :
    (∃ loader, AnswersFrom Small.diamond (Small.refreshFrom Small.diamond) ∧
      {package | Small.diamond package ≠ []}.Finite ∧
      prepareCold (Small.closureOf Small.rcpp) (Small.refreshFrom Small.diamond) 4 =
        some (.ok (some loader)) ∧
      ¬ IsCovered (Small.closureOf Small.rcpp) loader.releasesForName) ∧
    ∃ request : ClosureRequest, Small.zoo ∈ request.optionalDemands ∧
      IsCovered request Small.leafSnapshot.releasesForName ∧
      Small.leafSnapshot.releasesForName Small.zoo = .error
        ⟨.metadataInvalid, "metadata snapshot is partial for missing package zoo"⟩ ∧
      ¬ CoveredIsKnown request Small.leafSnapshot := by
  constructor
  · obtain ⟨loader, prepared⟩ : ∃ loader, prepareCold (Small.closureOf Small.rcpp)
        (Small.refreshFrom Small.diamond) 4 = some (.ok (some loader)) := ⟨_, rfl⟩
    refine ⟨loader, Small.refreshFrom_answers _, Small.diamond_finite, prepared, ?_⟩
    rw [isCovered_prepareCold_iff Small.diamond_finite (Small.refreshFrom_answers _) prepared]
    intro present
    have root : Small.rcpp ∈ (Small.closureOf Small.rcpp).requiredRoots := by decide +kernel
    have edge : Small.zoo ∈ (Small.closureOf Small.rcpp).successors Small.diamond Small.rcpp :=
      ⟨_, List.mem_cons_self, _, List.mem_cons_self, by decide +kernel, rfl⟩
    exact present Small.zoo (.step (.seed root) edge) rfl
  · have outside : Small.leafSnapshot.releasesForName Small.zoo = .error
        ⟨.metadataInvalid, "metadata snapshot is partial for missing package zoo"⟩ := rfl
    have covered : IsCovered { Small.closureOf Small.rcpp with optionalDemands := [Small.zoo] }
        Small.leafSnapshot.releasesForName := Small.leafSnapshot_isCovered rfl
    refine ⟨{ Small.closureOf Small.rcpp with optionalDemands := [Small.zoo] },
      List.mem_cons_self, covered, outside, fun known => ?_⟩
    rcases known covered Small.zoo (.seed (.inr ⟨List.mem_cons_self, rfl⟩)) with
      there | ⟨cause, failed, notFound⟩
    · exact there (catalogOf_of_error outside)
    · rw [outside] at failed
      obtain rfl := Except.error.inj failed
      cases notFound

end Rsolve
