import Rsolve.Core.Constraints
import Rsolve.Lib.Levels
import Rsolve.Lib.Ordered
import Rsolve.Orchestration.DemandPlan
import Rsolve.Orchestration.Loaders

/-!
# The closure that a CRAN refresh acquires

Before a snapshot is published, the packages that a resolution may look at are collected in rounds.
A round refreshes the names that no round looked at yet, drops the optional ones that CRAN does not
have, and adds what the candidates of the others depend on.
-/
open Keyed Checked Ordered Levels

namespace Rsolve

/-- `CranCandidateSnapshot` — what a refresh has acquired so far. -/
structure CranCandidateSnapshot where
  /-- The observations of every refreshed package. -/
  candidates : OrderedMap PackageName (List RawCandidateObservation)
  /-- The quarantined versions of every refreshed package. -/
  quarantined : OrderedMap PackageName (List QuarantinedCandidate)

namespace CranCandidateSnapshot

/-- `CranCandidateSnapshot::load`, for the key of an installed name. -/
def load (snapshot : CranCandidateSnapshot) (name : PackageName) :
    Except CandidateLoadError RawCandidateLoadResult :=
  match snapshot.candidates.get? name with
  | none => .error ⟨.notFound, "CRAN snapshot has not refreshed package " ++ name.text⟩
  | some candidates => .ok ⟨candidates, (snapshot.quarantined.get? name).getD []⟩

end CranCandidateSnapshot

/-- The debug text of the key of an installed name. -/
def debugInstalledName (name : PackageName) : String :=
  "InstalledName(PackageName(\"" ++ name.text ++ "\"))"

/-- `snapshot_releases`. -/
def snapshotReleases (snapshot : CranCandidateSnapshot) (name : PackageName) :
    Except CandidateLoadError (List PackageRelease) := do
  let result ← snapshot.load name
  ensure (¬ (result.observations.isEmpty ∧ ¬ result.quarantined.isEmpty))
    ⟨.metadataInvalid, "CRAN snapshot has no eligible releases for " ++ debugInstalledName name⟩
  return result.observations.map RawCandidateObservation.release

/-- `package_allowed` — an allowlist is sorted, so that its binary search finds its members. -/
def packageAllowed (allowlist : Option (List PackageName)) (package : PackageName) : Bool :=
  allowlist.all (fun packages => packages.contains package)

/-- `is_remote_cran_root`. -/
def isRemoteCranRoot (requirement : RootRequirement) : Bool :=
  if requirement.package.name.text == "R" then false
  else
    match requirement.package.source with
    | .any => isRemoteName requirement.package.name
    | _ => true

/-- What a closure is collected for. -/
structure ClosureRequest where
  /-- The root requirements. -/
  rootRequirements : List RootRequirement
  /-- The packages that the repository is limited to. -/
  packageAllowlist : Option (List PackageName)
  /-- The packages that another provider may have as well. -/
  optionalDemands : List PackageName

namespace ClosureRequest

variable (request : ClosureRequest)

/-- The roots that CRAN has to have. -/
def requiredRoots : OrderedSet PackageName :=
  OrderedSet.ofList ((request.rootRequirements.filter (fun root =>
    isRemoteCranRoot root && packageAllowed request.packageAllowlist root.package.name)).map
      (fun root => root.package.name))

/-- The roots whose suggested packages are required. -/
def directSuggestRoots : OrderedSet PackageName :=
  OrderedSet.ofList ((request.rootRequirements.filter (fun root =>
    root.expansion == .directSuggests)).map (fun root => root.package.name))

/-- Whether a closure follows a dependency of a package. -/
def follows (package : PackageName) (dependency : DeclaredDependency) : Bool :=
  (dependency.kind.isHard ||
      (decide (package ∈ request.directSuggestRoots) && dependency.kind == .suggests)) &&
    isRemoteName dependency.package.name &&
    packageAllowed request.packageAllowlist dependency.package.name

end ClosureRequest

/-- The refresh callback: what a batch of packages is answered with. -/
abbrev RefreshBatch := List PackageName → Except CandidateLoadError CranCandidateSnapshot

/-- The sets that the rounds of a collection change. -/
structure ClosureProgress where
  /-- The packages to publish. -/
  closure : OrderedSet PackageName
  /-- The packages that CRAN need not have. -/
  optional : OrderedSet PackageName
  /-- The packages that a round has looked at. -/
  refreshed : OrderedSet PackageName

namespace ClosureProgress

/-- The sets before the first round. -/
def initial (request : ClosureRequest) : ClosureProgress where
  closure := request.requiredRoots.extend
    (request.optionalDemands.filter (packageAllowed request.packageAllowlist))
  optional := .ofList request.optionalDemands
  refreshed := .empty

/-- The names that no round has looked at. -/
def batch (progress : ClosureProgress) : List PackageName :=
  progress.closure.difference progress.refreshed

/-- Leave out a package that CRAN does not have. -/
def drop (progress : ClosureProgress) (package : PackageName) : ClosureProgress :=
  { progress with
    closure := progress.closure.remove package
    refreshed := progress.refreshed.add package }

/-- Add a dependency. It is optional unless it is a required root. -/
def addDependency (request : ClosureRequest) (progress : ClosureProgress)
    (dependency : PackageName) : ClosureProgress :=
  { progress with
    optional := if dependency ∈ request.requiredRoots then progress.optional
      else progress.optional.add dependency
    closure := progress.closure.add dependency }

/-- The packages that the candidates of a package are followed to. -/
def dependenciesOf (request : ClosureRequest) (package : PackageName)
    (releases : List PackageRelease) : List PackageName :=
  (releases.flatMap (fun release => release.declaredDependencies.filter (request.follows package))).map
    (fun dependency => dependency.package.name)

/-- Mark a package as looked at. -/
def finish (progress : ClosureProgress) (package : PackageName) : ClosureProgress :=
  { progress with refreshed := progress.refreshed.add package }

/-- The names of a batch one by one, after the batch as a whole was not found. -/
def retry (refresh : RefreshBatch) : List PackageName → ClosureProgress →
    Except CandidateLoadError (List (PackageName × CranCandidateSnapshot) × ClosureProgress)
  | [], progress => .ok ([], progress)
  | package :: rest, progress =>
    match refresh [package] with
    | .ok snapshot => do
      let (fetched, progress) ← retry refresh rest progress
      return ((package, snapshot) :: fetched, progress)
    | .error cause =>
      if package ∈ progress.optional ∧ cause.category = .notFound then
        retry refresh rest (progress.drop package)
      else .error cause

/-- The names of a batch with what they were answered with. -/
def fetch (refresh : RefreshBatch) (batch : List PackageName) (progress : ClosureProgress) :
    Except CandidateLoadError (List (PackageName × CranCandidateSnapshot) × ClosureProgress) :=
  match refresh batch with
  | .ok snapshot => .ok (batch.map (fun package => (package, snapshot)), progress)
  | .error cause =>
    if cause.category = .notFound then retry refresh batch progress else .error cause

/-- Look at the candidates of a package. -/
def inspect (request : ClosureRequest) (progress : ClosureProgress)
    (fetched : PackageName × CranCandidateSnapshot) : Except CandidateLoadError ClosureProgress := do
  let candidates ← snapshotReleases fetched.2 fetched.1
  if candidates.isEmpty ∧ fetched.1 ∈ progress.optional then
    return progress.drop fetched.1
  else
    return ((dependenciesOf request fetched.1 candidates).foldl (addDependency request)
      progress).finish fetched.1

/-- One round. -/
def round (request : ClosureRequest) (refresh : RefreshBatch) (progress : ClosureProgress) :
    Except CandidateLoadError ClosureProgress := do
  let (fetched, progress) ← fetch refresh progress.batch progress
  fetched.foldlM (inspect request) progress

/-- The rounds, at most as many as the fuel. -/
def rounds (request : ClosureRequest) (refresh : RefreshBatch) :
    Nat → ClosureProgress → Option (Except CandidateLoadError (List PackageName))
  | 0, _ => none
  | fuel + 1, progress =>
    if progress.batch = [] then some (.ok progress.closure.toList)
    else
      match round request refresh progress with
      | .error cause => some (.error cause)
      | .ok progress => rounds request refresh fuel progress

/-- More rounds change nothing that some rounds have ended with. -/
theorem rounds_mono {request : ClosureRequest} {refresh : RefreshBatch} {fuel more : Nat}
    {progress : ClosureProgress} {outcome : Except CandidateLoadError (List PackageName)}
    (ended : rounds request refresh fuel progress = some outcome) (le : fuel ≤ more) :
    rounds request refresh more progress = some outcome := by
  induction fuel generalizing more progress with
  | zero => cases ended
  | succ fuel ih =>
    obtain ⟨more, rfl⟩ := Nat.exists_eq_add_of_le' (Nat.one_le_of_lt le)
    rw [rounds] at ended ⊢
    split
    · next empty => rwa [if_pos empty] at ended
    · next left =>
      rw [if_neg left] at ended
      cases ran : round request refresh progress with
      | error cause => rwa [ran] at ended
      | ok next =>
        rw [ran] at ended
        exact ih ended (Nat.le_of_succ_le_succ le)

end ClosureProgress

/-- `collect_cran_dependency_closure_with_metrics_and_optional`, for at most some rounds. -/
def collectCranDependencyClosure (request : ClosureRequest) (refresh : RefreshBatch) (fuel : Nat) :
    Option (Except CandidateLoadError (List PackageName)) :=
  ClosureProgress.rounds request refresh fuel (.initial request)

/-- More rounds change nothing that a collection has ended with. -/
theorem collectCranDependencyClosure_mono {request : ClosureRequest} {refresh : RefreshBatch}
    {fuel more : Nat} {outcome : Except CandidateLoadError (List PackageName)}
    (ended : collectCranDependencyClosure request refresh fuel = some outcome) (le : fuel ≤ more) :
    collectCranDependencyClosure request refresh more = some outcome :=
  ClosureProgress.rounds_mono ended le

/-- A refresh answers as a catalog has it: a batch with an absent package is not found, any other
batch is answered with the candidates of its packages. A package is absent when it has no
candidate. -/
structure AnswersFrom (catalog : PackageName → List PackageRelease) (refresh : RefreshBatch) :
    Prop where
  /-- An absent package is not found, and neither is the batch that it is in. -/
  absent : ∀ batch, (∃ package ∈ batch, catalog package = []) →
    ∃ cause, refresh batch = .error cause ∧ cause.category = .notFound
  /-- The packages of a batch without absent ones are answered with their candidates. -/
  present : ∀ batch, (∀ package ∈ batch, catalog package ≠ []) →
    ∃ snapshot, refresh batch = .ok snapshot ∧ ∀ package ∈ batch, ∃ result,
      snapshot.load package = .ok result ∧
        result.observations.map RawCandidateObservation.release = catalog package

namespace ClosureRequest

variable (request : ClosureRequest) (catalog : PackageName → List PackageRelease)

/-- Where a closure starts: the required roots and the allowed optional demands. -/
def seeds : Set PackageName :=
  {package | package ∈ request.requiredRoots ∨
    (package ∈ request.optionalDemands ∧ packageAllowed request.packageAllowlist package)}

/-- What the candidates of a package are followed to. -/
def successors (package : PackageName) : Set PackageName :=
  {dependency | ∃ release ∈ catalog package, ∃ declared ∈ release.declaredDependencies,
    request.follows package declared ∧ declared.package.name = dependency}

/-- The least set with the seeds that is closed under what candidates are followed to. -/
abbrev Demanded (package : PackageName) : Prop :=
  Reached request.seeds (request.successors catalog) package

/-- A required root is absent and not an optional demand. -/
def LacksRoot : Prop :=
  ∃ package ∈ request.requiredRoots, package ∉ request.optionalDemands ∧ catalog package = []

/-- A demanded package is absent, and a candidate of a package that is not looked at in an earlier
round depends on it. -/
def Reinserts (package : PackageName) : Prop :=
  catalog package = [] ∧ ∃ source, request.Demanded catalog source ∧
    package ∈ request.successors catalog source ∧
    NoFarther request.seeds (request.successors catalog) package source

end ClosureRequest

namespace ClosureProgress

variable {request : ClosureRequest} {catalog : PackageName → List PackageRelease}
  {refresh : RefreshBatch} {progress : ClosureProgress}

/-- The dependencies of a package are what its candidates are followed to. -/
theorem mem_dependenciesOf {package dependency : PackageName} :
    dependency ∈ dependenciesOf request package (catalog package) ↔
      dependency ∈ request.successors catalog package := by
  simp only [dependenciesOf, ClosureRequest.successors, List.mem_map, List.mem_flatMap,
    List.mem_filter, Set.mem_ofPred_eq]
  constructor
  · rintro ⟨declared, ⟨release, member, inside, followed⟩, same⟩
    exact ⟨release, member, declared, inside, followed, same⟩
  · rintro ⟨release, member, declared, inside, followed, same⟩
    exact ⟨declared, ⟨release, member, inside, followed⟩, same⟩

/-- A package with something to follow is not absent. -/
theorem present_of_successor {package dependency : PackageName}
    (edge : dependency ∈ request.successors catalog package) : catalog package ≠ [] := by
  rintro absent
  obtain ⟨release, member, -⟩ := edge
  rw [absent] at member
  cases member

/-- What a snapshot was answered with is read back from it. -/
theorem snapshotReleases_of_load {snapshot : CranCandidateSnapshot} {package : PackageName}
    {result : RawCandidateLoadResult} (loaded : snapshot.load package = .ok result)
    (releases : result.observations.map RawCandidateObservation.release = catalog package)
    (present : catalog package ≠ []) :
    snapshotReleases snapshot package = .ok (catalog package) := by
  have observed : result.observations ≠ [] := by
    rintro empty
    exact present (by rw [← releases, empty, List.map_nil])
  have usable : ¬ (result.observations.isEmpty ∧ ¬ result.quarantined.isEmpty) := by
    simp [observed]
  unfold snapshotReleases
  simp only [loaded, ok_bind, ensure_of usable, releases]
  rfl

section Dropping

variable {packages : List PackageName}

/-- Dropping packages leaves the optional ones. -/
theorem optional_foldl_drop : (packages.foldl drop progress).optional = progress.optional := by
  induction packages generalizing progress with
  | nil => rfl
  | cons first rest ih => exact ih

/-- The closure without the dropped packages. -/
theorem mem_closure_foldl_drop {package : PackageName} :
    package ∈ (packages.foldl drop progress).closure ↔
      package ∈ progress.closure ∧ package ∉ packages := by
  induction packages generalizing progress with
  | nil => simp
  | cons first rest ih =>
    rw [List.foldl_cons, ih, drop, OrderedSet.mem_remove, List.mem_cons]
    tauto

/-- Dropped packages have been looked at. -/
theorem mem_refreshed_foldl_drop {package : PackageName} :
    package ∈ (packages.foldl drop progress).refreshed ↔
      package ∈ progress.refreshed ∨ package ∈ packages := by
  induction packages generalizing progress with
  | nil => simp
  | cons first rest ih =>
    rw [List.foldl_cons, ih, drop, OrderedSet.mem_add, List.mem_cons]
    tauto

end Dropping

/-- The packages of a list that a catalog has. -/
def presentIn (catalog : PackageName → List PackageRelease) (packages : List PackageName) :
    List PackageName :=
  packages.filter (fun package => !(catalog package).isEmpty)

/-- The packages of a list that a catalog does not have. -/
def absentIn (catalog : PackageName → List PackageRelease) (packages : List PackageName) :
    List PackageName :=
  packages.filter (fun package => (catalog package).isEmpty)

/-- The present packages of a list. -/
theorem mem_presentIn {packages : List PackageName} {package : PackageName} :
    package ∈ presentIn catalog packages ↔ package ∈ packages ∧ catalog package ≠ [] := by
  simp [presentIn]

/-- The absent packages of a list. -/
theorem mem_absentIn {packages : List PackageName} {package : PackageName} :
    package ∈ absentIn catalog packages ↔ package ∈ packages ∧ catalog package = [] := by
  simp [absentIn]

/-- What a batch is answered with are the candidates of its present packages. -/
def Fetched (catalog : PackageName → List PackageRelease) (packages : List PackageName)
    (fetched : List (PackageName × CranCandidateSnapshot)) : Prop :=
  fetched.map Prod.fst = presentIn catalog packages ∧
    ∀ entry ∈ fetched, snapshotReleases entry.2 entry.1 = .ok (catalog entry.1)

/-- One by one, the present packages of a batch are fetched and the optional absent ones dropped. -/
theorem retry_eq (answers : AnswersFrom catalog refresh) {packages : List PackageName}
    (optional : ∀ package ∈ packages, catalog package = [] → package ∈ progress.optional) :
    ∃ fetched, retry refresh packages progress =
        .ok (fetched, (absentIn catalog packages).foldl drop progress) ∧
      Fetched catalog packages fetched := by
  induction packages generalizing progress with
  | nil => exact ⟨[], rfl, rfl, by simp⟩
  | cons package rest ih =>
    by_cases absent : catalog package = []
    · obtain ⟨cause, failed, notFound⟩ := answers.absent [package] ⟨package, by simp, absent⟩
      have skipped : package ∈ progress.optional ∧ cause.category = .notFound :=
        ⟨optional package List.mem_cons_self absent, notFound⟩
      obtain ⟨fetched, run, names, answered⟩ := @ih (progress.drop package)
        fun other member missing => optional other (List.mem_cons_of_mem _ member) missing
      refine ⟨fetched, ?_, ?_, answered⟩
      · rw [retry, failed]
        simp only [skipped, and_self, if_true, run]
        simp [absentIn, absent]
      · simp [names, presentIn, absent]
    · obtain ⟨snapshot, answer, candidates⟩ := answers.present [package] (by simpa using absent)
      obtain ⟨result, loaded, releases⟩ := candidates package List.mem_cons_self
      obtain ⟨fetched, run, names, answered⟩ := @ih progress
        fun other member missing => optional other (List.mem_cons_of_mem _ member) missing
      refine ⟨(package, snapshot) :: fetched, ?_, ?_, ?_⟩
      · rw [retry, answer]
        simp only [run, ok_bind]
        simp [absentIn, absent]
        rfl
      · simp [names, presentIn, absent]
      · intro entry member
        rcases List.mem_cons.mp member with rfl | member
        · exact snapshotReleases_of_load loaded releases absent
        · exact answered entry member

/-- A round fetches the present packages of its batch and drops the absent ones. -/
theorem fetch_eq (answers : AnswersFrom catalog refresh) {packages : List PackageName}
    (optional : ∀ package ∈ packages, catalog package = [] → package ∈ progress.optional) :
    ∃ fetched, fetch refresh packages progress =
        .ok (fetched, (absentIn catalog packages).foldl drop progress) ∧
      Fetched catalog packages fetched := by
  by_cases missing : ∃ package ∈ packages, catalog package = []
  · obtain ⟨cause, failed, notFound⟩ := answers.absent packages missing
    obtain ⟨fetched, run, facts⟩ := retry_eq answers optional
    exact ⟨fetched, by simp only [fetch, failed, notFound, if_true, run], facts⟩
  · simp only [not_exists, not_and] at missing
    obtain ⟨snapshot, answer, candidates⟩ := answers.present packages missing
    have none : absentIn catalog packages = [] := by
      simpa [absentIn, List.filter_eq_nil_iff] using missing
    have all : presentIn catalog packages = packages := by
      simpa [presentIn, List.filter_eq_self] using missing
    refine ⟨packages.map (fun package => (package, snapshot)), ?_, ?_, ?_⟩
    · simp only [fetch, answer, none, List.foldl_nil]
    · rw [all, List.map_map]
      exact List.map_id packages
    · intro entry member
      obtain ⟨package, inside, rfl⟩ := List.mem_map.mp member
      obtain ⟨result, loaded, releases⟩ := candidates package inside
      exact snapshotReleases_of_load loaded releases (missing package inside)

/-- A batch with an absent package that is not optional fails. -/
theorem retry_eq_error (answers : AnswersFrom catalog refresh) {packages : List PackageName}
    (required : ∃ package ∈ packages, catalog package = [] ∧ package ∉ progress.optional) :
    ∃ cause, retry refresh packages progress = .error cause := by
  induction packages generalizing progress with
  | nil => simp at required
  | cons package rest ih =>
    by_cases absent : catalog package = []
    · obtain ⟨cause, failed, notFound⟩ := answers.absent [package] ⟨package, by simp, absent⟩
      by_cases optional : package ∈ progress.optional
      · have later : ∃ other ∈ rest, catalog other = [] ∧ other ∉ (progress.drop package).optional := by
          obtain ⟨other, member, missing, needed⟩ := required
          rcases List.mem_cons.mp member with rfl | member
          · exact absurd optional needed
          · exact ⟨other, member, missing, needed⟩
        obtain ⟨cause', ended⟩ := ih later
        refine ⟨cause', ?_⟩
        rw [retry, failed]
        simp only [optional, notFound, and_self, if_true, ended]
      · refine ⟨cause, ?_⟩
        rw [retry, failed]
        simp only [optional, false_and, if_false]
    · obtain ⟨snapshot, answer, -⟩ := answers.present [package] (by simpa using absent)
      have later : ∃ other ∈ rest, catalog other = [] ∧ other ∉ progress.optional := by
        obtain ⟨other, member, missing, needed⟩ := required
        rcases List.mem_cons.mp member with rfl | member
        · exact absurd missing absent
        · exact ⟨other, member, missing, needed⟩
      obtain ⟨cause, ended⟩ := ih later
      refine ⟨cause, ?_⟩
      rw [retry, answer]
      simp only [ended, error_bind]

/-- What a round adds for the packages that it fetched. -/
structure Absorbs (request : ClosureRequest) (catalog : PackageName → List PackageRelease)
    (packages : List PackageName) (progress next : ClosureProgress) : Prop where
  /-- The closure gains what the packages are followed to. -/
  closure : ∀ package, package ∈ next.closure ↔ package ∈ progress.closure ∨
    ∃ source ∈ packages, package ∈ request.successors catalog source
  /-- What the packages are followed to is optional unless it is a required root. -/
  optional : ∀ package, package ∈ next.optional ↔ package ∈ progress.optional ∨
    (package ∉ request.requiredRoots ∧
      ∃ source ∈ packages, package ∈ request.successors catalog source)
  /-- The packages have been looked at. -/
  refreshed : ∀ package, package ∈ next.refreshed ↔
    package ∈ progress.refreshed ∨ package ∈ packages

section Adding

variable {dependencies : List PackageName} {package : PackageName}

/-- The closure after some dependencies are added. -/
theorem mem_closure_foldl_add :
    package ∈ (dependencies.foldl (addDependency request) progress).closure ↔
      package ∈ progress.closure ∨ package ∈ dependencies := by
  induction dependencies generalizing progress with
  | nil => simp
  | cons first rest ih =>
    rw [List.foldl_cons, ih, addDependency, OrderedSet.mem_add, List.mem_cons]
    tauto

/-- The optional packages after some dependencies are added. -/
theorem mem_optional_foldl_add :
    package ∈ (dependencies.foldl (addDependency request) progress).optional ↔
      package ∈ progress.optional ∨ (package ∉ request.requiredRoots ∧ package ∈ dependencies) := by
  induction dependencies generalizing progress with
  | nil => simp
  | cons first rest ih =>
    have added : package ∈ (addDependency request progress first).optional ↔
        package ∈ progress.optional ∨ (package ∉ request.requiredRoots ∧ package = first) := by
      unfold addDependency
      by_cases required : first ∈ request.requiredRoots
      · simp only [required, if_true]
        constructor
        · exact .inl
        · rintro (member | ⟨other, rfl⟩)
          · exact member
          · exact absurd required other
      · simp only [required, if_false, OrderedSet.mem_add]
        constructor
        · rintro (rfl | member)
          · exact .inr ⟨required, rfl⟩
          · exact .inl member
        · rintro (member | ⟨-, rfl⟩)
          · exact .inr member
          · exact .inl rfl
    rw [List.foldl_cons, ih, added, List.mem_cons]
    tauto

/-- Adding dependencies looks at no package. -/
theorem refreshed_foldl_add :
    (dependencies.foldl (addDependency request) progress).refreshed = progress.refreshed := by
  induction dependencies generalizing progress with
  | nil => rfl
  | cons first rest ih => exact ih

end Adding

/-- Looking at what was fetched adds what it is followed to. -/
theorem inspect_absorbs {fetched : List (PackageName × CranCandidateSnapshot)}
    (answered : ∀ entry ∈ fetched, snapshotReleases entry.2 entry.1 = .ok (catalog entry.1))
    (present : ∀ entry ∈ fetched, catalog entry.1 ≠ []) :
    ∃ next, fetched.foldlM (inspect request) progress = .ok next ∧
      Absorbs request catalog (fetched.map Prod.fst) progress next := by
  induction fetched generalizing progress with
  | nil => exact ⟨progress, rfl, by simp, by simp, by simp⟩
  | cons entry rest ih =>
    have usable : ¬ ((catalog entry.1).isEmpty ∧ entry.1 ∈ progress.optional) := by
      simp [present entry List.mem_cons_self]
    have first : inspect request progress entry =
        .ok (((dependenciesOf request entry.1 (catalog entry.1)).foldl (addDependency request)
          progress).finish entry.1) := by
      unfold inspect
      simp only [answered entry List.mem_cons_self, ok_bind, if_neg usable]
      rfl
    obtain ⟨next, run, facts⟩ := @ih (((dependenciesOf request entry.1 (catalog entry.1)).foldl
        (addDependency request) progress).finish entry.1)
      (fun other member => answered other (List.mem_cons_of_mem _ member))
      (fun other member => present other (List.mem_cons_of_mem _ member))
    refine ⟨next, ?_, ?_, ?_, ?_⟩
    · rw [List.foldlM_cons, first, ok_bind, run]
    · intro package
      rw [facts.closure, finish, mem_closure_foldl_add, mem_dependenciesOf]
      simp only [List.map_cons, List.mem_cons, exists_eq_or_imp]
      tauto
    · intro package
      rw [facts.optional, finish, mem_optional_foldl_add, mem_dependenciesOf]
      simp only [List.map_cons, List.mem_cons, exists_eq_or_imp]
      tauto
    · intro package
      rw [facts.refreshed, finish, OrderedSet.mem_add, refreshed_foldl_add]
      simp only [List.map_cons, List.mem_cons]
      tauto

/-- The sets before a round: what is nearer than the round has been looked at, and the closure is
what a search by rounds keeps. -/
structure At (request : ClosureRequest) (catalog : PackageName → List PackageRelease) (n : Nat)
    (progress : ClosureProgress) : Prop where
  /-- What has been looked at. -/
  refreshed : ∀ package, package ∈ progress.refreshed ↔
    package ∈ before request.seeds (request.successors catalog) n
  /-- What is in the closure. -/
  closure : ∀ package, package ∈ progress.closure ↔
    Kept request.seeds (request.successors catalog) (fun package => catalog package = []) n package
  /-- What is not a required root is optional. -/
  optional : ∀ package ∈ within request.seeds (request.successors catalog) n,
    package ∉ request.requiredRoots → package ∈ progress.optional
  /-- The optional demands are optional, and no other required root is. -/
  demanded : ∀ package, package ∈ request.optionalDemands ∨ package ∈ request.requiredRoots →
    (package ∈ progress.optional ↔ package ∈ request.optionalDemands)

/-- The sets before the first round. -/
theorem At.initial : At request catalog 0 (.initial request) where
  refreshed := fun package => iff_of_false (OrderedSet.not_mem_empty package) id
  closure := by
    intro package
    simp only [ClosureProgress.initial, OrderedSet.mem_extend, List.mem_filter]
    exact ⟨fun member => ⟨member, fun near => near.elim⟩, fun near => near.1⟩
  optional := by
    rintro package (required | ⟨demanded, -⟩) other
    · exact absurd required other
    · exact OrderedSet.mem_ofList.mpr demanded
  demanded := fun package _ => OrderedSet.mem_ofList

/-- The batch of a round is what is as far as the round. -/
theorem At.mem_batch {n : Nat} (at' : At request catalog n progress) {package : PackageName} :
    package ∈ progress.batch ↔ package ∈ within request.seeds (request.successors catalog) n ∧
      package ∉ before request.seeds (request.successors catalog) n := by
  rw [batch, OrderedSet.mem_difference, at'.closure, at'.refreshed]
  exact ⟨fun member => ⟨member.1.1, member.2⟩,
    fun fresh => ⟨⟨fresh.1, fun near => absurd near fresh.2⟩, fresh.2⟩⟩

/-- What is followed from the batch is what is followed from the farthest packages. -/
theorem At.followed {n : Nat} (at' : At request catalog n progress) {package : PackageName} :
    (∃ source ∈ presentIn catalog progress.batch, package ∈ request.successors catalog source) ↔
      ∃ source ∈ within request.seeds (request.successors catalog) n,
        source ∉ before request.seeds (request.successors catalog) n ∧
          package ∈ request.successors catalog source := by
  constructor
  · rintro ⟨source, member, edge⟩
    obtain ⟨near, fresh⟩ := at'.mem_batch.mp (mem_presentIn.mp member).1
    exact ⟨source, near, fresh, edge⟩
  · rintro ⟨source, near, fresh, edge⟩
    have inside : source ∈ progress.batch := at'.mem_batch.mpr ⟨near, fresh⟩
    exact ⟨source, mem_presentIn.mpr ⟨inside, present_of_successor edge⟩, edge⟩

/-- A round leads from one level to the next. -/
theorem At.round {n : Nat} (at' : At request catalog n progress)
    (answers : AnswersFrom catalog refresh) (complete : ¬ request.LacksRoot catalog) :
    ∃ next, progress.round request refresh = .ok next ∧ At request catalog (n + 1) next := by
  have optional : ∀ package ∈ progress.batch, catalog package = [] →
      package ∈ progress.optional := by
    intro package member absent
    by_cases required : package ∈ request.requiredRoots
    · rw [at'.demanded package (.inr required)]
      by_contra needed
      exact complete ⟨package, required, needed, absent⟩
    · exact at'.optional package (at'.mem_batch.mp member).1 required
  obtain ⟨fetched, fetching, names, answered⟩ := fetch_eq answers optional
  have there : ∀ entry ∈ fetched, catalog entry.1 ≠ [] := by
    intro entry member
    have inside : entry.1 ∈ presentIn catalog progress.batch :=
      names ▸ List.mem_map_of_mem member
    exact (mem_presentIn.mp inside).2
  obtain ⟨next, inspecting, facts⟩ := inspect_absorbs answered there
  rw [names] at facts
  refine ⟨next, ?_, ?_, ?_, ?_, ?_⟩
  · unfold ClosureProgress.round
    rw [fetching]
    exact inspecting
  · intro package
    rw [facts.refreshed, mem_refreshed_foldl_drop, mem_absentIn, mem_presentIn, at'.refreshed,
      at'.mem_batch]
    constructor
    · rintro ((near | ⟨⟨near, -⟩, -⟩) | ⟨⟨near, -⟩, -⟩)
      · exact within_of_before near
      · exact near
      · exact near
    · intro near
      by_cases nearer : package ∈ before request.seeds (request.successors catalog) n
      · exact .inl (.inl nearer)
      · by_cases absent : catalog package = []
        · exact .inl (.inr ⟨⟨near, nearer⟩, absent⟩)
        · exact .inr ⟨⟨near, nearer⟩, absent⟩
  · intro package
    rw [facts.closure, mem_closure_foldl_drop, mem_absentIn, at'.followed, at'.closure,
      at'.mem_batch, kept_succ]
  · intro package near other
    rw [facts.optional, optional_foldl_drop, at'.followed]
    rcases mem_within_succ_iff_fresh.mp near with near | reached
    · exact .inl (at'.optional package near other)
    · exact .inr ⟨other, reached⟩
  · intro package known
    rw [facts.optional, optional_foldl_drop, ← at'.demanded package known]
    constructor
    · rintro (member | ⟨other, -⟩)
      · exact member
      · exact (at'.demanded package known).mpr (known.resolve_right other)
    · exact .inl

/-- A search that meets a level that adds nothing ends there. -/
theorem At.ends {progress : ClosureProgress} {n : Nat} (at' : At request catalog n progress)
    (answers : AnswersFrom catalog refresh) (complete : ¬ request.LacksRoot catalog)
    {last : Nat} (stable : within request.seeds (request.successors catalog) last ⊆
      before request.seeds (request.successors catalog) last) (early : n ≤ last) :
    ∃ closure, (∀ fuel, last < fuel + n → rounds request refresh fuel progress =
        some (.ok closure)) ∧
      ∀ package, package ∈ closure ↔ request.Demanded catalog package ∧
        (catalog package = [] → request.Reinserts catalog package) := by
  by_cases empty : progress.batch = []
  · refine ⟨progress.closure.toList, fun fuel more => ?_, fun package => ?_⟩
    · cases fuel with
      | zero => omega
      | succ fuel => rw [rounds, if_pos empty]
    · have done : within request.seeds (request.successors catalog) n ⊆
          before request.seeds (request.successors catalog) n := by
        intro other near
        by_contra fresh
        have left : other ∈ progress.batch := at'.mem_batch.mpr ⟨near, fresh⟩
        rw [empty] at left
        cases left
      rw [OrderedSet.mem_toList, at'.closure, kept_iff_of_stable done]
      refine and_congr_right fun _ => ?_
      exact ⟨fun stays absent => ⟨absent, stays absent⟩, fun stays absent => (stays absent).2⟩
  · have earlier : n < last := by
      refine lt_of_le_of_ne early ?_
      rintro rfl
      refine empty (List.eq_nil_iff_forall_not_mem.mpr fun package member => ?_)
      obtain ⟨near, fresh⟩ := at'.mem_batch.mp member
      exact fresh (stable near)
    obtain ⟨next, ran, later⟩ := at'.round answers complete
    obtain ⟨closure, ended, facts⟩ := later.ends answers complete stable earlier
    refine ⟨closure, fun fuel more => ?_, facts⟩
    cases fuel with
    | zero => omega
    | succ fuel =>
      rw [rounds, if_neg empty, ran]
      exact ended fuel (by omega)
termination_by last - n

end ClosureProgress

namespace ClosureRequest

variable {request : ClosureRequest} {catalog : PackageName → List PackageRelease}
  {refresh : RefreshBatch}

/-- A package that is reinserted is demanded. -/
theorem Reinserts.demanded {package : PackageName} (reinserts : request.Reinserts catalog package) :
    request.Demanded catalog package := by
  obtain ⟨-, source, demanded, edge, -⟩ := reinserts
  exact .step demanded edge

/-- Finitely many packages are demanded when finitely many are not absent. -/
theorem finite_demanded (finite : {package | catalog package ≠ []}.Finite) :
    {package | request.Demanded catalog package}.Finite := by
  refine finite_reached ?_ ?_ ?_
  · refine ((request.requiredRoots.toList.finite_toSet).union
      (request.optionalDemands.finite_toSet)).subset ?_
    rintro package (required | ⟨demanded, -⟩)
    · exact .inl required
    · exact .inr demanded
  · refine finite.subset ?_
    rintro package ⟨dependency, edge⟩
    exact ClosureProgress.present_of_successor edge
  · intro package
    refine (List.finite_toSet
      (ClosureProgress.dependenciesOf request package (catalog package))).subset ?_
    intro dependency edge
    exact ClosureProgress.mem_dependenciesOf.mpr edge

end ClosureRequest

/-- A collection without an absent required root ends with the demanded packages, less the absent
ones that no later candidate depends on. -/
theorem collectCranDependencyClosure_ends {request : ClosureRequest}
    {catalog : PackageName → List PackageRelease} {refresh : RefreshBatch}
    (finite : {package | catalog package ≠ []}.Finite) (answers : AnswersFrom catalog refresh)
    (complete : ¬ request.LacksRoot catalog) :
    ∃ enough closure, (∀ fuel, enough ≤ fuel →
        collectCranDependencyClosure request refresh fuel = some (.ok closure)) ∧
      ∀ package, package ∈ closure ↔ request.Demanded catalog package ∧
        (catalog package = [] → request.Reinserts catalog package) := by
  obtain ⟨last, stable⟩ := exists_stable (request.finite_demanded finite)
  obtain ⟨closure, ended, facts⟩ :=
    ClosureProgress.At.initial.ends answers complete stable (Nat.zero_le last)
  exact ⟨last + 1, closure, fun fuel more => ended fuel more, facts⟩

/-- A collection with an absent required root fails in its first round. -/
theorem collectCranDependencyClosure_fails {request : ClosureRequest}
    {catalog : PackageName → List PackageRelease} {refresh : RefreshBatch}
    (answers : AnswersFrom catalog refresh) (lacks : request.LacksRoot catalog) :
    ∃ cause, ∀ fuel, 1 ≤ fuel →
      collectCranDependencyClosure request refresh fuel = some (.error cause) := by
  obtain ⟨package, required, needed, absent⟩ := lacks
  have at' := @ClosureProgress.At.initial request catalog
  have inside : package ∈ (ClosureProgress.initial request).batch :=
    at'.mem_batch.mpr ⟨.inl required, id⟩
  have unsettled : package ∉ (ClosureProgress.initial request).optional :=
    fun member => needed ((at'.demanded package (.inr required)).mp member)
  obtain ⟨cause, failed⟩ :=
    ClosureProgress.retry_eq_error answers ⟨package, inside, absent, unsettled⟩
  obtain ⟨missing, answer, notFound⟩ := answers.absent _ ⟨package, inside, absent⟩
  refine ⟨cause, fun fuel more => ?_⟩
  cases fuel with
  | zero => omega
  | succ fuel =>
    have round : (ClosureProgress.initial request).round request refresh = .error cause := by
      unfold ClosureProgress.round ClosureProgress.fetch
      simp only [answer, notFound, if_true, failed, error_bind]
    rw [collectCranDependencyClosure, ClosureProgress.rounds, if_neg (List.ne_nil_of_mem inside),
      round]

/-- A collection ends, fails exactly for an absent required root, and otherwise returns exactly the
demanded packages that have candidates. -/
def CollectsAcquirable (request : ClosureRequest) (catalog : PackageName → List PackageRelease)
    (refresh : RefreshBatch) : Prop :=
  ∃ enough outcome, (∀ fuel, enough ≤ fuel →
      collectCranDependencyClosure request refresh fuel = some outcome) ∧
    ((∃ cause, outcome = .error cause) ↔ request.LacksRoot catalog) ∧
    ∀ closure, outcome = .ok closure → ∀ package, package ∈ closure ↔
      request.Demanded catalog package ∧ catalog package ≠ []

/-- A collection returns the acquirable packages exactly when it fails, or when no absent package is
reinserted by a package that is looked at as late as it or later. -/
theorem collectsAcquirable_iff {request : ClosureRequest}
    {catalog : PackageName → List PackageRelease} {refresh : RefreshBatch}
    (finite : {package | catalog package ≠ []}.Finite) (answers : AnswersFrom catalog refresh) :
    CollectsAcquirable request catalog refresh ↔
      request.LacksRoot catalog ∨ ∀ package, ¬ request.Reinserts catalog package := by
  by_cases lacks : request.LacksRoot catalog
  · obtain ⟨cause, failed⟩ := collectCranDependencyClosure_fails answers lacks
    refine iff_of_true ⟨1, .error cause, failed, ?_, ?_⟩ (.inl lacks)
    · exact iff_of_true ⟨cause, rfl⟩ lacks
    · rintro closure ⟨⟩
  · obtain ⟨enough, closure, ended, facts⟩ :=
      collectCranDependencyClosure_ends finite answers lacks
    constructor
    · rintro ⟨enough', outcome, ended', -, exact'⟩
      refine .inr fun package reinserts => ?_
      have same : outcome = .ok closure := by
        have first := ended (max enough enough') (le_max_left _ _)
        have second := ended' (max enough enough') (le_max_right _ _)
        exact Option.some.inj (second.symm.trans first)
      have member : package ∈ closure :=
        (facts package).mpr ⟨reinserts.demanded, fun _ => reinserts⟩
      exact ((exact' closure same package).mp member).2 reinserts.1
    · intro condition
      have none := condition.resolve_left lacks
      refine ⟨enough, .ok closure, ended, iff_of_false (by simp) lacks, ?_⟩
      rintro closure' ⟨⟩ package
      rw [facts]
      refine and_congr_right fun _ => ?_
      exact ⟨fun stays absent => none package (stays absent), fun there absent =>
        absurd absent there⟩

namespace Small

/-- A refresh that answers from a catalog. -/
def refreshFrom (catalog : PackageName → List PackageRelease) : RefreshBatch := fun batch =>
  if batch.any (fun package => (catalog package).isEmpty) then
    .error ⟨.notFound, "package is absent"⟩
  else
    .ok ⟨batch.foldl (fun candidates package => candidates.insert package
      ((catalog package).map (fun release => ⟨release, .current⟩))) .empty, .empty⟩

/-- Such a refresh answers as the catalog has it. -/
theorem refreshFrom_answers (catalog : PackageName → List PackageRelease) :
    AnswersFrom catalog (refreshFrom catalog) where
  absent := by
    rintro batch ⟨package, member, absent⟩
    refine ⟨_, if_pos ?_, rfl⟩
    exact List.any_eq_true.mpr ⟨package, member, by rw [absent]; rfl⟩
  present := by
    intro batch present
    refine ⟨_, if_neg (by simpa using present), fun package member => ?_⟩
    refine ⟨⟨(catalog package).map (fun release => ⟨release, .current⟩), []⟩, ?_, ?_⟩
    · unfold CranCandidateSnapshot.load
      rw [OrderedMap.get?_foldl_insert (fun package => (catalog package).map
        (fun release => (⟨release, .current⟩ : RawCandidateObservation))), if_pos member]
      rfl
    · simp [Function.comp_def]

/-- A package imports two others, of which one imports the other; the other is absent. -/
def diamond (package : PackageName) : List PackageRelease :=
  if package = alpha then [release alpha newer [declares .imports rcpp, declares .imports zoo]]
  else if package = rcpp then [release rcpp newer [declares .imports zoo]]
  else []

/-- Two packages are not absent. -/
theorem diamond_finite : {package | diamond package ≠ []}.Finite := by
  refine (Set.toFinite {alpha, rcpp}).subset fun package there => ?_
  by_contra other
  simp only [Set.mem_insert_iff, Set.mem_singleton_iff, not_or] at other
  exact there (by rw [diamond, if_neg other.1, if_neg other.2])

/-- A closure for one root. -/
def closureOf (root : PackageName) : ClosureRequest :=
  ⟨[⟨⟨root, .any, .unconstrained, namesPackage_any root⟩, .hardOnly⟩], none, []⟩

/-- What the packages of the diamond import. -/
theorem diamond_imports {request : ClosureRequest} {package dependency : PackageName}
    (edge : dependency ∈ request.successors diamond package) :
    (package = alpha ∧ (dependency = rcpp ∨ dependency = zoo)) ∨
      (package = rcpp ∧ dependency = zoo) := by
  obtain ⟨release, member, declared, inside, -, rfl⟩ := edge
  unfold diamond at member
  split at member
  · next same =>
    obtain rfl := List.mem_singleton.mp member
    rcases List.mem_pair.mp inside with rfl | rfl
    · exact .inl ⟨same, .inl rfl⟩
    · exact .inl ⟨same, .inr rfl⟩
  · split at member
    · next same =>
      obtain rfl := List.mem_singleton.mp member
      obtain rfl := List.mem_singleton.mp inside
      exact .inr ⟨same, rfl⟩
    · cases member

end Small

/-- The closure of the lower package of the diamond is complete: the absent package is looked at
later than the one that imports it. -/
theorem collectsAcquirable_complete :
    CollectsAcquirable (Small.closureOf Small.rcpp) Small.diamond
      (Small.refreshFrom Small.diamond) := by
  have roots : ∀ package ∈ (Small.closureOf Small.rcpp).seeds, package = Small.rcpp := by
    rintro package (required | ⟨demanded, -⟩)
    · obtain ⟨root, kept, rfl⟩ := List.mem_map.mp (OrderedSet.mem_ofList.mp required)
      obtain rfl := List.mem_singleton.mp (List.mem_of_mem_filter kept)
      rfl
    · cases demanded
  have lower : ∀ package, (Small.closureOf Small.rcpp).Demanded Small.diamond package →
      package ≠ Small.alpha := by
    intro package demanded
    cases demanded with
    | seed member =>
      rw [roots package member]
      decide
    | step _ edge =>
      rcases Small.diamond_imports edge with ⟨-, rfl | rfl⟩ | ⟨-, rfl⟩ <;> decide
  have none : ∀ package, ¬ (Small.closureOf Small.rcpp).Reinserts Small.diamond package := by
    rintro package ⟨-, source, demanded, edge, noFarther⟩
    rcases Small.diamond_imports edge with ⟨rfl, -⟩ | ⟨rfl, rfl⟩
    · exact lower _ demanded rfl
    · have nearest := roots _ (noFarther 0 (.inl (by decide +kernel)))
      exact absurd nearest (by decide)
  exact (collectsAcquirable_iff Small.diamond_finite (Small.refreshFrom_answers _)).mpr (.inr none)

/-- A package that two others import is returned although it is absent: one of the two is looked at
together with it, and brings it back. -/
theorem collectCranDependencyClosure_reinserts :
    {package | Small.diamond package ≠ []}.Finite ∧
    AnswersFrom Small.diamond (Small.refreshFrom Small.diamond) ∧
    collectCranDependencyClosure (Small.closureOf Small.alpha) (Small.refreshFrom Small.diamond) 4 =
      some (.ok [Small.rcpp, Small.alpha, Small.zoo]) ∧
    ¬ CollectsAcquirable (Small.closureOf Small.alpha) Small.diamond
      (Small.refreshFrom Small.diamond) := by
  have run : collectCranDependencyClosure (Small.closureOf Small.alpha)
      (Small.refreshFrom Small.diamond) 4 = some (.ok [Small.rcpp, Small.alpha, Small.zoo]) := by
    decide +kernel
  refine ⟨Small.diamond_finite, Small.refreshFrom_answers _, run, ?_⟩
  rintro ⟨enough, outcome, ended, -, acquirable⟩
  have later := collectCranDependencyClosure_mono run (le_max_right enough 4)
  have outcome' := Option.some.inj ((ended _ (le_max_left enough 4)).symm.trans later)
  exact ((acquirable _ outcome' Small.zoo).mp (by simp)).2 rfl

end Rsolve
