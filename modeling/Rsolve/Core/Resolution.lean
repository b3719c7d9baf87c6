import Rsolve.Core.Unions

/-!
# Candidate loading and resolutions

A loader offers the prepared candidates of a subject together with candidates it had to quarantine.
A resolution is the list of selected packages other than R base packages, in name order.
-/
open Keyed Checked

namespace Rsolve

/-- `CandidateLoadErrorCategory`. -/
inductive CandidateLoadErrorCategory
  | notFound
  | snapshotInvalid
  | transportFailure
  | metadataInvalid
  | authenticationFailed
  | cancelled
deriving Repr, DecidableEq

/-- `CandidateLoadError` — why the candidates of a subject are not available. -/
structure CandidateLoadError where
  /-- The kind of failure. -/
  category : CandidateLoadErrorCategory
  /-- What happened. -/
  diagnostic : String
deriving Repr, DecidableEq

/-- `QuarantinedCandidate` — a version whose metadata could not be used. -/
structure QuarantinedCandidate where
  /-- The version. -/
  version : RPackageVersion
  /-- Why it is quarantined. -/
  diagnostic : String
deriving DecidableEq

/-- `CandidateLoadResult` — what a loader offers to a subject. -/
structure CandidateLoadResult where
  /-- The usable candidates. -/
  candidates : List PreparedCandidate
  /-- The quarantined versions. -/
  quarantined : List QuarantinedCandidate

/-- `CandidateLoader::load` — the candidates of every subject. A subject is loaded at most once in
a resolution, so a loader is a function of the subject. -/
abbrev CandidateLoader := SolverKey → Except CandidateLoadError CandidateLoadResult

/-- `ResolvedPackage` — one selected package. -/
structure ResolvedPackage where
  /-- The subject that represents the selection. -/
  subject : SolverKey
  /-- The selected release. -/
  release : PackageRelease
  /-- The dependencies that took part in the resolution. -/
  effectiveDependencies : List ResolvedDependencyEdge
  /-- The repositories the release is visible in, by rank. -/
  visibleRepositoryIds : List RepositoryId

/-- `ResolvedPackage::name`. -/
def ResolvedPackage.name (package : ResolvedPackage) : PackageName :=
  package.release.identity.name

/-- `ResolvedPackage::identity`. -/
def ResolvedPackage.identity (package : ResolvedPackage) : ReleaseIdentity :=
  package.release.identity

/-- `ResolvedPackage::version`. -/
def ResolvedPackage.version (package : ResolvedPackage) : RPackageVersion :=
  package.release.version

/-- `Resolution` — the selected packages for a target. -/
structure Resolution where
  /-- The target. -/
  target : ResolutionTarget
  /-- The packages. -/
  packages : List ResolvedPackage

/-- `Resolution::new` — drop runtime-provided packages and order the others by name. -/
def Resolution.new (target : ResolutionTarget) (packages : List ResolvedPackage) : Resolution :=
  ⟨target, Sorting.sortBy (compareOn ResolvedPackage.name)
    (packages.filter (fun package => !package.release.isRBasePackage))⟩

end Rsolve
