import Rsolve.Core.Digest
import Rsolve.Lock.Consume
import Rsolve.Manifest.ResolutionIntent

/-!
# Building a lock from a resolution

A resolution becomes a lock for the environment it was resolved for. Building it consumes the lock
once, against the same environment. The first form of a manifest, a list of requirements without
repositories, has a path of its own, which composes the manifest with the lock into a request.
-/
open Keyed Checked

namespace Rsolve

variable (sha256 : List UInt8 → Sha256Digest)

/-- The version whose spelling was published. -/
def publishedVersion (release : PackageRelease) : RPackageVersion :=
  match release.identity.provenance with
  | .registryRelease _ version => version
  | .bioconductorRelease _ _ version => version
  | _ => release.version

/-- The edges of a selected package that lead to packages; R itself is not one. -/
def ResolvedPackage.lockedEdges (selected : ResolvedPackage) : List LockedDependencyEdge :=
  (selected.effectiveDependencies.filter (fun dependency =>
    dependency.package.name.text ≠ "R")).map fun dependency =>
      ⟨dependency.kind, dependency.package.name⟩

/-- `LockedPackage::from_resolved`. -/
def LockedPackage.fromResolved (selected : ResolvedPackage) : LockedPackage where
  identity := selected.release.identity
  version := selected.release.version
  publishedVersionSpelling :=
    if (publishedVersion selected.release).raw ≠ canonicalVersion selected.release.version then
      some (publishedVersion selected.release).raw
    else none
  dependencies := canonicalizeDependencyEdges selected.lockedEdges
  visibleRepositoryIds := selected.visibleRepositoryIds
  metadataSha256 := selected.release.metadataDigest sha256
  requestedGitSource := none

/-- A package with its dependencies on the selected packages. -/
def LockedPackage.retain (selectedNames : List PackageName) (package : LockedPackage) :
    LockedPackage :=
  { package with dependencies := package.dependencies.filter (fun dependency =>
    dependency.package ∈ selectedNames) }

/-- The locked packages of a resolution. -/
def Resolution.lockedPackages (resolution : Resolution) : List LockedPackage :=
  resolution.packages.map fun selected =>
    (LockedPackage.fromResolved sha256 selected).retain (resolution.packages.map ResolvedPackage.name)

/-- `locked_git_selector`. -/
def lockedGitSelector : GitSelector → LockedGitSelector
  | .defaultBranch => .defaultBranch
  | .branch value => .branch value
  | .tag value => .tag value
  | .rev value => .rev value

/-- The subdirectory of a root as a coordinate. -/
def rootSubdirectory (name : PackageName) :
    Option String → Except LockError (Option RepositorySubdir)
  | none => .ok none
  | some subdirectory => do
    let accepted ← (RepositorySubdir.new subdirectory).mapError fun cause =>
      .manifest (.invalidDependencyField name.text cause.message)
    return some accepted

/-- `ComposedEnvironment::resolution_intent_digest`. -/
def ComposedEnvironment.resolutionIntentDigest (composed : ComposedEnvironment) : Sha256Digest :=
  sha256 composed.intentPayload

/-- The package with the requested source of a Git root. -/
def LockedPackage.withGitSource (package : LockedPackage) (root : ComposedRootIntent)
    (url : NormalizedGitUrl) (selector : GitSelector) (subdirectory : Option String) :
    Except LockError LockedPackage :=
  match package.identity.provenance with
  | .gitCommit repository _ identitySubdirectory => do
    let subdirectory ← rootSubdirectory root.name subdirectory
    ensure (repository = url ∧ identitySubdirectory = subdirectory)
      (LockError.conflictingMetadata (identityKey package.identity))
    return { package with requestedGitSource := some {
      url
      selector := lockedGitSelector selector
      subdirectory
      versionConstraint := canonicalizeConstraint root.constraint } }
  | _ => .error (.conflictingMetadata (identityKey package.identity))

/-- The package with the requested source of its root, when that is a Git root. -/
def LockedPackage.withRequestedSource (composed : ComposedEnvironment) (package : LockedPackage) :
    Except LockError LockedPackage :=
  match composed.roots.find? (fun root => root.name == package.name) with
  | none => .ok package
  | some root =>
    match root.source with
    | .git url selector subdirectory => package.withGitSource root url selector subdirectory
    | _ => .ok package

/-- The check of a composed environment on a root. -/
def ComposedRootIntent.rootCheck (root : ComposedRootIntent) : RootCheck where
  name := root.name
  constraint := root.constraint
  repository := match root.source with
    | .registry repository => repository
    | _ => none
  runtimeProvided := match root.source with
    | .registry none => true
    | _ => false
  directSource := match root.source with
    | .registry _ => false
    | _ => true

/-- `identity_solver_keys`. -/
def identitySolverKeys (identity : ReleaseIdentity) (visibleRepositoryIds : List RepositoryId) :
    List SolverKey :=
  .installedName identity.name ::
    (visibleRepositoryIds.map (fun repository => .repository repository identity.name) ++
      match identity.provenance with
      | .registryRelease nspace _ => [.registry nspace identity.name, .exact identity]
      | .bioconductorRelease nspace release _ =>
        [.bioconductor nspace release identity.name, .exact identity]
      | .gitCommit _ _ _ => [.exact identity]
      | .immutableSource _ _ => [.exact identity]
      | .rBasePackage _ => [])

/-- Store an identity under a key that is new or has that identity. -/
def insertIdentity (identity : ReleaseIdentity) (identities : LockedIdentities) (key : SolverKey) :
    Except LockError LockedIdentities := do
  ensure ((identities.get? key).all (fun previous => decide (Same previous identity)) = true)
    (LockError.conflictingMetadata (identityKey identity))
  return identities.insert key identity

/-- Store the identity of a package under its keys. -/
def insertPackage (identities : LockedIdentities) (package : LockedPackage) :
    Except LockError LockedIdentities :=
  (identitySolverKeys package.identity package.visibleRepositoryIds).foldlM
    (insertIdentity package.identity) identities

/-- `ManifestDependency`. -/
structure ManifestDependency where
  /-- The package. -/
  name : PackageName
  /-- The versions. -/
  constraint : VersionConstraint
deriving DecidableEq

/-- `Manifest` — the first form of a manifest. -/
structure Manifest where
  /-- The constraint on R. -/
  rRequirement : VersionConstraint
  /-- The exact R version. -/
  target : RPackageVersion
  /-- The requirements. -/
  requirements : List ManifestDependency
deriving DecidableEq

/-- The loop of `Manifest::validate`; `names` are the names so far. -/
def validateRequirements (names : List PackageName) :
    List ManifestDependency → Except ManifestError Unit
  | [] => .ok ()
  | requirement :: rest => do
    ensure (requirement.name.text ≠ "R") .rIsNotAPackageRequirement
    ensure (requirement.name ∉ names) (.duplicateRequirement requirement.name)
    validateRequirements (requirement.name :: names) rest

namespace Manifest

/-- `Manifest::validate`. -/
def validate (manifest : Manifest) : Except ManifestError Unit :=
  validateRequirements [] manifest.requirements

/-- The root of a requirement. -/
def root (requirement : ManifestDependency) : RootRequirement where
  package := ⟨requirement.name, .any, requirement.constraint, namesPackage_any requirement.name⟩
  expansion := .hardOnly

/-- `compose_resolution_request`, which is `Manifest::into_resolution_request`. -/
def intoResolutionRequest (manifest : Manifest) : Except ManifestError ResolutionRequest := do
  manifest.validate
  return ⟨manifest.requirements.map root, ⟨manifest.target⟩, manifest.rRequirement, .empty, none⟩

end Manifest

/-- The check of a request on a root. -/
def RootRequirement.rootCheck (root : RootRequirement) : RootCheck where
  name := root.package.name
  constraint := root.package.constraint
  repository := match root.package.source with
    | .repository repository => some repository
    | _ => none
  runtimeProvided := match root.package.source with
    | .any => true
    | _ => false
  directSource := match root.package.source with
    | .git _ => true
    | _ => false

namespace Lockfile

/-- `Lockfile::from_resolution_with_applicability`. -/
def fromResolutionWithApplicability (resolution : Resolution) (environment : EnvironmentId)
    (publicationCutoff : Option PublicationDate) (resolutionIntentSha256 : Sha256Digest)
    (rRequirement : VersionConstraint) : Except LockError Lockfile := do
  let packages := resolution.lockedPackages sha256
  packages.forM LockedPackage.validate
  let unique ← uniquePackages (sortPackages packages)
  Lockfile.new resolutionIntentSha256 (canonicalizeConstraint rRequirement)
    ⟨resolution.target, environment, publicationCutoff, unique⟩

/-- The check of `consume_composed_environment` on a Git root. -/
def checkGitRoot (lock : Lockfile) (composed : ComposedEnvironment) (root : ComposedRootIntent)
    (url : NormalizedGitUrl) (selector : GitSelector) (subdirectory : Option String) :
    Except LockError Unit :=
  match lock.resolution.packages.find? (fun package => package.name == root.name) with
  | none => .ok ()
  | some package =>
    match package.requestedGitSource with
    | none => .error (.directRootMissing root.name.text)
    | some requested => do
      let subdirectory ← rootSubdirectory root.name subdirectory
      ensure (requested.url = url ∧ requested.selector = lockedGitSelector selector ∧
          requested.subdirectory = subdirectory)
        (LockError.resolutionIntentMismatch lock.resolutionIntentSha256.text
          (composed.resolutionIntentDigest sha256).text)
      ensure (Same (canonicalizeConstraint requested.versionConstraint)
          (canonicalizeConstraint root.constraint))
        (LockError.directRootVersionMismatch root.name.text)

/-- The check of `consume_composed_environment` on the source of a root. -/
def checkRootSource (lock : Lockfile) (composed : ComposedEnvironment) (root : ComposedRootIntent) :
    Except LockError Unit :=
  match root.source with
  | .git url selector subdirectory =>
    lock.checkGitRoot sha256 composed root url selector subdirectory
  | _ => .ok ()

/-- The checks of `consume_composed_environment` before its roots are consumed. -/
def checkComposed (lock : Lockfile) (composed : ComposedEnvironment) : Except LockError Unit := do
  lock.validate
  ensure (Same lock.resolution.target composed.target) LockError.targetMismatch
  ensure (lock.resolution.environment = composed.environment)
    (LockError.environmentMismatch lock.resolution.environment.text composed.environment.text)
  ensure (lock.rRequirement.satisfies composed.target.rVersion = true) LockError.rRequirementMismatch
  ensure (Same lock.rRequirement composed.rRequirement) LockError.rRequirementIntentMismatch
  ensure (lock.resolution.publicationCutoff = composed.publishedBefore)
    (LockError.publicationCutoffMismatch
      (lock.resolution.publicationCutoff.map PublicationDate.text)
      (composed.publishedBefore.map PublicationDate.text))
  ensure (lock.resolutionIntentSha256 = composed.resolutionIntentDigest sha256)
    (LockError.resolutionIntentMismatch lock.resolutionIntentSha256.text
      (composed.resolutionIntentDigest sha256).text)
  composed.roots.forM (lock.checkRootSource sha256 composed)

/-- `Lockfile::consume_composed_environment`. -/
def consumeComposedEnvironment (lock : Lockfile) (composed : ComposedEnvironment) :
    Option (Except LockError ConsumedLockedGraph) :=
  match lock.checkComposed sha256 composed with
  | .error cause => some (.error cause)
  | .ok () => lock.consumeRoots composed.target composed.environment composed.rRequirement
    (composed.roots.map ComposedRootIntent.rootCheck) (some composed.repositories)

/-- The lock of `from_resolution_with_composed_environment` before it is consumed. -/
def draftForComposed (resolution : Resolution) (composed : ComposedEnvironment) :
    Except LockError Lockfile := do
  ensure (Same resolution.target composed.target) LockError.targetMismatch
  let lock ← fromResolutionWithApplicability sha256 resolution composed.environment
    composed.publishedBefore (composed.resolutionIntentDigest sha256) composed.rRequirement
  let packages ← lock.resolution.packages.mapM (LockedPackage.withRequestedSource composed)
  return { lock with resolution := { lock.resolution with packages } }

/-- `Lockfile::from_resolution_with_composed_environment` — no result means that consuming the lock
did not end. -/
def fromResolutionWithComposedEnvironment (resolution : Resolution)
    (composed : ComposedEnvironment) : Option (Except LockError Lockfile) :=
  match draftForComposed sha256 resolution composed with
  | .error cause => some (.error cause)
  | .ok lock => (lock.consumeComposedEnvironment sha256 composed).map fun consumed =>
    consumed.map fun _ => lock

/-- `Lockfile::locked_identities`. -/
def lockedIdentities (lock : Lockfile) : Except LockError LockedIdentities := do
  lock.validate
  lock.resolution.packages.foldlM insertPackage .empty

/-- `Lockfile::resolution_request`. -/
def resolutionRequest (lock : Lockfile) (manifest : Manifest) (environment : EnvironmentId) :
    Except LockError ResolutionRequest := do
  lock.validate
  ensure (lock.resolution.environment = environment)
    (LockError.environmentMismatch lock.resolution.environment.text environment.text)
  let request ← manifest.intoResolutionRequest.mapError LockError.manifest
  ensure (Same request.target lock.resolution.target) LockError.targetMismatch
  ensure (request.rRequirement.satisfies lock.resolution.target.rVersion = true)
    LockError.rRequirementMismatch
  ensure (Same request.rRequirement lock.rRequirement) LockError.rRequirementIntentMismatch
  let locked ← lock.lockedIdentities
  return ⟨request.roots, request.target, request.rRequirement, locked,
    lock.resolution.publicationCutoff.map PublicationCutoff.mk⟩

/-- `Lockfile::consume_locked_graph`. -/
def consumeLockedGraph (lock : Lockfile) (manifest : Manifest) (environment : EnvironmentId) :
    Option (Except LockError ConsumedLockedGraph) :=
  match lock.resolutionRequest manifest environment with
  | .error cause => some (.error cause)
  | .ok request => lock.consumeRoots request.target environment manifest.rRequirement
    (request.roots.map RootRequirement.rootCheck) none

end Lockfile

end Rsolve
