import Rsolve.Manifest.Compose
import Rsolve.Resolver.Policy

/-!
# Locks

A lock is the packages of one resolution with their dependency edges, the target and the
environment they were resolved for, and the digest of the resolution intent. Building a lock sorts
its packages by identity and checks them; equality of locks ignores the spelling of versions.
-/
open Keyed Checked

namespace Rsolve

/-- `LockedGitSelector`. -/
inductive LockedGitSelector
  | defaultBranch
  | branch (value : String)
  | tag (value : String)
  | rev (value : String)
deriving DecidableEq

/-- `LockedGitSource` — the requested source of a package acquired from Git. -/
structure LockedGitSource where
  /-- The repository. -/
  url : NormalizedGitUrl
  /-- The requested revision. -/
  selector : LockedGitSelector
  /-- The directory of the package. -/
  subdirectory : Option RepositorySubdir
  /-- The requested versions. -/
  versionConstraint : VersionConstraint
deriving DecidableEq

/-- Requested sources are compared with their constraints as constraints. -/
instance : Representative LockedGitSource where
  representative source := { source with versionConstraint := representative source.versionConstraint }

/-- `LockedDependencyEdge` — a dependency between two locked packages. -/
structure LockedDependencyEdge where
  /-- The reason of the dependency. -/
  kind : EffectiveDependencyKind
  /-- The package it leads to. -/
  package : PackageName
deriving DecidableEq

/-- `LockedPackage` — one release of a lock. -/
structure LockedPackage where
  /-- The identity of the release. -/
  identity : ReleaseIdentity
  /-- Its version. -/
  version : RPackageVersion
  /-- The published spelling, when it is not the canonical one. -/
  publishedVersionSpelling : Option String
  /-- The dependencies. -/
  dependencies : List LockedDependencyEdge
  /-- The repositories the release is visible in. -/
  visibleRepositoryIds : List RepositoryId
  /-- The digest of its metadata. -/
  metadataSha256 : Sha256Digest
  /-- The requested source, when the package comes from Git. -/
  requestedGitSource : Option LockedGitSource
deriving DecidableEq

/-- `LockedPackage::identity` — the name of the release. -/
def LockedPackage.name (package : LockedPackage) : PackageName :=
  package.identity.name

/-- Packages are compared field by field. -/
instance : Representative LockedPackage where
  representative package := { package with
    identity := representative package.identity
    version := representative package.version
    requestedGitSource := package.requestedGitSource.map representative }

/-- `LockedResolution`. -/
structure LockedResolution where
  /-- The target the packages were resolved for. -/
  target : ResolutionTarget
  /-- The environment. -/
  environment : EnvironmentId
  /-- The publication cutoff. -/
  publicationCutoff : Option PublicationDate
  /-- The packages. -/
  packages : List LockedPackage
deriving DecidableEq

/-- Resolutions are compared field by field. -/
instance : Representative LockedResolution where
  representative resolution := { resolution with
    target := representative resolution.target
    packages := representative resolution.packages }

/-- `Lockfile`. -/
structure Lockfile where
  /-- The digest of the resolution intent. -/
  resolutionIntentSha256 : Sha256Digest
  /-- The constraint on R. -/
  rRequirement : VersionConstraint
  /-- The resolution. -/
  resolution : LockedResolution
deriving DecidableEq

/-- Locks are compared field by field. -/
instance : Representative Lockfile where
  representative lock := { lock with
    rRequirement := representative lock.rRequirement
    resolution := representative lock.resolution }

/-- `LockError`. -/
inductive LockError
  | conflictingMetadata (identity : String)
  | invalidPublishedVersionSpelling (identity : String)
  | rBasePackage (identity : String)
  | danglingDependency (package dependency : String)
  | installedNameConflict (name firstIdentity secondIdentity : String)
  | targetMismatch
  | environmentMismatch (expected found : String)
  | manifest (cause : ManifestError)
  | nonCanonical
  | rRequirementMismatch
  | directRootMissing (name : String)
  | directRootVersionMismatch (name : String)
  | unreachablePackage (package : String)
  | duplicateVisibleRepository (package repository : String)
  | unknownVisibleRepository (package repository : String)
  | rootRepositoryNotVisible (name repository : String)
  | visibleRepositoryPackageNotAllowed (package repository : String)
  | noVisibleRepository (package : String)
  | visibleRepositoryOrderMismatch (package : String)
  | publicationCutoffMismatch (lock composed : Option String)
  | resolutionIntentMismatch (lock composed : String)
  | rRequirementIntentMismatch
  | exactIdentitySetMismatch (missing extra : List String)
deriving DecidableEq

/-- `identity_key` — the identity in an error. -/
def identityKey (identity : ReleaseIdentity) : String :=
  match identity.provenance with
  | .rBasePackage rVersion => identity.name.text ++ ":r-base:" ++ rVersion.raw
  | .registryRelease nspace version =>
    identity.name.text ++ ":registry:" ++ nspace.text ++ "@" ++ version.raw
  | .gitCommit repository commit subdirectory =>
    identity.name.text ++ ":git:" ++ repository.text ++ "@" ++ commit.hex ++ ":" ++
      (subdirectory.map RepositorySubdir.text).getD ""
  | .bioconductorRelease nspace release version =>
    identity.name.text ++ ":bioconductor:" ++ nspace.text ++ ":" ++ release.text ++ "@" ++ version.raw
  | .immutableSource scheme digest =>
    identity.name.text ++ ":immutable:" ++ scheme.text ++ "@" ++ digest.text

/-- Drop zeros from the end while more than two components are left; the components are last
first. -/
def dropTrailingZeros : List Nat → List Nat
  | 0 :: second :: third :: rest => dropTrailingZeros (second :: third :: rest)
  | components => components

/-- `canonical_version` — the components without trailing zeros, but at least two of them when there
are two. -/
def canonicalVersion (version : RPackageVersion) : String :=
  joinComponents (dropTrailingZeros version.values.reverse).reverse

/-- The version check of `LockedPackage::validate`. -/
def LockedPackage.versionAgrees (package : LockedPackage) : Bool :=
  match package.identity.provenance with
  | .registryRelease _ version => decide (Same version package.version)
  | .bioconductorRelease _ _ version => decide (Same version package.version)
  | _ => true

/-- The identity of a package is a commit of the requested source. -/
def LockedGitSource.names (source : LockedGitSource) : Provenance → Bool
  | .gitCommit repository _ subdirectory =>
    repository == source.url && subdirectory == source.subdirectory
  | _ => false

/-- A requested revision that is a commit id is the commit of a provenance. -/
def LockedGitSource.pins (source : LockedGitSource) (provenance : Provenance) : Bool :=
  match source.selector with
  | .rev value =>
    match GitCommitId.new value, provenance with
    | .ok requested, .gitCommit _ commit _ => commit == requested
    | .ok _, _ => false
    | .error _, _ => true
  | _ => true

/-- The spelling check of `LockedPackage::validate`. -/
def LockedPackage.validateSpelling (package : LockedPackage) : Except LockError Unit :=
  match package.publishedVersionSpelling with
  | none => .ok ()
  | some spelling => do
    let parsed ← (RPackageVersion.parse spelling).mapError
      (fun _ => LockError.invalidPublishedVersionSpelling (identityKey package.identity))
    ensure (Same parsed package.version ∧ spelling ≠ canonicalVersion package.version)
      (.invalidPublishedVersionSpelling (identityKey package.identity))

/-- The source check of `LockedPackage::validate`. -/
def LockedPackage.validateSource (package : LockedPackage) : Except LockError Unit :=
  match package.requestedGitSource with
  | none => .ok ()
  | some source => do
    ensure (source.names package.identity.provenance = true ∧
        source.versionConstraint.satisfies package.version = true)
      (.conflictingMetadata (identityKey package.identity))
    ensure (source.pins package.identity.provenance = true)
      (.conflictingMetadata (identityKey package.identity))

/-- `LockedPackage::validate`. -/
def LockedPackage.validate (package : LockedPackage) : Except LockError Unit := do
  ensure (package.identity.provenance.isRBasePackage = false)
    (.rBasePackage (identityKey package.identity))
  ensure (package.versionAgrees = true) (.conflictingMetadata (identityKey package.identity))
  package.validateSource
  package.validateSpelling

/-- `provenance_rank`. -/
def provenanceRank : Provenance → Nat
  | .rBasePackage _ => 0
  | .registryRelease _ _ => 1
  | .gitCommit _ _ _ => 2
  | .bioconductorRelease _ _ _ => 3
  | .immutableSource _ _ => 4

/-- The rank of a hash algorithm: its place in the declaration. -/
def hashRank : GitHashAlgorithm → Nat
  | .sha1 => 0
  | .sha256 => 1

/-- The order of commit ids, field by field. -/
def compareCommits : GitCommitId → GitCommitId → Ordering :=
  compareLex (compareOn (fun commit => hashRank commit.algorithm)) (compareOn GitCommitId.hex)

/-- `cmp_optional_subdirectory`. -/
def compareSubdirectories : Option RepositorySubdir → Option RepositorySubdir → Ordering :=
  compareOn (Option.map RepositorySubdir.text)

/-- `cmp_provenance`. -/
def compareProvenances (left right : Provenance) : Ordering :=
  (compare (provenanceRank left) (provenanceRank right)).then
    (match left, right with
    | .rBasePackage left, .rBasePackage right => left.cmp right
    | .registryRelease leftNamespace leftVersion, .registryRelease rightNamespace rightVersion =>
      (compare leftNamespace rightNamespace).then (leftVersion.cmp rightVersion)
    | .gitCommit leftRepository leftCommit leftSubdirectory,
        .gitCommit rightRepository rightCommit rightSubdirectory =>
      (compare leftRepository.text rightRepository.text).then
        ((compareCommits leftCommit rightCommit).then
          (compareSubdirectories leftSubdirectory rightSubdirectory))
    | .bioconductorRelease leftNamespace leftRelease leftVersion,
        .bioconductorRelease rightNamespace rightRelease rightVersion =>
      (compare leftNamespace rightNamespace).then
        ((compare leftRelease rightRelease).then (leftVersion.cmp rightVersion))
    | .immutableSource leftScheme leftDigest, .immutableSource rightScheme rightDigest =>
      (compare leftScheme rightScheme).then (compare leftDigest.text rightDigest.text)
    | _, _ => .eq)

/-- `cmp_identity`. -/
def compareIdentities (left right : ReleaseIdentity) : Ordering :=
  (compare left.name right.name).then (compareProvenances left.provenance right.provenance)

/-- `dependency_kind_rank`. -/
def dependencyKindRank : EffectiveDependencyKind → Nat
  | .depends => 0
  | .imports => 1
  | .linkingTo => 2
  | .promotedSuggests => 3

/-- `dependency_edge_cmp`. -/
def compareEdges : LockedDependencyEdge → LockedDependencyEdge → Ordering :=
  compareLex (compareOn LockedDependencyEdge.package)
    (compareOn (fun edge => dependencyKindRank edge.kind))

/-- `canonicalize_dependency_edges`. -/
def canonicalizeDependencyEdges (edges : List LockedDependencyEdge) : List LockedDependencyEdge :=
  Sorting.dedupBy (fun left right => left == right) (Sorting.sortBy compareEdges edges)

/-- The loop of `validate_visible_repository_ids`; `seen` are the repositories so far. -/
def validateVisibleFrom (package : LockedPackage) (seen : List RepositoryId) :
    List RepositoryId → Except LockError Unit
  | [] => .ok ()
  | repository :: rest => do
    ensure (repository ∉ seen) (.duplicateVisibleRepository package.name.text repository.text)
    validateVisibleFrom package (repository :: seen) rest

/-- `validate_visible_repository_ids`. -/
def validateVisibleRepositoryIds (package : LockedPackage) : Except LockError Unit :=
  validateVisibleFrom package [] package.visibleRepositoryIds

/-- The loop of `ensure_installed_names`; `seen` are the packages so far. -/
def ensureInstalledNamesFrom (seen : List LockedPackage) :
    List LockedPackage → Except LockError Unit
  | [] => .ok ()
  | package :: rest => do
    match seen.find? (fun previous => previous.name == package.name) with
    | some previous =>
      ensure (Same previous.identity package.identity)
        (.installedNameConflict package.name.text (identityKey previous.identity)
          (identityKey package.identity))
    | none => pure ()
    ensureInstalledNamesFrom (package :: seen) rest

/-- `ensure_installed_names`. -/
def ensureInstalledNames (packages : List LockedPackage) : Except LockError Unit :=
  ensureInstalledNamesFrom [] packages

/-- `ensure_dependencies_exist`. -/
def ensureDependenciesExist (packages : List LockedPackage) : Except LockError Unit :=
  packages.forM fun package =>
    package.dependencies.forM fun dependency =>
      ensure (dependency.package ∈ packages.map LockedPackage.name)
        (LockError.danglingDependency package.name.text dependency.package.text)

/-- Packages sorted by identity. -/
def sortPackages (packages : List LockedPackage) : List LockedPackage :=
  Sorting.sortBy (fun left right => compareIdentities left.identity right.identity) packages

/-- The deduplication loop of `normalize_contents` after a kept package. -/
def uniqueAfter (previous : LockedPackage) :
    List LockedPackage → Except LockError (List LockedPackage)
  | [] => .ok []
  | package :: rest =>
    if Same previous.identity package.identity then do
      ensure (Same previous package) (LockError.conflictingMetadata (identityKey package.identity))
      uniqueAfter previous rest
    else do
      let kept ← uniqueAfter package rest
      return package :: kept

/-- The deduplication loop of `normalize_contents`. -/
def uniquePackages : List LockedPackage → Except LockError (List LockedPackage)
  | [] => .ok []
  | package :: rest => do
    let kept ← uniqueAfter package rest
    return package :: kept

/-- One package of the loop of `normalize_contents`. -/
def normalizePackage (package : LockedPackage) : Except LockError LockedPackage := do
  package.validate
  let normalized :=
    { package with dependencies := canonicalizeDependencyEdges package.dependencies }
  validateVisibleRepositoryIds normalized
  return normalized

/-- `Lockfile::normalize_contents`. -/
def normalizeContents (packages : List LockedPackage) : Except LockError (List LockedPackage) := do
  let normalized ← packages.mapM normalizePackage
  let unique ← uniquePackages (sortPackages normalized)
  ensureInstalledNames unique
  ensureDependenciesExist unique
  return unique

/-- Neighbours of one identity are one package. -/
def neighboursAgree : List LockedPackage → Except LockError Unit
  | first :: second :: rest => do
    ensure (Same first.identity second.identity → Same first second)
      (.conflictingMetadata (identityKey first.identity))
    neighboursAgree (second :: rest)
  | _ => .ok ()

namespace Lockfile

/-- `Lockfile::validate_contents`, which is `Lockfile::validate`. -/
def validate (lock : Lockfile) : Except LockError Unit := do
  ensure (lock.rRequirement.satisfies lock.resolution.target.rVersion = true) .rRequirementMismatch
  let packages := sortPackages lock.resolution.packages
  packages.forM fun package => do
    package.validate
    validateVisibleRepositoryIds package
  neighboursAgree packages
  ensureInstalledNames packages
  ensureDependenciesExist packages

/-- `Lockfile::new`. -/
def new (resolutionIntentSha256 : Sha256Digest) (rRequirement : VersionConstraint)
    (resolution : LockedResolution) : Except LockError Lockfile := do
  let packages ← normalizeContents resolution.packages
  let lock : Lockfile := {
    resolutionIntentSha256
    rRequirement := canonicalizeConstraint rRequirement
    resolution := { resolution with packages } }
  lock.validate
  return lock

end Lockfile

/-! ### Small locks -/

namespace Small

/-- The digest of everything. -/
def digest : Sha256Digest :=
  ⟨"0000000000000000000000000000000000000000000000000000000000000000", by decide +kernel⟩

/-- The environment. -/
def environment : EnvironmentId := ⟨"default", by decide⟩

/-- A release of the registry that is visible in the repository. -/
def locked (name : PackageName) (version : RPackageVersion)
    (dependencies : List LockedDependencyEdge) : LockedPackage where
  identity := (release name version []).identity
  version := version
  publishedVersionSpelling := none
  dependencies := dependencies
  visibleRepositoryIds := [repository]
  metadataSha256 := digest
  requestedGitSource := none

/-- A lock without a constraint on R. -/
def lockOf (packages : List LockedPackage) : Lockfile :=
  ⟨digest, .unconstrained, ⟨newer⟩, environment, none, packages⟩

end Small

end Rsolve
