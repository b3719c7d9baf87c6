import Rsolve.Lib.Traversal
import Rsolve.Lock.Order

/-!
# Consuming a lock

A lock is consumed for a list of roots. It has to be valid and canonical, to fit the request, to
hold every root at a satisfying version, and to hold nothing that the roots do not reach. The walk
from the roots marks names; it is cut at marked names, so it ends on cyclic graphs as well.
-/
open Keyed Checked Traversal

namespace Rsolve

/-- `RootCheck` — what a root asks of a lock. -/
structure RootCheck where
  /-- The package. -/
  name : PackageName
  /-- The versions. -/
  constraint : VersionConstraint
  /-- The repository it has to be visible in. -/
  repository : Option RepositoryId
  /-- R itself may provide it. -/
  runtimeProvided : Bool
  /-- It is acquired from its own source. -/
  directSource : Bool
deriving DecidableEq

/-- `ConsumedLockedGraph`. -/
structure ConsumedLockedGraph where
  /-- The target. -/
  target : ResolutionTarget
  /-- The environment. -/
  environment : EnvironmentId
  /-- The publication cutoff. -/
  publicationCutoff : Option PublicationDate
  /-- The packages. -/
  packages : List LockedPackage
deriving DecidableEq

/-- `is_r_base_name`. -/
def isRBaseName (name : PackageName) : Bool :=
  name.text == "R" || isRBasePackageName name

/-- A root that R provides: it is not looked up among the packages. -/
def RootCheck.skipped (root : RootCheck) : Bool :=
  root.runtimeProvided && isRBaseName root.name

/-- `by_name` — the last package of a name. -/
def byName (packages : List LockedPackage) (name : PackageName) : Option LockedPackage :=
  packages.reverse.find? (fun package => package.name == name)

/-- The packages that the dependencies of a package name. -/
def dependencyPackages (packages : List LockedPackage) (package : LockedPackage) :
    List (Except LockError LockedPackage) :=
  package.dependencies.map fun dependency =>
    match byName packages dependency.package with
    | some found => .ok found
    | none => .error (.danglingDependency package.name.text dependency.package.text)

/-- `mark_reachable` — the fuel is enough for every list of packages. -/
def markReachable (packages : List LockedPackage) (reachable : List PackageName)
    (package : LockedPackage) : Option (Except LockError (List PackageName)) :=
  visit LockedPackage.name (dependencyPackages packages) (packages.length + 1) reachable package

/-- `validate_canonical_resolution`. -/
def validateCanonicalResolution (packages : List LockedPackage) : Except LockError Unit := do
  ensure (Same (sortPackages packages) packages) LockError.nonCanonical
  ensure (packages.IsChain (fun first second => ¬ Same first.identity second.identity))
    LockError.nonCanonical
  ensure (∀ package ∈ packages,
      package.dependencies.IsChain (fun first second => compareEdges first second = .lt))
    LockError.nonCanonical

/-- The place of a repository among the configured ones; the last one of its id. -/
def repositoryRank (repositories : List RepositorySpec) (id : RepositoryId) : Option Nat :=
  (repositories.zipIdx.reverse.find? (fun entry => entry.1.id == id)).map Prod.snd

/-- The loop over the ranks of the visible repositories of a package. -/
def checkRanks (repositories : List RepositorySpec) (package : LockedPackage) :
    Option Nat → List RepositoryId → Except LockError Unit
  | _, [] => .ok ()
  | previousRank, repository :: rest => do
    -- every visible repository is configured at this point
    let rank := (repositoryRank repositories repository).getD 0
    ensure (previousRank.all (fun previous => previous < rank) = true)
      (.visibleRepositoryOrderMismatch package.name.text)
    checkRanks repositories package (some rank) rest

/-- The checks of the visible repositories of a package against the configured ones. -/
def checkVisible (repositories : List RepositorySpec) (package : LockedPackage) :
    Except LockError Unit := do
  package.visibleRepositoryIds.forM fun repository =>
    ensure (repository ∈ repositories.map RepositorySpec.id)
      (LockError.unknownVisibleRepository package.name.text repository.text)
  package.visibleRepositoryIds.forM fun repository =>
    ensure ((repositories.find? (fun candidate => candidate.id == repository)).all
        (fun spec => spec.packageAllowed package.name) = true)
      (LockError.visibleRepositoryPackageNotAllowed package.name.text repository.text)
  checkRanks repositories package none package.visibleRepositoryIds

/-- The repository of a root, when it names one, lists the package. -/
def RootCheck.visibleIn (root : RootCheck) (package : LockedPackage) :
    Except LockError Unit :=
  match root.repository with
  | none => .ok ()
  | some repository =>
    ensure (repository ∈ package.visibleRepositoryIds)
      (.rootRepositoryNotVisible root.name.text repository.text)

/-- The checks of a root that is looked up among the packages. -/
def RootCheck.locate (root : RootCheck) (packages : List LockedPackage) :
    Except LockError LockedPackage :=
  match byName packages root.name with
  | none => .error (.directRootMissing root.name.text)
  | some package => do
    ensure (root.constraint.satisfies package.version = true)
      (LockError.directRootVersionMismatch root.name.text)
    root.visibleIn package
    return package

/-- The package a root leads to; a root that R provides leads to none. -/
def RootCheck.start (root : RootCheck) (resolution : LockedResolution) :
    Option (Except LockError LockedPackage) :=
  if root.skipped = true then
    if root.constraint.satisfies resolution.target.rVersion = true then none
    else some (.error (.directRootVersionMismatch root.name.text))
  else some (root.locate resolution.packages)

/-- A package can be acquired: from its own source, or from a configured repository. -/
def acquirable (roots : List RootCheck) (configuredRepositories : Option (List RepositorySpec))
    (package : LockedPackage) : Bool :=
  match configuredRepositories with
  | none => true
  | some repositories =>
    roots.any (fun root => root.directSource && root.name == package.name) ||
      package.visibleRepositoryIds.any (fun visible =>
        repositories.any (fun repository =>
          repository.id == visible && repository.packageAllowed package.name))

namespace Lockfile

variable (lock : Lockfile) (target : ResolutionTarget) (environment : EnvironmentId)
  (rRequirement : VersionConstraint) (roots : List RootCheck)
  (configuredRepositories : Option (List RepositorySpec))

/-- The checks of `consume_roots` before its roots. -/
def checkRequest : Except LockError Unit := do
  lock.validate
  validateCanonicalResolution lock.resolution.packages
  ensure (Same lock.resolution.target target) LockError.targetMismatch
  ensure (lock.resolution.environment = environment)
    (LockError.environmentMismatch lock.resolution.environment.text environment.text)
  ensure (rRequirement.satisfies lock.resolution.target.rVersion = true)
    LockError.rRequirementMismatch
  match configuredRepositories with
  | none => pure ()
  | some repositories => lock.resolution.packages.forM (checkVisible repositories)

/-- The loop of `consume_roots` over its roots, which share their marks. -/
def markRoots : Option (Except LockError (List PackageName)) :=
  visitEach (markReachable lock.resolution.packages) []
    (roots.filterMap (fun root => root.start lock.resolution))

/-- The loop of `consume_roots` over the packages after its roots. -/
def checkReached (reachable : List PackageName) : Except LockError Unit :=
  lock.resolution.packages.forM fun package => do
    ensure (package.name ∈ reachable) (LockError.unreachablePackage package.name.text)
    ensure (acquirable roots configuredRepositories package = true)
      (LockError.noVisibleRepository package.name.text)

/-- `Lockfile::consume_roots` — no result means that the walk did not end. -/
def consumeRoots : Option (Except LockError ConsumedLockedGraph) :=
  match lock.checkRequest target environment rRequirement configuredRepositories with
  | .error cause => some (.error cause)
  | .ok () => (lock.markRoots roots).map fun marked => do
    let reachable ← marked
    lock.checkReached roots configuredRepositories reachable
    return {
      target := lock.resolution.target
      environment := lock.resolution.environment
      publicationCutoff := lock.resolution.publicationCutoff
      packages := lock.resolution.packages }

end Lockfile

/-- One dependency edge between locked packages. -/
def DependsOn (packages : List LockedPackage) (parent child : LockedPackage) : Prop :=
  child ∈ packages ∧ ∃ edge ∈ parent.dependencies, edge.package = child.name

/-- A package on a path of dependency edges from the package of a root that is not provided by
R. -/
def Reachable (packages : List LockedPackage) (roots : List RootCheck) (package : LockedPackage) :
    Prop :=
  ∃ start ∈ packages, (∃ root ∈ roots, root.skipped = false ∧ root.name = start.name) ∧
    Relation.ReflTransGen (DependsOn packages) start package

end Rsolve
