import Mathlib.Data.Finset.Basic
import Rsolve.Core.Resolution
import Rsolve.Lib.Worklist
import Rsolve.Manifest.Compose
import Rsolve.Resolver.Policy

/-!
# Repository demand planning

Before providers are opened, the packages that may be asked of every repository entry are planned
from the roots and from the metadata of their candidates. The plan is a worklist over packages and
source scopes; a package is walked again when it turns out to be a root whose suggested packages are
required. The plan is the least one that the roots and the candidates demand.
-/
open Keyed Ordered Worklist

namespace Rsolve

/-- `RepositoryDemandPlan` — the packages that may be asked of every entry. A set of packages for
every entry is the set of its pairs. -/
@[ext]
structure RepositoryDemandPlan where
  /-- The packages of every entry. -/
  entryDemands : Finset (Nat × PackageName)
  /-- The packages that no entry can provide. -/
  unrouted : Finset PackageName
  /-- The packages that were reached. -/
  discovered : Finset PackageName

namespace RepositoryDemandPlan

/-- Plans are compared set by set. -/
instance : DecidableEq RepositoryDemandPlan := fun left right =>
  decidable_of_iff (left.entryDemands = right.entryDemands ∧ left.unrouted = right.unrouted ∧
    left.discovered = right.discovered) (RepositoryDemandPlan.ext_iff (x := left) (y := right)).symm

/-- The plan without demands. -/
def empty : RepositoryDemandPlan := ⟨∅, ∅, ∅⟩

/-- Record a package that was reached. -/
def discover (plan : RepositoryDemandPlan) (package : PackageName) : RepositoryDemandPlan :=
  { plan with discovered := insert package plan.discovered }

/-- Record a package that no entry can provide. -/
def leaveUnrouted (plan : RepositoryDemandPlan) (package : PackageName) : RepositoryDemandPlan :=
  { plan with unrouted := insert package plan.unrouted }

/-- Record a package for every one of some entries. -/
def demand (plan : RepositoryDemandPlan) (entries : List Nat) (package : PackageName) :
    RepositoryDemandPlan :=
  { plan with
    entryDemands := entries.foldl (fun demands entry => insert (entry, package) demands)
      plan.entryDemands }

end RepositoryDemandPlan

/-- `RepositoryDemandSource::load` — a loader that is a function of an entry and a package. -/
abbrev RepositoryDemandSource := Nat → PackageName → Except CandidateLoadError (List PackageRelease)

/-- The releases of direct roots. -/
abbrev DirectReleases := OrderedMap PackageName PackageRelease

/-- `eligible_entries`. -/
def eligibleEntries (repositories : List RepositorySpec) (scope : Option RepositoryId)
    (package : PackageName) : List Nat :=
  (repositories.zipIdx.filter (fun entry =>
    scope.all (fun scope => scope == entry.1.id) && entry.1.packageAllowed package)).map Prod.snd

/-- Whether the packages of a registry belong to a namespace. -/
def RegistrySpec.servesNamespace (registry : RegistrySpec) (nspace : PackageNamespace) : Bool :=
  match registry with
  | .cran => nspace.text == "cran"
  | .cranLike candidate => candidate == nspace
  | .rUniverse => false

/-- `eligible_dependency_entries`. A scope that a dedicated backend owns is routed nowhere. -/
def eligibleDependencyEntries (repositories : List RepositorySpec)
    (source : DependencySourceConstraint) (package : PackageName) : List Nat :=
  match source with
  | .repository repository => eligibleEntries repositories (some repository) package
  | .registry nspace =>
    (repositories.zipIdx.filter (fun entry =>
      entry.1.packageAllowed package && entry.1.registry.servesNamespace nspace)).map Prod.snd
  | .any => eligibleEntries repositories none package
  | .bioconductor _ _ | .git _ | .exact _ => []

/-- `direct_root_override`. -/
def directRootOverride (directReleases : DirectReleases) (package : PackageName)
    (source : DependencySourceConstraint) : Bool :=
  match source with
  | .any => (directReleases.get? package).isSome
  | _ => false

/-- `is_remote_name`. -/
def isRemoteName (package : PackageName) : Bool :=
  package.text != "R" && !isRBasePackageName package

/-- `is_remote_root`. -/
def isRemoteRoot (root : ComposedRootIntent) : Bool :=
  if root.name.text == "R" then false
  else
    match root.source with
    | .registry (some _) => true
    | .registry none => isRemoteName root.name
    | .git _ _ _ | .url _ _ | .path _ _ => false

/-- The hard dependency kinds. -/
def DependencyKind.isHard : DependencyKind → Bool
  | .depends | .imports | .linkingTo => true
  | .suggests | .enhances => false

/-- Whether a declared dependency is followed: it is hard or promoted, and names a remote
package. -/
def DeclaredDependency.follows (promoteSuggests : Bool) (dependency : DeclaredDependency) : Bool :=
  (dependency.kind.isHard || (promoteSuggests && dependency.kind == .suggests)) &&
    isRemoteName dependency.package.name

/-- Whether a root requires its suggested packages. -/
def ComposedRootIntent.promotesSuggests (root : ComposedRootIntent) : Bool :=
  root.expansion == .directSuggests

/-- A package and the scope it is asked in. -/
structure DemandKey where
  /-- The package. -/
  package : PackageName
  /-- The scope. -/
  constraint : DependencySourceConstraint
deriving DecidableEq

/-- Keys are compared field by field. -/
instance : Representative DemandKey where
  representative key := ⟨key.package, representative key.constraint⟩

/-- The packages that are left to walk, and the plan so far. -/
abbrev DemandWork := Work DemandKey RepositoryDemandPlan

section Planning

variable (repositories : List RepositorySpec) (directReleases : DirectReleases)

/-- The pairs that one root adds in `initial_repository_demands_with_direct`. -/
def initialRootDemands (demands : Finset (Nat × PackageName)) (root : ComposedRootIntent) :
    Finset (Nat × PackageName) :=
  match root.source with
  | .registry repository =>
    if !isRemoteRoot root then demands
    else (eligibleEntries repositories repository root.name).foldl
      (fun demands entry => insert (entry, root.name) demands) demands
  | .git _ _ _ =>
    match directReleases.get? root.name with
    | none => demands
    | some release => release.declaredDependencies.foldl (fun demands dependency =>
      if !dependency.follows root.promotesSuggests then demands
      else if directRootOverride directReleases dependency.package.name
          dependency.package.source then demands
      else (eligibleDependencyEntries repositories dependency.package.source
        dependency.package.name).foldl
          (fun demands entry => insert (entry, dependency.package.name) demands) demands) demands
  | .url _ _ | .path _ _ => demands

/-- `initial_repository_demands_with_direct`. -/
def initialRepositoryDemandsWithDirect (roots : List ComposedRootIntent) :
    Finset (Nat × PackageName) :=
  roots.foldl (initialRootDemands repositories directReleases) ∅

/-- The body of the innermost loop, which the dependencies of direct roots and of candidates
share. -/
def followDependency (promoteSuggests : Bool) (work : DemandWork)
    (dependency : DeclaredDependency) : DemandWork :=
  if !dependency.follows promoteSuggests then work
  else
    let dependencyName := dependency.package.name
    let plan := work.output.discover dependencyName
    if directRootOverride directReleases dependencyName dependency.package.source then
      ⟨work.pending, plan⟩
    else
      let entries := eligibleDependencyEntries repositories dependency.package.source dependencyName
      if entries.isEmpty then ⟨work.pending, plan.leaveUnrouted dependencyName⟩
      else ⟨(⟨dependencyName, dependency.package.source⟩, false) :: work.pending,
        plan.demand entries dependencyName⟩

/-- The loop over the declared dependencies of one release. -/
def followRelease (promoteSuggests : Bool) (work : DemandWork) (release : PackageRelease) :
    DemandWork :=
  release.declaredDependencies.foldl
    (followDependency repositories directReleases promoteSuggests) work

/-- The scope of a registry root. -/
def rootScope (repository : Option RepositoryId) : DependencySourceConstraint :=
  repository.elim .any .repository

/-- The body of the loop over the roots. -/
def seedRoot (work : DemandWork) (root : ComposedRootIntent) : DemandWork :=
  match root.source with
  | .registry repository =>
    if !isRemoteRoot root then work
    else
      let eligible := eligibleDependencyEntries repositories (rootScope repository) root.name
      if eligible.isEmpty then
        ⟨work.pending, (work.output.discover root.name).leaveUnrouted root.name⟩
      else ⟨(⟨root.name, rootScope repository⟩, root.promotesSuggests) :: work.pending,
        work.output.demand eligible root.name⟩
  | .git _ _ _ =>
    match directReleases.get? root.name with
    | none => work
    | some release => followRelease repositories directReleases root.promotesSuggests work release
  | .url _ _ | .path _ _ => work

variable (load : RepositoryDemandSource)

/-- The body of the loop over the entries of a package. An ordinary absence is skipped. -/
def walkEntry (package : PackageName) (promoteSuggests : Bool) (work : DemandWork) (entry : Nat) :
    Except CandidateLoadError DemandWork :=
  match load entry package with
  | .ok candidates =>
    .ok (candidates.foldl (followRelease repositories directReleases promoteSuggests) work)
  | .error cause => if cause.category = .notFound then .ok work else .error cause

/-- The body of the loop over the pending packages, after the check of the visited ones. -/
def walkPackage (key : DemandKey) (promoteSuggests : Bool) (work : DemandWork) :
    Except CandidateLoadError DemandWork :=
  let plan := work.output.discover key.package
  let eligible := eligibleDependencyEntries repositories key.constraint key.package
  if eligible.isEmpty then .ok ⟨work.pending, plan.leaveUnrouted key.package⟩
  else eligible.foldlM (walkEntry repositories directReleases load key.package promoteSuggests)
    ⟨work.pending, plan⟩

/-- `resolve_repository_demands_with_direct`; no result means that the fuel ran out. -/
def resolveRepositoryDemandsWithDirect (fuel : Nat) (roots : List ComposedRootIntent) :
    Option (Except CandidateLoadError RepositoryDemandPlan) :=
  drain (walkPackage repositories directReleases load) fuel KeyedMap.empty
    (roots.foldl (seedRoot repositories directReleases) ⟨[], .empty⟩)

end Planning

section Closure

variable (repositories : List RepositorySpec) (roots : List ComposedRootIntent)
  (directReleases : DirectReleases) (load : RepositoryDemandSource)

/-- A release that an eligible entry has for a package. -/
def Candidate (package : PackageName) (constraint : DependencySourceConstraint)
    (release : PackageRelease) : Prop :=
  ∃ entry ∈ eligibleDependencyEntries repositories constraint package,
    ∃ releases, load entry package = .ok releases ∧ release ∈ releases

/-- A dependency of a direct root that is followed. -/
def FollowedByRoot (dependency : DeclaredDependency) : Prop :=
  ∃ root ∈ roots, ∃ url selector subdirectory, root.source = .git url selector subdirectory ∧
    ∃ release, directReleases.get? root.name = some release ∧
      dependency ∈ release.declaredDependencies ∧ dependency.follows root.promotesSuggests

/-- A dependency names a root that was acquired directly. -/
def Overridden (dependency : DeclaredDependency) : Prop :=
  directRootOverride directReleases dependency.package.name dependency.package.source

/-- The packages that are demanded, with the scope and whether suggested packages are required: the
registry roots, what the direct roots depend on, and what the candidates of a demanded package
depend on. -/
inductive DemandedPackage : PackageName → DependencySourceConstraint → Bool → Prop
  | registryRoot {root : ComposedRootIntent} {repository : Option RepositoryId}
      (member : root ∈ roots) (source : root.source = .registry repository)
      (remote : isRemoteRoot root) :
      DemandedPackage root.name (rootScope repository) root.promotesSuggests
  | directDependency {dependency : DeclaredDependency}
      (followed : FollowedByRoot roots directReleases dependency)
      (routed : ¬ Overridden directReleases dependency) :
      DemandedPackage dependency.package.name dependency.package.source false
  | dependency {package : PackageName} {constraint : DependencySourceConstraint} {strong : Bool}
      {release : PackageRelease} {dependency : DeclaredDependency}
      (demanded : DemandedPackage package constraint strong)
      (candidate : Candidate repositories load package constraint release)
      (declared : dependency ∈ release.declaredDependencies)
      (follows : dependency.follows strong)
      (routed : ¬ Overridden directReleases dependency) :
      DemandedPackage dependency.package.name dependency.package.source false

/-- A dependency that is followed from a direct root or from a candidate of a demanded package. -/
def Followed (dependency : DeclaredDependency) : Prop :=
  FollowedByRoot roots directReleases dependency ∨
    ∃ package constraint strong release,
      DemandedPackage repositories roots directReleases load package constraint strong ∧
      Candidate repositories load package constraint release ∧
      dependency ∈ release.declaredDependencies ∧ dependency.follows strong

/-- The plan of the least closure: every demanded package is asked of every eligible entry, it is
unrouted when there is none, and it is discovered, as are the direct roots that are reached. -/
structure RepositoryDemandPlan.Least (plan : RepositoryDemandPlan) : Prop where
  /-- The demands are those of the closure. -/
  entryDemands : ∀ entry package, (entry, package) ∈ plan.entryDemands ↔
    ∃ constraint strong,
      DemandedPackage repositories roots directReleases load package constraint strong ∧
      entry ∈ eligibleDependencyEntries repositories constraint package
  /-- The unrouted packages are those without an entry. -/
  unrouted : ∀ package, package ∈ plan.unrouted ↔
    ∃ constraint strong,
      DemandedPackage repositories roots directReleases load package constraint strong ∧
      eligibleDependencyEntries repositories constraint package = []
  /-- The discovered packages are the demanded ones and the direct roots that are reached. -/
  discovered : ∀ package, package ∈ plan.discovered ↔
    (∃ constraint strong,
      DemandedPackage repositories roots directReleases load package constraint strong) ∨
    ∃ dependency, Followed repositories roots directReleases load dependency ∧
      Overridden directReleases dependency ∧ dependency.package.name = package

end Closure

end Rsolve
