import Rsolve.Core.Identity

/-!
# Version constraints and package requirements

A constraint is a conjunction of relation clauses. A requirement names a package, an optional source
scope and a constraint; an exact scope must name the package it scopes.
-/
open Keyed

namespace Rsolve

/-- `RelationOp` — a version relation of R metadata. -/
inductive RelationOp
  | lt
  | le
  | eq
  | ne
  | ge
  | gt
deriving Repr, DecidableEq

/-- Whether a comparison outcome satisfies a relation. -/
def RelationOp.holds : RelationOp → Ordering → Bool
  | .lt, ordering => ordering == .lt
  | .le, ordering => ordering != .gt
  | .eq, ordering => ordering == .eq
  | .ne, ordering => ordering != .eq
  | .ge, ordering => ordering != .lt
  | .gt, ordering => ordering == .gt

/-- `VersionClause` — a relation to one version. -/
structure VersionClause where
  /-- The relation. -/
  op : RelationOp
  /-- The version it relates to. -/
  version : RPackageVersion
deriving DecidableEq

/-- `VersionConstraint` — a conjunction of clauses; no clause is no constraint. -/
structure VersionConstraint where
  /-- The clauses. -/
  clauses : List VersionClause
deriving DecidableEq

/-- Clauses are compared with their versions as versions. -/
instance : Representative VersionClause where
  representative clause := ⟨clause.op, representative clause.version⟩

/-- Two clauses are the same when they have one relation to the same version. -/
theorem VersionClause.same_iff {left right : VersionClause} :
    Same left right ↔ left.op = right.op ∧ Same left.version right.version := by
  simp [Same, representative]

/-- Constraints are compared clause by clause. -/
instance : Representative VersionConstraint where
  representative constraint := ⟨representative constraint.clauses⟩

namespace VersionConstraint

/-- `VersionConstraint::unconstrained`. -/
def unconstrained : VersionConstraint := ⟨[]⟩

/-- `VersionConstraint::conjunction` — every clause of both. -/
def conjunction (left right : VersionConstraint) : VersionConstraint :=
  ⟨left.clauses ++ right.clauses⟩

/-- `VersionConstraint::satisfies` — a version meets every clause. -/
def satisfies (constraint : VersionConstraint) (candidate : RPackageVersion) : Bool :=
  constraint.clauses.all (fun clause => clause.op.holds (candidate.cmp clause.version))

/-- Every version satisfies the empty constraint. -/
@[simp]
theorem satisfies_unconstrained (candidate : RPackageVersion) :
    unconstrained.satisfies candidate = true := rfl

/-- The same versions satisfy a constraint. -/
theorem satisfies_congr (constraint : VersionConstraint) {left right : RPackageVersion}
    (same : Same left right) : constraint.satisfies left = constraint.satisfies right := by
  unfold satisfies
  congr 1
  funext clause
  rw [RPackageVersion.cmp_congr_left clause.version same]

/-- The same constraints are satisfied by the same versions. -/
theorem satisfies_congr_constraint {left right : VersionConstraint} (same : Same left right)
    (candidate : RPackageVersion) : left.satisfies candidate = right.satisfies candidate := by
  obtain ⟨left⟩ := left
  obtain ⟨right⟩ := right
  have clauses : left.map representative = right.map representative :=
    congrArg VersionConstraint.clauses same
  unfold satisfies
  clear same
  induction left generalizing right with
  | nil => rw [List.map_eq_nil_iff.mp clauses.symm]
  | cons head rest ih =>
    cases right with
    | nil => simp at clauses
    | cons other others =>
      simp only [List.map_cons, List.cons.injEq] at clauses
      obtain ⟨op, version⟩ := VersionClause.same_iff.mp clauses.1
      simp only [List.all_cons]
      rw [op, RPackageVersion.cmp_congr_right candidate version, ih others clauses.2]

end VersionConstraint

/-- `DependencyKind` — the dependency field of a declaration. -/
inductive DependencyKind
  | depends
  | imports
  | linkingTo
  | suggests
  | enhances
deriving Repr, DecidableEq

/-- `EffectiveDependencyKind` — the kind of a dependency that takes part in a resolution. -/
inductive EffectiveDependencyKind
  | depends
  | imports
  | linkingTo
  | promotedSuggests
deriving Repr, DecidableEq

/-- `DependencyKind::effective` — the hard dependency kinds. -/
def DependencyKind.effective : DependencyKind → Option EffectiveDependencyKind
  | .depends => some .depends
  | .imports => some .imports
  | .linkingTo => some .linkingTo
  | .suggests => none
  | .enhances => none

/-- `DependencySourceConstraint` — an optional source scope of a dependency. -/
inductive DependencySourceConstraint
  | any
  | registry (nspace : PackageNamespace)
  | repository (repository : RepositoryId)
  | bioconductor (nspace : PackageNamespace) (release : BioconductorRelease)
  | git (repository : NormalizedGitUrl)
  | exact (identity : ReleaseIdentity)
deriving DecidableEq

/-- Source scopes are compared with their identities as identities. -/
instance : Representative DependencySourceConstraint where
  representative
    | .exact identity => .exact (representative identity)
    | other => other

/-- The exact identity of a scope belongs to a package. -/
def DependencySourceConstraint.NamesPackage (source : DependencySourceConstraint)
    (name : PackageName) : Prop :=
  ∀ identity, source = .exact identity → identity.name = name

/-- An open scope names every package. -/
theorem namesPackage_any (name : PackageName) :
    DependencySourceConstraint.any.NamesPackage name := by
  rintro _ ⟨⟩

/-- A repository scope names every package. -/
theorem namesPackage_repository (repository : RepositoryId) (name : PackageName) :
    (DependencySourceConstraint.repository repository).NamesPackage name := by
  rintro _ ⟨⟩

/-- `PackageRequirement` — a package, a source scope and a constraint. -/
structure PackageRequirement where
  /-- The required package. -/
  name : PackageName
  /-- Where it may come from. -/
  source : DependencySourceConstraint
  /-- The versions it may have. -/
  constraint : VersionConstraint
  /-- An exact scope names the required package. -/
  exactNamed : source.NamesPackage name
deriving DecidableEq

/-- `PackageRequirementError`. -/
inductive PackageRequirementError
  | exactIdentityNameMismatch (package identity : PackageName)
deriving DecidableEq

/-- `PackageRequirementError::fmt` — the error text. -/
def PackageRequirementError.message : PackageRequirementError → String
  | .exactIdentityNameMismatch package identity =>
    "exact release identity name " ++ identity.text ++ " does not match package requirement " ++
      package.text

/-- `PackageRequirement::new`. -/
def PackageRequirement.new (name : PackageName) (source : DependencySourceConstraint)
    (constraint : VersionConstraint) : Except PackageRequirementError PackageRequirement :=
  match source with
  | .exact identity =>
    if named : identity.name = name then
      .ok ⟨name, .exact identity, constraint, by rintro _ ⟨⟩; exact named⟩
    else .error (.exactIdentityNameMismatch name identity.name)
  | .any => .ok ⟨name, .any, constraint, namesPackage_any name⟩
  | .registry nspace => .ok ⟨name, .registry nspace, constraint, by rintro _ ⟨⟩⟩
  | .repository repository =>
    .ok ⟨name, .repository repository, constraint, namesPackage_repository repository name⟩
  | .bioconductor nspace release =>
    .ok ⟨name, .bioconductor nspace release, constraint, by rintro _ ⟨⟩⟩
  | .git repository => .ok ⟨name, .git repository, constraint, by rintro _ ⟨⟩⟩

/-- A scope's representative names the same package. -/
theorem DependencySourceConstraint.namesPackage_representative
    {source : DependencySourceConstraint} {name : PackageName} (named : source.NamesPackage name) :
    (representative source).NamesPackage name := by
  cases source with
  | exact identity =>
    rintro _ ⟨⟩
    exact named identity rfl
  | _ => rintro _ ⟨⟩

/-- Requirements are compared field by field. -/
instance : Representative PackageRequirement where
  representative requirement :=
    ⟨requirement.name, representative requirement.source, representative requirement.constraint,
      DependencySourceConstraint.namesPackage_representative requirement.exactNamed⟩

/-- `RootExpansionPolicy` — which declared dependencies of a root are required. -/
inductive RootExpansionPolicy
  | hardOnly
  | directSuggests
deriving Repr, DecidableEq

/-- `RootRequirement` — a required package and how its dependencies expand. -/
structure RootRequirement where
  /-- The requirement. -/
  package : PackageRequirement
  /-- The expansion of its dependencies. -/
  expansion : RootExpansionPolicy
deriving DecidableEq

/-- `DeclaredDependency` — one dependency declared by a release. -/
structure DeclaredDependency where
  /-- The declaring field. -/
  kind : DependencyKind
  /-- The required package. -/
  package : PackageRequirement
deriving DecidableEq

/-- Declarations are compared field by field. -/
instance : Representative DeclaredDependency where
  representative dependency := ⟨dependency.kind, representative dependency.package⟩

/-- `ResolvedDependencyEdge` — one dependency that takes part in a resolution. -/
structure ResolvedDependencyEdge where
  /-- The kind of the edge. -/
  kind : EffectiveDependencyKind
  /-- The required package. -/
  package : PackageRequirement
deriving DecidableEq

/-- Edges are compared field by field. -/
instance : Representative ResolvedDependencyEdge where
  representative edge := ⟨edge.kind, representative edge.package⟩

end Rsolve
