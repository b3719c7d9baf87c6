import Rsolve.Core.Request
import Rsolve.Lib.Checked

/-!
# Validated releases

A release holds the metadata one provider observed for an identity. Two observations of one
identity merge when they agree on everything but their distributions; a publication date that one
of them lacks is filled from the other.
-/
open Keyed Checked

namespace Rsolve

/-- The metadata fields that have a home of their own. -/
def reservedFields : List String :=
  ["package", "version", "depends", "imports", "linkingto", "suggests", "enhances", "published"]

/-- `ReleaseMetadata` — the other metadata fields of a release, in key order. -/
structure ReleaseMetadata where
  /-- The fields. -/
  fields : List (String × String)
  /-- The keys increase. -/
  ordered : fields.Pairwise (fun left right => compare left.1 right.1 = .lt)
  /-- No field has a home of its own. -/
  unreserved : ∀ field ∈ fields, toAsciiLowercase field.1 ∉ reservedFields

/-- Metadata is compared by its fields. -/
instance : DecidableEq ReleaseMetadata := fun left right =>
  decidable_of_iff (left.fields = right.fields) ⟨fun equal => by
    cases left
    cases right
    cases equal
    rfl, congrArg ReleaseMetadata.fields⟩

/-- The version a provenance fixes, if it fixes one. -/
def Provenance.fixedVersion : Provenance → Option RPackageVersion
  | .rBasePackage rVersion => some rVersion
  | .registryRelease _ version => some version
  | .bioconductorRelease _ _ version => some version
  | .gitCommit _ _ _ => none
  | .immutableSource _ _ => none

/-- `PackageRelease` — a validated release. -/
structure PackageRelease where
  /-- The identity. -/
  identity : ReleaseIdentity
  /-- The version of the package. -/
  version : RPackageVersion
  /-- The other metadata. -/
  metadata : ReleaseMetadata
  /-- The publication date, if one is known. -/
  publication : Option ReleasePublication
  /-- The declared dependencies. -/
  declaredDependencies : List DeclaredDependency
  /-- The distributions. -/
  distributions : List Distribution
  /-- The version is the one the provenance fixes. -/
  versioned : ∀ version', identity.provenance.fixedVersion = some version' → Same version' version
  /-- The distributions are in canonical order. -/
  canonical : DistributionsCanonical distributions

/-- `PackageReleaseError` — the conflict found when merging, or a dependency that names no package. -/
inductive PackageReleaseError
  | conflictingMetadata (field : String)
  | invalidDependency (index : Nat)
deriving DecidableEq

/-- `PackageReleaseError::fmt` — the error text. -/
def PackageReleaseError.message : PackageReleaseError → String
  | .conflictingMetadata field => "conflicting release metadata in " ++ field
  | .invalidDependency index => "invalid dependency at index " ++ toString index

namespace PackageRelease

/-- `PackageRelease::is_r_base_package`. -/
def isRBasePackage (release : PackageRelease) : Bool :=
  release.identity.provenance.isRBasePackage

/-- The distributions of one list, then those of another that it lacks. -/
def extendDistributions (current incoming : List Distribution) : List Distribution :=
  incoming.foldl (fun distributions distribution =>
    if distributions.contains distribution then distributions
    else distributions ++ [distribution]) current

/-- The publication of two observations: equal dates, or the one that is known. -/
def mergedPublication : Option ReleasePublication → Option ReleasePublication →
    Except PackageReleaseError (Option ReleasePublication)
  | some left, some right =>
    if left ≠ right then .error (.conflictingMetadata "publication") else .ok (some left)
  | some publication, none => .ok (some publication)
  | none, some publication => .ok (some publication)
  | none, none => .ok none

/-- `PackageRelease::merge_consistent` — merge two observations of one identity. -/
def mergeConsistent (release incoming : PackageRelease) :
    Except PackageReleaseError PackageRelease := do
  ensure (Same release.version incoming.version) (.conflictingMetadata "version")
  ensure (release.metadata = incoming.metadata) (.conflictingMetadata "metadata")
  let publication ← mergedPublication release.publication incoming.publication
  ensure (Same release.declaredDependencies incoming.declaredDependencies)
    (.conflictingMetadata "declared dependencies")
  return { release with
    publication
    distributions := canonicalizeDistributions
      (extendDistributions release.distributions incoming.distributions)
    canonical := canonicalizeDistributions_canonical _ }

/-- Extending adds exactly the incoming distributions. -/
theorem mem_extendDistributions {current incoming : List Distribution}
    {distribution : Distribution} :
    distribution ∈ extendDistributions current incoming ↔
      distribution ∈ current ∨ distribution ∈ incoming := by
  unfold extendDistributions
  induction incoming generalizing current with
  | nil => simp
  | cons head rest ih =>
    rw [List.foldl_cons, ih]
    split
    · next present =>
      have headIn : head ∈ current := by simpa using present
      rw [List.mem_cons]
      constructor
      · rintro (old | new)
        · exact Or.inl old
        · exact Or.inr (Or.inr new)
      · rintro (old | rfl | new)
        · exact Or.inl old
        · exact Or.inl headIn
        · exact Or.inr new
    · rw [List.mem_append, List.mem_singleton, List.mem_cons, or_assoc]

/-- Merging distributions that are already there changes nothing. -/
theorem canonicalize_extend_self {distributions : List Distribution}
    (canonical : DistributionsCanonical distributions) :
    canonicalizeDistributions (extendDistributions distributions distributions) =
      distributions := by
  refine canonicalizeDistributions_eq_of_mem canonical fun distribution => ?_
  rw [mem_extendDistributions, or_self]

/-- Merging equal publications changes nothing. -/
@[simp]
theorem mergedPublication_self (publication : Option ReleasePublication) :
    mergedPublication publication publication = .ok publication := by
  cases publication <;> simp [mergedPublication]

/-- Merging observations that agree keeps the first observation. -/
theorem mergeConsistent_same {release incoming : PackageRelease}
    (version : Same release.version incoming.version)
    (metadata : release.metadata = incoming.metadata)
    (publication : release.publication = incoming.publication)
    (dependencies : Same release.declaredDependencies incoming.declaredDependencies)
    (distributions : release.distributions = incoming.distributions) :
    release.mergeConsistent incoming = .ok release := by
  have merged := canonicalize_extend_self release.canonical
  unfold mergeConsistent
  simp only [ensure_of version, ensure_of metadata, ← publication, ensure_of dependencies,
    ← distributions, mergedPublication_self, merged, ok_bind]
  rfl

end PackageRelease

end Rsolve
