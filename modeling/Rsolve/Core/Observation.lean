import Rsolve.Core.Digest
import Rsolve.Core.Hex
import Rsolve.Core.Release
import Rsolve.Lib.Ordered
import Rsolve.Lib.Panics

/-!
# Observed releases

A provider observes a release with the facts it read. An observation that agrees with its identity
converts to a release. Releases of one identity are aggregated when they are consistent.
-/
open Keyed Checked Ordered Panics

namespace Rsolve

/-- `ReleaseMetadataError`. -/
inductive ReleaseMetadataError
  | reservedField (field : String)
deriving DecidableEq

/-- `ReleaseMetadata::new` — no field may have a home of its own. -/
def ReleaseMetadata.new (fields : OrderedMap String String) :
    Except ReleaseMetadataError ReleaseMetadata :=
  match found : fields.entries.find? (fun field => toAsciiLowercase field.1 ∈ reservedFields) with
  | some field => .error (.reservedField field.1)
  | none => .ok ⟨fields.entries, fields.ordered, fun field member => by
      simpa using List.find?_eq_none.mp found field member⟩

/-- `ReleaseObservation` — what a provider observed of a release. -/
structure ReleaseObservation where
  /-- The identity. -/
  identity : ReleaseIdentity
  /-- The package that was named. -/
  observedPackage : PackageName
  /-- The version that was named. -/
  observedVersion : RPackageVersion
  /-- The other metadata. -/
  metadata : ReleaseMetadata
  /-- The publication date, if there was one. -/
  publication : Option ReleasePublication
  /-- The declared dependencies. -/
  declaredDependencies : List DeclaredDependency
  /-- The distributions. -/
  distributions : List Distribution

/-- A dependency names its package, and an exact source names the same. -/
def DeclaredDependency.namesPackage (dependency : DeclaredDependency) : Bool :=
  !dependency.package.name.text.isEmpty &&
    match dependency.package.source with
    | .exact identity => identity.name == dependency.package.name
    | .any => true
    | .registry _ => true
    | .repository _ => true
    | .bioconductor _ _ => true
    | .git _ => true

/-- `PackageRelease::try_from` — the release of an observation that agrees with its identity. The
digest of its logical metadata is taken as a text that must be a digest. -/
def PackageRelease.tryFrom (sha256 : List UInt8 → Vector UInt8 32)
    (observation : ReleaseObservation) : Guarded PackageReleaseError PackageRelease := do
  attempt (ensure (observation.identity.name = observation.observedPackage)
    (.conflictingMetadata "package name"))
  if versioned : ∀ version', observation.identity.provenance.fixedVersion = some version' →
      Same version' observation.observedVersion then
    attempt (observation.declaredDependencies.zipIdx.forM fun entry =>
      ensure (entry.1.namesPackage = true) (.invalidDependency entry.2))
    let _ ← demand (Sha256Digest.new (hex (sha256 (metadataPreimage observation.identity
      observation.observedVersion observation.declaredDependencies)).toList)).toOption
    return {
      identity := observation.identity
      version := observation.observedVersion
      metadata := observation.metadata
      publication := observation.publication
      declaredDependencies := observation.declaredDependencies
      distributions := canonicalizeDistributions observation.distributions
      versioned
      canonical := canonicalizeDistributions_canonical _ }
  else attempt (.error (.conflictingMetadata "provenance version"))

/-- `ReleaseAggregation` — the releases by identity. -/
abbrev ReleaseAggregation := KeyedMap ReleaseIdentity PackageRelease

/-- `ReleaseAggregation::observe_release`. -/
def ReleaseAggregation.observeRelease (aggregation : ReleaseAggregation)
    (release : PackageRelease) : Except PackageReleaseError ReleaseAggregation :=
  match aggregation.get? release.identity with
  | some existing => do
    let merged ← existing.mergeConsistent release
    return aggregation.insert release.identity merged
  | none => .ok (aggregation.insert release.identity release)

/-- `ReleaseAggregation::observe`. -/
def ReleaseAggregation.observe (sha256 : List UInt8 → Vector UInt8 32)
    (aggregation : ReleaseAggregation) (observation : ReleaseObservation) :
    Guarded PackageReleaseError ReleaseAggregation := do
  let release ← PackageRelease.tryFrom sha256 observation
  attempt (aggregation.observeRelease release)

end Rsolve
