import Rsolve.Core.UrlForms
import Rsolve.Core.VersionOrder
import Rsolve.Cran.PackageDescription
import Rsolve.Lock.ConstraintText
import Rsolve.Lock.Consume
import Rsolve.Manifest.Composition

/-!
# Reading a lock

A TOML document is read into a wire record, and the record into a lock. Every text is checked by the
constructor of what it stands for; versions and constraints that are not spelled canonically are
refused, and so are packages that are not in canonical order.
-/
open Keyed Checked

namespace Rsolve

/-- `EnvironmentIdError::fmt` — the error text. -/
def EnvironmentIdError.message : EnvironmentIdError → String
  | .empty => "environment ID is empty"
  | .tooLong => "environment ID is longer than 64 characters"
  | .invalidFirstCharacter => "environment ID must start with a lowercase ASCII letter or digit"
  | .invalidCharacter =>
    "environment ID may contain only lowercase ASCII letters, digits, `_`, and `-`"
  | .controlOrWhitespace => "environment ID contains control or whitespace characters"

/-- `ManifestError::fmt` — the error text. -/
def ManifestError.message : ManifestError → String
  | .rIsNotAPackageRequirement =>
    "R is expressed by the manifest R constraint, not a package requirement"
  | .duplicateRequirement name => "manifest has duplicate direct requirement " ++ name.text
  | .invalidDependency reason => "invalid package requirement: " ++ reason
  | .unknownSchema schema => "unsupported manifest schema " ++ toString schema
  | .missingField field => "manifest is missing required field `" ++ field ++ "`"
  | .invalidField field reason => "invalid manifest field `" ++ field ++ "`: " ++ reason
  | .unknownField field => "unknown manifest field `" ++ field ++ "`"
  | .wrongType field expected => "manifest field `" ++ field ++ "` must be " ++ expected
  | .unknownRegistryKind kind => "unknown registry kind `" ++ kind ++ "`"
  | .invalidRegistry reason => "invalid registry specification: " ++ reason
  | .invalidRepository reason => "invalid repository: " ++ reason
  | .duplicateRepository id => "duplicate repository ID `" ++ id.text ++ "`"
  | .emptyRepositoryPackageAllowlist id =>
    "repository `" ++ id.text ++ "` package allowlist must contain at least one package"
  | .invalidRepositoryPackage repository value reason =>
    "repository `" ++ repository.text ++ "` has invalid package `" ++ value ++ "`: " ++ reason
  | .duplicateRepositoryPackage repository package =>
    "repository `" ++ repository.text ++ "` package allowlist repeats `" ++ package.text ++ "`"
  | .repositoryPackageNotAllowed repository package =>
    "package `" ++ package.text ++ "` is not allowed by repository `" ++ repository.text ++ "`"
  | .unknownRepositoryReference id field =>
    "dependency `" ++ field ++ "` references unknown repository `" ++ id.text ++ "`"
  | .unknownEnvironmentGroup environment group =>
    "environment `" ++ environment ++ "` references unknown group `" ++ group ++ "`"
  | .duplicateEnvironmentGroup environment group =>
    "environment `" ++ environment ++ "` references group `" ++ group ++ "` more than once"
  | .unknownEnvironment id => "unknown environment `" ++ id ++ "`"
  | .invalidVersionConstraint field reason =>
    "invalid version constraint `" ++ field ++ "`: " ++ reason
  | .targetOutsideRConstraint target constraint =>
    "target R version `" ++ target ++ "` does not satisfy constraint `" ++ constraint ++ "`"
  | .directSourceRequiresAcquisition name =>
    "direct source for `" ++ name.text ++ "` requires acquisition before resolution"
  | .invalidIdentifier kind value => "invalid " ++ kind ++ " identifier `" ++ value ++ "`"
  | .invalidEndpoint value reason => "invalid endpoint `" ++ value ++ "`: " ++ reason
  | .sourceConflict field => "conflicting or unsupported source fields in `" ++ field ++ "`"
  | .invalidDependencyField name reason => "invalid dependency `" ++ name ++ "`: " ++ reason

/-- What the reader of locks uses of libraries: the TOML reader, the reader of addresses, and the
readers of dates and texts. -/
structure LockReader where
  /-- `toml::from_str`. -/
  fromStr : String → Except String WireLockfile
  ip : IpAddrs
  basis : CatalogBasis

/-- `decode_dependency_kind`. -/
def decodeDependencyKind (value : String) : Except LockWireError EffectiveDependencyKind :=
  if value = "depends" then .ok .depends
  else if value = "imports" then .ok .imports
  else if value = "linking-to" then .ok .linkingTo
  else if value = "promoted-suggests" then .ok .promotedSuggests
  else .error (.invalidField "package.dependencies.kind"
    ("unknown effective dependency kind " ++ value))

/-- An identifier of a kind from the text of a field. -/
def decodeIdentifier (kind : IdentifierKind) (field value : String) :
    Except LockWireError (Identifier kind) :=
  (Identifier.new kind value).mapError fun cause => .invalidField field cause.message

/-- A package name from the text of a field. -/
def decodeName (field value : String) : Except LockWireError PackageName :=
  (PackageName.new value).mapError fun cause => .invalidField field cause.message

/-- A digest from the text of a field. -/
def decodeDigest (field value : String) : Except LockWireError Sha256Digest :=
  (Sha256Digest.new value).mapError fun cause => .invalidField field cause.message

/-- A repository URL from the text of a field. -/
def decodeUrl (ip : IpAddrs) (field value : String) : Except LockWireError NormalizedGitUrl :=
  (NormalizedGitUrl.new ip value).mapError fun cause => .invalidField field cause.message

/-- A subdirectory from the text of a field that may be absent. -/
def decodeSubdirectory (field : String) (value : Option String) :
    Except LockWireError (Option RepositorySubdir) :=
  value.mapM fun text =>
    (RepositorySubdir.new text).mapError fun cause => .invalidField field cause.message

/-- `decode_provenance`. -/
def decodeProvenance (ip : IpAddrs) (version : RPackageVersion) :
    WireSource → Except LockWireError Provenance
  | .registry nspace => do
    let nspace ← decodeIdentifier .packageNamespace "source.namespace" nspace
    return .registryRelease nspace version
  | .bioconductor nspace release => do
    let nspace ← decodeIdentifier .packageNamespace "source.namespace" nspace
    let release ← decodeIdentifier .bioconductorRelease "source.release" release
    return .bioconductorRelease nspace release version
  | .git repository commit subdirectory => do
    let repository ← decodeUrl ip "source.repository" repository
    let commit ← (GitCommitId.new commit).mapError fun cause =>
      .invalidField "source.commit" cause.message
    let subdirectory ← decodeSubdirectory "source.subdirectory" subdirectory
    return .gitCommit repository commit subdirectory
  | .immutable scheme digest => do
    let scheme ← decodeIdentifier .sourceScheme "source.scheme" scheme
    let digest ← decodeDigest "source.digest" digest
    return .immutableSource scheme digest

/-- `{:?}` of an optional text. -/
def debugOptional (unprintable : Char → Bool) : Option String → String
  | none => "None"
  | some text => debugWrapped unprintable "Some" text

/-- The selectors that have a value, by their kinds. -/
def valuedSelector (kind : String) : Option (String → LockedGitSelector) :=
  if kind = "branch" then some .branch
  else if kind = "tag" then some .tag
  else if kind = "rev" then some .rev
  else none

/-- The selector of `decode_requested_git_source`. -/
def decodeSelector (unprintable : Char → Bool) (kind : String) (value : Option String) :
    Except LockWireError LockedGitSelector :=
  let field := "package.requested-git-source.selector"
  match valuedSelector kind, value with
  | some selector, some value => do
    (validateSelector value field).mapError fun cause =>
      .invalidField field cause.message
    return selector value
  | _, value =>
    if kind = "default-branch" ∧ value = none then .ok .defaultBranch
    else .error (.invalidField field
      ("invalid selector " ++ kind ++ " with value " ++ debugOptional unprintable value))

/-- A constraint from the text of a field, which must be spelled canonically. -/
def decodeConstraint (kind : ConstraintVersionKind) (field value : String) :
    Except LockWireError VersionConstraint := do
  let constraint ← (parseConstraint value field kind).mapError fun cause =>
    .invalidField field cause.message
  ensure (canonicalRRequirement constraint = value)
    (.invalidField field "constraint is not canonically spelled")
  return constraint

/-- `decode_requested_git_source`. -/
def decodeRequestedGitSource (reader : LockReader) (wire : WireRequestedGitSource) :
    Except LockWireError LockedGitSource := do
  let selector ← decodeSelector reader.basis.unprintable wire.selector wire.selectorValue
  let url ← decodeUrl reader.ip "package.requested-git-source.url" wire.url
  let subdirectory ← decodeSubdirectory "package.requested-git-source.subdirectory"
    wire.subdirectory
  let versionConstraint ← decodeConstraint .package
    "package.requested-git-source.version-constraint" wire.versionConstraint
  return ⟨url, selector, subdirectory, versionConstraint⟩

/-- The dependency of `decode_package`. -/
def decodeDependency (wire : WireDependency) : Except LockWireError LockedDependencyEdge := do
  let kind ← decodeDependencyKind wire.kind
  let package ← decodeName "package.dependencies.package" wire.package
  return ⟨kind, package⟩

/-- `decode_package`. -/
def decodePackage (reader : LockReader) (wire : WirePackage) :
    Except LockWireError LockedPackage := do
  let name ← decodeName "package.name" wire.name
  let version ← (RPackageVersion.parse wire.version).mapError fun cause =>
    .invalidField "package.version" cause.message
  let provenance ← decodeProvenance reader.ip version wire.source
  let metadataSha256 ← decodeDigest "metadata-sha256" wire.metadataSha256
  let dependencies ← wire.dependencies.mapM decodeDependency
  let visibleRepositoryIds ← wire.visibleRepositoryIds.mapM
    (decodeIdentifier .repositoryId "package.visible-repository-ids")
  let requestedGitSource ← wire.requestedGitSource.mapM (decodeRequestedGitSource reader)
  return {
    identity := ⟨name, provenance⟩
    version
    publishedVersionSpelling :=
      if canonicalVersion version ≠ wire.version then some wire.version else none
    dependencies
    visibleRepositoryIds
    metadataSha256
    requestedGitSource }

/-- `parse_canonical_r_version_field`. -/
def parseCanonicalRVersionField (field value : String) : Except LockWireError RPackageVersion := do
  let version ← (RPackageVersion.parseBare value).mapError fun cause =>
    .invalidField field cause.message
  ensure (canonicalVersion version = value) (.nonCanonicalVersion field value)
  return version

/-- `decode_resolution`. -/
def decodeResolution (reader : LockReader) (wire : WireLockfile) :
    Except LockWireError Lockfile := do
  let rVersion ← parseCanonicalRVersionField "r-version" wire.rVersion
  let rRequirement ← decodeConstraint .r "r-requirement" wire.rRequirement
  let intent ← decodeDigest "resolution-intent-sha256" wire.resolutionIntentSha256
  let packages ← wire.packages.mapM (decodePackage reader)
  let cutoff ← wire.publicationCutoff.mapM fun value =>
    (PublicationDate.parse reader.basis value).mapError fun cause =>
      .invalidField "publication-cutoff" (cause.message reader.basis.unprintable)
  let environment ← (EnvironmentId.new wire.environment).mapError fun cause =>
    .invalidField "environment" cause.message
  return ⟨intent, rRequirement, ⟨⟨rVersion⟩, environment, cutoff, packages⟩⟩

/-- The part of `from_toml` after the TOML reader. -/
def decodeLock (reader : LockReader) (wire : WireLockfile) : Except LockWireError Lockfile := do
  ensure (wire.version = schemaVersion) (.unsupportedSchema wire.version)
  let lock ← decodeResolution reader wire
  (validateCanonicalResolution lock.resolution.packages).mapError .domain
  (Lockfile.new lock.resolutionIntentSha256 lock.rRequirement lock.resolution).mapError .domain

/-- `from_toml`. -/
def Lockfile.fromToml (reader : LockReader) (input : String) : Except LockWireError Lockfile := do
  let wire ← (reader.fromStr input).mapError .parse
  decodeLock reader wire

end Rsolve
