import Rsolve.Lock.Order
import Rsolve.Lock.Spelling

/-!
# Writing a lock

A lock is written as a wire record whose fields are texts, and the record is laid out as a TOML
document line by line. The TOML library is only asked for the text of a string and of an array of
strings.
-/
open Keyed Checked

namespace Rsolve

/-- `LockWireError`. -/
inductive LockWireError
  | parse (message : String)
  | serialize (message : String)
  | unsupportedSchema (version : Nat)
  | invalidIdentity (identity : String)
  | nonCanonicalVersion (field value : String)
  | invalidField (field message : String)
  | domain (cause : LockError)
deriving DecidableEq

/-- `WireRequestedGitSource`. -/
structure WireRequestedGitSource where
  /-- The repository. -/
  url : String
  /-- The kind of the requested revision. -/
  selector : String
  /-- The requested revision. -/
  selectorValue : Option String
  /-- The directory of the package. -/
  subdirectory : Option String
  /-- The requested versions. -/
  versionConstraint : String
deriving DecidableEq

/-- `WireDependency`. -/
structure WireDependency where
  /-- The reason of the dependency. -/
  kind : String
  /-- The package it leads to. -/
  package : String
deriving DecidableEq

/-- `WireSource`. -/
inductive WireSource
  | registry (nspace : String)
  | bioconductor (nspace release : String)
  | git (repository commit : String) (subdirectory : Option String)
  | immutable (scheme digest : String)
deriving DecidableEq

/-- `WirePackage`. -/
structure WirePackage where
  /-- The name of the package. -/
  name : String
  /-- Its version as published. -/
  version : String
  /-- Where the release comes from. -/
  source : WireSource
  /-- The digest of its metadata. -/
  metadataSha256 : String
  /-- The dependencies. -/
  dependencies : List WireDependency
  /-- The repositories the release is visible in. -/
  visibleRepositoryIds : List String
  /-- The requested source, when the package comes from Git. -/
  requestedGitSource : Option WireRequestedGitSource
deriving DecidableEq

/-- `WireLockfile`. -/
structure WireLockfile where
  /-- The version of the schema. -/
  version : Nat
  /-- The R version of the target. -/
  rVersion : String
  /-- The digest of the resolution intent. -/
  resolutionIntentSha256 : String
  /-- The constraint on R. -/
  rRequirement : String
  /-- The environment. -/
  environment : String
  /-- The publication cutoff. -/
  publicationCutoff : Option String
  /-- The packages. -/
  packages : List WirePackage
deriving DecidableEq

/-- `r_requirement_relation_tag`. -/
def rRequirementRelationTag : RelationOp → String
  | .lt => "<"
  | .le => "<="
  | .eq => "="
  | .ne => "!="
  | .ge => ">="
  | .gt => ">"

/-- `canonical_r_requirement`. -/
def canonicalRRequirement (constraint : VersionConstraint) : String :=
  if constraint.clauses = [] then "*"
  else String.intercalate "," ((canonicalClauses constraint.clauses).map fun clause =>
    rRequirementRelationTag clause.op ++ canonicalVersion clause.version)

/-- `encode_dependency_kind`. -/
def encodeDependencyKind : EffectiveDependencyKind → String
  | .depends => "depends"
  | .imports => "imports"
  | .linkingTo => "linking-to"
  | .promotedSuggests => "promoted-suggests"

/-- `encode_provenance`. -/
def encodeProvenance : Provenance → Except LockWireError WireSource
  | .registryRelease nspace _ => .ok (.registry nspace.text)
  | .bioconductorRelease nspace release _ => .ok (.bioconductor nspace.text release.text)
  | .gitCommit repository commit subdirectory =>
    .ok (.git repository.text commit.hex (subdirectory.map RepositorySubdir.text))
  | .immutableSource scheme digest => .ok (.immutable scheme.text digest.text)
  | .rBasePackage _ => .error (.invalidIdentity "R base package")

/-- The kind and the value of a selector. -/
def encodeSelector : LockedGitSelector → String × Option String
  | .defaultBranch => ("default-branch", none)
  | .branch value => ("branch", some value)
  | .tag value => ("tag", some value)
  | .rev value => ("rev", some value)

/-- `encode_requested_git_source`. -/
def encodeRequestedGitSource (source : LockedGitSource) : WireRequestedGitSource where
  url := source.url.text
  selector := (encodeSelector source.selector).1
  selectorValue := (encodeSelector source.selector).2
  subdirectory := source.subdirectory.map RepositorySubdir.text
  versionConstraint := canonicalRRequirement source.versionConstraint

/-- `encode_package`. -/
def encodePackage (selectedNames : List PackageName) (package : LockedPackage) :
    Except LockWireError WirePackage := do
  let source ← encodeProvenance package.identity.provenance
  return {
    name := package.name.text
    version := package.publishedVersionSpelling.getD (canonicalVersion package.version)
    source
    metadataSha256 := package.metadataSha256.text
    dependencies :=
      (package.dependencies.filter (fun dependency => dependency.package ∈ selectedNames)).map
        fun dependency => ⟨encodeDependencyKind dependency.kind, dependency.package.text⟩
    visibleRepositoryIds := package.visibleRepositoryIds.map Identifier.text
    requestedGitSource := package.requestedGitSource.map encodeRequestedGitSource }

/-- `SCHEMA_VERSION`. -/
def schemaVersion : Nat := 1

/-- `GENERATED_HEADER`. -/
def generatedHeader : String :=
  "# This file is automatically @generated by rsolve.\n# It is not intended for manual editing.\n\n"

/-- The record that `to_toml` writes for a normalized lock. -/
def encodeLock (normalized : Lockfile) : Except LockWireError WireLockfile := do
  let resolution := normalized.resolution
  let packages ← resolution.packages.mapM
    (encodePackage (resolution.packages.map LockedPackage.name))
  return {
    version := schemaVersion
    rVersion := canonicalVersion resolution.target.rVersion
    resolutionIntentSha256 := normalized.resolutionIntentSha256.text
    rRequirement := canonicalRRequirement normalized.rRequirement
    environment := resolution.environment.text
    publicationCutoff := resolution.publicationCutoff.map PublicationDate.text
    packages }

/-- What the TOML library writes for a document of one field `value` or `values`, or the message of
its error. -/
structure TomlWriter where
  /-- A document that holds a string. -/
  scalar : String → Except String String
  /-- A document that holds an array of strings. -/
  array : List String → Except String String

/-- `str::trim_start_matches`; the fuel is the length of the text. -/
def trimStartMatches (pattern : List Char) : Nat → List Char → List Char
  | 0, text => text
  | fuel + 1, text =>
    if pattern.isPrefixOf text then trimStartMatches pattern fuel (text.drop pattern.length)
    else text

/-- The text of a field without its name. -/
def fieldText (name serialized : String) : String :=
  let kept := (serialized.toList.reverse.dropWhile isWhitespace).reverse
  String.ofList (trimStartMatches name.toList kept.length kept)

namespace TomlWriter

variable (toml : TomlWriter)

/-- `toml_string`. -/
def string (value : String) : Except LockWireError String :=
  ((toml.scalar value).map (fieldText "value = ")).mapError .serialize

/-- `toml_array`. -/
def strings (values : List String) : Except LockWireError String :=
  ((toml.array values).map (fieldText "values = ")).mapError .serialize

/-- A field and its value. -/
def field (name value : String) : Except LockWireError String := do
  let text ← toml.string value
  return name ++ " = " ++ text

/-- An optional field. -/
def optionalField (name : String) : Option String → Except LockWireError (List String)
  | none => .ok []
  | some value => do
    let text ← toml.field name value
    return [text]

/-- Fields between braces. -/
def inlineTable (fields : List String) : String :=
  "\x7b " ++ String.intercalate ", " fields ++ " \x7d"

/-- `toml_dependencies`. -/
def dependencies (values : List WireDependency) : Except LockWireError String := do
  let entries ← values.mapM fun dependency => do
    let kind ← toml.field "kind" dependency.kind
    let package ← toml.field "package" dependency.package
    return inlineTable [kind, package]
  return "[" ++ String.intercalate ", " entries ++ "]"

/-- `inline_source`. -/
def inlineSource : WireSource → Except LockWireError String
  | .registry nspace => do
    let kind ← toml.field "kind" "registry"
    let nspace ← toml.field "namespace" nspace
    return inlineTable [kind, nspace]
  | .bioconductor nspace release => do
    let kind ← toml.field "kind" "bioconductor"
    let nspace ← toml.field "namespace" nspace
    let release ← toml.field "release" release
    return inlineTable [kind, nspace, release]
  | .git repository commit subdirectory => do
    let kind ← toml.field "kind" "git"
    let repository ← toml.field "repository" repository
    let commit ← toml.field "commit" commit
    let subdirectory ← toml.optionalField "subdirectory" subdirectory
    return inlineTable ([kind, repository, commit] ++ subdirectory)
  | .immutable scheme digest => do
    let kind ← toml.field "kind" "immutable"
    let scheme ← toml.field "scheme" scheme
    let digest ← toml.field "digest" digest
    return inlineTable [kind, scheme, digest]

/-- `inline_requested_git_source`. -/
def inlineRequestedGitSource (source : WireRequestedGitSource) : Except LockWireError String := do
  let url ← toml.field "url" source.url
  let selector ← toml.field "selector" source.selector
  let selectorValue ← toml.optionalField "selector-value" source.selectorValue
  let subdirectory ← toml.optionalField "subdirectory" source.subdirectory
  let versionConstraint ← toml.field "version-constraint" source.versionConstraint
  return inlineTable ([url, selector] ++ selectorValue ++ subdirectory ++ [versionConstraint])

/-- The lines of a package in `serialize_wire`. -/
def packageLines (package : WirePackage) : Except LockWireError (List String) := do
  let name ← toml.field "name" package.name
  let version ← toml.field "version" package.version
  let source ← toml.inlineSource package.source
  let metadata ← toml.field "metadata-sha256" package.metadataSha256
  let dependencies ← toml.dependencies package.dependencies
  let visible ← toml.strings package.visibleRepositoryIds
  let requested ← match package.requestedGitSource with
    | none => pure []
    | some source => do
      let text ← toml.inlineRequestedGitSource source
      pure ["requested-git-source = " ++ text]
  return ["", "[[packages]]", name, version, "source = " ++ source, metadata,
    "dependencies = " ++ dependencies, "visible-repository-ids = " ++ visible] ++ requested

/-- `serialize_wire`. -/
def serializeWire (wire : WireLockfile) : Except LockWireError String := do
  let rVersion ← toml.field "r-version" wire.rVersion
  let rRequirement ← toml.field "r-requirement" wire.rRequirement
  let intent ← toml.field "resolution-intent-sha256" wire.resolutionIntentSha256
  let environment ← toml.field "environment" wire.environment
  let cutoff ← toml.optionalField "publication-cutoff" wire.publicationCutoff
  let empty := if wire.packages = [] then ["packages = []"] else []
  let packages ← wire.packages.mapM toml.packageLines
  let lines := ["version = " ++ toString wire.version, rVersion, rRequirement, intent, environment] ++
    cutoff ++ empty ++ packages.flatten
  return generatedHeader ++ String.join (lines.map (· ++ "\n"))

end TomlWriter

/-- `to_toml`. -/
def Lockfile.toToml (toml : TomlWriter) (lock : Lockfile) : Except LockWireError String := do
  let normalized ← (Lockfile.new lock.resolutionIntentSha256 lock.rRequirement
    lock.resolution).mapError LockWireError.domain
  let wire ← encodeLock normalized
  toml.serializeWire wire

end Rsolve
