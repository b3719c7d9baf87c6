import Rsolve.Cran.PackageDescription
import Rsolve.Lib.Segments

/-!
# Catalog records

A package index is a list of records, each with the fields of a package description. A record of the
index describes a release of the registry, or an overlay for one R version when its path says so.
For a catalog all records must be valid; for a provider a record is admitted or rejected, and an
identity with a rejected record is quarantined.
-/
open Keyed Checked Panics Segments

namespace Rsolve

/-- `CranRecordError`. -/
inductive CranRecordError
  | missingField (field : String)
  | duplicateField (field : String)
  | invalidPackageName (error : PackageNameError)
  | invalidVersion (error : RPackageVersionError)
  | unexpectedPackage (expected actual : String)
  | invalidPath (value diagnostic : String)
  | invalidPublicationDate (value diagnostic : String)
  | invalidMetadata (error : ReleaseMetadataError)
  | invalidDependency (message : String)
  | dependency (field entry : String) (source : DependencyParseError)
  | domain (error : PackageReleaseError)
deriving DecidableEq

/-- `CranCatalogRecordScope`. -/
inductive CranCatalogRecordScope
  | root
  | recommendedOverlay (runtime : RPackageVersion)
deriving DecidableEq

/-- Scopes are compared with their versions as versions. -/
instance : Representative CranCatalogRecordScope where
  representative
    | .root => .root
    | .recommendedOverlay runtime => .recommendedOverlay (representative runtime)

/-- `CranCatalogRecordContext`. -/
inductive CranCatalogRecordContext
  | packagesIndex
  | description
deriving DecidableEq

/-- `CatalogRecord`. -/
structure CatalogRecord where
  recordIndex : Nat
  package : Option String
  fields : RecordFields
deriving DecidableEq

/-- `CranCatalogObservation` — a validated record with its fields. -/
structure CranCatalogObservation where
  recordIndex : Nat
  package : PackageName
  fields : RecordFields
  release : PackageRelease
  scope : CranCatalogRecordScope

/-- `CranArchiveReleaseRejection`. -/
structure CranArchiveReleaseRejection where
  recordIndex : Nat
  package : Option PackageName
  version : Option RPackageVersion
  scope : Option CranCatalogRecordScope
  fields : RecordFields
  error : CranRecordError

/-- `CranProviderObservationProjection`. -/
structure CranProviderObservationProjection where
  observations : List CranCatalogObservation
  rejections : List CranArchiveReleaseRejection

/-- `CranDiagnostic`. -/
structure CranDiagnostic where
  recordIndex : Nat
  package : Option String
  error : CranRecordError
deriving DecidableEq

/-- `CranCatalogError`, of records. -/
inductive CranCatalogError
  | semantic (diagnostics : List CranDiagnostic)
deriving DecidableEq

/-- `ProviderIdentityKey`. -/
structure ProviderIdentityKey where
  package : PackageName
  version : RPackageVersion
  scope : CranCatalogRecordScope
deriving DecidableEq

/-- Identities are compared with their versions as versions. -/
instance : Representative ProviderIdentityKey where
  representative key := ⟨key.package, representative key.version, representative key.scope⟩

namespace CranCatalog

open PackageDescription (field)

/-- `CRAN_NAMESPACE`. -/
def cranNamespace : String := "cran"

/-- `SOURCE_CHANNEL`. -/
def sourceChannel : String := "source"

/-- `map_description_error`. -/
def mapDescriptionError : DescriptionError → CranRecordError
  | .missingField field => .missingField field
  | .duplicateField field => .duplicateField field
  | .invalidPackageName error => .invalidPackageName error
  | .invalidVersion error => .invalidVersion error
  | .invalidMetadata error => .invalidMetadata error
  | .invalidPublicationDate value diagnostic => .invalidPublicationDate value diagnostic
  | .invalidDependency message => .invalidDependency message
  | .dependency field entry source => .dependency field entry source

/-- `required_field`. -/
def requiredField (fields : RecordFields) (name : String) : Except CranRecordError String :=
  match field fields name with
  | some value => .ok value
  | none => .error (.missingField name)

/-- `classify_path`. -/
def classifyPath (value : String) : Except CranRecordError CranCatalogRecordScope :=
  match segments '/' value with
  | [version, suffix] =>
    if suffix ≠ "Recommended" ∨ version = "" then
      .error (.invalidPath value "expected <R version>/Recommended")
    else
      match RPackageVersion.parseBare version with
      | .ok runtime => .ok (.recommendedOverlay runtime)
      | .error error =>
        .error (.invalidPath value ("invalid Recommended runtime version: " ++ error.message))
  | _ => .error (.invalidPath value "expected <R version>/Recommended")

/-- `reject_identity_duplicates`, with the names so far. -/
def rejectIdentityDuplicates : List String → RecordFields → Except CranRecordError Unit
  | _, [] => .ok ()
  | names, (name, _) :: rest =>
    let normalized := toAsciiLowercase name
    if normalized ∉ ["package", "version", "path"] then rejectIdentityDuplicates names rest
    else do
      ensure (normalized ∉ names) (.duplicateField name)
      rejectIdentityDuplicates (normalized :: names) rest

/-- The scope that a record's fields give it. -/
def fieldScope (fields : RecordFields) :
    CranCatalogRecordContext → Except CranRecordError CranCatalogRecordScope
  | .packagesIndex =>
    match field fields "Path" with
    | some path => classifyPath path
    | none => .ok .root
  | .description => .ok .root

/-- `provider_identity_from_fields`. -/
def providerIdentityFromFields (fields : RecordFields) (context : CranCatalogRecordContext) :
    Except CranRecordError ProviderIdentityKey := do
  rejectIdentityDuplicates [] fields
  let version ← (RPackageVersion.parse
    (PackageDescription.trimText (← requiredField fields "Version"))).mapError .invalidVersion
  let package ← (PackageName.new
    (PackageDescription.trimText (← requiredField fields "Package"))).mapError .invalidPackageName
  let scope ← fieldScope fields context
  return ⟨package, version, scope⟩

/-- A distribution of given facts; keys that do not fit into memory are never built. -/
def distributionOf (fields : DistributionFields) : Option Distribution :=
  if fits : (distributionKey fields).length < Framing.lengthBound then some ⟨fields, fits⟩ else none

variable (basis : CatalogBasis)

/-- No fields are in key order. -/
theorem noFields_ordered : ([] : List (String × String)).Pairwise
    (fun left right => compare left.1 right.1 = .lt) :=
  List.Pairwise.nil

/-- `observation_from_fields_with_context`. -/
def observationFromFieldsWithContext (fields : RecordFields) (context : CranCatalogRecordContext) :
    Guarded CranRecordError ReleaseObservation := do
  let parsed ← attempt
    ((PackageDescription.parseDescriptionFields basis fields).mapError mapDescriptionError)
  let _ ← attempt (fieldScope fields context)
  let nspace ← demand (Identifier.new .packageNamespace cranNamespace).toOption
  let registry ← demand (Identifier.new .registryId cranNamespace).toOption
  let channel ← demand (Identifier.new .distributionChannel sourceChannel).toOption
  let distribution ← demand (distributionOf ⟨registry, channel, none, [], ⟨[], noFields_ordered⟩⟩)
  return {
    identity := ⟨parsed.package, .registryRelease nspace parsed.version⟩
    observedPackage := parsed.package
    observedVersion := parsed.version
    metadata := parsed.metadata
    publication := parsed.publication
    declaredDependencies := parsed.dependencies
    distributions := [distribution] }

/-- `metadata_field`. -/
def metadataField (observation : ReleaseObservation) (name : String) : Option String :=
  (observation.metadata.fields.find? fun entry =>
    PackageDescription.eqIgnoreAsciiCase entry.1 name).map Prod.snd

/-- `observation_scope` — nothing where it panics. -/
def observationScope (observation : ReleaseObservation) (context : CranCatalogRecordContext) :
    Option CranCatalogRecordScope :=
  match metadataField observation "Path" with
  | none => some .root
  | some path =>
    match context with
    | .packagesIndex => (classifyPath path).toOption
    | .description => some .root

/-- The fields of the records by index. -/
def fieldsByIndex (records : List CatalogRecord) (recordIndex : Nat) : Option RecordFields :=
  (records.reverse.find? (fun record => record.recordIndex == recordIndex)).map (·.fields)

/-! ### Catalogs -/

/-- `ParsedCatalogObservation`. -/
structure ParsedCatalogObservation where
  recordIndex : Nat
  package : Option String
  observation : Except CranRecordError ReleaseObservation

/-- What the loop of `select_and_aggregate` keeps. -/
structure Selection where
  diagnostics : List CranDiagnostic
  selected : List (Nat × Option String × ReleaseObservation)
  aggregation : ReleaseAggregation

/-- What the loop of `select_and_aggregate` does with one observation; nothing where it panics. -/
def selectOne (context : CranCatalogRecordContext) (state : Selection)
    (parsed : ParsedCatalogObservation) : Option Selection :=
  match parsed.observation with
  | .error error =>
    some { state with
      diagnostics := state.diagnostics ++ [⟨parsed.recordIndex, parsed.package, error⟩] }
  | .ok observation => do
    match ← observationScope observation context with
    | .recommendedOverlay _ => some state
    | .root =>
      match ← (state.aggregation.observe basis.sha256 observation).run with
      | .error error =>
        some { state with
          diagnostics :=
            state.diagnostics ++ [⟨parsed.recordIndex, parsed.package, .domain error⟩] }
      | .ok aggregation =>
        some { state with
          selected := state.selected ++ [(parsed.recordIndex, parsed.package, observation)]
          aggregation }

/-- `select_and_aggregate`. -/
def selectAndAggregate (observations : List ParsedCatalogObservation)
    (context : CranCatalogRecordContext) :
    Guarded (List CranDiagnostic)
      (List (Nat × Option String × ReleaseObservation) × ReleaseAggregation) := do
  let state ← demand (observations.foldlM (selectOne basis context) ⟨[], [], .empty⟩)
  attempt (ensure (state.diagnostics = []) state.diagnostics)
  return (state.selected, state.aggregation)

/-- The observation of a parsed record with the fields of the record. -/
def retainObservation (records : List CatalogRecord) (context : CranCatalogRecordContext)
    (parsed : ParsedCatalogObservation) : Option (Option CranCatalogObservation) :=
  match parsed.observation with
  | .error _ => some none
  | .ok observation => do
    let scope ← observationScope observation context
    let release ← (← (PackageRelease.tryFrom basis.sha256 observation).run).toOption
    let fields ← fieldsByIndex records parsed.recordIndex
    some (some ⟨parsed.recordIndex, observation.identity.name, fields, release, scope⟩)

/-- A record with what was read from it. -/
def parseRecord (context : CranCatalogRecordContext) (record : CatalogRecord) :
    Option ParsedCatalogObservation := do
  let observation ← (observationFromFieldsWithContext basis record.fields context).run
  some ⟨record.recordIndex, record.package, observation⟩

/-- `validated_observations_from_fields_with_context`. -/
def validatedObservationsFromFieldsWithContext (records : List CatalogRecord)
    (context : CranCatalogRecordContext) :
    Guarded CranCatalogError (List CranCatalogObservation) := do
  let parsed ← demand (records.mapM (parseRecord basis context))
  let selection ← demand (selectAndAggregate basis parsed context).run
  let _ ← attempt (selection.mapError .semantic)
  let observations ← demand (parsed.mapM (retainObservation basis records context))
  return observations.filterMap id

/-! ### Providers -/

/-- What the loop of `provider_observations_from_fields` keeps. -/
structure ProviderState where
  observations : List CranCatalogObservation
  rejections : List CranArchiveReleaseRejection
  aggregation : ReleaseAggregation
  seenIdentities : KeyedMap ProviderIdentityKey Bool

/-- The state before the loop. -/
def ProviderState.new : ProviderState := ⟨[], [], .empty, .empty⟩

/-- The state after a rejection. -/
def ProviderState.reject (state : ProviderState) (record : CatalogRecord)
    (package : Option PackageName) (version : Option RPackageVersion)
    (scope : Option CranCatalogRecordScope) (error : CranRecordError) : ProviderState :=
  { state with
    rejections := state.rejections ++
      [⟨record.recordIndex, package, version, scope, record.fields, error⟩] }

/-- The rejection of a record of an identity. -/
def ProviderState.rejectIdentity (state : ProviderState) (record : CatalogRecord)
    (identity : ProviderIdentityKey) (error : CranRecordError) : ProviderState :=
  state.reject record (some identity.package) (some identity.version) (some identity.scope) error

/-- The error of a record whose identity was seen. -/
def duplicateIdentity : CranRecordError := .domain (.conflictingMetadata "duplicate identity")

/-- The rejection of an invalid record: its identity is noted as rejected. -/
def ProviderState.rejectInvalid (state : ProviderState) (record : CatalogRecord)
    (identity : ProviderIdentityKey) (package : PackageName) (error : CranRecordError) :
    ProviderState :=
  let wasRejected := state.seenIdentities.get? identity
  { state with seenIdentities := state.seenIdentities.insert identity true }.rejectIdentity record
    { identity with package } (if wasRejected.isSome then duplicateIdentity else error)

/-- The admission of a valid record, when its identity was not rejected before and its release is
consistent. The identity is noted as not rejected. -/
def ProviderState.admit (state : ProviderState) (records : List CatalogRecord)
    (record : CatalogRecord) (identity : ProviderIdentityKey) (scope : CranCatalogRecordScope)
    (release : PackageRelease) : Option ProviderState :=
  let wasRejected := state.seenIdentities.get? identity
  let state := { state with seenIdentities := state.seenIdentities.insert identity false }
  let named := { identity with package := release.identity.name }
  if wasRejected = some true then some (state.rejectIdentity record named duplicateIdentity)
  else
    match if scope = .root then state.aggregation.observeRelease release
      else .ok state.aggregation with
    | .error error => some (state.rejectIdentity record named (.domain error))
    | .ok aggregation => do
      let fields ← fieldsByIndex records record.recordIndex
      some { state with
        aggregation
        observations := state.observations ++
          [⟨record.recordIndex, release.identity.name, fields, release, scope⟩] }

/-- What the loop of `provider_observations_from_fields` does with one record; nothing where it
panics. -/
def observeRecord (records : List CatalogRecord) (context : CranCatalogRecordContext)
    (expectedPackage : Option PackageName) (state : ProviderState) (record : CatalogRecord) :
    Option ProviderState :=
  match providerIdentityFromFields record.fields context with
  | .error error =>
    some (state.reject record
      ((field record.fields "Package").bind fun value =>
        (PackageName.new (PackageDescription.trimText value)).toOption)
      ((field record.fields "Version").bind fun value =>
        (RPackageVersion.parse (PackageDescription.trimText value)).toOption)
      (fieldScope record.fields context).toOption error)
  | .ok identity =>
    match expectedPackage.filter (fun expected => identity.package ≠ expected) with
    | some expected =>
      some (state.rejectIdentity record identity
        (.unexpectedPackage expected.text identity.package.text))
    | none => do
      match ← (observationFromFieldsWithContext basis record.fields context).run with
      | .error error => some (state.rejectInvalid record identity identity.package error)
      | .ok observation =>
        let scope ← observationScope observation context
        match ← (PackageRelease.tryFrom basis.sha256 observation).run with
        | .error error =>
          some (state.rejectInvalid record identity observation.identity.name (.domain error))
        | .ok release => state.admit records record identity scope release

/-- `provider_observations_from_fields`. -/
def providerObservationsFromFields (records : List CatalogRecord)
    (context : CranCatalogRecordContext) (expectedPackage : Option PackageName) :
    Option CranProviderObservationProjection := do
  let state ← records.foldlM (observeRecord basis records context expectedPackage) .new
  some ⟨state.observations, state.rejections⟩

/-- `is_allpackages_transport_field`. -/
def isAllpackagesTransportField (name : String) : Bool :=
  let normalized := toAsciiLowercase name
  normalized == "downloadurl" || normalized == "filesize" || normalized == "repository" ||
    normalized == "snapshot" || "sha256".toList.isPrefixOf normalized.toList

/-- `allpackages_observations_from_fields`. -/
def allpackagesObservationsFromFields (records : List CatalogRecord) :
    Option CranProviderObservationProjection := do
  let semantic := records.map fun record =>
    { record with fields := record.fields.filter fun entry => !isAllpackagesTransportField entry.1 }
  let projection ← providerObservationsFromFields basis semantic .packagesIndex none
  let raw := fun recordIndex fields => (fieldsByIndex records recordIndex).getD fields
  some {
    observations := projection.observations.map fun observation =>
      { observation with fields := raw observation.recordIndex observation.fields }
    rejections := projection.rejections.map fun rejection =>
      { rejection with fields := raw rejection.recordIndex rejection.fields } }

end CranCatalog

end Rsolve
