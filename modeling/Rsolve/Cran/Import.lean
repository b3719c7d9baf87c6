import Rsolve.Cran.Catalog

/-!
# Reading catalog records

What a record's fields say is read in one way for its identity and in another way for its release.
The two agree, and every check that the import relies on was made before: the import of any list of
records stops nothing.
-/
open Keyed Checked Ordered Panics

namespace Rsolve

/-- Two lists with the same matching elements, of which there is at most one, find the same. -/
theorem find?_eq_of_mem_iff {α : Type*} {test : α → Bool} {left right : List α}
    (same : ∀ item, test item = true → (item ∈ left ↔ item ∈ right))
    (unique : ∀ first ∈ left, ∀ second ∈ left, test first = true → test second = true →
      first = second) : left.find? test = right.find? test := by
  cases found : left.find? test with
  | none =>
    refine (List.find?_eq_none.mpr fun item member passes => ?_).symm
    exact List.find?_eq_none.mp found item ((same item passes).mpr member) passes
  | some item =>
    have passes := List.find?_some found
    have member := List.mem_of_find?_eq_some found
    obtain ⟨other, otherFound⟩ := Option.isSome_iff_exists.mp
      (List.find?_isSome.mpr ⟨item, (same item passes).mp member, passes⟩)
    have otherPasses := List.find?_some otherFound
    have otherIn := (same other otherPasses).mpr (List.mem_of_find?_eq_some otherFound)
    rw [otherFound, unique item member other otherIn passes otherPasses]

namespace PackageDescription

/-- Fields that pass the check for duplicates have distinct names, none of them among those before. -/
theorem rejectDuplicateFields_eq_ok {names : List String} {fields : RecordFields} :
    rejectDuplicateFields names fields = .ok () ↔
      (fields.map fun entry => toAsciiLowercase entry.1).Nodup ∧
        ∀ entry ∈ fields, toAsciiLowercase entry.1 ∉ names := by
  induction fields generalizing names with
  | nil => simp [rejectDuplicateFields]
  | cons entry rest ih =>
    rw [rejectDuplicateFields, bind_eq_ok]
    simp only [ensure_eq_ok, exists_const, ih, List.map_cons, List.nodup_cons, List.mem_cons,
      List.mem_map, not_or, not_exists, not_and, forall_eq_or_imp]
    constructor
    · rintro ⟨fresh, distinct, apart⟩
      exact ⟨⟨fun other member => (apart other member).1, distinct⟩, fresh,
        fun other member => (apart other member).2⟩
    · rintro ⟨⟨differs, distinct⟩, fresh, apart⟩
      exact ⟨fresh, distinct, fun other member => ⟨differs other member, apart other member⟩⟩

/-- The reserved names of the metadata are reserved here. -/
theorem mem_reservedNames {name : String} (reserved : name ∈ reservedFields) :
    name ∈ reservedNames := by
  revert reserved
  simp only [reservedFields, reservedNames, List.mem_cons, List.not_mem_nil, or_false]
  tauto

/-- What is in the metadata of fields with distinct names. -/
theorem mem_metadataOf {fields : RecordFields}
    (distinct : (fields.map fun entry => toAsciiLowercase entry.1).Nodup) {entry : String × String} :
    entry ∈ (metadataOf fields).entries ↔ entry ∈ fields ∧ isReservedField entry.1 = false := by
  have named : ((fields.filter fun entry => !isReservedField entry.1).map Prod.fst).Nodup := by
    have sublist := (List.filter_sublist (p := fun entry : String × String =>
      !isReservedField entry.1) (l := fields)).map fun entry => toAsciiLowercase entry.1
    have lowered := distinct.sublist sublist
    rw [← Function.comp_def, ← List.map_map] at lowered
    exact List.Nodup.of_map _ lowered
  rw [metadataOf, OrderedMap.mem_foldl_insert named fun item _ => List.not_mem_nil]
  simp [OrderedMap.empty]

/-- The metadata of a record is never refused. -/
theorem exists_new_metadataOf {fields : RecordFields}
    (distinct : (fields.map fun entry => toAsciiLowercase entry.1).Nodup) :
    ∃ metadata, ReleaseMetadata.new (metadataOf fields) = .ok metadata ∧
      metadata.fields = (metadataOf fields).entries := by
  unfold ReleaseMetadata.new
  split
  · next entry found =>
    have reserved : toAsciiLowercase entry.1 ∈ reservedFields := by
      simpa using List.find?_some found
    have kept := ((mem_metadataOf distinct).mp (List.mem_of_find?_eq_some found)).2
    simp [isReservedField, mem_reservedNames reserved] at kept
  · exact ⟨_, rfl, rfl⟩

variable {basis : CatalogBasis} {fields : RecordFields} {parsed : ParsedDescription}

/-- What parsed fields are: names stand once, and name, version and metadata are those of the
fields. -/
structure Parses (fields : RecordFields) (parsed : ParsedDescription) : Prop where
  /-- No name stands twice. -/
  distinct : (fields.map fun entry => toAsciiLowercase entry.1).Nodup
  /-- The version. -/
  version : ∃ text, field fields "Version" = some text ∧
    RPackageVersion.parse (trimText text) = .ok parsed.version
  /-- The name. -/
  package : ∃ text, field fields "Package" = some text ∧
    PackageName.new (trimText text) = .ok parsed.package
  /-- The other metadata. -/
  metadata : parsed.metadata.fields = (metadataOf fields).entries

/-- A required field is there. -/
theorem requiredField_eq_ok {name text : String} :
    requiredField fields name = .ok text ↔ field fields name = some text := by
  unfold requiredField
  cases field fields name <;> simp

/-- Parsing reads the fields. -/
theorem parses_of_eq_ok (read : parseDescriptionFields basis fields = .ok parsed) :
    Parses fields parsed := by
  unfold parseDescriptionFields at read
  obtain ⟨_, single, read⟩ := bind_eq_ok.mp read
  obtain ⟨versionText, versionField, read⟩ := bind_eq_ok.mp read
  obtain ⟨version, versionRead, read⟩ := bind_eq_ok.mp read
  obtain ⟨packageText, packageField, read⟩ := bind_eq_ok.mp read
  obtain ⟨package, packageRead, read⟩ := bind_eq_ok.mp read
  obtain ⟨publication, -, read⟩ := bind_eq_ok.mp read
  obtain ⟨dependencies, -, read⟩ := bind_eq_ok.mp read
  obtain ⟨metadata, metadataRead, finished⟩ := bind_eq_ok.mp read
  obtain rfl := Except.ok.inj finished
  have distinct := (rejectDuplicateFields_eq_ok.mp single).1
  obtain ⟨expected, made, same⟩ := exists_new_metadataOf distinct
  obtain rfl : expected = metadata :=
    Except.ok.inj (made.symm.trans (mapError_eq_ok.mp metadataRead))
  exact ⟨distinct, ⟨versionText, requiredField_eq_ok.mp versionField, mapError_eq_ok.mp versionRead⟩,
    ⟨packageText, requiredField_eq_ok.mp packageField, mapError_eq_ok.mp packageRead⟩, same⟩

/-- A field that is not reserved is found in the metadata as it is found in the record. -/
theorem Parses.find_metadata (parses : Parses fields parsed) {name : String}
    (open' : isReservedField name = false) :
    (parsed.metadata.fields.find? fun entry => eqIgnoreAsciiCase entry.1 name).map Prod.snd =
      field fields name := by
  have matching : ∀ {entry : String × String}, eqIgnoreAsciiCase entry.1 name = true →
      toAsciiLowercase entry.1 = toAsciiLowercase name := fun passes => by
    simpa [eqIgnoreAsciiCase] using passes
  have found : parsed.metadata.fields.find? (fun entry => eqIgnoreAsciiCase entry.1 name) =
      fields.find? (fun entry => eqIgnoreAsciiCase entry.1 name) := by
    refine find?_eq_of_mem_iff (fun entry passes => ?_) fun first firstIn second secondIn same other => ?_
    · rw [parses.metadata, mem_metadataOf parses.distinct]
      have kept : isReservedField entry.1 = false := by
        rw [← open', isReservedField, isReservedField, matching passes]
      exact ⟨And.left, fun member => ⟨member, kept⟩⟩
    · rw [parses.metadata, mem_metadataOf parses.distinct] at firstIn secondIn
      exact List.inj_on_of_nodup_map parses.distinct firstIn.1 secondIn.1
        ((matching same).trans (matching other).symm)
  rw [found]
  rfl

end PackageDescription

/-- A dependency names its package. -/
theorem DeclaredDependency.namesPackage_eq_true (dependency : DeclaredDependency) :
    dependency.namesPackage = true := by
  obtain ⟨kind, name, source, constraint, named⟩ := dependency
  have filled : name.text.isEmpty = false := by
    by_contra empty
    have text : name.text = "" := by simpa using empty
    have valid := name.valid
    rw [text] at valid
    cases valid
  unfold DeclaredDependency.namesPackage
  simp only [filled, Bool.not_false, Bool.true_and]
  cases source with
  | exact identity => simpa using named identity rfl
  | any => rfl
  | registry => rfl
  | repository => rfl
  | bioconductor => rfl
  | git => rfl

namespace CranCatalog

open PackageDescription (field Parses)

/-- The identifiers of CRAN pass their checks. -/
theorem check_cran (kind : IdentifierKind) : Identifier.check kind cranNamespace = .ok () := by
  cases kind <;> decide +kernel

/-- The name of the source channel passes its check. -/
theorem check_source : Identifier.check .distributionChannel sourceChannel = .ok () := by
  decide +kernel

/-- The distribution of a record. -/
def sourceDistribution : DistributionFields :=
  ⟨⟨cranNamespace, check_cran .registryId⟩, ⟨sourceChannel, check_source⟩, none, [],
    ⟨[], noFields_ordered⟩⟩

/-- The key of the distribution of a record fits into memory. -/
theorem sourceDistribution_fits :
    (distributionKey sourceDistribution).length < Framing.lengthBound := by
  decide +kernel

/-- The observation of parsed fields. -/
def registryObservation (parsed : ParsedDescription) : ReleaseObservation where
  identity := ⟨parsed.package,
    .registryRelease ⟨cranNamespace, check_cran .packageNamespace⟩ parsed.version⟩
  observedPackage := parsed.package
  observedVersion := parsed.version
  metadata := parsed.metadata
  publication := parsed.publication
  declaredDependencies := parsed.dependencies
  distributions := [⟨sourceDistribution, sourceDistribution_fits⟩]

variable {basis : CatalogBasis} {fields : RecordFields} {context : CranCatalogRecordContext}
  {parsed : ParsedDescription}

/-- What a record says of a release, and what is wrong with it. -/
def readObservation (basis : CatalogBasis) (fields : RecordFields)
    (context : CranCatalogRecordContext) : Except CranRecordError ReleaseObservation := do
  let parsed ← (PackageDescription.parseDescriptionFields basis fields).mapError mapDescriptionError
  let _ ← fieldScope fields context
  return registryObservation parsed

/-- An identifier is made from a text that passes the check. -/
theorem new_of_check {kind : IdentifierKind} {text : String}
    (valid : Identifier.check kind text = .ok ()) :
    (Identifier.new kind text).toOption = some ⟨text, valid⟩ := by
  rw [(@Identifier.new_eq_ok kind text ⟨text, valid⟩).mpr rfl]
  rfl

/-- The observation of a record stops nothing. -/
theorem observationFromFieldsWithContext_eq :
    observationFromFieldsWithContext basis fields context =
      attempt (readObservation basis fields context) := by
  have distribution : distributionOf ⟨⟨cranNamespace, check_cran .registryId⟩,
      ⟨sourceChannel, check_source⟩, none, [], ⟨[], noFields_ordered⟩⟩ =
      some ⟨sourceDistribution, sourceDistribution_fits⟩ := dif_pos sourceDistribution_fits
  unfold observationFromFieldsWithContext readObservation
  rw [attempt_bind]
  refine congrArg _ (funext fun parsed => ?_)
  rw [attempt_bind]
  refine congrArg _ (funext fun _ => ?_)
  simp only [new_of_check (check_cran .packageNamespace), new_of_check (check_cran .registryId),
    new_of_check check_source, demand_of rfl, pure_bind]
  rw [demand_of distribution]
  rfl

/-- The release of parsed fields. -/
def registryRelease (parsed : ParsedDescription) : PackageRelease where
  identity := (registryObservation parsed).identity
  version := parsed.version
  metadata := parsed.metadata
  publication := parsed.publication
  declaredDependencies := parsed.dependencies
  distributions := canonicalizeDistributions (registryObservation parsed).distributions
  versioned := by
    rintro _ ⟨⟩
    exact Same.refl _
  canonical := canonicalizeDistributions_canonical _

/-- The observation of parsed fields converts to a release. -/
theorem tryFrom_registryObservation (sha256 : List UInt8 → Vector UInt8 32)
    (parsed : ParsedDescription) :
    PackageRelease.tryFrom sha256 (registryObservation parsed) = pure (registryRelease parsed) := by
  have versioned : ∀ version', (registryObservation parsed).identity.provenance.fixedVersion =
      some version' → Same version' (registryObservation parsed).observedVersion := by
    rintro _ ⟨⟩
    exact Same.refl _
  have named : ((registryObservation parsed).declaredDependencies.zipIdx.forM fun entry =>
      ensure (entry.1.namesPackage = true) (PackageReleaseError.invalidDependency entry.2)) =
        .ok () :=
    forM_eq_ok.mpr fun entry _ => ensure_of entry.1.namesPackage_eq_true
  obtain ⟨digest, hashed⟩ := @Sha256Digest.exists_new_hex ((sha256 (metadataPreimage
    (registryObservation parsed).identity (registryObservation parsed).observedVersion
    (registryObservation parsed).declaredDependencies)).toList) Vector.length_toList
  have sameName : ensure ((registryObservation parsed).identity.name =
      (registryObservation parsed).observedPackage)
      (PackageReleaseError.conflictingMetadata "package name") = .ok () := ensure_of rfl
  unfold PackageRelease.tryFrom
  rw [named, hashed, dif_pos versioned, sameName]
  rfl

/-- The scope of the observation of parsed fields is that of the fields. -/
theorem observationScope_registryObservation (parses : Parses fields parsed)
    {scope : CranCatalogRecordScope} (scopeRead : fieldScope fields context = .ok scope) :
    observationScope (registryObservation parsed) context = some scope := by
  have found : metadataField (registryObservation parsed) "Path" = field fields "Path" :=
    parses.find_metadata (by decide +kernel)
  unfold observationScope
  rw [found]
  cases context with
  | packagesIndex =>
    unfold fieldScope at scopeRead
    cases path : field fields "Path" with
    | none =>
      rw [path] at scopeRead
      exact congrArg some (Except.ok.inj scopeRead)
    | some path' =>
      rw [path] at scopeRead
      simp only [scopeRead]
      rfl
  | description =>
    obtain rfl := Except.ok.inj scopeRead
    cases field fields "Path" <;> rfl

/-- What is known of a record that was read. -/
structure Reads (fields : RecordFields) (context : CranCatalogRecordContext)
    (observation : ReleaseObservation) where
  /-- The parsed fields. -/
  parsed : ParsedDescription
  /-- They are what the fields say. -/
  parses : Parses fields parsed
  /-- The scope of the record. -/
  scope : CranCatalogRecordScope
  /-- It is what the fields say. -/
  scopeRead : fieldScope fields context = .ok scope
  /-- The observation is that of the parsed fields. -/
  made : observation = registryObservation parsed

/-- A record that is read has been parsed and has a scope. -/
theorem reads_of_readObservation {observation : ReleaseObservation}
    (read : readObservation basis fields context = .ok observation) :
    Nonempty (Reads fields context observation) := by
  obtain ⟨parsed, parsedOk, read⟩ := bind_eq_ok.mp read
  obtain ⟨scope, scopeRead, finished⟩ := bind_eq_ok.mp read
  exact ⟨⟨parsed, PackageDescription.parses_of_eq_ok (mapError_eq_ok.mp parsedOk), scope, scopeRead,
    (Except.ok.inj finished).symm⟩⟩

/-- The scope of a record that is read is that of its fields. -/
theorem Reads.observationScope_eq {observation : ReleaseObservation}
    (reads : Reads fields context observation) :
    observationScope observation context = some reads.scope := by
  obtain ⟨parsed, parses, scope, scopeRead, rfl⟩ := reads
  exact observationScope_registryObservation parses scopeRead

/-- A record that is read converts to a release. -/
theorem Reads.tryFrom_eq {observation : ReleaseObservation}
    (reads : Reads fields context observation) (sha256 : List UInt8 → Vector UInt8 32) :
    PackageRelease.tryFrom sha256 observation = pure (registryRelease reads.parsed) := by
  obtain ⟨parsed, parses, scope, scopeRead, rfl⟩ := reads
  exact tryFrom_registryObservation sha256 parsed

/-- A record's fields are found by its index. -/
theorem exists_fieldsByIndex {records : List CatalogRecord} {record : CatalogRecord}
    (member : record ∈ records) :
    ∃ fields, fieldsByIndex records record.recordIndex = some fields := by
  have indexed : (records.reverse.find? fun other =>
      other.recordIndex == record.recordIndex).isSome := by
    rw [List.find?_isSome]
    exact ⟨record, List.mem_reverse.mpr member, beq_self_eq_true _⟩
  obtain ⟨other, found⟩ := Option.isSome_iff_exists.mp indexed
  exact ⟨other.fields, by rw [fieldsByIndex, found]; rfl⟩

/-! ### Catalogs stop nothing -/

/-- A record with what its fields say. -/
def readRecord (basis : CatalogBasis) (context : CranCatalogRecordContext)
    (record : CatalogRecord) : ParsedCatalogObservation :=
  ⟨record.recordIndex, record.package, readObservation basis record.fields context⟩

/-- Every record is parsed. -/
theorem mapM_parseRecord (records : List CatalogRecord) :
    records.mapM (parseRecord basis context) = some (records.map (readRecord basis context)) := by
  have parse : parseRecord basis context =
      fun record => pure (readRecord basis context record) := funext fun record => by
    unfold parseRecord
    rw [observationFromFieldsWithContext_eq]
    rfl
  rw [parse, List.mapM_pure]
  rfl

/-- The selection of one record stops nothing. -/
theorem exists_selectOne (state : Selection) (record : CatalogRecord) :
    ∃ next, selectOne basis context state (readRecord basis context record) = some next := by
  unfold selectOne
  cases read : (readRecord basis context record).observation with
  | error error => exact ⟨_, rfl⟩
  | ok observation =>
    obtain ⟨reads⟩ := reads_of_readObservation read
    simp only [reads.observationScope_eq]
    cases reads.scope with
    | recommendedOverlay runtime => exact ⟨_, rfl⟩
    | root =>
      unfold ReleaseAggregation.observe
      rw [reads.tryFrom_eq, pure_bind]
      cases aggregated : state.aggregation.observeRelease (registryRelease reads.parsed) with
      | error error => exact ⟨_, rfl⟩
      | ok aggregation => exact ⟨_, rfl⟩

/-- The selection stops nothing. -/
theorem safe_selectAndAggregate (records : List CatalogRecord) :
    Safe (selectAndAggregate basis (records.map (readRecord basis context)) context) := by
  have total : ∀ state parsed, parsed ∈ records.map (readRecord basis context) →
      ∃ next, selectOne basis context state parsed = some next := fun state parsed member => by
    obtain ⟨record, -, rfl⟩ := List.mem_map.mp member
    exact exists_selectOne state record
  obtain ⟨final, folded⟩ := exists_foldlM_eq_some total ⟨[], [], .empty⟩
  exact safe_bind (safe_demand folded) fun _ _ =>
    safe_bind (safe_attempt _) fun _ _ => safe_pure _

/-- Retaining a record stops nothing. -/
theorem exists_retainObservation {records : List CatalogRecord} {record : CatalogRecord}
    (member : record ∈ records) :
    ∃ retained, retainObservation basis records context (readRecord basis context record) =
      some retained := by
  unfold retainObservation
  cases read : (readRecord basis context record).observation with
  | error error => exact ⟨_, rfl⟩
  | ok observation =>
    obtain ⟨reads⟩ := reads_of_readObservation read
    obtain ⟨fields, found⟩ := exists_fieldsByIndex member
    simp only [reads.observationScope_eq, reads.tryFrom_eq]
    rw [show (readRecord basis context record).recordIndex = record.recordIndex from rfl, found]
    exact ⟨_, rfl⟩

/-- The validation of a catalog stops nothing. -/
theorem safe_validatedObservations (basis : CatalogBasis) (context : CranCatalogRecordContext)
    (records : List CatalogRecord) :
    Safe (validatedObservationsFromFieldsWithContext basis records context) := by
  have total : ∀ parsed ∈ records.map (readRecord basis context), ∃ retained,
      retainObservation basis records context parsed = some retained := fun parsed member => by
    obtain ⟨record, recordIn, rfl⟩ := List.mem_map.mp member
    exact exists_retainObservation recordIn
  obtain ⟨retained, mapped⟩ := exists_mapM_eq_some total
  obtain ⟨selection, selected⟩ := Option.ne_none_iff_exists'.mp
    (@safe_selectAndAggregate basis context records)
  unfold validatedObservationsFromFieldsWithContext
  rw [demand_of (mapM_parseRecord records), pure_bind, demand_of selected, pure_bind,
    demand_of mapped]
  exact safe_bind (safe_attempt _) fun _ _ => safe_pure _

/-! ### Providers stop nothing -/

/-- An admission stops nothing. -/
theorem exists_admit {records : List CatalogRecord} {record : CatalogRecord}
    (member : record ∈ records) (state : ProviderState) (identity : ProviderIdentityKey)
    (scope : CranCatalogRecordScope) (release : PackageRelease) :
    ∃ next, state.admit records record identity scope release = some next := by
  obtain ⟨fields, found⟩ := exists_fieldsByIndex member
  unfold ProviderState.admit
  dsimp only
  split
  · exact ⟨_, rfl⟩
  · split
    · exact ⟨_, rfl⟩
    · rw [found]
      exact ⟨_, rfl⟩

/-- The observation of one record stops nothing. -/
theorem exists_observeRecord {records : List CatalogRecord} {record : CatalogRecord}
    (member : record ∈ records) (expected : Option PackageName) (state : ProviderState) :
    ∃ next, observeRecord basis records context expected state record = some next := by
  unfold observeRecord
  split
  · exact ⟨_, rfl⟩
  · split
    · exact ⟨_, rfl⟩
    · next identity _ _ _ =>
      rw [observationFromFieldsWithContext_eq]
      cases read : readObservation basis record.fields context with
      | error error => exact ⟨_, rfl⟩
      | ok observation =>
        obtain ⟨reads⟩ := reads_of_readObservation read
        simp only [run_attempt, Option.bind_eq_bind, Option.bind_some, reads.observationScope_eq,
          reads.tryFrom_eq, ExceptT.run_pure, Option.pure_def]
        exact exists_admit member state identity reads.scope (registryRelease reads.parsed)

/-- The observation of all records stops nothing. -/
theorem exists_providerObservations (basis : CatalogBasis) (context : CranCatalogRecordContext)
    (expected : Option PackageName) (records : List CatalogRecord) :
    ∃ projection, providerObservationsFromFields basis records context expected =
      some projection := by
  have total : ∀ state record, record ∈ records →
      ∃ next, observeRecord basis records context expected state record = some next :=
    fun state record member => exists_observeRecord member expected state
  obtain ⟨final, folded⟩ := exists_foldlM_eq_some total .new
  exact ⟨_, by rw [providerObservationsFromFields, folded]; rfl⟩

/-- The import of records stops nothing, whatever they say. A record that is read converts to a
release and has a scope, and its path is classified where a path says something. -/
theorem import_safe (basis : CatalogBasis) (records : List CatalogRecord)
    (context : CranCatalogRecordContext) (expected : Option PackageName) :
    Safe (validatedObservationsFromFieldsWithContext basis records context) ∧
      (∃ projection, providerObservationsFromFields basis records context expected =
        some projection) ∧
      (∃ projection, allpackagesObservationsFromFields basis records = some projection) ∧
      ∀ fields, Safe (observationFromFieldsWithContext basis fields context) ∧
        ∀ observation, Returns (observationFromFieldsWithContext basis fields context) observation →
          (∃ release, Returns (PackageRelease.tryFrom basis.sha256 observation) release) ∧
          (∃ scope, observationScope observation context = some scope) ∧
          (context = .packagesIndex → ∀ path, metadataField observation "Path" = some path →
            ∃ scope, classifyPath path = .ok scope) := by
  refine ⟨safe_validatedObservations basis context records,
    exists_providerObservations basis context expected records, ?_, fun fields => ⟨?_, ?_⟩⟩
  · obtain ⟨projection, provided⟩ := exists_providerObservations basis .packagesIndex none
      (records.map fun record => { record with
        fields := record.fields.filter fun entry => !isAllpackagesTransportField entry.1 })
    exact ⟨_, by rw [allpackagesObservationsFromFields, provided]; rfl⟩
  · rw [observationFromFieldsWithContext_eq]
    exact safe_attempt _
  · intro observation returned
    rw [observationFromFieldsWithContext_eq, returns_attempt] at returned
    obtain ⟨reads⟩ := reads_of_readObservation returned
    refine ⟨⟨registryRelease reads.parsed, ?_⟩, ⟨reads.scope, reads.observationScope_eq⟩, ?_⟩
    · rw [reads.tryFrom_eq, returns_pure]
    · rintro rfl path found
      have classified := reads.observationScope_eq
      unfold observationScope at classified
      rw [found] at classified
      cases outcome : classifyPath path with
      | ok scope => exact ⟨scope, rfl⟩
      | error error =>
        simp only [outcome] at classified
        cases classified

end CranCatalog

end Rsolve
