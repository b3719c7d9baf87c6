import Rsolve.Cran.VersionFilter
import Rsolve.Core.Hex

/-!
# The coverage of the bulk feed

The bulk feed has records of many packages in all their versions. It covers a current release of the
catalog when exactly one record describes it as the catalog does. The coverage is computed while the
feed is projected by package, and again from a stored projection; both leave out the records of
versions that are not current before they read them.
-/
open Keyed Checked Framing Ordered Panics

namespace Rsolve

open CranCatalog

/-- `CranCatalog`, by its candidates. -/
structure CranCatalog where
  candidates : OrderedMap PackageName (List PackageRelease)

/-- `IndexedRecord`. -/
structure IndexedRecord where
  package : Option String
  fields : RecordFields
deriving DecidableEq

/-- `CoverageStatus`. -/
inductive CoverageStatus
  | currentComplete
  | currentGapped
  | currentConflicting
deriving DecidableEq, Repr

/-- How the feed describes a current release. -/
inductive CoverageClass
  | covered
  | gapped
  | conflicting
deriving DecidableEq, Repr

/-- The text of a classification. -/
def CoverageClass.text : CoverageClass → String
  | .covered => "covered"
  | .gapped => "gapped"
  | .conflicting => "conflicting"

/-- `CoverageSummary`. -/
structure CoverageSummary where
  status : CoverageStatus
  coveredCount : Nat
  gappedCount : Nat
  conflictingCount : Nat
  digest : String
deriving DecidableEq, Repr

/-- `AllPackagesProjectionError`. -/
inductive AllPackagesProjectionError
  | storage (error : String)
  | semantic (error : String)
deriving DecidableEq, Repr

/-- What the feed is read with: the readers of records, the libraries for compressed streams and for
DCF texts, and the library that writes the records of a package and reads them. -/
structure FeedBasis where
  catalog : CatalogBasis
  /-- The first bytes of the stream that `ruzstd` decodes. -/
  readZstd : List UInt8 → Nat → Except String (List UInt8)
  /-- `DcfDocument::parse`, with the fields of the records. -/
  parseDcf : List UInt8 → Except String (List RecordFields)
  /-- `postcard::to_stdvec`. -/
  toStdvec : List IndexedRecord → Except String (List UInt8)
  /-- `postcard::from_bytes`. -/
  fromBytes : List UInt8 → Except String (List IndexedRecord)

/-- The library reads the records that it writes. -/
def FeedBasis.ReadsBack (basis : FeedBasis) : Prop :=
  ∀ records payload, basis.toStdvec records = .ok payload → basis.fromBytes payload = .ok records

/-! ### Projections -/

/-- `ProjectionPackage`. -/
structure ProjectionPackage where
  package : String
  recordCount : Nat
  payload : List UInt8

/-- `ProjectionBuild`. -/
structure ProjectionBuild where
  packages : List ProjectionPackage
  summary : List UInt8
  surfaceDigest : String

/-- `ProjectionPayload`. -/
structure ProjectionPayload where
  bytes : List UInt8
  recordCount : Nat
deriving DecidableEq

/-- `PackageProjection`, by its tables of packages. -/
structure PackageProjection where
  packages : OrderedMap String (List UInt8)
  packageCounts : OrderedMap String Nat

/-- The number of values of a `usize`. -/
def usizeBound : Nat := 18446744073709551616

/-- The step of `ProjectionBuild::validate`: the keys and the number of records so far. -/
def validatePackage (state : List String × Nat) (package : ProjectionPackage) :
    Except String (List String × Nat) := do
  ensure (package.package ≠ "") "package projection contains an empty package key"
  ensure (package.package ∉ state.1)
    ("package projection contains duplicate package key " ++ package.package)
  ensure (package.recordCount ≠ 0)
    ("package projection contains an empty payload for " ++ package.package)
  ensure (package.payload ≠ [])
    ("package projection contains an empty payload for " ++ package.package)
  ensure (state.2 + package.recordCount < usizeBound) "package projection record count overflow"
  return (package.package :: state.1, state.2 + package.recordCount)

/-- `ProjectionBuild::validate`. -/
def ProjectionBuild.validate (build : ProjectionBuild) : Except String (Nat × Nat) := do
  let (keys, count) ← build.packages.foldlM validatePackage ([], 0)
  return (keys.length, count)

/-- `PackageProjection::write`, of the tables of packages, and the projection that is opened then. -/
def ProjectionBuild.write (build : ProjectionBuild) : Except String PackageProjection := do
  let _ ← build.validate
  return {
    packages := build.packages.foldl
      (fun table package => table.insert package.package package.payload) .empty
    packageCounts := build.packages.foldl
      (fun table package => table.insert package.package package.recordCount) .empty }

/-- `PackageProjection::lookup_package`, and the lookup of `visit_selected_packages`. -/
def PackageProjection.lookupPackage (projection : PackageProjection) (package : String) :
    Except String (Option ProjectionPayload) :=
  match projection.packages.get? package, projection.packageCounts.get? package with
  | none, none => .ok none
  | some bytes, some count =>
    if bytes = [] ∨ count = 0 then .error "invalid package projection payload/count entry"
    else .ok (some ⟨bytes, count⟩)
  | _, _ => .error "package projection payload/count entry mismatch"

/-! ### Coverage -/

/-- `current_semantics_match`. -/
def currentSemanticsMatch (left right : PackageRelease) : Bool :=
  decide (Same left.identity right.identity) && decide (Same left.version right.version) &&
    decide (Same left.declaredDependencies right.declaredDependencies) &&
    (left.publication.isNone || right.publication.isNone || left.publication == right.publication)

/-- The classification of a current release from what is observed of its package. -/
def classifyRelease (package : String) (observed : CranProviderObservationProjection)
    (release : PackageRelease) : CoverageClass :=
  let matching := observed.observations.filter fun row => Same row.release.version release.version
  let rejected := observed.rejections.any fun row =>
    row.version.any (fun hint => Same hint release.version) &&
      row.package.any fun name => name.text == package
  if rejected ∨ 1 < matching.length then .conflicting
  else
    match matching.head? with
    | some row => if currentSemanticsMatch row.release release then .covered else .conflicting
    | none => .gapped

/-- The records of a package, numbered. -/
def catalogRecords (records : List IndexedRecord) : List CatalogRecord :=
  records.zipIdx.map fun entry => ⟨entry.2, entry.1.package, entry.1.fields⟩

/-- `CoverageAccumulator`. -/
structure CoverageAccumulator where
  packageIndex : OrderedMap String (List PackageRelease)
  packageResults : OrderedMap String (List CoverageClass)

namespace CoverageAccumulator

/-- `CoverageAccumulator::new`. -/
def new (current : CranCatalog) : CoverageAccumulator where
  packageIndex := current.candidates.entries.foldl
    (fun index entry => index.insert entry.1.text entry.2) .empty
  packageResults := .empty

/-- `CoverageAccumulator::add_package`. -/
def addPackage (basis : CatalogBasis) (accumulator : CoverageAccumulator) (package : String)
    (records : List IndexedRecord) : Option CoverageAccumulator :=
  match accumulator.packageIndex.get? package with
  | none => some accumulator
  | some releases => do
    let current := (catalogRecords records).filter fun record =>
      releases.any fun release => saysVersion release.version record
    let observed ← allpackagesObservationsFromFields basis current
    some { accumulator with
      packageResults := accumulator.packageResults.insert package
        (releases.map (classifyRelease package observed)) }

/-- The releases of the catalog with their packages and classifications; a release without a result is
gapped. -/
def rows (accumulator : CoverageAccumulator) : List (String × PackageRelease × CoverageClass) :=
  accumulator.packageIndex.entries.flatMap fun entry =>
    entry.2.zipIdx.map fun release =>
      (entry.1, release.1,
        ((accumulator.packageResults.get? entry.1).bind fun results => results[release.2]?).getD .gapped)

/-- The bytes of a row in the digest. -/
def rowBytes (row : String × PackageRelease × CoverageClass) : List UInt8 :=
  textBytes row.1 ++ [0] ++ textBytes row.2.1.version.raw ++ [0] ++ textBytes row.2.2.text ++ [0]

/-- The summary of some rows. -/
def summarize (basis : CatalogBasis) (rows : List (String × PackageRelease × CoverageClass)) :
    CoverageSummary :=
  let count := fun result => rows.countP fun row => row.2.2 = result
  { status :=
      if 0 < count .conflicting then .currentConflicting
      else if 0 < count .gapped then .currentGapped
      else .currentComplete
    coveredCount := count .covered
    gappedCount := count .gapped
    conflictingCount := count .conflicting
    digest := hex (basis.sha256 (rows.flatMap rowBytes)).toList }

/-- `CoverageAccumulator::finish`. -/
def finish (basis : CatalogBasis) (accumulator : CoverageAccumulator) : CoverageSummary :=
  summarize basis accumulator.rows

end CoverageAccumulator

section Feed

variable (basis : FeedBasis)

/-- `decode_records`. -/
def decodeRecords (payload : Option ProjectionPayload) (expectedPackage : String) :
    Except String (List IndexedRecord) :=
  match payload with
  | none => .ok []
  | some payload => do
    let records ← basis.fromBytes payload.bytes
    ensure (records.length = payload.recordCount)
      ("ALLPACKAGES package projection record count mismatch: expected " ++
        toString payload.recordCount ++ ", stored " ++ toString records.length)
    ensure (∀ record ∈ records, record.package = some expectedPackage)
      ("ALLPACKAGES package projection record is not bound to package " ++ expectedPackage)
    return records

/-- The records of a package in a projection. -/
def projectedRecords (projection : PackageProjection) (package : String) :
    Except AllPackagesProjectionError (List IndexedRecord) := do
  let payload ← (projection.lookupPackage package).mapError .semantic
  (decodeRecords basis payload package).mapError .semantic

/-- `observations`. -/
def observations (projection : PackageProjection) (package : String) :
    Guarded AllPackagesProjectionError CranProviderObservationProjection := do
  let records ← attempt (projectedRecords basis projection package)
  demand (allpackagesObservationsFromFields basis.catalog (catalogRecords records))

/-- The visit of one package in `classify_current`. -/
def visitPackage (projection : PackageProjection) (accumulator : CoverageAccumulator)
    (package : String) : Guarded AllPackagesProjectionError CoverageAccumulator := do
  let records ← attempt (projectedRecords basis projection package)
  demand (accumulator.addPackage basis.catalog package records)

/-- `classify_current`. -/
def classifyCurrent (projection : PackageProjection) (current : CranCatalog) :
    Guarded AllPackagesProjectionError CoverageSummary := do
  let accumulator := CoverageAccumulator.new current
  let visited ← accumulator.packageIndex.keys.foldlM (visitPackage basis projection) accumulator
  return visited.finish basis.catalog

/-- `MAX_ALLPACKAGES_DECOMPRESSED_BYTES`. -/
def maxAllpackagesDecompressedBytes : Nat := 536870912

/-- `decode_zstd_with_limit`. -/
def decodeZstdWithLimit (input : List UInt8) (limit : Nat) : Except String (List UInt8) := do
  let output ← basis.readZstd input (limit + 1)
  ensure (output.length ≤ limit)
    ("ALLPACKAGES decompressed payload exceeds " ++ toString limit ++ " bytes")
  ensure (output ≠ []) "ALLPACKAGES zstd stream is empty"
  return output

/-- `decode_zstd`. -/
def decodeZstd (input : List UInt8) : Except String (List UInt8) :=
  decodeZstdWithLimit basis input maxAllpackagesDecompressedBytes

/-- A record of the feed with the value of its first package field. -/
def indexRecord (fields : RecordFields) : IndexedRecord :=
  ⟨PackageDescription.field fields "Package", fields⟩

/-- The records of the feed by package; a record without a package field has an empty key. -/
def groupRecords (document : List RecordFields) : OrderedMap String (List IndexedRecord) :=
  document.foldl (fun records fields =>
    let record := indexRecord fields
    let key := record.package.getD ""
    records.insert key ((records.get? key).getD [] ++ [record])) .empty

/-- What `build_projection_with_coverage` accumulates of one package, with a catalog. -/
def accumulatePackage (accumulator : Option CoverageAccumulator)
    (entry : String × List IndexedRecord) : Option (Option CoverageAccumulator) :=
  match accumulator with
  | some accumulator => (accumulator.addPackage basis.catalog entry.1 entry.2).map some
  | none => some none

/-- The step of `build_projection_with_coverage` for one package. -/
def projectPackage (state : List ProjectionPackage × Option CoverageAccumulator)
    (entry : String × List IndexedRecord) :
    Guarded String (List ProjectionPackage × Option CoverageAccumulator) := do
  let payload ← attempt (basis.toStdvec entry.2)
  let accumulator ← demand (accumulatePackage basis state.2 entry)
  return (state.1 ++ [⟨entry.1, entry.2.length, payload⟩], accumulator)

/-- `build_projection_with_coverage`. -/
def buildProjectionWithCoverage (body : List UInt8) (current : Option CranCatalog) :
    Guarded String (ProjectionBuild × Option CoverageSummary) := do
  let decoded ← attempt (decodeZstd basis body)
  let document ← attempt (basis.parseDcf decoded)
  let (packages, accumulator) ← (groupRecords document).entries.foldlM (projectPackage basis)
    ([], current.map CoverageAccumulator.new)
  return (⟨packages, [], ""⟩, accumulator.map fun accumulator => accumulator.finish basis.catalog)

end Feed

/-! ### One classification on every path -/

section Classification

variable {basis : CatalogBasis} {left right : CranProviderObservationProjection} {package : String}
  {release : PackageRelease}

/-- What is observed of a version is alike in two projections. -/
structure ObservedAlike (version : RPackageVersion) (left right : CranProviderObservationProjection) :
    Prop where
  releases : (left.observations.map (·.release)).filter (fun release => Same release.version version) =
    (right.observations.map (·.release)).filter fun release => Same release.version version
  rejected : (left.rejections.map fun rejection => (rejection.package, rejection.version)).filter
      (fun rejection => rejection.2.any fun hint => Same hint version) =
    (right.rejections.map fun rejection => (rejection.package, rejection.version)).filter
      fun rejection => rejection.2.any fun hint => Same hint version

/-- A release is classified by what is observed of its version. -/
theorem classifyRelease_congr (alike : ObservedAlike release.version left right) :
    classifyRelease package left release = classifyRelease package right release := by
  have matching : ∀ observed : CranProviderObservationProjection,
      (observed.observations.filter fun row => Same row.release.version release.version).map
        (·.release) = (observed.observations.map (·.release)).filter
          fun release' => Same release'.version release.version := by
    intro observed
    rw [List.filter_map]
    rfl
  have rejected : ∀ observed : CranProviderObservationProjection,
      (observed.rejections.any fun row =>
        row.version.any (fun hint => Same hint release.version) &&
          row.package.any fun name => name.text == package) =
        ((observed.rejections.map fun rejection => (rejection.package, rejection.version)).filter
          fun rejection => rejection.2.any fun hint => Same hint release.version).any
            fun rejection => rejection.1.any fun name => name.text == package := by
    intro observed
    rw [List.any_filter, List.any_map]
    rfl
  have lengths : (left.observations.filter fun row =>
      Same row.release.version release.version).length =
        (right.observations.filter fun row => Same row.release.version release.version).length := by
    rw [← List.length_map (·.release), matching, alike.releases, ← matching, List.length_map]
  have heads : (left.observations.filter fun row =>
      Same row.release.version release.version).head?.map (·.release) =
        (right.observations.filter fun row =>
          Same row.release.version release.version).head?.map (·.release) := by
    rw [← List.head?_map, ← List.head?_map, matching, matching, alike.releases]
  unfold classifyRelease
  dsimp only
  rw [rejected left, rejected right, alike.rejected, lengths]
  split
  · rfl
  · cases first : (left.observations.filter fun row =>
        Same row.release.version release.version).head? with
    | none =>
      rw [first] at heads
      rw [Option.map_eq_none_iff.mp heads.symm]
    | some row =>
      rw [first] at heads
      obtain ⟨other, found, same⟩ := Option.map_eq_some_iff.mp heads.symm
      rw [found]
      dsimp only
      rw [same]

/-- The version of a record does not come from its transport fields. -/
theorem saysVersion_strip {version : RPackageVersion} (record : CatalogRecord) :
    saysVersion version { record with
      fields := record.fields.filter fun entry => !isAllpackagesTransportField entry.1 } =
        saysVersion version record := by
  have plain : ∀ name, PackageDescription.eqIgnoreAsciiCase name "Version" = true →
      isAllpackagesTransportField name = false := by
    intro name same
    have lower : toAsciiLowercase name = toAsciiLowercase "Version" := eq_of_beq same
    unfold isAllpackagesTransportField
    rw [lower]
    decide +kernel
  have found : (record.fields.filter fun entry => !isAllpackagesTransportField entry.1).find?
      (fun entry => PackageDescription.eqIgnoreAsciiCase entry.1 "Version") =
        record.fields.find? fun entry => PackageDescription.eqIgnoreAsciiCase entry.1 "Version" := by
    rw [List.find?_filter]
    refine congrArg (fun test => record.fields.find? test) (funext fun entry => ?_)
    cases same : PackageDescription.eqIgnoreAsciiCase entry.1 "Version" with
    | false => simp
    | true => simp [plain entry.1 same]
  unfold saysVersion versionHint PackageDescription.field
  dsimp only
  rw [found]

/-- What is observed of a version does not change when records that do not say it are left out. -/
theorem observedAlike_of_filter {version : RPackageVersion} {items kept : List CatalogRecord}
    (same : kept.filter (saysVersion version) = items.filter (saysVersion version))
    (observed : allpackagesObservationsFromFields basis items = some left)
    (observedKept : allpackagesObservationsFromFields basis kept = some right) :
    ObservedAlike version left right := by
  have stripped : ∀ records : List CatalogRecord,
      (records.map fun record => { record with
        fields := record.fields.filter fun entry => !isAllpackagesTransportField entry.1 }).filter
          (saysVersion version) = (records.filter (saysVersion version)).map fun record =>
        { record with
          fields := record.fields.filter fun entry => !isAllpackagesTransportField entry.1 } := by
    intro records
    rw [List.filter_map]
    refine congrArg _ (List.filter_congr fun record _ => ?_)
    exact saysVersion_strip record
  unfold allpackagesObservationsFromFields providerObservationsFromFields at observed observedKept
  obtain ⟨projection, projected, finished⟩ := Option.bind_eq_some_iff.mp observed
  obtain ⟨state, folded, made⟩ := Option.bind_eq_some_iff.mp projected
  obtain ⟨projectionKept, projectedKept, finishedKept⟩ := Option.bind_eq_some_iff.mp observedKept
  obtain ⟨stateKept, foldedKept, madeKept⟩ := Option.bind_eq_some_iff.mp projectedKept
  have alike : Alike version state stateKept :=
    alike_of_filter (by rw [stripped, stripped, same]) folded foldedKept
  obtain rfl := Option.some.inj made
  obtain rfl := Option.some.inj madeKept
  obtain rfl := Option.some.inj finished
  obtain rfl := Option.some.inj finishedKept
  constructor
  · simp only [List.map_map, Function.comp_def]
    exact alike.releases
  · simp only [List.map_map, Function.comp_def]
    exact alike.rejected

/-- The observation of a feed's records stops nothing. -/
theorem exists_allpackagesObservations (basis : CatalogBasis) (records : List CatalogRecord) :
    ∃ observed, allpackagesObservationsFromFields basis records = some observed := by
  obtain ⟨projection, projected⟩ := exists_providerObservations basis .packagesIndex none
    (records.map fun record => { record with
      fields := record.fields.filter fun entry => !isAllpackagesTransportField entry.1 })
  unfold allpackagesObservationsFromFields
  simp only [projected]
  exact ⟨_, rfl⟩

/-- The records that say the version of a current release are not left out. -/
theorem filter_current {releases : List PackageRelease} (member : release ∈ releases)
    (records : List CatalogRecord) :
    (records.filter fun record => releases.any fun release => saysVersion release.version record).filter
      (saysVersion release.version) = records.filter (saysVersion release.version) := by
  rw [List.filter_filter]
  refine List.filter_congr fun record _ => ?_
  cases spoken : saysVersion release.version record with
  | false => rfl
  | true =>
    rw [Bool.true_and]
    exact List.any_eq_true.mpr ⟨release, member, spoken⟩

/-- The releases of a package are classified alike without the records that say none of their
versions. -/
theorem map_classifyRelease_current {releases : List PackageRelease} {records : List CatalogRecord}
    (observed : allpackagesObservationsFromFields basis records = some left)
    (observedCurrent : allpackagesObservationsFromFields basis (records.filter fun record =>
      releases.any fun release => saysVersion release.version record) = some right) :
    releases.map (classifyRelease package right) = releases.map (classifyRelease package left) := by
  refine List.map_congr_left fun release member => (classifyRelease_congr ?_).symm
  exact observedAlike_of_filter (filter_current member records) observed observedCurrent

end Classification

/-! ### Accumulated results -/

namespace CoverageAccumulator

variable {basis : CatalogBasis} {accumulator : CoverageAccumulator}
  {observed : String → CranProviderObservationProjection}
  {recordsOf : String → List IndexedRecord}

/-- The results of some packages are those of what is observed of them. -/
structure Covers (observed : String → CranProviderObservationProjection) (packages : List String)
    (index : OrderedMap String (List PackageRelease)) (accumulator : CoverageAccumulator) : Prop where
  packageIndex : accumulator.packageIndex = index
  results : ∀ package releases, index.get? package = some releases →
    accumulator.packageResults.get? package =
      if package ∈ packages then some (releases.map (classifyRelease package (observed package)))
      else none

/-- Without packages there are no results. -/
theorem covers_new (current : CranCatalog) :
    Covers observed [] (new current).packageIndex (new current) :=
  ⟨rfl, fun _ _ _ => rfl⟩

/-- Adding a package adds its results. -/
theorem Covers.addPackage {packages : List String} {index : OrderedMap String (List PackageRelease)}
    {next : CoverageAccumulator} {package : String} {records : List IndexedRecord}
    (covers : Covers observed packages index accumulator)
    (projected : allpackagesObservationsFromFields basis (catalogRecords records) =
      some (observed package))
    (added : accumulator.addPackage basis package records = some next) :
    Covers observed (packages ++ [package]) index next := by
  unfold CoverageAccumulator.addPackage at added
  rw [covers.packageIndex] at added
  cases present : index.get? package with
  | none =>
    rw [present] at added
    obtain rfl := Option.some.inj added
    refine ⟨covers.packageIndex, fun other releases found => ?_⟩
    rw [covers.results other releases found]
    have differs : other ≠ package := by
      rintro rfl
      rw [present] at found
      cases found
    simp [differs]
  | some releases =>
    rw [present] at added
    obtain ⟨current, currentProjected, added⟩ := Option.bind_eq_some_iff.mp added
    obtain rfl := Option.some.inj added
    refine ⟨rfl, fun other otherReleases found => ?_⟩
    rw [map_classifyRelease_current projected currentProjected, OrderedMap.get?_insert]
    by_cases same : other = package
    · subst same
      obtain rfl := Option.some.inj (present.symm.trans found)
      simp
    · rw [if_neg same, covers.results other otherReleases found]
      simp [same]

/-- Adding a package stops nothing. -/
theorem exists_addPackage (basis : CatalogBasis) (accumulator : CoverageAccumulator) (package : String)
    (records : List IndexedRecord) : ∃ next, accumulator.addPackage basis package records = some next := by
  unfold CoverageAccumulator.addPackage
  cases accumulator.packageIndex.get? package with
  | none => exact ⟨_, rfl⟩
  | some releases =>
    obtain ⟨observed, projected⟩ := exists_allpackagesObservations basis
      ((catalogRecords records).filter fun record =>
        releases.any fun release => saysVersion release.version record)
    simp only [projected]
    exact ⟨_, rfl⟩

/-- A package without records has only gaps. -/
theorem classifyRelease_nil {package : String} {nothing : CranProviderObservationProjection}
    (projected : allpackagesObservationsFromFields basis (catalogRecords []) = some nothing)
    (release : PackageRelease) : classifyRelease package nothing release = .gapped := by
  have empty : nothing = ⟨[], []⟩ := (Option.some.inj projected).symm
  rw [empty]
  rfl

/-- The rows of a catalog whose packages are observed. -/
def observedRows (index : OrderedMap String (List PackageRelease))
    (observed : String → CranProviderObservationProjection) :
    List (String × PackageRelease × CoverageClass) :=
  index.entries.flatMap fun entry => entry.2.map fun release =>
    (entry.1, release, classifyRelease entry.1 (observed entry.1) release)

/-- Where the results cover all packages with records, the rows are those of what is observed. -/
theorem Covers.rows_eq {packages : List String} {index : OrderedMap String (List PackageRelease)}
    (covers : Covers observed packages index accumulator)
    (rest : ∀ package ∈ index.keys, package ∉ packages →
      allpackagesObservationsFromFields basis (catalogRecords []) = some (observed package)) :
    accumulator.rows = observedRows index observed := by
  unfold rows observedRows
  rw [covers.packageIndex]
  refine List.flatMap_congr fun entry member => ?_
  have present : index.get? entry.1 = some entry.2 := OrderedMap.get?_eq_some_iff.mpr member
  rw [covers.results entry.1 entry.2 present]
  split
  · refine List.ext_getElem (by simp) fun index bound _ => ?_
    have inside : index < entry.2.length := by simpa using bound
    simp [inside]
  · next outside =>
    have gapped : ∀ release, classifyRelease entry.1 (observed entry.1) release = .gapped :=
      classifyRelease_nil (rest entry.1 (List.mem_map_of_mem member) outside)
    refine List.ext_getElem (by simp) fun index bound _ => ?_
    simp [gapped]

end CoverageAccumulator

/-! ### Records of the feed -/

section Storing

variable {basis : FeedBasis} {document : List RecordFields}

/-- The records of the feed for a package, by the value of their first package field. -/
def feedRecords (document : List RecordFields) (package : String) : List IndexedRecord :=
  (document.map indexRecord).filter fun record => record.package.getD "" = package

/-- The groups of the feed are the records of its packages. -/
theorem get?_groupRecords (document : List RecordFields) (package : String) :
    (groupRecords document).get? package =
      if feedRecords document package = [] then none else some (feedRecords document package) := by
  induction document using List.reverseRecOn with
  | nil => rfl
  | append_singleton before fields ih =>
    have later : feedRecords (before ++ [fields]) package = feedRecords before package ++
        if (indexRecord fields).package.getD "" = package then [indexRecord fields] else [] := by
      rw [feedRecords, List.map_append, List.filter_append, List.map_singleton, List.filter_singleton]
      simp [feedRecords]
    have grouped : groupRecords (before ++ [fields]) = (groupRecords before).insert
        ((indexRecord fields).package.getD "")
        (((groupRecords before).get? ((indexRecord fields).package.getD "")).getD [] ++
          [indexRecord fields]) := by
      rw [groupRecords, List.foldl_append]
      rfl
    rw [grouped, OrderedMap.get?_insert, later]
    by_cases same : package = (indexRecord fields).package.getD ""
    · rw [if_pos same, ← same, ih]
      by_cases empty : feedRecords before package = [] <;> simp [empty]
    · rw [if_neg same, if_neg (Ne.symm same), List.append_nil, ih]

/-- What is stored of a package of the feed. -/
def projectionPackage (basis : FeedBasis) (entry : String × List IndexedRecord) : ProjectionPackage :=
  ⟨entry.1, entry.2.length, (basis.toStdvec entry.2).toOption.getD []⟩

/-- A build projects every package, and with a catalog its results cover the packages. -/
theorem returns_projectPackages {entries : List (String × List IndexedRecord)}
    {packages result : List ProjectionPackage} {accumulator reached : Option CoverageAccumulator}
    (returned : Returns (entries.foldlM (projectPackage basis) (packages, accumulator))
      (result, reached)) :
    result = packages ++ entries.map (projectionPackage basis) ∧
      (∀ entry ∈ entries, basis.toStdvec entry.2 = .ok (projectionPackage basis entry).payload) ∧
      ∀ observed done index before, accumulator = some before →
        CoverageAccumulator.Covers observed done index before →
        (∀ entry ∈ entries, allpackagesObservationsFromFields basis.catalog (catalogRecords entry.2) =
          some (observed entry.1)) →
        ∃ next, reached = some next ∧
          CoverageAccumulator.Covers observed (done ++ entries.map Prod.fst) index next := by
  induction entries generalizing packages accumulator with
  | nil =>
    obtain ⟨rfl, rfl⟩ := Prod.mk.inj (returns_pure.mp returned)
    refine ⟨(List.append_nil _).symm, List.forall_mem_nil _, fun observed done index before same covers _ =>
      ⟨before, same, ?_⟩⟩
    rw [List.map_nil, List.append_nil]
    exact covers
  | cons entry rest ih =>
    rw [List.foldlM_cons] at returned
    obtain ⟨state, stepped, returned⟩ := returns_bind.mp returned
    obtain ⟨payload, written, stepped⟩ := returns_bind.mp stepped
    obtain ⟨added, adding, stepped⟩ := returns_bind.mp stepped
    obtain rfl := returns_pure.mp stepped
    have stored := returns_attempt.mp written
    have payload_eq : (projectionPackage basis entry).payload = payload := by
      rw [projectionPackage, stored]
      rfl
    obtain ⟨same, stores, covers⟩ := ih returned
    refine ⟨?_, List.forall_mem_cons.mpr ⟨by rw [payload_eq, stored], stores⟩, ?_⟩
    · rw [same, List.append_assoc, ← payload_eq]
      rfl
    · intro observed done index before isBefore covered projected
      obtain ⟨projectedEntry, projectedRest⟩ := List.forall_mem_cons.mp projected
      subst isBefore
      obtain ⟨next, isAdded, rfl⟩ := Option.map_eq_some_iff.mp (returns_demand.mp adding)
      obtain ⟨last, isLast, coversAll⟩ := covers observed (done ++ [entry.1]) index next rfl
        (covered.addPackage projectedEntry isAdded) projectedRest
      refine ⟨last, isLast, ?_⟩
      rw [List.map_cons, ← List.singleton_append, ← List.append_assoc]
      exact coversAll

/-- A visit of packages whose records are stored covers them. -/
theorem exists_visitPackages {projection : PackageProjection} {packages done : List String}
    {index : OrderedMap String (List PackageRelease)} {accumulator : CoverageAccumulator}
    {observed : String → CranProviderObservationProjection}
    (covers : CoverageAccumulator.Covers observed done index accumulator)
    (stored : ∀ package ∈ packages, projectedRecords basis projection package =
      .ok (feedRecords document package))
    (projected : ∀ package, allpackagesObservationsFromFields basis.catalog
      (catalogRecords (feedRecords document package)) = some (observed package)) :
    ∃ next, Returns (packages.foldlM (visitPackage basis projection) accumulator) next ∧
      CoverageAccumulator.Covers observed (done ++ packages) index next := by
  induction packages generalizing done accumulator with
  | nil =>
    rw [List.append_nil]
    exact ⟨accumulator, returns_pure.mpr rfl, covers⟩
  | cons package rest ih =>
    obtain ⟨storedPackage, storedRest⟩ := List.forall_mem_cons.mp stored
    obtain ⟨added, adding⟩ := CoverageAccumulator.exists_addPackage basis.catalog accumulator package
      (feedRecords document package)
    obtain ⟨last, returned, coversAll⟩ := ih (covers.addPackage (projected package) adding) storedRest
    refine ⟨last, ?_, ?_⟩
    · rw [List.foldlM_cons]
      refine returns_bind.mpr ⟨added, returns_bind.mpr ⟨_, ?_, returns_demand.mpr adding⟩, returned⟩
      exact returns_attempt.mpr storedPackage
    · rw [← List.singleton_append, ← List.append_assoc]
      exact coversAll

/-- A table that is written from the entries of a map has what is made of each of them. -/
theorem get?_foldl_entries {α β : Type} (map : OrderedMap String α) (value : String × α → β)
    (query : String) :
    (map.entries.foldl (fun table entry => table.insert entry.1 (value entry))
      (.empty : OrderedMap String β)).get? query =
        (map.get? query).map fun found => value (query, found) := by
  have listed : map.entries.foldl (fun table entry => table.insert entry.1 (value entry))
      (.empty : OrderedMap String β) =
        (map.entries.map fun entry => (entry.1, value entry)).foldl
          (fun table entry => table.insert entry.1 entry.2) .empty := by
    rw [List.foldl_map]
  have distinct : ((map.entries.map fun entry => (entry.1, value entry)).map Prod.fst).Nodup := by
    rw [List.map_map]
    refine map.keys_ordered.imp fun {left right} below (same : left = right) => ?_
    have equal : compare left right = .eq := Std.LawfulEqOrd.compare_eq_iff_eq.mpr same
    rw [equal] at below
    cases below
  refine Option.ext fun found => ?_
  rw [listed, OrderedMap.get?_eq_some_iff,
    OrderedMap.mem_foldl_insert distinct fun _ _ => List.not_mem_nil, Option.map_eq_some_iff]
  simp only [OrderedMap.get?_eq_some_iff, List.mem_map, Prod.mk.injEq]
  constructor
  · rintro (impossible | ⟨entry, member, rfl, rfl⟩)
    · cases impossible
    · exact ⟨entry.2, member, rfl⟩
  · rintro ⟨item, member, rfl⟩
    exact .inr ⟨_, member, rfl, rfl⟩

/-- A validated build has neither an empty key nor an empty payload. -/
theorem validate_eq_ok {build : ProjectionBuild} {counts : Nat × Nat}
    (valid : build.validate = .ok counts) :
    ∀ package ∈ build.packages, package.package ≠ "" ∧ package.recordCount ≠ 0 ∧
      package.payload ≠ [] := by
  obtain ⟨final, folded, -⟩ := bind_eq_ok.mp valid
  have checked : ∀ (packages : List ProjectionPackage) (state : List String × Nat),
      packages.foldlM validatePackage state = .ok final → ∀ package ∈ packages,
        package.package ≠ "" ∧ package.recordCount ≠ 0 ∧ package.payload ≠ [] := by
    intro packages
    induction packages with
    | nil => exact fun _ _ => List.forall_mem_nil _
    | cons package rest ih =>
      intro state folded
      rw [List.foldlM_cons] at folded
      obtain ⟨next, stepped, folded⟩ := bind_eq_ok.mp folded
      simp only [validatePackage, bind_eq_ok, ensure_eq_ok, exists_const] at stepped
      exact List.forall_mem_cons.mpr ⟨⟨stepped.1, stepped.2.2.1, stepped.2.2.2.1⟩, ih next folded⟩
  exact checked _ _ folded

/-- The records of every package are read back from a projection of the feed. -/
theorem projectedRecords_of_write (readsBack : basis.ReadsBack) {build : ProjectionBuild}
    {projection : PackageProjection}
    (built : build.packages = (groupRecords document).entries.map (projectionPackage basis))
    (stores : ∀ entry ∈ (groupRecords document).entries,
      basis.toStdvec entry.2 = .ok (projectionPackage basis entry).payload)
    (written : build.write = .ok projection) (package : String) :
    projectedRecords basis projection package = .ok (feedRecords document package) := by
  obtain ⟨counts, valid, finished⟩ := bind_eq_ok.mp written
  obtain rfl := Except.ok.inj finished
  have checked := validate_eq_ok valid
  have payloads : (build.packages.foldl
      (fun table package => table.insert package.package package.payload)
        (.empty : OrderedMap String (List UInt8))).get? package =
      ((groupRecords document).get? package).map fun records =>
        (projectionPackage basis (package, records)).payload := by
    rw [built, List.foldl_map]
    exact get?_foldl_entries _ (fun entry => (projectionPackage basis entry).payload) package
  have numbers : (build.packages.foldl
      (fun table package => table.insert package.package package.recordCount)
        (.empty : OrderedMap String Nat)).get? package =
      ((groupRecords document).get? package).map List.length := by
    rw [built, List.foldl_map]
    exact get?_foldl_entries _ (fun entry => (projectionPackage basis entry).recordCount) package
  unfold projectedRecords PackageProjection.lookupPackage
  dsimp only
  rw [payloads, numbers]
  cases group : (groupRecords document).get? package with
  | none =>
    rw [get?_groupRecords] at group
    split at group
    · next empty =>
      rw [empty]
      rfl
    · cases group
  | some records =>
    have entryIn := OrderedMap.get?_eq_some_iff.mp group
    have packageIn : projectionPackage basis (package, records) ∈ build.packages :=
      built ▸ List.mem_map_of_mem entryIn
    obtain ⟨named, counted, filled⟩ := checked _ packageIn
    have readBack := readsBack _ _ (stores _ entryIn)
    rw [get?_groupRecords] at group
    split at group
    · cases group
    · obtain rfl := Option.some.inj group
      have bound : ∀ record ∈ feedRecords document package, record.package = some package := by
        intro record member
        have keyed : record.package.getD "" = package := by
          simpa using (List.mem_filter.mp member).2
        cases given : record.package with
        | none =>
          rw [given] at keyed
          exact absurd keyed.symm named
        | some name =>
          rw [given] at keyed
          exact congrArg some keyed
      have decoded : decodeRecords basis (some ⟨(projectionPackage basis
          (package, feedRecords document package)).payload, (feedRecords document package).length⟩)
            package = .ok (feedRecords document package) := by
        unfold decodeRecords
        dsimp only
        rw [readBack, ok_bind, ensure_of rfl, ok_bind, ensure_of bound]
        rfl
      have present : ¬ ((projectionPackage basis (package, feedRecords document package)).payload = [] ∨
          (feedRecords document package).length = 0) := not_or.mpr ⟨filled, counted⟩
      simp only [Option.map_some]
      rw [if_neg present]
      simp only [Except.mapError, ok_bind, decoded]

end Storing

/-! ### The coverage on every path -/

section Agreement

variable (basis : FeedBasis) (body : List UInt8) (current : CranCatalog)

/-- The coverage of a feed agrees on every path: there are observations of all records of each package,
from which a build with the catalog computes its coverage, which are those of a projection that any
build of the feed stored, and from which the coverage of that projection is computed. -/
structure CoversAlike (document : List RecordFields) (observed : String →
    CranProviderObservationProjection) : Prop where
  /-- All records of a package are observed. -/
  all : ∀ package, allpackagesObservationsFromFields basis.catalog
    (catalogRecords (feedRecords document package)) = some (observed package)
  /-- A build stops nothing. -/
  safe : Safe (buildProjectionWithCoverage basis body (some current))
  /-- While the feed is projected. -/
  built : ∀ build coverage,
    Returns (buildProjectionWithCoverage basis body (some current)) (build, coverage) →
    coverage = some (CoverageAccumulator.summarize basis.catalog
      (CoverageAccumulator.observedRows (CoverageAccumulator.new current).packageIndex observed))
  /-- From a stored projection. -/
  stored : ∀ other build coverage projection,
    Returns (buildProjectionWithCoverage basis body other) (build, coverage) →
    build.write = .ok projection →
    (∀ package, Returns (observations basis projection package) (observed package)) ∧
      Returns (classifyCurrent basis projection current) (CoverageAccumulator.summarize basis.catalog
        (CoverageAccumulator.observedRows (CoverageAccumulator.new current).packageIndex observed))

variable {basis body current} {document : List RecordFields}

/-- What a build of a feed projects. -/
theorem returns_buildProjection {decoded : List UInt8} {given : Option CranCatalog}
    {build : ProjectionBuild} {coverage : Option CoverageSummary}
    (read : decodeZstd basis body = .ok decoded) (parsed : basis.parseDcf decoded = .ok document)
    (returned : Returns (buildProjectionWithCoverage basis body given) (build, coverage)) :
    ∃ reached, coverage = reached.map (fun accumulator => accumulator.finish basis.catalog) ∧
      Returns ((groupRecords document).entries.foldlM (projectPackage basis)
        ([], given.map CoverageAccumulator.new)) (build.packages, reached) := by
  obtain ⟨bytes, readBytes, returned⟩ := returns_bind.mp returned
  obtain rfl := Except.ok.inj (read.symm.trans (returns_attempt.mp readBytes))
  obtain ⟨records, parsedRecords, returned⟩ := returns_bind.mp returned
  obtain rfl := Except.ok.inj (parsed.symm.trans (returns_attempt.mp parsedRecords))
  obtain ⟨⟨packages, reached⟩, folded, finished⟩ := returns_bind.mp returned
  obtain ⟨rfl, rfl⟩ := Prod.mk.inj (returns_pure.mp finished)
  exact ⟨reached, rfl, folded⟩

/-- A build stops nothing. -/
theorem safe_buildProjection (basis : FeedBasis) (body : List UInt8) (given : Option CranCatalog) :
    Safe (buildProjectionWithCoverage basis body given) := by
  have accumulates : ∀ accumulator entry,
      ∃ next, accumulatePackage basis accumulator entry = some next := by
    intro accumulator entry
    cases accumulator with
    | none => exact ⟨none, rfl⟩
    | some accumulator =>
      obtain ⟨next, added⟩ :=
        CoverageAccumulator.exists_addPackage basis.catalog accumulator entry.1 entry.2
      exact ⟨some next, congrArg (Option.map some) added⟩
  refine safe_bind (safe_attempt _) fun decoded _ => safe_bind (safe_attempt _) fun document _ => ?_
  refine safe_bind (safe_foldlM (fun state entry _ => ?_) _) fun _ _ => safe_pure _
  obtain ⟨next, accumulated⟩ := accumulates state.2 entry
  exact safe_bind (safe_attempt _) fun _ _ => safe_bind (safe_demand accumulated) fun _ _ => safe_pure _

/-- For every feed that is decoded and parsed, and every catalog, the coverage agrees on every path. -/
theorem exists_coversAlike (basis : FeedBasis) (readsBack : basis.ReadsBack) (body : List UInt8)
    (current : CranCatalog) {decoded : List UInt8} {document : List RecordFields}
    (read : decodeZstd basis body = .ok decoded) (parsed : basis.parseDcf decoded = .ok document) :
    ∃ observed, CoversAlike basis body current document observed := by
  have observes := fun package => exists_allpackagesObservations basis.catalog
    (catalogRecords (feedRecords document package))
  choose observed all using observes
  have grouped : ∀ entry ∈ (groupRecords document).entries,
      entry.2 = feedRecords document entry.1 := by
    intro entry member
    have present := OrderedMap.get?_eq_some_iff.mpr member
    rw [get?_groupRecords] at present
    split at present
    · cases present
    · exact (Option.some.inj present).symm
  -- A package without a group has no records.
  have rest : ∀ package, package ∉ (groupRecords document).entries.map Prod.fst →
      allpackagesObservationsFromFields basis.catalog (catalogRecords []) = some (observed package) := by
    intro package absent
    have empty : feedRecords document package = [] := by
      by_contra some'
      refine absent (OrderedMap.mem_keys.mpr ⟨feedRecords document package, ?_⟩)
      rw [get?_groupRecords, if_neg some']
    rw [← empty]
    exact all package
  refine ⟨observed, all, safe_buildProjection basis body (some current),
    fun build coverage returned => ?_, fun other build coverage projection returned
    written => ?_⟩
  · obtain ⟨reached, rfl, folded⟩ := returns_buildProjection read parsed returned
    obtain ⟨-, -, covers⟩ := returns_projectPackages folded
    obtain ⟨next, rfl, covered⟩ := covers observed [] _ _ rfl (CoverageAccumulator.covers_new current)
      fun entry member => grouped entry member ▸ all entry.1
    rw [Option.map_some, CoverageAccumulator.finish, covered.rows_eq fun package _ => rest package]
  · obtain ⟨reached, -, folded⟩ := returns_buildProjection read parsed returned
    obtain ⟨built, stores, -⟩ := returns_projectPackages folded
    have records := projectedRecords_of_write readsBack built stores written
    refine ⟨fun package => ?_, ?_⟩
    · refine returns_bind.mpr ⟨_, returns_attempt.mpr (records package), ?_⟩
      exact returns_demand.mpr (all package)
    · obtain ⟨next, visited, covered⟩ := exists_visitPackages
        (@CoverageAccumulator.covers_new observed current)
        (fun package (_ : package ∈ (CoverageAccumulator.new current).packageIndex.keys) =>
          records package) all
      have rows : next.rows = CoverageAccumulator.observedRows _ observed :=
        @CoverageAccumulator.Covers.rows_eq basis.catalog _ _ _ _ covered
          fun package inside outside => absurd inside outside
      refine returns_bind.mpr ⟨next, visited, returns_pure.mpr ?_⟩
      rw [CoverageAccumulator.finish, rows]

end Agreement

namespace Small

/-- The text of a feed with one record. -/
def feedText : List UInt8 := textBytes "Package: dplyr\nVersion: 1.0\n"

/-- The compressed stream of that text, in one raw block. -/
def feedBody : List UInt8 := [0x28, 0xB5, 0x2F, 0xFD, 0x20, 28, 0xE1, 0, 0] ++ feedText

/-- The fields of that record. -/
def feedFields : RecordFields := [("Package", "dplyr"), ("Version", "1.0")]

/-- The bytes of the records of the package. -/
def feedPayload : List UInt8 :=
  [1, 1, 5] ++ textBytes "dplyr" ++ [2, 7] ++ textBytes "Package" ++ [5] ++ textBytes "dplyr" ++
    [7] ++ textBytes "Version" ++ [3] ++ textBytes "1.0"

/-- Libraries that read this feed. -/
def feedBasis : FeedBasis where
  catalog := catalogBasis
  readZstd input limit := if input = feedBody then .ok (feedText.take limit) else .error "unknown frame"
  parseDcf decoded := if decoded = feedText then .ok [feedFields] else .error "unknown text"
  toStdvec records :=
    if records = [indexRecord feedFields] then .ok feedPayload else .error "unknown records"
  fromBytes payload :=
    if payload = feedPayload then .ok [indexRecord feedFields] else .error "unknown payload"

/-- The records are read back. -/
theorem feedBasis_readsBack : feedBasis.ReadsBack := by
  intro records payload written
  simp only [feedBasis] at written ⊢
  split at written
  · next same =>
    obtain rfl := Except.ok.inj written
    rw [if_pos rfl, same]
  · cases written

/-- The name of a released package passes its check. -/
theorem currentName_checked : PackageName.check "dplyr" = .ok () := by decide

/-- A release of the package of the feed. -/
def currentDescription : ParsedDescription where
  package := ⟨"dplyr", currentName_checked⟩
  version := ⟨"1.0", .fromVec [1, 0], newer.spelled⟩
  metadata := (release alpha newer []).metadata
  publication := none
  dependencies := []

/-- A catalog with that release. -/
def currentCatalog : CranCatalog :=
  ⟨OrderedMap.empty.insert currentDescription.package [registryRelease currentDescription]⟩

end Small

/-- The coverage of the feed with one record agrees on every path. -/
theorem exists_coversAlike_feed :
    ∃ observed, CoversAlike Small.feedBasis Small.feedBody Small.currentCatalog [Small.feedFields]
      observed :=
  exists_coversAlike Small.feedBasis Small.feedBasis_readsBack Small.feedBody Small.currentCatalog
    (by decide +kernel : decodeZstd Small.feedBasis Small.feedBody = .ok Small.feedText)
    (by simp [Small.feedBasis])

end Rsolve
