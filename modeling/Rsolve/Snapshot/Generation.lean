import Rsolve.Lib.Ordered
import Rsolve.Snapshot.Header

/-!
# Generations of a snapshot

A generation is a database of a header and one history for each package. It is made from an input
by sorting and renumbering the sources, and it is valid when the histories agree with the header.
-/
open Checked Framing Ordered Sorting

namespace Rsolve

/-- The tables of a generation, in key order. -/
structure SnapshotDatabase where
  /-- The entry of `SNAPSHOT_HEADER` under `HEADER_KEY`. -/
  header : Option (List UInt8)
  /-- `PACKAGE_HISTORIES`. -/
  histories : OrderedMap String (List UInt8)

/-- A database file; nothing can be read from one that is still being made. -/
abbrev GenerationFile := Option SnapshotDatabase

variable (basis : SnapshotBasis)

/-- `ReadOnlyDatabase::open`. -/
def openDatabase (file : GenerationFile) : Except SnapshotError SnapshotDatabase :=
  match file with
  | some database => .ok database
  | none => .error (.database "DB corrupted: invalid magic number")

/-- The stored header. -/
def SnapshotDatabase.headerBytes (database : SnapshotDatabase) :
    Except SnapshotError (List UInt8) :=
  match database.header with
  | some bytes => .ok bytes
  | none => .error (.invalid "snapshot header is missing")

/-- `history_manifest`, as a text. -/
def historyManifest (histories : OrderedMap String (List UInt8)) : String :=
  basis.hexDigest (appendParts
    ([textBytes "rsolve.metadata-history-manifest\x00v1",
      textBytes (toString histories.entries.length)] ++
    histories.entries.flatMap fun entry =>
      [textBytes entry.1, (basis.sha256 entry.2).toList]))

/-- The observations of some histories. -/
def observationCount (histories : List PackageHistoryV1) : UInt64 :=
  histories.foldl (fun total history => total + UInt64.ofNat history.observations.length) 0

/-- The eligible releases of some histories. -/
def eligibleCount (histories : List PackageHistoryV1) : UInt64 :=
  histories.foldl (fun total history => total + UInt64.ofNat history.eligibleReleases.length) 0

/-- The incomplete histories among some. -/
def incompleteCount (histories : List PackageHistoryV1) : UInt64 :=
  histories.foldl (fun total history => total + if history.state = .incomplete then 1 else 0) 0

/-- `decode_history`, which never stops the program. -/
def decodedHistory (bytes : List UInt8) : Except SnapshotError PackageHistoryV1 :=
  (decodeHistory basis.postcard basis.sha256 bytes).run.get
    (Option.isSome_iff_ne_none.mpr (safe_decodeHistory bytes))

/-- The check of one row of a generation. -/
def validateRow (sourceCount : Nat) (row : String × List UInt8) :
    Except SnapshotError PackageHistoryV1 := do
  let history ← decodedHistory basis row.2
  ensure (history.package = row.1) (.invalid "history key/package mismatch")
  basis.validateHistory history sourceCount
  return history

/-- `validate_generation`. -/
def validateGeneration (file : GenerationFile) (configured : RegistryId) :
    Except SnapshotError SnapshotHeaderV1 := do
  let database ← openDatabase file
  let bytes ← database.headerBytes
  let header ← decodeHeader basis bytes
  ensure (header.registryId = configured.text)
    (.invalid "snapshot registry does not match configured registry")
  let histories ← database.histories.entries.mapM (validateRow basis header.sources.length)
  ensure (header.packageCount = UInt64.ofNat histories.length ∧
      header.observationCount = observationCount histories ∧
      header.eligibleReleaseCount = eligibleCount histories ∧
      header.incompletePackageCount = incompleteCount histories ∧
      header.historyManifestSha256 = historyManifest basis database.histories ∧
      header.generation = generationIdFromHeader basis header)
    (.invalid "history count or manifest mismatch")
  return header

/-- `read_generation_header`. -/
def readGenerationHeader (file : GenerationFile) : Except SnapshotError (List UInt8) := do
  let database ← openDatabase file
  let bytes ← database.headerBytes
  ensure (bytes.length ≤ headerLimit) (.invalid "snapshot header exceeds its byte limit")
  return bytes

/-- `ReadOnlySnapshotCandidateLoader` — an open generation. -/
structure GenerationLoader where
  database : SnapshotDatabase
  header : SnapshotHeaderV1

/-- `ReadOnlySnapshotCandidateLoader::open`. -/
def GenerationLoader.open' (file : GenerationFile) (configured : RegistryId) :
    Except SnapshotError GenerationLoader := do
  let database ← openDatabase file
  let bytes ← database.headerBytes
  let header ← decodeHeader basis bytes
  ensure (header.registryId = configured.text)
    (.invalid ("snapshot registry " ++ header.registryId.quote ++
      " does not match configured registry " ++ configured.text.quote))
  ensure (UInt64.ofNat database.histories.entries.length = header.packageCount)
    (.invalid "snapshot package count mismatch")
  return { database, header }

/-- `SourceInput`. -/
structure SourceInput where
  kind : String
  representation : String
  contentSha256 : Vector UInt8 32
  etag : Option String
  lastModified : Option String
  observedAt : String
  endpoint : String
deriving DecidableEq

/-- `SnapshotBuildInput`. -/
structure SnapshotBuildInput where
  registryId : RegistryId
  compatibilityProfile : UInt32
  parserSchema : UInt32
  normalizationPolicy : UInt32
  createdAt : String
  producer : String
  coverage : CoverageV1
  sources : List SourceInput
  histories : List PackageHistoryV1

/-- `source_observation`. -/
def sourceObservation (input : SourceInput) : SourceObservationV1 where
  id := sourceId basis input.kind input.representation (hex input.contentSha256.toList)
  kind := input.kind
  representation := input.representation
  contentSha256 := hex input.contentSha256.toList
  etag := input.etag
  lastModified := input.lastModified
  observedAt := input.observedAt
  endpoint := input.endpoint

/-- The sources of an input by their ids, each with its position in the input. -/
def sortedSources (input : SnapshotBuildInput) : List (Nat × SourceObservationV1) :=
  sortBy (fun left right => compare left.2.id right.2.id)
    ((input.sources.map (sourceObservation basis)).zipIdx.map Prod.swap)

/-- A history whose observations name the sources by their new positions. -/
def renumbered (sources : List (Nat × SourceObservationV1)) (history : PackageHistoryV1) :
    Except SnapshotError PackageHistoryV1 := do
  let observations ← history.observations.mapM fun observation =>
    match sources.findIdx? (fun source => source.1 == observation.sourceIndex.toNat) with
    | some position => .ok { observation with sourceIndex := UInt32.ofNat position }
    | none => .error (.invalid "observation source index is out of range")
  return { history with observations }

/-- Add a history to the encoded ones. -/
def addHistory (sources : List (Nat × SourceObservationV1))
    (histories : OrderedMap String (List UInt8)) (history : PackageHistoryV1) :
    Except SnapshotError (OrderedMap String (List UInt8)) := do
  let canonical ← renumbered sources history
  basis.validateHistory canonical sources.length
  let encoded ← encodeHistory basis.postcard basis.sha256 canonical
  ensure (histories.get? canonical.package = none) (.invalid "duplicate package history")
  return histories.insert canonical.package encoded

/-- `prepare`. -/
def prepare (input : SnapshotBuildInput) :
    Except SnapshotError (SnapshotHeaderV1 × OrderedMap String (List UInt8)) := do
  ensure (input.registryId.text ≠ "") (.invalid "registry id is empty")
  ensure (input.sources.length ≤ headerSourceLimit) (.invalid "too many snapshot sources")
  let numbered := sortedSources basis input
  ensure (numbered.IsChain fun left right => left.2.id ≠ right.2.id) (.invalid "duplicate source id")
  let sources := numbered.map Prod.snd
  let histories ← input.histories.foldlM (addHistory basis numbered) .empty
  let sourceIds := sortDedup input.coverage.sourceIds
  ensure (sourceIds = sources.map SourceObservationV1.id)
    (.invalid "coverage source_ids must match the configured source observations")
  return ({
    format := "rsolve-metadata-snapshot"
    version := 1
    historyEncoding := historyEncoding
    normalizationPolicy := input.normalizationPolicy
    compatibilityProfile := input.compatibilityProfile
    parserSchema := input.parserSchema
    registryId := input.registryId.text
    generation := ""
    createdAt := input.createdAt
    producer := input.producer
    coverage := { input.coverage with
      sourceIds, missingEvidence := sortDedup input.coverage.missingEvidence }
    sources
    packageCount := UInt64.ofNat histories.entries.length
    observationCount := observationCount input.histories
    eligibleReleaseCount := eligibleCount input.histories
    incompletePackageCount := incompleteCount input.histories
    historyManifestSha256 := historyManifest basis histories }, histories)

/-- The header of the generation that is made from an input, with its text and the histories. -/
def prepared (input : SnapshotBuildInput) :
    Except SnapshotError (SnapshotHeaderV1 × List UInt8 × OrderedMap String (List UInt8)) := do
  let (header, histories) ← prepare basis input
  let header := { header with generation := generationId basis input.registryId.text header }
  let bytes ← encodeHeader basis header
  return (header, bytes, histories)

/-- `view_validation_facts` — the endpoint of a view when none is given: those of its sources. -/
def effectiveEndpoint (input : SnapshotBuildInput) : String :=
  "\n".intercalate (sortDedup (input.sources.map SourceInput.endpoint))

section Facts

variable {basis : SnapshotBasis} {file : GenerationFile} {configured : RegistryId}
  {header : SnapshotHeaderV1}

/-- A valid generation holds a header that can be read, and it is opened with that header. -/
theorem validateGeneration_eq_ok (valid : validateGeneration basis file configured = .ok header) :
    ∃ database bytes, file = some database ∧ database.header = some bytes ∧
      decodeHeader basis bytes = .ok header ∧ header.registryId = configured.text ∧
      readGenerationHeader file = .ok bytes ∧
      GenerationLoader.open' basis file configured = .ok ⟨database, header⟩ := by
  simp only [validateGeneration, bind_eq_ok, ensure_eq_ok, pure, Except.pure,
    Except.ok.injEq] at valid
  obtain ⟨database, opened, bytes, stored, found, decoded, _, named, histories, rows, _, counts,
    rfl⟩ := valid
  have file_eq : file = some database := by
    unfold openDatabase at opened
    split at opened
    · rw [Except.ok.inj opened]
    · cases opened
  have stored_eq : database.header = some bytes := by
    unfold SnapshotDatabase.headerBytes at stored
    split at stored
    · next stored_eq => rw [stored_eq, Except.ok.inj stored]
    · cases stored
  have short : bytes.length ≤ headerLimit := by
    obtain ⟨written, -⟩ := decodeHeader_eq_ok decoded
    simp only [encodeHeader, bind_eq_ok, ensure_eq_ok, pure, Except.pure, Except.ok.injEq] at written
    obtain ⟨_, -, _, short, rfl⟩ := written
    exact short
  have counted : UInt64.ofNat database.histories.entries.length = found.packageCount := by
    rw [counts.1, (mapM_eq_ok.mp rows).length_eq]
  refine ⟨database, bytes, file_eq, stored_eq, decoded, named, ?_, ?_⟩
  · simp only [readGenerationHeader, opened, stored, ok_bind, ensure_of short]
    rfl
  · simp only [GenerationLoader.open', opened, stored, decoded, ok_bind, ensure_of named,
      ensure_of counted]
    rfl

/-- What is prepared of an input with one source and without histories. -/
theorem prepare_of_source {input : SnapshotBuildInput} {source : SourceInput}
    (named : input.registryId.text ≠ "") (listed : input.sources = [source])
    (bare : input.histories = [])
    (covers : sortDedup input.coverage.sourceIds = [(sourceObservation basis source).id]) :
    prepare basis input = .ok
      ({ format := "rsolve-metadata-snapshot"
         version := 1
         historyEncoding := historyEncoding
         normalizationPolicy := input.normalizationPolicy
         compatibilityProfile := input.compatibilityProfile
         parserSchema := input.parserSchema
         registryId := input.registryId.text
         generation := ""
         createdAt := input.createdAt
         producer := input.producer
         coverage := { input.coverage with
           sourceIds := sortDedup input.coverage.sourceIds
           missingEvidence := sortDedup input.coverage.missingEvidence }
         sources := [sourceObservation basis source]
         packageCount := 0
         observationCount := 0
         eligibleReleaseCount := 0
         incompletePackageCount := 0
         historyManifestSha256 := historyManifest basis .empty }, .empty) := by
  have numbered : sortedSources basis input = [(0, sourceObservation basis source)] := by
    rw [sortedSources, listed]
    rfl
  have few : input.sources.length ≤ headerSourceLimit := by
    rw [listed]
    exact Nat.le_of_ble_eq_true rfl
  simp only [prepare, ensure_of named, ensure_of few, numbered, bare,
    ensure_of (List.isChain_singleton _), ok_bind, List.foldlM_nil, List.map_cons, List.map_nil,
    pure, Except.pure, ensure_of covers]
  rfl

/-- What is made of an input without histories, from its header without a name. -/
theorem prepared_of_parts {input : SnapshotBuildInput} {bytes : List UInt8}
    (parts : (prepare basis input).map (fun made => (made.1, made.2.entries)) =
      .ok ({ header with generation := "" }, []))
    (named : generationId basis input.registryId.text { header with generation := "" } =
      header.generation)
    (written : basis.headerJson.toVec header = .ok bytes) (short : bytes.length ≤ headerLimit) :
    prepared basis input = .ok (header, bytes, .empty) := by
  cases made : prepare basis input with
  | error cause =>
    rw [made] at parts
    cases parts
  | ok value =>
    obtain ⟨found, ⟨entries, ordered⟩⟩ := value
    rw [made] at parts
    obtain ⟨rfl, rfl⟩ := Prod.mk.inj (Except.ok.inj parts)
    simp only [prepared, made, ok_bind, named, encodeHeader, canonicalHeader, written,
      Except.mapError, ensure_of short]
    rfl

/-- A header is decoded when the library reads and writes it and it is valid. -/
theorem decodeHeader_of {bytes : List UInt8} (read : basis.headerJson.fromSlice bytes = .ok header)
    (written : basis.headerJson.toVec header = .ok bytes) (short : bytes.length ≤ headerLimit)
    (checked : validateHeader basis header = .ok ()) : decodeHeader basis bytes = .ok header := by
  simp only [decodeHeader, canonicalHeader, ensure_of short, ok_bind, read, written, Except.mapError,
    checked, ensure_of trivial]
  rfl

/-- A generation without histories is valid when its header is decoded and counts none. -/
theorem validateGeneration_of {bytes : List UInt8} (decoded : decodeHeader basis bytes = .ok header)
    (registered : header.registryId = configured.text)
    (empty : header.packageCount = 0 ∧ header.observationCount = 0 ∧
      header.eligibleReleaseCount = 0 ∧ header.incompletePackageCount = 0)
    (manifest : header.historyManifestSha256 = historyManifest basis .empty)
    (named : header.generation = generationIdFromHeader basis header) :
    validateGeneration basis (some ⟨some bytes, .empty⟩) configured = .ok header := by
  obtain ⟨packages, observations, eligible, incomplete⟩ := empty
  have counts : header.packageCount = UInt64.ofNat ([] : List PackageHistoryV1).length ∧
      header.observationCount = observationCount [] ∧ header.eligibleReleaseCount = eligibleCount [] ∧
      header.incompletePackageCount = incompleteCount [] ∧
      header.historyManifestSha256 = historyManifest basis .empty ∧
      header.generation = generationIdFromHeader basis header :=
    ⟨packages, observations, eligible, incomplete, manifest, named⟩
  simp only [validateGeneration, openDatabase, SnapshotDatabase.headerBytes, ok_bind, decoded,
    ensure_of registered]
  exact bind_eq_ok.mpr ⟨[], rfl, bind_eq_ok.mpr ⟨(), ensure_of counts, rfl⟩⟩

/-- A header that is valid is so from another time as well. -/
theorem validateHeader_at (checked : validateHeader basis header = .ok ()) {createdAt : String}
    (valid : validateString createdAt true "required header string" = .ok ())
    (timed : isRfc3339Seconds basis createdAt = true) :
    validateHeader basis { header with createdAt } = .ok () := by
  simp only [validateHeader, bind_eq_ok, ensure_eq_ok, forM_eq_ok, List.forall_mem_cons] at checked ⊢
  obtain ⟨_, known, _, covered, _, ⟨registry, generation, -, texts⟩, name, registered, digest, parsed,
    _, named, _, -, rest⟩ := checked
  exact ⟨(), known, (), covered, (), ⟨registry, generation, valid, texts⟩, name, registered, digest,
    parsed, (), named, (), timed, rest⟩

end Facts

end Rsolve
