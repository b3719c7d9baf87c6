import Rsolve.Cran.ProbeDeadline
import Rsolve.Snapshot.Isolation
import Rsolve.Snapshot.Revisions

/-!
# Reuse of published snapshots

Before it downloads anything, a refresh inspects the view of the store that was published for its
endpoint. The view is reused without a download when its revisions are the supported ones, its evidence
comes from the endpoint and its validation is recent enough.
-/
open Checked Framing Ordered Sorting Faults

namespace Rsolve

/-- `DEFAULT_COMPATIBLE_GENERATION_TTL`, in seconds. -/
def defaultCompatibleGenerationTtl : Int := 24 * 60 * 60

/-- `CranSnapshotCachePolicy`. -/
structure CranSnapshotCachePolicy where
  now : Timestamp
  compatibilityProfile : UInt32
  parserSchema : UInt32
  normalizationPolicy : UInt32
  expectedEndpoint : Option String
  /-- The one auxiliary feed that is permitted beside the expected endpoint. -/
  allowedAuxiliaryEndpoint : Option String
  refreshMetadata : Bool

/-- `CranSnapshotCacheStatus`. -/
inductive CranSnapshotCacheStatus
  | fresh
  | stale
  | missing
  | revisionIncompatible
  | corrupt
  | incomplete
deriving DecidableEq, Repr

/-- `CranSnapshotCacheDiagnostic`. -/
structure CranSnapshotCacheDiagnostic where
  status : CranSnapshotCacheStatus
  ageSeconds : Option Nat
  endpoints : List String
  diagnostic : String
  revisionToken : Option String
deriving DecidableEq, Repr

/-- `CranSnapshotCacheResult`. -/
inductive CranSnapshotCacheResult
  | compatible (loader : GenerationLoader) (diagnostic : CranSnapshotCacheDiagnostic)
  | rejected (diagnostic : CranSnapshotCacheDiagnostic)

/-- The status that is reported. -/
def CranSnapshotCacheResult.status : CranSnapshotCacheResult → CranSnapshotCacheStatus
  | .compatible _ diagnostic => diagnostic.status
  | .rejected diagnostic => diagnostic.status

/-- A diagnostic without evidence. -/
def CranSnapshotCacheDiagnostic.plain (status : CranSnapshotCacheStatus) (diagnostic : String) :
    CranSnapshotCacheDiagnostic :=
  ⟨status, none, [], diagnostic, none⟩

/-- `endpoint_belongs_to`. -/
def endpointBelongsTo (endpoint base : String) : Bool :=
  endpoint == base ||
    if base.toList.getLast? = some '/' then
      base.toList.isPrefixOf endpoint.toList && decide (base.toList.length < endpoint.toList.length)
    else (base.toList ++ ['/']).isPrefixOf endpoint.toList

/-- `canonical_endpoints`. -/
def canonicalEndpoints (header : SnapshotHeaderV1) : List String :=
  sortDedup (header.sources.map SourceObservationV1.endpoint)

/-- `str::split` at line ends. -/
def endpointLines (endpoint : String) : List String :=
  (endpoint.toList.splitOn '\n').map String.ofList

/-- `canonical_validation_endpoints`. -/
def canonicalValidationEndpoints (record : ViewValidationV1) : List String :=
  sortDedup ((record.sources.flatMap (fun source => endpointLines source.endpoint) ++
    endpointLines record.effectiveEndpoint).filter (· ≠ ""))

namespace CranSnapshotCachePolicy

variable (policy : CranSnapshotCachePolicy)

/-- `with_expected_endpoint`. -/
def withExpectedEndpoint (endpoint : String) : CranSnapshotCachePolicy :=
  { policy with expectedEndpoint := some endpoint }

/-- A record is that of a header, for the expected endpoint. -/
def validationMatches (header : SnapshotHeaderV1) (record : ViewValidationV1) : Bool :=
  record.registryId == header.registryId && record.generation == header.generation &&
    record.compatibilityProfile == header.compatibilityProfile &&
    record.parserSchema == header.parserSchema &&
    record.normalizationPolicy == header.normalizationPolicy &&
    policy.expectedEndpoint.all (fun endpoint => record.effectiveEndpoint == endpoint) &&
    record.sources.map (fun source => (source.id, source.contentSha256)) ==
      header.sources.map fun source => (source.id, source.contentSha256)

/-- A source may come from the expected endpoint or from the auxiliary one. -/
def sourceAllowed (expected endpoint : String) : Bool :=
  endpointBelongsTo endpoint expected ||
    policy.allowedAuxiliaryEndpoint.any fun allowed => endpoint == allowed

/-- The evidence comes from the expected endpoint: as the record says when it is that of the header, and
otherwise as the header says. -/
def endpointProvenanceMatches (header : SnapshotHeaderV1) (validation : Option ViewValidationV1) :
    Bool :=
  policy.expectedEndpoint.all fun expected =>
    match validation.filter (policy.validationMatches header) with
    | some record => record.effectiveEndpoint == expected &&
        record.sources.all fun source => policy.sourceAllowed expected source.endpoint
    | none => header.sources.all fun source => policy.sourceAllowed expected source.endpoint

end CranSnapshotCachePolicy

section Inspection

variable (parseTimestamp : String → Except String Timestamp)

/-- `SignedDuration::as_secs` of the time that has passed. -/
def ageSecs (now earlier : Timestamp) : Int :=
  (now.durationSince earlier).tdiv nanosecondsPerSecond

/-- The step of the loop over the sources: the oldest age so far, and whether a source is in the
future. -/
def sourceAge (now : Timestamp) (state : Int × Bool) (source : SourceObservationV1) :
    Except String (Int × Bool) := do
  let observed ← parseTimestamp source.observedAt
  let age := ageSecs now observed
  return (max state.1 (max age 0), state.2 || decide (age < 0))

/-- The age of the evidence, and whether some of it is in the future. The time of a validation replaces
the ages of the sources. -/
def evidenceAge (now : Timestamp) (header : SnapshotHeaderV1) (validated : Option Timestamp) :
    Except String (Int × Bool) := do
  let (oldest, future) ← header.sources.foldlM (sourceAge parseTimestamp now) (0, false)
  match validated with
  | some validatedAt =>
    return (max (ageSecs now validatedAt) 0, future || decide (ageSecs now validatedAt < 0))
  | none => return (oldest, future)

variable (store : SnapshotStore) (recordBytes : RecordBytes) (policy : CranSnapshotCachePolicy)

/-- `inspect_cran_snapshot_cache_from_reads`. -/
def inspectFromReads (loaderResult : Except CandidateLoadError (Option GenerationLoader))
    (validation : Option ViewValidationV1) : CranSnapshotCacheResult :=
  match loaderResult with
  | .ok none => .rejected (.plain .missing "CRAN snapshot view head is missing")
  | .error error => .rejected (.plain .corrupt error.diagnostic)
  | .ok (some loader) =>
    let header := loader.header
    if header.compatibilityProfile ≠ policy.compatibilityProfile ∨
        header.parserSchema ≠ policy.parserSchema ∨
        header.normalizationPolicy ≠ policy.normalizationPolicy then
      .rejected ⟨.revisionIncompatible, none, canonicalEndpoints header,
        "CRAN snapshot compatibility revisions are incompatible (profile " ++
          toString header.compatibilityProfile.toNat ++ ", parser " ++
          toString header.parserSchema.toNat ++ ", normalization " ++
          toString header.normalizationPolicy.toNat ++ ")", none⟩
    else
      let matching := validation.filter (policy.validationMatches header)
      let validated := matching.bind fun record => (parseTimestamp record.validatedAt).toOption
      let provenance := policy.endpointProvenanceMatches header validation
      match evidenceAge parseTimestamp policy.now header validated with
      | .error cause => .rejected (.plain .corrupt ("invalid source observed_at: " ++ cause))
      | .ok (age, future) =>
        if header.sources = [] then
          .rejected (.plain .corrupt "CRAN snapshot has no source observations")
        else
          let fresh := !policy.refreshMetadata && provenance && !future &&
            decide (age ≤ defaultCompatibleGenerationTtl)
          .compatible loader
            { status := if fresh then .fresh else .stale
              ageSeconds := some age.toNat
              endpoints := (matching.map canonicalValidationEndpoints).getD (canonicalEndpoints header)
              diagnostic :=
                if fresh then
                  "compatible CRAN snapshot generation is within the fallback freshness TTL"
                else if !provenance then
                  "CRAN snapshot evidence belongs to a different acquisition endpoint; it is not fresh for online reuse"
                else if future then
                  "CRAN snapshot source timestamp is in the future; generation is not fresh for online reuse"
                else "compatible CRAN snapshot generation is stale but remains usable offline"
              revisionToken := validation.map (viewValidationRevisionToken store recordBytes) }

/-- `inspect_cran_snapshot_cache_with_refresh_guard`. -/
def inspectWithRefreshGuard (order : Enumeration) (files : StoreFiles) : CranSnapshotCacheResult :=
  match policy.expectedEndpoint with
  | some endpoint =>
    match readViewForEndpoint store order files endpoint with
    | .ok (some (head, loader)) =>
      inspectFromReads parseTimestamp store recordBytes policy (.ok (some loader))
        (some (validationRecord head))
    | .ok none => inspectFromReads parseTimestamp store recordBytes policy (.ok none) none
    | .error cause => inspectFromReads parseTimestamp store recordBytes policy (.error cause) none
  | none =>
    inspectFromReads parseTimestamp store recordBytes policy
      (readLatestViewOptional store order files)
      ((readLatestViewHead store order files).toOption.join.map fun view => validationRecord view.1)

/-- `inspect_cran_snapshot_cache`, with the outcome of taking the lock. -/
def inspectCranSnapshotCache (lock : Except String Unit) (order : Enumeration) (files : StoreFiles) :
    CranSnapshotCacheResult :=
  match lock with
  | .error cause =>
    .rejected (.plain .corrupt ("unable to acquire snapshot refresh lock: " ++ cause))
  | .ok () => inspectWithRefreshGuard parseTimestamp store recordBytes policy order files

/-- What calls published is isolated for an endpoint: a view that is reported as fresh was published for
it, and what is reported of the view that was published for it last, when that is the only one and
reported as fresh, is reported after any publishes for other endpoints. -/
def IsolatesEndpoint (expected : String) (calls : List (StoreCall × Fates)) : Prop :=
  (∀ order view diagnostic,
    readViewForEndpoint store order (runCalls store calls) expected = .ok (some view) →
    inspectCranSnapshotCache parseTimestamp store recordBytes (policy.withExpectedEndpoint expected)
      (.ok ()) order (runCalls store calls) = .compatible view.2 diagnostic →
    diagnostic.status = .fresh → view.1.validation.effectiveEndpoint = expected) ∧
  ∀ before later, calls = before ++ later →
    (∀ step ∈ later, ∀ viewKey, ¬ step.1.PublishesFor store viewKey expected) →
    ∀ head, (runCalls store before).latestFor expected = some head → ∀ order loader diagnostic,
    inspectCranSnapshotCache parseTimestamp store recordBytes (policy.withExpectedEndpoint expected)
      (.ok ()) order ((runCalls store before).only head.viewKey) = .compatible loader diagnostic →
    diagnostic.status = .fresh →
    ∀ orders, inspectCranSnapshotCache parseTimestamp store recordBytes
      (policy.withExpectedEndpoint expected) (.ok ()) orders (runCalls store calls) =
        .compatible loader diagnostic

/-- Nothing compatible is reported without a generation. -/
theorem exists_of_compatible {outcome : Except CandidateLoadError (Option GenerationLoader)}
    {validation : Option ViewValidationV1} {loader : GenerationLoader}
    {diagnostic : CranSnapshotCacheDiagnostic}
    (reported : inspectFromReads parseTimestamp store recordBytes policy outcome validation =
      .compatible loader diagnostic) : outcome = .ok (some loader) := by
  unfold inspectFromReads at reported
  split at reported
  · cases reported
  · cases reported
  · dsimp only at reported
    split at reported
    · cases reported
    · split at reported
      · cases reported
      · split at reported
        · cases reported
        · obtain ⟨rfl, -⟩ := CranSnapshotCacheResult.compatible.inj reported
          rfl

/-- What is reported for an expected endpoint is reported of the view that is found for it. -/
theorem inspect_of_compatible {order : Enumeration} {files : StoreFiles} {expected : String}
    {loader : GenerationLoader} {diagnostic : CranSnapshotCacheDiagnostic}
    (reported : inspectCranSnapshotCache parseTimestamp store recordBytes
      (policy.withExpectedEndpoint expected) (.ok ()) order files = .compatible loader diagnostic) :
    ∃ view : View, readViewForEndpoint store order files expected = .ok (some view) ∧
      ∀ orders reached, readViewForEndpoint store orders reached expected = .ok (some view) →
        inspectCranSnapshotCache parseTimestamp store recordBytes
          (policy.withExpectedEndpoint expected) (.ok ()) orders reached =
            .compatible loader diagnostic := by
  simp only [inspectCranSnapshotCache, inspectWithRefreshGuard,
    CranSnapshotCachePolicy.withExpectedEndpoint] at reported ⊢
  cases found : readViewForEndpoint store order files expected with
  | error cause =>
    rw [found] at reported
    have outcome := exists_of_compatible _ _ _ _ reported
    cases outcome
  | ok outcome =>
    cases outcome with
    | none =>
      rw [found] at reported
      have outcome := exists_of_compatible _ _ _ _ reported
      cases outcome
    | some view =>
      rw [found] at reported
      refine ⟨view, rfl, fun orders reached same => ?_⟩
      rw [same]
      exact reported

/-- What is reported for an expected endpoint of the view that is found for it. -/
theorem inspect_of_found {order : Enumeration} {files : StoreFiles} {expected : String} {view : View}
    (found : readViewForEndpoint store order files expected = .ok (some view)) :
    inspectCranSnapshotCache parseTimestamp store recordBytes
      (policy.withExpectedEndpoint expected) (.ok ()) order files =
        inspectFromReads parseTimestamp store recordBytes (policy.withExpectedEndpoint expected)
          (.ok (some view.2)) (some (validationRecord view.1)) := by
  simp only [inspectCranSnapshotCache, inspectWithRefreshGuard,
    CranSnapshotCachePolicy.withExpectedEndpoint, found]

/-- What is reported as fresh is a generation. -/
theorem compatible_of_fresh {loader : GenerationLoader} {validation : Option ViewValidationV1}
    (fresh : (inspectFromReads parseTimestamp store recordBytes policy (.ok (some loader))
      validation).status = .fresh) :
    ∃ diagnostic, inspectFromReads parseTimestamp store recordBytes policy (.ok (some loader))
      validation = .compatible loader diagnostic ∧ diagnostic.status = .fresh := by
  cases reported : inspectFromReads parseTimestamp store recordBytes policy (.ok (some loader))
      validation with
  | compatible found diagnostic =>
    obtain rfl := Option.some.inj (Except.ok.inj (exists_of_compatible _ _ _ _ reported))
    rw [reported] at fresh
    exact ⟨diagnostic, rfl, fresh⟩
  | rejected diagnostic =>
    rw [reported] at fresh
    unfold inspectFromReads at reported
    dsimp only at reported
    split at reported
    · obtain rfl := CranSnapshotCacheResult.rejected.inj reported
      cases fresh
    · split at reported
      · obtain rfl := CranSnapshotCacheResult.rejected.inj reported
        cases fresh
      · split at reported
        · obtain rfl := CranSnapshotCacheResult.rejected.inj reported
          cases fresh
        · cases reported

/-- What is reported is not isolated when a view of another endpoint is reported as fresh. -/
theorem not_isolatesEndpoint_of {expected : String} {calls : List (StoreCall × Fates)}
    {order : Enumeration} {view : View}
    (found : readViewForEndpoint store order (runCalls store calls) expected = .ok (some view))
    (fresh : (inspectFromReads parseTimestamp store recordBytes
      (policy.withExpectedEndpoint expected) (.ok (some view.2))
        (some (validationRecord view.1))).status = .fresh)
    (other : view.1.validation.effectiveEndpoint ≠ expected) :
    ¬ IsolatesEndpoint parseTimestamp store recordBytes policy expected calls := by
  rintro ⟨isolates, -⟩
  have inspected := inspect_of_found parseTimestamp store recordBytes policy found
  obtain ⟨diagnostic, reported, isFresh⟩ := compatible_of_fresh _ _ _ _ fresh
  exact other (isolates order view diagnostic found (inspected.trans reported) isFresh)

/-- In every run of publishes, each for the expected endpoint or for one that does not match it, with
different keys for different endpoints, what is reported for the expected endpoint is isolated. -/
theorem isolatesEndpoint_of_isolated (readsBack : store.headJson.ReadsBack) (expected : String)
    (calls : List (StoreCall × Fates)) (isolated : Isolated store expected calls) :
    IsolatesEndpoint parseTimestamp store recordBytes policy expected calls := by
  constructor
  · intro order view diagnostic found _ _
    exact endpoint_of_readViewForEndpoint readsBack isolated found
  · rintro before later rfl others head last order loader diagnostic reported _ orders
    obtain ⟨view, alone, same⟩ := inspect_of_compatible _ _ _ _ reported
    exact same orders _ (readViewForEndpoint_of_only readsBack isolated others last alone orders)

end Inspection

namespace Small

/-- A mirror below another one. -/
def mirrorEndpoint : String := "https://mirror.example/cran"

/-- A snapshot of the index of that mirror. -/
def mirrorInput : SnapshotBuildInput :=
  { snapshotInput publishTime with
    sources := [⟨"current-packages", "gzip-dcf", digestOf contentDigest, none, none, publishTime,
      "https://mirror.example/cran/src/contrib/PACKAGES.gz"⟩] }

/-- The header of that snapshot. -/
def mirrorHeader : SnapshotHeaderV1 :=
  { snapshotHeader publishTime with
    sources := [⟨sourceDigest, "current-packages", "gzip-dcf", contentDigest, none, none,
      publishTime, "https://mirror.example/cran/src/contrib/PACKAGES.gz"⟩] }

/-- The digest of that header. -/
def mirrorHeaderDigest : String :=
  "627ccedc1d9414d2392f087bf6361b6d6073c3ad7d64eede0e6e8871e71ec0db"

/-- The key of the view of that mirror. -/
def mirrorViewDigest : String := "0e48f4fef64c61d98682ccaebf9a71a529c9d2e2617b881229f34b4aba247970"

/-- The head of the publish for that mirror. -/
def mirrorHead : ViewHeadV1 where
  format := "rsolve-metadata-view"
  version := 1
  registryId := "cran"
  viewKey := mirrorViewDigest
  coverage := ⟨"partial", "requested-packages", "current"⟩
  generation := generationDigest
  headerSha256 := mirrorHeaderDigest
  validation := ⟨1, 1, 2, publishTime, 1, mirrorEndpoint,
    [⟨sourceDigest, contentDigest, "https://mirror.example/cran/src/contrib/PACKAGES.gz"⟩]⟩

/-- A function with the digests of what that publish writes. -/
def mirrorDigest (bytes : List UInt8) : Vector UInt8 32 :=
  if bytes = headerText mirrorHeader then digestOf mirrorHeaderDigest
  else if bytes = appendParts [textBytes "rsolve.metadata-view-key\x00v1", textBytes "cran",
      textBytes "partial", textBytes "requested-packages", textBytes "current",
      textBytes mirrorEndpoint] then digestOf mirrorViewDigest
  else snapshotDigest bytes

/-- A store for that publish. -/
def mirrorStore : SnapshotStore where
  basis :=
    { sha256 := mirrorDigest
      isTimestamp := fun text => text == publishTime
      postcard := observedFormat
      headerJson := formatOf [(mirrorHeader, headerText mirrorHeader)]
      validateHistory := fun _ _ => .ok () }
  headJson := formatOf [(mirrorHead, headText mirrorHead)]
  registryId := registry

/-- The publish for that mirror. -/
def mirrorPublish : StoreCall := .publish mirrorInput (some mirrorEndpoint) process byName

/-- The text of the header of the mirror is short. -/
theorem headerText_mirror_short : (headerText mirrorHeader).length ≤ headerLimit := by
  simp only [headerText, mirrorHeader, snapshotHeader, sourceText, object_length, array_length,
    member_length, quoted_length, number_length, List.map_cons, List.map_nil]
  decide

/-- The name of the generation of the mirror. -/
theorem generationId_mirror :
    generationId mirrorStore.basis "cran" mirrorHeader = generationDigest := by
  have digest : mirrorStore.basis.sha256 = mirrorDigest := rfl
  simp only [generationId, SnapshotBasis.hexDigest, digest, mirrorDigest, snapshotDigest, textBytes_eq]
  decide +kernel

/-- The id of the source of the mirror. -/
theorem sourceId_mirror :
    sourceId mirrorStore.basis "current-packages" "gzip-dcf" contentDigest = sourceDigest := by
  have digest : mirrorStore.basis.sha256 = mirrorDigest := rfl
  simp only [sourceId, SnapshotBasis.hexDigest, digest, mirrorDigest, snapshotDigest, textBytes_eq]
  decide

/-- The digest of no histories. -/
theorem historyManifest_mirror : historyManifest mirrorStore.basis .empty = manifestDigest := by
  decide

/-- What is made of the snapshot of the mirror. -/
theorem prepared_mirror : prepared mirrorStore.basis mirrorInput =
    .ok (mirrorHeader, headerText mirrorHeader, .empty) := by
  have observed := @sourceObservation_content _ "https://mirror.example/cran/src/contrib/PACKAGES.gz"
    sourceId_mirror
  have filled : registry.text ≠ "" := by decide
  have made := @prepare_of_source mirrorStore.basis mirrorInput _ filled rfl rfl
    (by rw [observed]; rfl)
  rw [observed, historyManifest_mirror] at made
  refine prepared_of_parts ?_ generationId_mirror (formatOf_toVec _ _ _) headerText_mirror_short
  rw [made]
  rfl

/-- The header of the mirror is valid. -/
theorem validateHeader_mirror : validateHeader mirrorStore.basis mirrorHeader = .ok () :=
  validateHeader_of_digests sourceId_mirror generationId_mirror (by decide)
    (by decide)

/-- The library of the store reads the header of the mirror. -/
theorem headerJson_mirror :
    mirrorStore.basis.headerJson.fromSlice (headerText mirrorHeader) = .ok mirrorHeader := by
  simp only [mirrorStore]
  exact formatOf_fromSlice _ _ _

/-- The generation of the mirror is valid. -/
theorem validateGeneration_mirror : validateGeneration mirrorStore.basis
    (some ⟨some (headerText mirrorHeader), .empty⟩) mirrorStore.registryId = .ok mirrorHeader :=
  validateGeneration_of
    (decodeHeader_of headerJson_mirror (formatOf_toVec _ _ _) headerText_mirror_short
      validateHeader_mirror)
    rfl ⟨rfl, rfl, rfl, rfl⟩ historyManifest_mirror.symm generationId_mirror.symm

/-- The head of the publish for the mirror. -/
theorem viewHead_mirror : viewHead mirrorStore mirrorHeader (headerText mirrorHeader)
    ((some mirrorEndpoint).getD (effectiveEndpoint mirrorInput)) 1 = mirrorHead := by
  have keyed : viewKeyForParts mirrorStore mirrorHeader.coverage.state mirrorHeader.coverage.scope
      mirrorHeader.coverage.freshness mirrorEndpoint = mirrorViewDigest := by
    decide +kernel
  have spelled : hex (digestOf mirrorHeaderDigest).toList = mirrorHeaderDigest := by
    decide
  have hashed : mirrorStore.basis.sha256 (headerText mirrorHeader) = digestOf mirrorHeaderDigest := by
    simp only [mirrorStore, mirrorDigest, if_true]
  have digest := hexDigest_of hashed spelled
  exact @viewHead_of mirrorStore mirrorHeader _ _ _ _ 1 keyed digest

/-- The files after the publish for the mirror. -/
def mirrorFiles : StoreFiles :=
  StoreFiles.empty.published process 1 2 3 mirrorHead (headText mirrorHead)
    (some ⟨some (headerText mirrorHeader), .empty⟩)

/-- The text of that head is short. -/
theorem headText_mirror_short : (headText mirrorHead).length ≤ viewHeadLimit := by
  simp only [headText, mirrorHead, object_length, array_length, member_length, quoted_length,
    number_length, List.map_cons, List.map_nil]
  decide

/-- The publish for the mirror works. -/
theorem works_mirrorPublish :
    Works (buildAndPublish mirrorStore mirrorInput (some mirrorEndpoint) process byName) .empty []
      ⟨⟨some (headerText mirrorHeader), .empty⟩, mirrorHeader⟩ mirrorFiles [] := by
  have head := viewHead_mirror
  have serves : process.Serves .empty 1 2 3 := ⟨rfl, rfl, rfl, rfl, rfl, rfl⟩
  have works := @works_buildAndPublish mirrorStore .empty mirrorInput (some mirrorEndpoint) process
    byName mirrorHeader (headerText mirrorHeader) (headText mirrorHead) .empty 1 2 3 1 none
    prepared_mirror validateGeneration_mirror serves (.inl rfl) (fun _ => rfl) rfl
    (by rw [head]; exact formatOf_toVec _ _ _) headText_mirror_short
  rw [head] at works
  exact works

/-- The files after the publish for the mirror are those of a run. -/
theorem runCalls_mirrorPublish :
    runCalls mirrorStore [(mirrorPublish, ⟨[], []⟩)] = mirrorFiles :=
  runCalls_of_works works_mirrorPublish

/-- A reader of the times of these publishes. -/
def parsePublishTime (text : String) : Except String Timestamp :=
  if text = publishTime then .ok ⟨1787443200000000000, by decide⟩ else .error "expected a timestamp"

/-- A policy at the time of the publish. -/
def publishPolicy : CranSnapshotCachePolicy :=
  ⟨⟨1787443200000000000, by decide⟩, 1, 1, 2, none, none, false⟩

/-- Records as no bytes. -/
def noRecordBytes : RecordBytes := fun _ => []

/-- The library for the head of the mirror reads what it writes. -/
theorem mirrorStore_readsBack : mirrorStore.headJson.ReadsBack :=
  formatOf_readsBack (List.nodup_singleton _)

/-- The publish for the mirror is isolated for it. -/
theorem isolated_mirrorPublish :
    Isolated mirrorStore mirrorEndpoint [(mirrorPublish, ⟨[], []⟩)] := by
  have named : ∀ viewKey endpoint, mirrorPublish.PublishesFor mirrorStore viewKey endpoint →
      endpoint = mirrorEndpoint := by
    rintro viewKey endpoint ⟨input, given, process, order, _, _, _, same, -, -, rfl⟩
    obtain ⟨-, rfl, -, -⟩ := StoreCall.publish.inj same
    rfl
  constructor
  · intro step member
    rw [List.mem_singleton.mp member]
    decide
  · intro step member
    rw [List.mem_singleton.mp member]
    exact ⟨_, _, _, _, rfl⟩
  · intro step member viewKey endpoint publishes
    rw [List.mem_singleton.mp member] at publishes
    exact .inl (named _ _ publishes)
  · intro first member second other viewKey endpoint another publishes publishesOther
    rw [List.mem_singleton.mp member] at publishes
    rw [List.mem_singleton.mp other] at publishesOther
    exact (named _ _ publishes).trans (named _ _ publishesOther).symm

/-- The generation of the mirror as it is opened. -/
def mirrorLoader : GenerationLoader := ⟨⟨some (headerText mirrorHeader), .empty⟩, mirrorHeader⟩

/-- The head of the mirror is stored. -/
theorem mirrorHead_stored : mirrorHead.Stored mirrorStore (headText mirrorHead) :=
  ⟨formatOf_toVec _ _ _, headText_mirror_short⟩

/-- What is stored after the publish for the mirror. -/
theorem get?_mirrorFiles : mirrorFiles.views.get? mirrorHead.viewKey = some (headText mirrorHead) ∧
    mirrorFiles.generations.get? mirrorHead.generation =
      some (some ⟨some (headerText mirrorHeader), .empty⟩) :=
  ⟨(OrderedMap.get?_insert .empty _ _ _).trans (if_pos rfl),
    (OrderedMap.get?_insert .empty _ _ _).trans (if_pos rfl)⟩

/-- The head of the mirror stands. -/
theorem mirrorHead_stands : mirrorHead.Stands mirrorStore mirrorFiles := by
  obtain ⟨database, bytes, isSome, stored, decoded, -⟩ :=
    validateGeneration_eq_ok validateGeneration_mirror
  obtain rfl := Option.some.inj isSome
  obtain rfl := Option.some.inj stored
  obtain ⟨encoded, checked⟩ := decodeHeader_eq_ok decoded
  have settled : Settled mirrorStore mirrorHeader (headerText mirrorHeader) mirrorFiles :=
    ⟨_, _, get?_mirrorFiles.2, validateGeneration_mirror, rfl, encoded, rfl, rfl, rfl, rfl⟩
  rw [← viewHead_mirror]
  exact viewHead_stands (settled.pins _ _) (viewable_of_validateHeader checked)
    (List.cons_ne_nil _ _) (by decide) Nat.one_ne_zero

/-- The view of the mirror is found for the endpoints that it matches. -/
theorem readViewForEndpoint_mirror {endpoint : String}
    (held : viewEndpointMatches mirrorHead.validation.effectiveEndpoint endpoint = true) :
    readViewForEndpoint mirrorStore byName mirrorFiles endpoint =
      .ok (some (mirrorHead, mirrorLoader)) := by
  have read : readViewOptionalLocked mirrorStore mirrorFiles mirrorHead.viewKey =
      .ok (some (mirrorHead, mirrorLoader)) :=
    readView_stored_of mirrorStore_readsBack get?_mirrorFiles.1 mirrorHead_stored mirrorHead_stands
      get?_mirrorFiles.2 validateGeneration_mirror
  refine latestOf_eq_of_highest (mem_readViews_for.mpr ⟨⟨_, read⟩, held⟩) fun other member => .inl ?_
  obtain ⟨⟨viewKey, readOther⟩, -⟩ := mem_readViews_for.mp member
  obtain ⟨content, present⟩ := mem_enumerated_views.mp (mem_views_of_readView byName readOther)
  change (OrderedMap.empty.insert mirrorHead.viewKey (headText mirrorHead)).get? viewKey = _ at present
  rw [OrderedMap.get?_insert] at present
  split at present
  · next same =>
    subst same
    exact Option.some.inj (Except.ok.inj (readOther.symm.trans read))
  · cases present

/-- The endpoint above the mirror. -/
def aboveEndpoint : String := "https://mirror.example"

/-- The view of the mirror matches its endpoint and the one above it, and it is reported as fresh for
both. -/
theorem status_mirror : ∀ endpoint ∈ [mirrorEndpoint, aboveEndpoint],
    viewEndpointMatches mirrorHead.validation.effectiveEndpoint endpoint = true ∧
      (inspectFromReads parsePublishTime mirrorStore noRecordBytes
        (publishPolicy.withExpectedEndpoint endpoint) (.ok (some mirrorLoader))
          (some (validationRecord mirrorHead))).status = .fresh := by
  decide

end Small

/-- What the publish for the mirror reports for it is isolated. -/
theorem isolatesEndpoint_mirror :
    IsolatesEndpoint Small.parsePublishTime Small.mirrorStore Small.noRecordBytes
      Small.publishPolicy Small.mirrorEndpoint [(Small.mirrorPublish, ⟨[], []⟩)] :=
  isolatesEndpoint_of_isolated _ _ _ _ Small.mirrorStore_readsBack _ _ Small.isolated_mirrorPublish

/-- For the endpoint above the mirror, the view of the mirror is reported as fresh. -/
theorem not_isolatesEndpoint :
    ¬ IsolatesEndpoint Small.parsePublishTime Small.mirrorStore Small.noRecordBytes
      Small.publishPolicy "https://mirror.example" [(Small.mirrorPublish, ⟨[], []⟩)] := by
  obtain ⟨held, fresh⟩ := Small.status_mirror Small.aboveEndpoint (by decide)
  have found := Small.readViewForEndpoint_mirror held
  rw [← Small.runCalls_mirrorPublish] at found
  exact not_isolatesEndpoint_of _ _ _ _ found fresh (by decide)

end Rsolve
