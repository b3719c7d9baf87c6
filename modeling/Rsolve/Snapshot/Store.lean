import Rsolve.Lib.Faults
import Rsolve.Snapshot.Heads

/-!
# Publishing and cleaning up snapshots

A publish builds a generation in the staging directory, validates it, installs it under its name and
then replaces the head of its view. A cleanup removes what is staged and every generation that no
head refers to. Both hold the refresh lock of the store, so they do not interleave; each of their
file operations may fail, or be the last one before the process stops.

Some reads are taken for an answer when they fail: whether a generation is already there and valid,
what the heads of the other views say, and which heads there are. These are the lookups.
-/
open Checked Framing Ordered Sorting Faults

namespace Rsolve

/-- `SnapshotStoreError`. -/
inductive SnapshotStoreError
  | io (cause : String)
  | invalid (cause : String)
deriving DecidableEq, Repr

/-- `SnapshotPublishError`. -/
inductive SnapshotPublishError
  | build (cause : SnapshotError)
  | store (cause : SnapshotStoreError)
  | reopen (cause : CandidateLoadError)
deriving DecidableEq, Repr

/-- `fmt::Display` for `CandidateLoadError`. -/
def CandidateLoadError.text (cause : CandidateLoadError) : String :=
  (match cause.category with
    | .notFound => "NotFound"
    | .snapshotInvalid => "SnapshotInvalid"
    | .transportFailure => "TransportFailure"
    | .metadataInvalid => "MetadataInvalid"
    | .authenticationFailed => "AuthenticationFailed"
    | .cancelled => "Cancelled") ++ ": " ++ cause.diagnostic

/-- What a process takes from its environment: its id, the clock at each place where it is read, and
the counters of its temporary names. A clock before the epoch has no reading. -/
structure ProcessEnvironment where
  pid : Nat
  stagingTime : Option Nat
  generationTime : Option Nat
  viewTime : Option Nat
  stagingCounter : Nat
  generationCounter : Nat

/-- The text of an I/O error. -/
def ioFailure : String := "Input/output error (os error 5)"

/-- The text of a clock before the epoch. -/
def clockFailure : String := "second time provided was later than self"

/-- A program of a store. -/
abbrev StoreProgram (ε α : Type) : Type := Faulty StoreFiles ε α

/-- A file operation that changes nothing. -/
def touch {ε : Type} (broken : ε) : StoreProgram ε Unit :=
  Faulty.operate broken fun files => .ok ((), files)

section Publish

variable (store : SnapshotStore)

/-- `unique_staging_path`, after some attempts. -/
def uniqueStagingPath (process : ProcessEnvironment) (time : Nat) :
    Nat → Nat → StoreProgram SnapshotStoreError String
  | _, 0 => Faulty.check (.error (.invalid "unable to allocate a unique snapshot staging path"))
  | sequence, attempts + 1 => do
    let path := ".rsolve-staged-" ++ toString process.pid ++ "-" ++ toString time ++ "-" ++
      toString sequence ++ ".redb"
    let taken ← Faulty.ask false fun files => (files.staged.get? path).isSome
    if taken then uniqueStagingPath process time (sequence + 1) attempts else return path

/-- `create_temporary_generation`, after some attempts. -/
def createTemporaryGeneration (process : ProcessEnvironment) (time : Nat) :
    Nat → Nat → StoreProgram SnapshotError String
  | _, 0 => Faulty.check (.error (.invalid "unable to allocate a unique temporary generation"))
  | sequence, attempts + 1 => do
    let path := ".rsolve-generation-" ++ toString process.pid ++ "-" ++ toString time ++ "-" ++
      toString sequence ++ ".tmp"
    let created ← Faulty.operate (.io ioFailure) fun files =>
      if (files.staged.get? path).isSome then .ok (false, files)
      else .ok (true, { files with staged := files.staged.insert path none })
    if created then return path
    else createTemporaryGeneration process time (sequence + 1) attempts

/-- `write_generation_unvalidated`. -/
def writeGenerationUnvalidated (path : String) (header : List UInt8)
    (histories : OrderedMap String (List UInt8)) : StoreProgram SnapshotError Unit := do
  -- The file holds nothing to read until the tables are committed.
  touch (.database ioFailure)
  Faulty.operate (.database ioFailure) fun files =>
    .ok ((), { files with staged := files.staged.insert path (some ⟨some header, histories⟩) })
  touch (.database ioFailure)
  touch (.io ioFailure)

/-- `fs::rename` from one staged file to another. -/
def renameStaged (source destination : String) (files : StoreFiles) :
    Except SnapshotError (Unit × StoreFiles) :=
  match files.staged.get? source with
  | none => .error (.io "No such file or directory (os error 2)")
  | some file => .ok ((), { files with
      staged := (files.staged.erase source).insert destination file })

/-- `PreparedGeneration`. -/
structure PreparedGeneration where
  path : String
  generation : String
  header : SnapshotHeaderV1
  headerBytes : List UInt8

/-- `SnapshotGenerationBuilder::prepare_staged`. -/
def prepareStaged (input : SnapshotBuildInput) (process : ProcessEnvironment)
    (destination : String) : StoreProgram SnapshotError PreparedGeneration := do
  let (header, headerBytes, histories) ← Faulty.check (prepared store.basis input)
  touch (.io ioFailure)
  let time ← Faulty.check (match process.generationTime with
    | some time => .ok time
    | none => .error (.invalid "system clock is before UNIX epoch"))
  let path ← createTemporaryGeneration process time process.generationCounter 128
  Faulty.ensuring
    (do
      writeGenerationUnvalidated path headerBytes histories
      Faulty.operate (.io ioFailure) fun files =>
        if (files.staged.get? destination).isSome then
          .error (.invalid "generation destination already exists")
        else .ok ((), { files with staged := files.staged.insert destination none })
      let replaced ← Faulty.trial (.io ioFailure) (renameStaged path destination)
      match replaced with
      | .error cause =>
        Faulty.endeavor fun files => { files with staged := files.staged.erase destination }
        Faulty.check (.error cause)
      | .ok () =>
        touch (.io ioFailure)
        touch (.io ioFailure)
        return ⟨destination, header.generation, header, headerBytes⟩)
    (Faulty.endeavor fun files => { files with staged := files.staged.erase path })

/-- `is_regular_file` of a staged path. -/
def isRegularStaged {ε : Type} (path : String) : StoreProgram ε Bool :=
  Faulty.ask false fun files => (files.staged.get? path).isSome

/-- `validate_staged_generation`. -/
def validateStagedGeneration (path generation : String) (headerBytes : List UInt8)
    (label : String) : StoreProgram SnapshotStoreError SnapshotHeaderV1 := do
  let regular ← isRegularStaged path
  Faulty.check (ensure (regular = true) (.invalid (label ++ " is not a store-owned staged file")))
  let header ← Faulty.check ((decodeHeader store.basis headerBytes).mapError fun cause =>
    SnapshotStoreError.invalid cause.text)
  Faulty.check (ensure (header.registryId = store.registryId.text ∧ header.generation = generation)
    (.invalid (label ++ " does not match store")))
  let source ← Faulty.operate (.invalid ioFailure) fun files =>
    ((validateGeneration store.basis ((files.staged.get? path).getD none) store.registryId).mapError
      fun cause => SnapshotStoreError.invalid cause.text).map fun header => (header, files)
  Faulty.check (ensure (source = header) (.invalid (label ++ " changed")))
  return header

/-- `same_semantic_generation`. -/
def sameSemanticGeneration (existing expected : SnapshotHeaderV1) : Bool :=
  existing.format == expected.format && existing.version == expected.version &&
    existing.historyEncoding == expected.historyEncoding &&
    existing.normalizationPolicy == expected.normalizationPolicy &&
    existing.compatibilityProfile == expected.compatibilityProfile &&
    existing.parserSchema == expected.parserSchema && existing.registryId == expected.registryId &&
    existing.generation == expected.generation && existing.coverage == expected.coverage &&
    existing.sources.map SourceObservationV1.id == expected.sources.map SourceObservationV1.id &&
    existing.packageCount == expected.packageCount &&
    existing.observationCount == expected.observationCount &&
    existing.eligibleReleaseCount == expected.eligibleReleaseCount &&
    existing.incompletePackageCount == expected.incompletePackageCount &&
    existing.historyManifestSha256 == expected.historyManifestSha256

/-- `replace_file` of a generation by a staged file. -/
def installStaged (path generation : String) (files : StoreFiles) :
    Except SnapshotStoreError (Unit × StoreFiles) :=
  match files.staged.get? path with
  | none => .error (.io "No such file or directory (os error 2)")
  | some file => .ok ((), { files with
      staged := files.staged.erase path
      generations := files.generations.insert generation file })

/-- The header of a generation as a publish looks it up. -/
def existingHeader (generation : String) (files : StoreFiles) : Option SnapshotHeaderV1 :=
  ((readGenerationHeader ((files.generations.get? generation).getD none)).bind
    (decodeHeader store.basis)).toOption

/-- A generation is valid as a publish looks it up. -/
def isValidGeneration (generation : String) (files : StoreFiles) : Bool :=
  (validateGeneration store.basis ((files.generations.get? generation).getD none)
    store.registryId).isOk

/-- Put the staged file in the place of the generation. -/
def replaceGeneration (path generation : String) (headerBytes : List UInt8) :
    StoreProgram SnapshotStoreError (List UInt8 × Bool) := do
  Faulty.operate (.io ioFailure) (installStaged path generation)
  touch (.io ioFailure)
  return (headerBytes, false)

/-- Keep a generation that is there and valid, and otherwise put the staged file in its place. The
text of the header that is there then, and whether it was there before. -/
def settleGeneration (path : String) (header : SnapshotHeaderV1) (headerBytes : List UInt8) :
    StoreProgram SnapshotStoreError (List UInt8 × Bool) := do
  let present ← Faulty.operate (.io ioFailure) fun files =>
    .ok ((files.generations.get? header.generation).isSome, files)
  if present then
    match ← Faulty.look none (existingHeader store header.generation) with
    | some existing =>
      Faulty.check (ensure (sameSemanticGeneration existing header = true)
        (.invalid "generation filename collision"))
      let valid ← Faulty.look false (isValidGeneration store header.generation)
      if valid then
        let bytes ← Faulty.check ((encodeHeader store.basis existing).mapError fun cause =>
          SnapshotStoreError.invalid cause.text)
        return (bytes, true)
      else replaceGeneration path header.generation headerBytes
    | none => replaceGeneration path header.generation headerBytes
  else replaceGeneration path header.generation headerBytes

/-- The view under a key as a publish and a cleanup look it up. -/
def lookView {ε : Type} (viewKey : String) :
    StoreProgram ε (Except CandidateLoadError (Option View)) :=
  Faulty.look (.error (storeCandidateError ("unable to read snapshot view: " ++ ioFailure)))
    fun files => readViewOptionalLocked store files viewKey

/-- `read_latest_view_validation_locked` — the sequence number of the latest view. -/
def readLatestSequence (order : Enumeration) : StoreProgram SnapshotStoreError (Option Nat) := do
  let keys ← Faulty.operate
    (.invalid (storeCandidateError ("unable to read snapshot views: " ++ ioFailure)).text)
    fun files => .ok (order.list files.views.keys, files)
  let outcomes ← keys.mapM fun viewKey => do
    touch (.invalid (storeCandidateError ("unable to enumerate snapshot views: " ++ ioFailure)).text)
    lookView store viewKey
  let latest ← Faulty.check ((latestOf "all snapshot view heads are invalid" outcomes).mapError
    fun cause => SnapshotStoreError.invalid cause.text)
  return latest.map fun view => view.1.validation.refreshSequence

/-- `next_refresh_sequence`, of 64 bits. -/
def nextRefreshSequence (previous : Option Nat) : Except SnapshotStoreError Nat :=
  match previous with
  | none => .ok 1
  | some sequence =>
    if sequence + 1 < lengthBound then .ok (sequence + 1)
    else .error (.invalid "view validation refresh sequence overflow")

/-- The head of a view. -/
def viewHead (header : SnapshotHeaderV1) (finalHeader : List UInt8) (endpoint : String)
    (sequence : Nat) : ViewHeadV1 where
  format := "rsolve-metadata-view"
  version := 1
  registryId := store.registryId.text
  viewKey := viewKeyForParts store header.coverage.state header.coverage.scope
    header.coverage.freshness endpoint
  coverage := ⟨header.coverage.state, header.coverage.scope, header.coverage.freshness⟩
  generation := header.generation
  headerSha256 := store.basis.hexDigest finalHeader
  validation :=
    { compatibilityProfile := header.compatibilityProfile
      parserSchema := header.parserSchema
      normalizationPolicy := header.normalizationPolicy
      validatedAt := header.createdAt
      refreshSequence := sequence
      effectiveEndpoint := endpoint
      sources := header.sources.map fun source =>
        ⟨source.id, source.contentSha256, source.endpoint⟩ }

/-- `replace_file` of a head by a draft. The head is committed here. -/
def commitHead (nonce : Nat) (head : ViewHeadV1) (files : StoreFiles) :
    Except SnapshotStoreError (Unit × StoreFiles) :=
  match files.drafts.get? nonce with
  | none => .error (.io "No such file or directory (os error 2)")
  | some content => .ok ((), { files with
      drafts := files.drafts.erase nonce
      views := files.views.insert head.viewKey content
      committed := head :: files.committed })

/-- `publish_view_head`. -/
def publishViewHead (process : ProcessEnvironment) (head : ViewHeadV1) :
    StoreProgram SnapshotStoreError Unit := do
  let bytes ← Faulty.check ((store.headJson.toVec head).mapError .invalid)
  Faulty.check (ensure (bytes.length ≤ viewHeadLimit)
    (.invalid "snapshot view head exceeds byte limit"))
  touch (.io ioFailure)
  let nonce ← Faulty.check (match process.viewTime with
    | some time => .ok time
    | none => .error (.invalid clockFailure))
  Faulty.ensuring
    (do
      Faulty.operate (.io ioFailure) fun files =>
        if (files.drafts.get? nonce).isSome then .error (.io "File exists (os error 17)")
        else .ok ((), { files with drafts := files.drafts.insert nonce [] })
      Faulty.operate (.io ioFailure) fun files =>
        .ok ((), { files with drafts := files.drafts.insert nonce bytes })
      touch (.io ioFailure)
      touch (.io ioFailure)
      Faulty.operate (.io ioFailure) (commitHead nonce head)
      touch (.io ioFailure))
    (Faulty.endeavor fun files => { files with drafts := files.drafts.erase nonce })

/-- `publish_staged_generation`, up to the head. -/
def settleStagedGeneration (path : String) (header : SnapshotHeaderV1) (headerBytes : List UInt8)
    (endpoint : Option String) (order : Enumeration) :
    StoreProgram SnapshotStoreError ViewHeadV1 := do
  let regular ← isRegularStaged path
  Faulty.check (ensure (regular = true) (.invalid "generation is not a store-owned staged file"))
  touch (.io ioFailure)
  let (finalHeader, reused) ← settleGeneration store path header headerBytes
  if reused then
    Faulty.operate (.io ioFailure) fun files =>
      .ok ((), { files with staged := files.staged.erase path })
  else pure ()
  touch (.io ioFailure)
  let endpoint ← Faulty.check (match endpoint.orElse fun _ =>
      (sortDedup (header.sources.map SourceObservationV1.endpoint)).head? with
    | some endpoint => .ok endpoint
    | none => .error (.invalid "snapshot view endpoint must not be empty"))
  let previous ← readLatestSequence store order
  let sequence ← Faulty.check (nextRefreshSequence previous)
  return viewHead store header finalHeader endpoint sequence

/-- `publish_prepared_generation`. -/
def publishPreparedGeneration (generation : PreparedGeneration) (endpoint : Option String)
    (process : ProcessEnvironment) (order : Enumeration) :
    StoreProgram SnapshotStoreError Unit := do
  let header ← validateStagedGeneration store generation.path generation.generation
    generation.headerBytes "prepared generation"
  Faulty.check (ensure (header = generation.header)
    (.invalid "prepared generation metadata changed"))
  let head ← settleStagedGeneration store generation.path header generation.headerBytes endpoint
    order
  publishViewHead store process head

/-- `build_and_publish_inner`, with or without an endpoint. -/
def buildAndPublish (input : SnapshotBuildInput) (endpoint : Option String)
    (process : ProcessEnvironment) (order : Enumeration) :
    StoreProgram SnapshotPublishError GenerationLoader := do
  -- The lock file is opened and locked.
  touch (.store (.io ioFailure))
  let staging ← Faulty.mapErrors
    (do
      let time ← Faulty.check (match process.stagingTime with
        | some time => .ok time
        | none => .error (.invalid clockFailure))
      uniqueStagingPath process time process.stagingCounter 128) .store
  Faulty.ensuring
    (do
      let generation ← (prepareStaged store input process staging).mapErrors .build
      (publishPreparedGeneration store generation
        (some (endpoint.getD (effectiveEndpoint input))) process order).mapErrors .store
      Faulty.operate (.reopen (storeCandidateError ioFailure)) fun files =>
        ((openGenerationLocked store files generation.generation).mapError
          SnapshotPublishError.reopen).map fun loader => (loader, files))
    (Faulty.endeavor fun files => { files with staged := files.staged.erase staging })

end Publish

section Cleanup

variable (store : SnapshotStore)

/-- The orders in which a cleanup enumerates the directories. -/
structure CleanupOrders where
  views : Enumeration
  staged : Enumeration
  generations : Enumeration

/-- The generation that the head under a key refers to, as a cleanup looks it up. -/
def lookGeneration (viewKey : String) : StoreProgram SnapshotStoreError (Option String) := do
  let listed ← Faulty.look false fun _ => true
  if listed then
    match ← lookView store viewKey with
    | .ok (some (head, _)) => return some head.generation
    | .ok none => return none
    | .error _ => return none
  else return none

/-- `remove_regular_file` of a staged file. -/
def removeStaged (path : String) : StoreProgram SnapshotStoreError Unit := do
  touch (.io ioFailure)
  let regular ← isRegularStaged path
  if regular then
    Faulty.endeavor fun files => { files with staged := files.staged.erase path }
  else return ()

/-- `is_regular_file` of a generation. -/
def isRegularGeneration {ε : Type} (generation : String) : StoreProgram ε Bool :=
  Faulty.ask false fun files => (files.generations.get? generation).isSome

/-- `remove_regular_file` of a generation, unless it is retained. -/
def removeGeneration (retained : List String) (generation : String) :
    StoreProgram SnapshotStoreError Unit := do
  touch (.io ioFailure)
  if generation ∈ retained ∨ (parseHex32 generation).isOk = false then return ()
  else
    let regular ← isRegularGeneration generation
    -- The removal asks once more.
    let still ← if regular then isRegularGeneration generation else pure false
    if still then
      Faulty.endeavor fun files => { files with generations := files.generations.erase generation }
    else return ()

/-- `cleanup`, from taking the lock on. -/
def cleanup (retain : List String) (orders : CleanupOrders) :
    StoreProgram SnapshotStoreError Unit := do
  touch (.io ioFailure)
  let keys ← Faulty.look [] fun files => orders.views.list files.views.keys
  let referenced ← keys.mapM (lookGeneration store)
  let retained := retain ++ referenced.filterMap id
  let staged ← Faulty.operate (.io ioFailure) fun files =>
    .ok (orders.staged.list files.staged.keys, files)
  staged.forM removeStaged
  let generations ← Faulty.operate (.io ioFailure) fun files =>
    .ok (orders.generations.list files.generations.keys, files)
  generations.forM (removeGeneration retained)

end Cleanup

/-- A call on a store. -/
inductive StoreCall
  /-- `build_and_publish` without an endpoint, `build_and_publish_with_endpoint` with one. -/
  | publish (input : SnapshotBuildInput) (endpoint : Option String) (process : ProcessEnvironment)
      (order : Enumeration)
  /-- `cleanup`. -/
  | cleanup (retain : List String) (orders : CleanupOrders)

/-- The files after a call, whether it returned, failed or stopped. -/
def StoreCall.after (store : SnapshotStore) (files : StoreFiles) : StoreCall × Fates → StoreFiles
  | (.publish input endpoint process order, fates) =>
    (buildAndPublish store input endpoint process order files fates).2.1
  | (.cleanup retain orders, fates) => (Rsolve.cleanup store retain orders files fates).2.1

/-- The files after some calls on a store that was just opened. -/
def runCalls (store : SnapshotStore) (calls : List (StoreCall × Fates)) : StoreFiles :=
  calls.foldl (StoreCall.after store) .empty

end Rsolve
