import Rsolve.Core.Resolution
import Rsolve.Snapshot.Generation

/-!
# View heads and what a store reads

A store keeps generations by their names and view heads by their keys. A head names a generation,
pins the text of its header by a digest and carries a sequence number; the latest view is the one
with the highest number. Reading a view checks the head against its key and against the generation.
-/
open Checked Framing Ordered Sorting

namespace Rsolve

/-- `VIEW_HEAD_LIMIT` — the bytes a view head may take. -/
def viewHeadLimit : Nat := 1024 * 1024

/-- `ViewCoverageV1`. -/
structure ViewCoverageV1 where
  state : String
  scope : String
  freshness : String
deriving DecidableEq, Repr

/-- `ViewValidationSourceV1`. -/
structure ViewValidationSourceV1 where
  id : String
  contentSha256 : String
  endpoint : String
deriving DecidableEq, Repr

/-- `ViewValidationFieldsV1`. -/
structure ViewValidationFieldsV1 where
  compatibilityProfile : UInt32
  parserSchema : UInt32
  normalizationPolicy : UInt32
  validatedAt : String
  /-- A 64-bit number. -/
  refreshSequence : Nat
  effectiveEndpoint : String
  sources : List ViewValidationSourceV1
deriving DecidableEq, Repr

/-- `ViewHeadV1`. -/
structure ViewHeadV1 where
  format : String
  version : UInt32
  registryId : String
  viewKey : String
  coverage : ViewCoverageV1
  generation : String
  headerSha256 : String
  validation : ViewValidationFieldsV1
deriving DecidableEq, Repr

/-- `store_candidate_error`. -/
def storeCandidateError (text : String) : CandidateLoadError := ⟨.snapshotInvalid, text⟩

/-- `SnapshotStore` — the registry of a store and what its snapshots rest on. -/
structure SnapshotStore where
  basis : SnapshotBasis
  /-- The library for view heads. -/
  headJson : JsonFormat ViewHeadV1
  registryId : RegistryId

/-- The files of a store. -/
structure StoreFiles where
  /-- `tmp/`, by file name. -/
  staged : OrderedMap String GenerationFile
  /-- `generations/{name}.redb`, by name. -/
  generations : OrderedMap String GenerationFile
  /-- `views/.rsolve-view-{nonce}.tmp`, by nonce. -/
  drafts : OrderedMap Nat (List UInt8)
  /-- `views/{key}.json`, by key. -/
  views : OrderedMap String (List UInt8)
  /-- The heads committed so far, the last one first. No function reads them. -/
  committed : List ViewHeadV1

/-- The files of a store that was just opened. -/
def StoreFiles.empty : StoreFiles := ⟨.empty, .empty, .empty, .empty, []⟩

/-- `fs::read_dir` — the entries of a directory in some order. -/
structure Enumeration where
  /-- The entries as they are enumerated. -/
  list : List String → List String
  /-- Every entry is enumerated once. -/
  perm : ∀ names, (list names).Perm names

variable (store : SnapshotStore)

/-- `view_key_for_parts`. -/
def viewKeyForParts (state scope freshness endpoint : String) : String :=
  store.basis.hexDigest (appendParts [textBytes "rsolve.metadata-view-key\x00v1",
    textBytes store.registryId.text, textBytes state, textBytes scope, textBytes freshness,
    textBytes endpoint])

/-- The conditions that `decode_view_head` puts on a head. -/
structure ViewHeadV1.Canonical (head : ViewHeadV1) : Prop where
  format : head.format = "rsolve-metadata-view"
  version : head.version = 1
  registry : head.registryId = store.registryId.text
  viewKey : isHex32 head.viewKey = true
  generation : isHex32 head.generation = true
  headerSha256 : isHex32 head.headerSha256 = true
  state : head.coverage.state ≠ ""
  scope : head.coverage.scope ≠ ""
  freshness : head.coverage.freshness ≠ ""
  compatibilityProfile : head.validation.compatibilityProfile ≠ 0
  parserSchema : head.validation.parserSchema ≠ 0
  normalizationPolicy : head.validation.normalizationPolicy ≠ 0
  refreshSequence : head.validation.refreshSequence ≠ 0
  validatedAt : isRfc3339Seconds store.basis head.validation.validatedAt = true
  effectiveEndpoint : head.validation.effectiveEndpoint ≠ ""
  sources : head.validation.sources ≠ []
  increasing : Increasing (head.validation.sources.map ViewValidationSourceV1.id)

/-- The conditions are checked one by one. -/
theorem ViewHeadV1.canonical_iff {head : ViewHeadV1} :
    head.Canonical store ↔ head.format = "rsolve-metadata-view" ∧ head.version = 1 ∧
      head.registryId = store.registryId.text ∧ isHex32 head.viewKey = true ∧
      isHex32 head.generation = true ∧ isHex32 head.headerSha256 = true ∧
      head.coverage.state ≠ "" ∧ head.coverage.scope ≠ "" ∧ head.coverage.freshness ≠ "" ∧
      head.validation.compatibilityProfile ≠ 0 ∧ head.validation.parserSchema ≠ 0 ∧
      head.validation.normalizationPolicy ≠ 0 ∧ head.validation.refreshSequence ≠ 0 ∧
      isRfc3339Seconds store.basis head.validation.validatedAt = true ∧
      head.validation.effectiveEndpoint ≠ "" ∧ head.validation.sources ≠ [] ∧
      Increasing (head.validation.sources.map ViewValidationSourceV1.id) := by
  constructor
  · rintro ⟨⟩
    refine ⟨?_, ?_, ?_, ?_, ?_, ?_, ?_, ?_, ?_, ?_, ?_, ?_, ?_, ?_, ?_, ?_, ?_⟩ <;> assumption
  · rintro ⟨_, _, _, _, _, _, _, _, _, _, _, _, _, _, _, _, _⟩
    constructor <;> assumption

instance (head : ViewHeadV1) : Decidable (head.Canonical store) :=
  decidable_of_iff' _ (ViewHeadV1.canonical_iff store)

/-- A source of a view names its content and its endpoint. -/
def ViewValidationSourceV1.Identified (source : ViewValidationSourceV1) : Prop :=
  isHex32 source.id = true ∧ isHex32 source.contentSha256 = true ∧ source.endpoint ≠ ""

instance (source : ViewValidationSourceV1) : Decidable source.Identified :=
  inferInstanceAs (Decidable (_ ∧ _ ∧ _))

/-- `decode_view_head`. -/
def decodeViewHead (bytes : List UInt8) : Except CandidateLoadError ViewHeadV1 := do
  ensure (bytes.length ≤ viewHeadLimit) (storeCandidateError "snapshot view head exceeds byte limit")
  let head ← (store.headJson.fromSlice bytes).mapError fun cause =>
    storeCandidateError ("invalid snapshot view head: " ++ cause)
  let canonical ← (store.headJson.toVec head).mapError fun cause =>
    storeCandidateError ("unable to encode snapshot view head: " ++ cause)
  ensure (canonical = bytes) (storeCandidateError "snapshot view head is not canonical JSON")
  let _ ← (Identifier.new .registryId head.registryId).mapError (storeCandidateError ·.message)
  ensure (head.Canonical store) (storeCandidateError "snapshot view head is not canonical")
  ensure (∀ source ∈ head.validation.sources, source.Identified)
    (storeCandidateError "snapshot view source identity is invalid")
  return head

/-- `open_generation_locked`. -/
def openGenerationLocked (files : StoreFiles) (generation : String) :
    Except CandidateLoadError GenerationLoader := do
  match files.generations.get? generation with
  | none => .error (storeCandidateError "I/O error: No such file or directory (os error 2)")
  | some file =>
    let loader ← (GenerationLoader.open' store.basis file store.registryId).mapError
      (storeCandidateError ·.text)
    ensure (loader.header.registryId = store.registryId.text ∧ loader.header.generation = generation)
      (storeCandidateError "generation identity does not match the requested store generation")
    return loader

/-- A head agrees with the header of its generation. -/
def ViewHeadV1.Agrees (head : ViewHeadV1) (header : SnapshotHeaderV1) (bytes : List UInt8) : Prop :=
  store.basis.hexDigest bytes = head.headerSha256 ∧
    header.coverage.state = head.coverage.state ∧ header.coverage.scope = head.coverage.scope ∧
    header.coverage.freshness = head.coverage.freshness ∧
    header.compatibilityProfile = head.validation.compatibilityProfile ∧
    header.parserSchema = head.validation.parserSchema ∧
    header.normalizationPolicy = head.validation.normalizationPolicy

instance (head : ViewHeadV1) (header : SnapshotHeaderV1) (bytes : List UInt8) :
    Decidable (head.Agrees store header bytes) :=
  inferInstanceAs (Decidable (_ ∧ _ ∧ _ ∧ _ ∧ _ ∧ _ ∧ _))

/-- A head that was read, with the open generation. -/
abbrev View := ViewHeadV1 × GenerationLoader

/-- `read_view_optional_locked`. -/
def readViewOptionalLocked (files : StoreFiles) (viewKey : String) :
    Except CandidateLoadError (Option View) := do
  ensure (isHex32 viewKey = true) (storeCandidateError "snapshot view key is invalid")
  match files.views.get? viewKey with
  | none => return none
  | some content =>
    -- `read_at_most` keeps one byte more than a head may have.
    let head ← decodeViewHead store (content.take (viewHeadLimit + 1))
    ensure (head.viewKey = viewKey)
      (storeCandidateError "snapshot view filename does not match its key")
    ensure (viewKeyForParts store head.coverage.state head.coverage.scope head.coverage.freshness
        head.validation.effectiveEndpoint = head.viewKey)
      (storeCandidateError "snapshot view key does not match its contents")
    let loader ← openGenerationLocked store files head.generation
    let bytes ← (encodeHeader store.basis loader.header).mapError fun cause =>
      storeCandidateError ("unable to encode generation header: " ++ cause.text)
    ensure (head.Agrees store loader.header bytes)
      (storeCandidateError "snapshot view validation does not match generation")
    return some (head, loader)

/-- The views that were read, without those that could not be. -/
def readViews (outcomes : List (Except CandidateLoadError (Option View))) : List View :=
  outcomes.filterMap fun
    | .ok view => view
    | .error _ => none

/-- Views by their sequence numbers, then by their keys. -/
def compareViews : View → View → Ordering :=
  compareLex (compareOn fun view => view.1.validation.refreshSequence)
    (compareOn fun view => view.1.viewKey)

instance : Std.TransCmp compareViews := inferInstanceAs (Std.TransCmp (compareLex _ _))

/-- The last of the views that were read; where none was, a view that could not be read is an
error. -/
def latestOf (failure : String) (outcomes : List (Except CandidateLoadError (Option View))) :
    Except CandidateLoadError (Option View) :=
  if readViews outcomes = [] ∧ outcomes.any (fun outcome => !outcome.isOk) then
    .error (storeCandidateError failure)
  else .ok (sortBy compareViews (readViews outcomes)).getLast?

/-- `read_latest_view_head_optional_locked`. -/
def readLatestViewHead (order : Enumeration) (files : StoreFiles) :
    Except CandidateLoadError (Option View) :=
  latestOf "all snapshot view heads are invalid"
    ((order.list files.views.keys).map (readViewOptionalLocked store files))

/-- `read_latest_view_optional`. -/
def readLatestViewOptional (order : Enumeration) (files : StoreFiles) :
    Except CandidateLoadError (Option GenerationLoader) :=
  (readLatestViewHead store order files).map (Option.map Prod.snd)

/-- `read_latest_view`. -/
def readLatestView (order : Enumeration) (files : StoreFiles) :
    Except CandidateLoadError GenerationLoader := do
  match ← readLatestViewOptional store order files with
  | some loader => return loader
  | none => .error (storeCandidateError "snapshot view head is missing")

/-- `view_endpoint_matches`. -/
def viewEndpointMatches (effective expected : String) : Bool :=
  (effective.toList.splitOn '\n').any fun observed =>
    observed == expected.toList || (expected.toList ++ ['/']).isPrefixOf observed

/-- `read_view_for_endpoint_locked`. -/
def readViewForEndpoint (order : Enumeration) (files : StoreFiles) (endpoint : String) :
    Except CandidateLoadError (Option View) :=
  latestOf "all snapshot views for the requested endpoint are invalid"
    (((order.list files.views.keys).map (readViewOptionalLocked store files)).map
      (Except.map (Option.filter fun view =>
        viewEndpointMatches view.1.validation.effectiveEndpoint endpoint)))

end Rsolve
