import Rsolve.Snapshot.Store

/-!
# Validation records and their revisions

The head of a view carries the record of its last validation. A revision is a digest of that record:
a reader without the lock observes the revision of the latest head, and a later reader with the lock
compares it with the one that it finds.
-/
open Checked Framing

namespace Rsolve

/-- `ViewValidationV1`. -/
structure ViewValidationV1 where
  format : String
  version : UInt32
  registryId : String
  generation : String
  compatibilityProfile : UInt32
  parserSchema : UInt32
  normalizationPolicy : UInt32
  validatedAt : String
  /-- A 64-bit number. -/
  refreshSequence : Nat
  effectiveEndpoint : String
  sources : List ViewValidationSourceV1
deriving DecidableEq, Repr

/-- `validation_record`. -/
def validationRecord (head : ViewHeadV1) : ViewValidationV1 where
  format := "rsolve-metadata-view-validation"
  version := 1
  registryId := head.registryId
  generation := head.generation
  compatibilityProfile := head.validation.compatibilityProfile
  parserSchema := head.validation.parserSchema
  normalizationPolicy := head.validation.normalizationPolicy
  validatedAt := head.validation.validatedAt
  refreshSequence := head.validation.refreshSequence
  effectiveEndpoint := head.validation.effectiveEndpoint
  sources := head.validation.sources

/-- A library that writes validation records, which it always can. -/
abbrev RecordBytes : Type := ViewValidationV1 → List UInt8

variable (store : SnapshotStore) (recordBytes : RecordBytes)

/-- `view_validation_revision_token`. -/
def viewValidationRevisionToken (record : ViewValidationV1) : String :=
  store.basis.hexDigest (textBytes "rsolve-metadata-view-validation-revision-v1" ++
    lengthPrefixed (recordBytes record))

/-- A head is after another one: by its sequence number, then by its key. -/
def ViewHeadV1.IsAfter (head current : ViewHeadV1) : Prop :=
  current.validation.refreshSequence < head.validation.refreshSequence ∨
    current.validation.refreshSequence = head.validation.refreshSequence ∧
      compare current.viewKey head.viewKey = .lt

instance (head current : ViewHeadV1) : Decidable (head.IsAfter current) :=
  inferInstanceAs (Decidable (_ ∨ _))

/-- The step of `read_view_validation_revision_unlocked` for one key and the bytes that were read
there, if they could be: the latest head so far, and whether something was malformed. -/
def observeHead (endpoint : Option String) (state : Option ViewHeadV1 × Bool)
    (seen : String × Option (List UInt8)) : Except SnapshotStoreError (Option ViewHeadV1 × Bool) :=
  -- With an endpoint, what cannot be read is skipped.
  let malformed (cause : SnapshotStoreError) : Except SnapshotStoreError (Option ViewHeadV1 × Bool) :=
    if endpoint.isSome then .ok (state.1, true) else .error cause
  match seen.2 with
  | none => malformed (.io ioFailure)
  | some content =>
    match decodeViewHead store (content.take (viewHeadLimit + 1)) with
    | .error cause => malformed (.invalid cause.text)
    | .ok head =>
      if head.viewKey ≠ seen.1 then
        malformed (.invalid "snapshot view filename does not match its key")
      else if endpoint.any fun expected =>
          !viewEndpointMatches head.validation.effectiveEndpoint expected then .ok state
      else if state.1.all fun current => head.IsAfter current then .ok (some head, state.2)
      else .ok state

/-- The latest head that `read_view_validation_revision_unlocked` sees. -/
def observeLatest (endpoint : Option String) (seen : List (String × Option (List UInt8))) :
    Except SnapshotStoreError (Option ViewHeadV1) := do
  let (latest, malformed) ← seen.foldlM (observeHead store endpoint) (none, false)
  ensure (¬ (latest = none ∧ malformed = true ∧ endpoint = none))
    (.invalid "snapshot view validation observation is malformed")
  return latest

/-- `read_view_validation_revision_unlocked`. -/
def readViewValidationRevisionUnlocked (endpoint : Option String)
    (seen : List (String × Option (List UInt8))) : Except SnapshotStoreError (Option String) :=
  (observeLatest store endpoint seen).map
    (Option.map fun head => viewValidationRevisionToken store recordBytes (validationRecord head))

end Rsolve
