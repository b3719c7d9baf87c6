import Rsolve.Core.Coordinates
import Rsolve.Lib.Framing
import Rsolve.Lib.Panics
import Rsolve.Snapshot.Wire

/-!
# Reading and writing package histories

A history is stored in an envelope: a fixed mark, the length and the digest of the payload, and the
payload. The payload is written by a library, which enters as a parameter. Reading takes back
exactly the bytes that writing produces: a payload that is not the one the library writes for the
history it holds is refused.
-/
open Checked Framing Panics

namespace Rsolve

/-- `validate_string`. -/
def validateString (value : String) (required : Bool) (label : String) :
    Except SnapshotError Unit :=
  ensure (¬ ((required ∧ value = "") ∨ stringLimit < byteLength value))
    (.invalid (label ++ " is empty or too long"))

/-- The limits of a list of metadata fields. -/
def validateFields (fields : List FieldV1) (nameLabel valueLabel : String) :
    Except SnapshotError Unit :=
  fields.forM fun field => do
    validateString field.name false nameLabel
    validateString field.value false valueLabel

/-- The limits of a list of checksums. -/
def validateChecksumLimits (checksums : List ChecksumV1) (algorithmLabel valueLabel : String) :
    Except SnapshotError Unit :=
  checksums.forM fun checksum => do
    validateString checksum.algorithm true algorithmLabel
    validateString checksum.value true valueLabel

/-- The limits of one observation. -/
def RawObservationV1.validateLimits (observation : RawObservationV1) :
    Except SnapshotError Unit := do
  ensure (observation.fields.length ≤ memberLimit) (.invalid "observation has too many fields")
  validateFields observation.fields "observation field name" "observation field value"
  match observation.artifact with
  | none => return ()
  | some artifact =>
    ensure (byteLength artifact.locator ≤ stringLimit ∧ artifact.checksums.length ≤ memberLimit)
      (.invalid "observation artifact exceeds limits")
    validateString artifact.locator true "observation artifact locator"
    validateChecksumLimits artifact.checksums "observation checksum algorithm"
      "observation checksum value"

/-- The limits of one decision. -/
def DecisionV1.validateLimits (decision : DecisionV1) : Except SnapshotError Unit :=
  ensure (decision.observationIds.length ≤ memberLimit ∧ byteLength decision.detail ≤ stringLimit)
    (.invalid "decision exceeds its limits")

/-- The texts of a Git provenance are short. -/
def GitProvenanceV1.Short (provenance : GitProvenanceV1) : Prop :=
  byteLength provenance.repository ≤ stringLimit ∧ byteLength provenance.commit ≤ stringLimit ∧
    ∀ subdirectory, provenance.subdirectory = some subdirectory →
      byteLength subdirectory ≤ stringLimit

/-- The check looks at the texts that are there. -/
instance (provenance : GitProvenanceV1) : Decidable provenance.Short :=
  inferInstanceAs (Decidable (_ ∧ _ ∧ _))

/-- The limits of a Git provenance. -/
def GitProvenanceV1.validateLimits (provenance : GitProvenanceV1) : Except SnapshotError Unit := do
  validateString provenance.repository true "Git repository"
  validateString provenance.commit true "Git commit"
  match provenance.subdirectory with
  | none => return ()
  | some subdirectory => validateString subdirectory false "Git subdirectory"

/-- The limits of one dependency. -/
def DependencyV1.validateLimits (dependency : DependencyV1) : Except SnapshotError Unit := do
  ensure (byteLength dependency.package ≤ stringLimit ∧ dependency.clauses.length ≤ memberLimit)
    (.invalid "dependency exceeds its limits")
  validateString dependency.package true "dependency package"
  dependency.clauses.forM fun clause => do
    ensure (byteLength clause.version ≤ stringLimit)
      (.invalid "dependency clause exceeds its limits")
    validateString clause.version true "dependency clause version"

/-- The limits of one artifact of a distribution. -/
def ArtifactV1.validateLimits (artifact : ArtifactV1) : Except SnapshotError Unit := do
  ensure (byteLength artifact.locator ≤ stringLimit ∧
      artifact.upstreamChecksums.length ≤ memberLimit)
    (.invalid "distribution artifact exceeds its limits")
  validateString artifact.locator true "distribution artifact locator"
  validateChecksumLimits artifact.upstreamChecksums "distribution checksum algorithm"
    "distribution checksum value"

/-- The limits of one distribution. -/
def DistributionV1.validateLimits (distribution : DistributionV1) : Except SnapshotError Unit := do
  ensure (byteLength distribution.registry ≤ stringLimit ∧
      byteLength distribution.channel ≤ stringLimit ∧
      (∀ snapshot, distribution.snapshot = some snapshot → byteLength snapshot ≤ stringLimit) ∧
      distribution.artifacts.length ≤ memberLimit ∧ distribution.metadata.length ≤ memberLimit)
    (.invalid "distribution exceeds its limits")
  validateString distribution.registry true "distribution registry"
  validateString distribution.channel true "distribution channel"
  match distribution.snapshot with
  | none => pure ()
  | some snapshot => validateString snapshot true "distribution snapshot"
  validateFields distribution.metadata "distribution metadata name" "distribution metadata value"
  distribution.artifacts.forM ArtifactV1.validateLimits

/-- The limits of one release. -/
def EligibleReleaseV1.validateLimits (release : EligibleReleaseV1) : Except SnapshotError Unit := do
  ensure (byteLength release.package ≤ stringLimit ∧ byteLength release.version ≤ stringLimit ∧
      byteLength release.nspace ≤ stringLimit ∧
      (∀ provenance, release.gitProvenance = some provenance → provenance.Short) ∧
      release.metadata.length ≤ memberLimit ∧ release.dependencies.length ≤ memberLimit ∧
      release.distributions.length ≤ memberLimit ∧ release.evidence.length ≤ memberLimit)
    (.invalid "eligible release exceeds its limits")
  validateString release.package true "release package"
  validateString release.version true "release version"
  validateString release.nspace true "release namespace"
  match release.gitProvenance with
  | none => pure ()
  | some provenance => provenance.validateLimits
  validateFields release.metadata "release metadata name" "release metadata value"
  release.dependencies.forM DependencyV1.validateLimits
  release.distributions.forM DistributionV1.validateLimits
  release.evidence.forM fun evidence =>
    ensure (evidence.roles.length ≤ memberLimit) (.invalid "release evidence exceeds its limits")

/-- `validate_history_limits`. -/
def validateHistoryLimits (history : PackageHistoryV1) : Except SnapshotError Unit := do
  ensure (byteLength history.package ≤ stringLimit ∧
      history.observations.length ≤ observationLimit ∧
      history.decisions.length ≤ decisionLimit ∧
      history.eligibleReleases.length ≤ eligibleReleaseLimit)
    (.invalid "history exceeds its count or string limit")
  history.observations.forM RawObservationV1.validateLimits
  history.decisions.forM DecisionV1.validateLimits
  history.eligibleReleases.forM EligibleReleaseV1.validateLimits

/-- The library that writes payloads. It reads a history from the front of a payload and returns the
bytes after it. -/
structure PayloadFormat where
  /-- `postcard::to_stdvec`. -/
  toStdvec : PackageHistoryV1 → Except String (List UInt8)
  /-- `postcard::take_from_bytes`. -/
  takeFromBytes : List UInt8 → Except String (PackageHistoryV1 × List UInt8)

/-- The library reads what it writes and leaves nothing. -/
def PayloadFormat.ReadsBack (format : PayloadFormat) : Prop :=
  ∀ history payload, format.toStdvec history = .ok payload →
    format.takeFromBytes payload = .ok (history, [])

section Codec

variable (format : PayloadFormat) (sha256 : List UInt8 → Vector UInt8 32)

/-- The envelope of a payload. -/
def envelope (payload : List UInt8) : List UInt8 :=
  historyMagic ++ (le64 payload.length ++ ((sha256 payload).toList ++ payload))

/-- `encode_history`. -/
def encodeHistory (history : PackageHistoryV1) : Except SnapshotError (List UInt8) := do
  let payload ← (format.toStdvec history).mapError .postcard
  ensure (payload.length ≤ historyLimit - historyPrefixLen)
    (.invalid "history payload exceeds its byte limit")
  return envelope sha256 payload

/-- The payload of an envelope. -/
def envelopePayload (bytes : List UInt8) : Guarded SnapshotError (List UInt8) := do
  attempt (ensure (historyPrefixLen ≤ bytes.length ∧ bytes.length ≤ historyLimit)
    (.invalid "invalid history envelope"))
  let mark ← demand (slice bytes 0 8)
  attempt (ensure (mark = historyMagic) (.invalid "invalid history envelope"))
  let number ← demand (slice bytes 8 16)
  attempt (ensure (number.length = 8) (.invalid "invalid history length"))
  -- A `usize` has 64 bits.
  attempt (ensure (readLittleEndian number < lengthBound)
    (.invalid "history length does not fit usize"))
  let rest ← demand (if historyPrefixLen ≤ bytes.length then
    some (bytes.length - historyPrefixLen) else none)
  attempt (ensure (readLittleEndian number = rest) (.invalid "history payload length mismatch"))
  let digest ← demand (slice bytes 16 48)
  attempt (ensure (digest.length = 32) (.invalid "invalid history digest"))
  let payload ← demand (slice bytes 48 bytes.length)
  attempt (ensure ((sha256 payload).toList = digest) (.invalid "history payload digest mismatch"))
  return payload

/-- `decode_history`. -/
def decodeHistory (bytes : List UInt8) : Guarded SnapshotError PackageHistoryV1 := do
  let payload ← envelopePayload sha256 bytes
  let decoded ← attempt ((format.takeFromBytes payload).mapError .postcard)
  attempt (ensure (decoded.2 = []) (.invalid "non-canonical history payload"))
  let written ← attempt ((format.toStdvec decoded.1).mapError .postcard)
  attempt (ensure (written = payload) (.invalid "non-canonical history payload"))
  attempt (validateHistoryLimits decoded.1)
  return decoded.1

end Codec

section Envelope

variable {sha256 : List UInt8 → Vector UInt8 32}

/-- The bytes of an envelope. -/
@[simp]
theorem envelope_length (payload : List UInt8) :
    (envelope sha256 payload).length = historyPrefixLen + payload.length := by
  simp only [envelope, historyMagic, historyPrefixLen, List.length_append, List.length_cons,
    List.length_nil, le64_length, Vector.length_toList]
  omega

/-- The parts of an envelope lie where the reader looks for them. -/
theorem envelope_slices (payload : List UInt8) :
    slice (envelope sha256 payload) 0 8 = some historyMagic ∧
      slice (envelope sha256 payload) 8 16 = some (le64 payload.length) ∧
      slice (envelope sha256 payload) 16 48 = some (sha256 payload).toList ∧
      slice (envelope sha256 payload) 48 (envelope sha256 payload).length = some payload := by
  have digest : (sha256 payload).toList.length = 32 := Vector.length_toList
  refine ⟨?_, ?_, ?_, ?_⟩
  · exact @slice_append [] historyMagic _ 0 8 rfl rfl
  · exact slice_append rfl (by rw [le64_length])
  · have shape : envelope sha256 payload = (historyMagic ++ le64 payload.length) ++
        ((sha256 payload).toList ++ payload) := by
      simp only [envelope, List.append_assoc]
    rw [shape]
    exact slice_append (by rw [List.length_append, le64_length]; rfl) (by rw [digest])
  · have shape : envelope sha256 payload =
        (historyMagic ++ (le64 payload.length ++ (sha256 payload).toList)) ++ (payload ++ []) := by
      simp only [envelope, List.append_assoc, List.append_nil]
    have before : (historyMagic ++ (le64 payload.length ++ (sha256 payload).toList)).length = 48 := by
      rw [List.length_append, List.length_append, le64_length, digest]
      rfl
    rw [envelope_length, shape]
    exact slice_append before rfl

/-- The reader takes the payload out of an envelope that is not too long, and out of nothing else. -/
theorem returns_envelopePayload {bytes payload : List UInt8} :
    Returns (envelopePayload sha256 bytes) payload ↔
      bytes = envelope sha256 payload ∧ payload.length ≤ historyLimit - historyPrefixLen := by
  have fits : historyLimit < lengthBound := by decide
  have prefixFits : historyPrefixLen ≤ historyLimit := by decide
  constructor
  · intro returned
    simp only [envelopePayload, returns_bind, returns_attempt, returns_demand, returns_pure,
      ensure_eq_ok, exists_const] at returned
    obtain ⟨⟨-, short⟩, mark, marked, rfl, number, numbered, eight, -, rest, counted, length,
      digest, digested, -, payload, sliced, hashed, rfl⟩ := returned
    obtain ⟨long, rfl⟩ : historyPrefixLen ≤ bytes.length ∧
        bytes.length - historyPrefixLen = rest := by
      simpa using counted
    have counts : number = le64 payload.length := by
      have sized : payload.length = readLittleEndian number := by
        rw [slice_length sliced, length]
        rfl
      rw [sized, le64_readLittleEndian eight]
    refine ⟨?_, ?_⟩
    · have whole := slice_all (slice_concat marked (slice_concat numbered
        (slice_concat digested sliced)))
      rw [whole, envelope, counts, hashed]
    · rw [slice_length sliced]
      exact Nat.sub_le_sub_right short 48
  · rintro ⟨rfl, small⟩
    obtain ⟨marked, numbered, digested, sliced⟩ := @envelope_slices sha256 payload
    have counted : readLittleEndian (le64 payload.length) = payload.length :=
      readLittleEndian_le64 (by omega)
    simp only [envelopePayload, returns_bind, returns_attempt, returns_demand, returns_pure,
      ensure_eq_ok, exists_const]
    refine ⟨⟨?_, ?_⟩, _, marked, rfl, _, numbered, le64_length _, ?_, payload.length, ?_, counted,
      _, digested, Vector.length_toList, _, sliced, rfl, rfl⟩
    · rw [envelope_length]
      omega
    · rw [envelope_length]
      omega
    · rw [counted]
      omega
    · rw [envelope_length, if_pos (Nat.le_add_right _ _), Nat.add_sub_cancel_left]

/-- Taking the payload out stops nothing. -/
theorem safe_envelopePayload (bytes : List UInt8) : Safe (envelopePayload sha256 bytes) := by
  unfold envelopePayload
  refine safe_bind (safe_attempt _) fun _ checked => ?_
  obtain ⟨long, -⟩ := ensure_eq_ok.mp (returns_attempt.mp checked)
  -- Every slice ends within the prefix, or at the end of the bytes.
  have within : ∀ start stop, start ≤ stop → stop ≤ historyPrefixLen →
      ∃ part, slice bytes start stop = some part :=
    fun start stop ordered inside => exists_slice ordered (Nat.le_trans inside long)
  obtain ⟨_, marked⟩ := within 0 8 (by decide) (by decide)
  obtain ⟨_, numbered⟩ := within 8 16 (by decide) (by decide)
  obtain ⟨_, digested⟩ := within 16 48 (by decide) (by decide)
  obtain ⟨_, sliced⟩ : ∃ part, slice bytes 48 bytes.length = some part :=
    exists_slice long (Nat.le_refl _)
  refine safe_bind (safe_demand marked) fun _ _ => ?_
  refine safe_bind (safe_attempt _) fun _ _ => ?_
  refine safe_bind (safe_demand numbered) fun _ _ => ?_
  refine safe_bind (safe_attempt _) fun _ _ => ?_
  refine safe_bind (safe_attempt _) fun _ _ => ?_
  refine safe_bind (safe_demand (if_pos long)) fun _ _ => ?_
  refine safe_bind (safe_attempt _) fun _ _ => ?_
  refine safe_bind (safe_demand digested) fun _ _ => ?_
  refine safe_bind (safe_attempt _) fun _ _ => ?_
  refine safe_bind (safe_demand sliced) fun _ _ => ?_
  refine safe_bind (safe_attempt _) fun _ _ => ?_
  exact safe_pure _

end Envelope

section RoundTrip

variable {format : PayloadFormat} {sha256 : List UInt8 → Vector UInt8 32}

/-- A history is written as the envelope of its payload when that is not too long. -/
theorem encodeHistory_eq_ok {history : PackageHistoryV1} {bytes : List UInt8} :
    encodeHistory format sha256 history = .ok bytes ↔
      ∃ payload, format.toStdvec history = .ok payload ∧
        payload.length ≤ historyLimit - historyPrefixLen ∧ envelope sha256 payload = bytes := by
  simp only [encodeHistory, bind_eq_ok, mapError_eq_ok, ensure_eq_ok, exists_const, pure,
    Except.pure, Except.ok.injEq]

/-- A history is read from the envelope of the payload that the library reads as it and writes for
it. -/
theorem returns_decodeHistory {bytes : List UInt8} {history : PackageHistoryV1} :
    Returns (decodeHistory format sha256 bytes) history ↔
      ∃ payload, (bytes = envelope sha256 payload ∧
          payload.length ≤ historyLimit - historyPrefixLen) ∧
        format.takeFromBytes payload = .ok (history, []) ∧
        format.toStdvec history = .ok payload ∧ validateHistoryLimits history = .ok () := by
  simp only [decodeHistory, returns_bind, returns_attempt, returns_pure, returns_envelopePayload,
    mapError_eq_ok, ensure_eq_ok, exists_const]
  constructor
  · rintro ⟨payload, sealed, ⟨decoded, rest⟩, read, rfl, written, wrote, rfl, _, limits, rfl⟩
    exact ⟨written, sealed, read, wrote, limits⟩
  · rintro ⟨payload, sealed, read, wrote, limits⟩
    exact ⟨payload, sealed, _, read, rfl, _, wrote, rfl, _, limits, rfl⟩

/-- Reading a history stops nothing. -/
theorem safe_decodeHistory (bytes : List UInt8) : Safe (decodeHistory format sha256 bytes) := by
  unfold decodeHistory
  refine safe_bind (safe_envelopePayload bytes) fun _ _ => ?_
  refine safe_bind (safe_attempt _) fun _ _ => ?_
  refine safe_bind (safe_attempt _) fun _ _ => ?_
  refine safe_bind (safe_attempt _) fun _ _ => ?_
  refine safe_bind (safe_attempt _) fun _ _ => ?_
  refine safe_bind (safe_attempt _) fun _ _ => ?_
  exact safe_pure _

/-- A history that was read is written as the bytes it was read from. -/
theorem encodeHistory_of_decoded {bytes : List UInt8} {history : PackageHistoryV1}
    (decoded : Returns (decodeHistory format sha256 bytes) history) :
    encodeHistory format sha256 history = .ok bytes := by
  obtain ⟨payload, ⟨rfl, small⟩, -, written, -⟩ := returns_decodeHistory.mp decoded
  exact encodeHistory_eq_ok.mpr ⟨payload, written, small, rfl⟩

/-- A history is read back from the bytes it was written as, when it is within its limits. -/
theorem decodeHistory_encoded (readsBack : format.ReadsBack) {history : PackageHistoryV1}
    {bytes : List UInt8} (limits : validateHistoryLimits history = .ok ())
    (encoded : encodeHistory format sha256 history = .ok bytes) :
    Returns (decodeHistory format sha256 bytes) history := by
  obtain ⟨payload, written, small, rfl⟩ := encodeHistory_eq_ok.mp encoded
  exact returns_decodeHistory.mpr
    ⟨payload, ⟨rfl, small⟩, readsBack history payload written, written, limits⟩

/-- Bytes that a history is read from are the bytes of no history with anything after them. -/
theorem eq_nil_of_decoded_append {bytes extra : List UInt8} {history other : PackageHistoryV1}
    (decoded : Returns (decodeHistory format sha256 bytes) history)
    (longer : Returns (decodeHistory format sha256 (bytes ++ extra)) other) : extra = [] := by
  have fits : historyLimit < lengthBound := by decide
  obtain ⟨payload, ⟨rfl, small⟩, -⟩ := returns_decodeHistory.mp decoded
  obtain ⟨payload', ⟨equal, small'⟩, -⟩ := returns_decodeHistory.mp longer
  -- The lengths in the two envelopes are at the same place.
  have parts := equal
  simp only [envelope, List.append_assoc] at parts
  have header := List.append_inj (List.append_cancel_left parts) (by simp only [le64_length])
  have lengths : payload.length = payload'.length :=
    le64_injective (by omega) (by omega) header.1
  have whole := congrArg List.length equal
  rw [List.length_append, envelope_length, envelope_length, lengths] at whole
  exact List.eq_nil_of_length_eq_zero (by omega)

/-- Writing and reading of histories are inverse to each other: a history within its limits is read
back from its bytes; reading never stops the program; and what is read is written as the same bytes,
so a history has one encoding and nothing follows an encoding. -/
theorem decodeHistory_inverts_encodeHistory (format : PayloadFormat)
    (sha256 : List UInt8 → Vector UInt8 32) (readsBack : format.ReadsBack) :
    (∀ history bytes, validateHistoryLimits history = .ok () →
      encodeHistory format sha256 history = .ok bytes →
      Returns (decodeHistory format sha256 bytes) history) ∧
    (∀ bytes, Safe (decodeHistory format sha256 bytes)) ∧
    (∀ bytes history, Returns (decodeHistory format sha256 bytes) history →
      encodeHistory format sha256 history = .ok bytes) ∧
    (∀ left right history, Returns (decodeHistory format sha256 left) history →
      Returns (decodeHistory format sha256 right) history → left = right) ∧
    ∀ bytes extra history other, Returns (decodeHistory format sha256 bytes) history →
      Returns (decodeHistory format sha256 (bytes ++ extra)) other → extra = [] := by
  refine ⟨fun _ _ => decodeHistory_encoded readsBack, safe_decodeHistory,
    fun _ _ => encodeHistory_of_decoded, ?_, fun _ _ _ _ => eq_nil_of_decoded_append⟩
  intro left right history first second
  have written := (encodeHistory_of_decoded first).symm.trans (encodeHistory_of_decoded second)
  exact Except.ok.inj written

end RoundTrip

namespace Small

/-- A history of one record that leaves no release eligible. -/
def observed : PackageHistoryV1 where
  package := "Rcpp"
  state := .incomplete
  observations := [⟨0, 0, 0, [⟨"Package", "Rcpp"⟩], none,
    ⟨.valid, .established, .observationOnly, .complete, .unknown, .currentGeneration⟩⟩]
  decisions := []
  eligibleReleases := []

/-- The payload of that history. -/
def observedPayload : List UInt8 :=
  [4, 82, 99, 112, 112, 1, 1, 0, 0, 0, 1, 7, 80, 97, 99, 107, 97, 103, 101, 4, 82, 99, 112, 112, 0,
    0, 0, 1, 0, 1, 0, 0, 0]

/-- A library that writes and reads that history. -/
def observedFormat : PayloadFormat where
  toStdvec history :=
    if history = observed then .ok observedPayload else .error "Serde Serialization Error"
  takeFromBytes payload :=
    if payload = observedPayload then .ok (observed, [])
    else .error "Hit the end of buffer, expected more data"

/-- That library reads what it writes. -/
theorem observedFormat_readsBack : observedFormat.ReadsBack := by
  intro history payload written
  simp only [observedFormat] at written ⊢
  split at written
  · next same =>
    obtain rfl := Except.ok.inj written
    rw [if_pos rfl, same]
  · cases written

/-- A function with the digest of that payload. -/
def observedDigest (payload : List UInt8) : Vector UInt8 32 :=
  if payload = observedPayload then
    #v[183, 10, 176, 91, 144, 104, 123, 37, 171, 172, 10, 229, 62, 4, 180, 106, 88, 74, 119, 90, 237,
      151, 246, 110, 192, 202, 66, 233, 224, 43, 71, 9]
  else Vector.replicate 32 0

end Small

/-- The history of one record is read back from its envelope. -/
theorem decodeHistory_observed :
    encodeHistory Small.observedFormat Small.observedDigest Small.observed =
        .ok (envelope Small.observedDigest Small.observedPayload) ∧
      Returns (decodeHistory Small.observedFormat Small.observedDigest
        (envelope Small.observedDigest Small.observedPayload)) Small.observed := by
  have encoded : encodeHistory Small.observedFormat Small.observedDigest Small.observed =
      .ok (envelope Small.observedDigest Small.observedPayload) := by decide
  have limits : validateHistoryLimits Small.observed = .ok () := by decide
  exact ⟨encoded, (decodeHistory_inverts_encodeHistory _ _ Small.observedFormat_readsBack).1 _ _
    limits encoded⟩

end Rsolve
