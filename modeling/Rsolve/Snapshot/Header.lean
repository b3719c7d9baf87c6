import Rsolve.Core.Hex
import Rsolve.Lib.Sorting
import Rsolve.Snapshot.Codec

/-!
# The header of a snapshot

A header names the registry, the coverage and the sources of a snapshot and counts its histories.
The name of a generation is a digest of what the generation means: two snapshots that say the same
have the same name, whenever and from wherever they were fetched. A header is stored as a JSON text
that a library writes, and reading takes back only the text that the library writes for it.
-/
open Checked Framing Sorting

namespace Rsolve

/-- `HEADER_LIMIT` — the bytes a stored header may take. -/
def headerLimit : Nat := 16 * 1024 * 1024

/-- `HEADER_SOURCE_LIMIT`. -/
def headerSourceLimit : Nat := 65536

/-- `HISTORY_ENCODING`. -/
def historyEncoding : UInt32 := 4

/-- `CoverageV1` — which packages a snapshot speaks for. -/
structure CoverageV1 where
  state : String
  scope : String
  freshness : String
  sourceIds : List String
  missingEvidence : List String
deriving DecidableEq, Repr

/-- `SourceObservationV1` — one document that a snapshot was made from. -/
structure SourceObservationV1 where
  id : String
  kind : String
  representation : String
  contentSha256 : String
  etag : Option String
  lastModified : Option String
  observedAt : String
  endpoint : String
deriving DecidableEq, Repr

/-- `SnapshotHeaderV1`. -/
structure SnapshotHeaderV1 where
  format : String
  version : UInt32
  historyEncoding : UInt32
  normalizationPolicy : UInt32
  compatibilityProfile : UInt32
  parserSchema : UInt32
  registryId : String
  generation : String
  createdAt : String
  producer : String
  coverage : CoverageV1
  sources : List SourceObservationV1
  packageCount : UInt64
  observationCount : UInt64
  eligibleReleaseCount : UInt64
  incompletePackageCount : UInt64
  historyManifestSha256 : String
deriving DecidableEq, Repr

/-- `u8::from_str_radix` — the value of a hexadecimal digit. -/
def hexDigitValue (digit : Char) : Nat :=
  if digit.isDigit then digit.toNat - 48 else digit.toLower.toNat - 87

/-- The bytes that pairs of digits stand for. -/
def bytesOfHex : List Char → List UInt8
  | high :: low :: rest => UInt8.ofNat (16 * hexDigitValue high + hexDigitValue low) :: bytesOfHex rest
  | [_] => []
  | [] => []

/-- `parse_hex_32`. -/
def parseHex32 (value : String) : Except SnapshotError (List UInt8) := do
  ensure (byteLength value = 64 ∧ value.toList.all isHexDigit)
    (.invalid "expected lowercase SHA-256 digest")
  ensure (value = toAsciiLowercase value) (.invalid "digest must use lowercase hexadecimal")
  return bytesOfHex value.toList

/-- A text has the length of a digest and is one. -/
def isHex32 (text : String) : Bool :=
  byteLength text == 64 && (parseHex32 text).isOk

/-- `append_part`, over several parts. -/
def appendParts (parts : List (List UInt8)) : List UInt8 :=
  parts.flatMap lePrefixed

/-- A library that writes values of one type as JSON texts and reads them. -/
structure JsonFormat (α : Type) where
  /-- `serde_json::to_vec`. -/
  toVec : α → Except String (List UInt8)
  /-- `serde_json::from_slice`. -/
  fromSlice : List UInt8 → Except String α

/-- The library reads what it writes. -/
def JsonFormat.ReadsBack {α : Type} (format : JsonFormat α) : Prop :=
  ∀ value bytes, format.toVec value = .ok bytes → format.fromSlice bytes = .ok value

/-- What the snapshots rest on: a digest, a reader of points in time, the libraries that write
histories and headers, and the check that a history with some sources is consistent. -/
structure SnapshotBasis where
  /-- `Sha256::digest`. -/
  sha256 : List UInt8 → Vector UInt8 32
  /-- `str::parse::<jiff::Timestamp>` succeeds. -/
  isTimestamp : String → Bool
  /-- The library for histories. -/
  postcard : PayloadFormat
  /-- The library for headers. -/
  headerJson : JsonFormat SnapshotHeaderV1
  /-- `validate_history`, with the number of sources. -/
  validateHistory : PackageHistoryV1 → Nat → Except SnapshotError Unit

variable (basis : SnapshotBasis)

/-- The digest of bytes as a text. -/
def SnapshotBasis.hexDigest (bytes : List UInt8) : String :=
  hex (basis.sha256 bytes).toList

/-- `is_rfc3339_seconds`. -/
def isRfc3339Seconds (value : String) : Bool :=
  byteLength value == 20 && value.toList.getLast? == some 'Z' &&
    (textBytes value)[10]? == some 84 && (textBytes value)[19]? == some 90 &&
    basis.isTimestamp value

/-- The id of a source, from its kind, its representation and the digest of its content. -/
def sourceId (kind representation content : String) : String :=
  basis.hexDigest (appendParts [textBytes "rsolve.metadata-source-id\x00v1", textBytes kind,
    textBytes representation, textBytes content])

/-- `generation_id` — the name of a generation of a registry. -/
def generationId (registry : String) (header : SnapshotHeaderV1) : String :=
  basis.hexDigest (appendParts
    ([textBytes "rsolve.metadata-generation\x00v1", textBytes registry,
      textBytes (toString header.version.toNat), textBytes (toString header.historyEncoding.toNat),
      textBytes (toString header.normalizationPolicy.toNat),
      textBytes (toString header.compatibilityProfile.toNat),
      textBytes (toString header.parserSchema.toNat), textBytes header.coverage.state,
      textBytes header.coverage.scope, textBytes header.coverage.freshness] ++
    header.coverage.missingEvidence.map textBytes ++
    header.sources.map (fun source => textBytes source.id) ++
    [textBytes header.historyManifestSha256]))

/-- `generation_id_from_header`. -/
def generationIdFromHeader (header : SnapshotHeaderV1) : String :=
  generationId basis header.registryId header

/-- Neighbours increase. -/
def Increasing (items : List String) : Prop :=
  items.IsChain (fun left right => compare left right = .lt)

instance (items : List String) : Decidable (Increasing items) :=
  inferInstanceAs (Decidable (List.IsChain _ _))

/-- The check of one source of a header. -/
def SourceObservationV1.validate (source : SourceObservationV1) : Except SnapshotError Unit := do
  [source.id, source.kind, source.representation, source.contentSha256, source.observedAt,
    source.endpoint].forM (validateString · true "source string")
  ensure ((∀ value, source.etag = some value → byteLength value ≤ stringLimit) ∧
      ∀ value, source.lastModified = some value → byteLength value ≤ stringLimit)
    (.invalid "source validator exceeds string limit")
  ensure (isRfc3339Seconds basis source.observedAt)
    (.invalid "source observed_at is not UTC RFC 3339 seconds")
  let content ← parseHex32 source.contentSha256
  ensure (sourceId basis source.kind source.representation (hex content) = source.id)
    (.invalid "source id does not match source content")

/-- `validate_header`. -/
def validateHeader (header : SnapshotHeaderV1) : Except SnapshotError Unit := do
  ensure (header.format = "rsolve-metadata-snapshot" ∧ header.version = 1 ∧
      header.historyEncoding = historyEncoding ∧ header.normalizationPolicy = 2 ∧
      header.compatibilityProfile = 1 ∧
      (header.parserSchema = 1 ∨ header.parserSchema = 2 ∨ header.parserSchema = 3))
    (.invalid "unknown snapshot header format or version")
  ensure (header.coverage.state = "complete" ∨ header.coverage.state = "partial")
    (.invalid "invalid coverage state")
  [header.registryId, header.generation, header.createdAt, header.producer, header.coverage.scope,
    header.coverage.freshness].forM (validateString · true "required header string")
  let _ ← (Identifier.new .registryId header.registryId).mapError (.invalid ·.message)
  let _ ← parseHex32 header.generation
  ensure (header.generation = generationIdFromHeader basis header)
    (.invalid "snapshot generation does not match header fields")
  ensure (isRfc3339Seconds basis header.createdAt)
    (.invalid "header created_at is not UTC RFC 3339 seconds")
  ensure (header.sources.length ≤ headerSourceLimit) (.invalid "too many snapshot sources")
  header.sources.forM (SourceObservationV1.validate basis)
  let sourceIds := header.sources.map SourceObservationV1.id
  ensure (Increasing sourceIds) (.invalid "snapshot sources are not sorted and unique")
  ensure (Increasing header.coverage.sourceIds ∧ Increasing header.coverage.missingEvidence)
    (.invalid "coverage arrays are not sorted and unique")
  ensure (header.coverage.sourceIds = sourceIds)
    (.invalid "coverage source_ids must enumerate all header sources")
  header.coverage.sourceIds.forM (validateString · true "coverage source id")
  header.coverage.missingEvidence.forM (validateString · true "coverage missing evidence")
  ensure (∀ id ∈ header.coverage.sourceIds, id ∈ sourceIds)
    (.invalid "coverage references unknown source")
  let _ ← parseHex32 header.historyManifestSha256
  return ()

/-- `canonical_json` of a header. -/
def canonicalHeader (header : SnapshotHeaderV1) : Except SnapshotError (List UInt8) :=
  (basis.headerJson.toVec header).mapError .json

/-- `encode_header`. -/
def encodeHeader (header : SnapshotHeaderV1) : Except SnapshotError (List UInt8) := do
  let bytes ← canonicalHeader basis header
  ensure (bytes.length ≤ headerLimit) (.invalid "snapshot header exceeds its byte limit")
  return bytes

/-- `decode_header`. -/
def decodeHeader (bytes : List UInt8) : Except SnapshotError SnapshotHeaderV1 := do
  ensure (bytes.length ≤ headerLimit) (.invalid "snapshot header exceeds its byte limit")
  let header ← (basis.headerJson.fromSlice bytes).mapError .json
  let canonical ← canonicalHeader basis header
  ensure (canonical = bytes) (.invalid "snapshot header is not canonical JSON")
  validateHeader basis header
  return header

section Digests

/-- A text that was read as a digest is one. -/
theorem isHex32_of_parseHex32 {text : String} {content : List UInt8}
    (parsed : parseHex32 text = .ok content) : isHex32 text = true := by
  have checked := parsed
  simp only [parseHex32, bind_eq_ok, ensure_eq_ok] at checked
  obtain ⟨_, ⟨sized, -⟩, -⟩ := checked
  simp only [isHex32, sized, parsed, Except.isOk, Except.toBool, beq_self_eq_true, Bool.and_self]

/-- A written digest is read. -/
theorem parseHex32_hex {digest : List UInt8} (sized : digest.length = 32) :
    parseHex32 (hex digest) = .ok (bytesOfHex (hex digest).toList) := by
  have digits : byteLength (hex digest) = 64 ∧ (hex digest).toList.all isHexDigit = true :=
    ⟨by rw [byteLength_hex, sized], isHexDigit_hex digest⟩
  have lowered : hex digest = toAsciiLowercase (hex digest) := (toAsciiLowercase_hex digest).symm
  simp only [parseHex32, ensure_of digits, ensure_of lowered, ok_bind]
  rfl

/-- A digest is written as a digest. -/
theorem isHex32_hexDigest (basis : SnapshotBasis) (bytes : List UInt8) :
    isHex32 (basis.hexDigest bytes) = true := by
  have sized : (basis.sha256 bytes).toList.length = 32 := Vector.length_toList
  exact isHex32_of_parseHex32 (parseHex32_hex sized)

end Digests

section Facts

variable {basis : SnapshotBasis} {header : SnapshotHeaderV1} {bytes : List UInt8}

/-- A header that was read is valid, and is written as the bytes it was read from. -/
theorem decodeHeader_eq_ok (decoded : decodeHeader basis bytes = .ok header) :
    encodeHeader basis header = .ok bytes ∧ validateHeader basis header = .ok () := by
  simp only [decodeHeader, bind_eq_ok, ensure_eq_ok, exists_const, pure, Except.pure,
    Except.ok.injEq] at decoded
  obtain ⟨short, _, -, written, canonical, rfl, _, valid, rfl⟩ := decoded
  refine ⟨?_, valid⟩
  simp only [encodeHeader, bind_eq_ok, canonical, ensure_eq_ok]
  exact ⟨_, rfl, (), short, rfl⟩

/-- A required text is there. -/
theorem ne_empty_of_validateString {value label : String}
    (valid : validateString value true label = .ok ()) : value ≠ "" := by
  rintro rfl
  rw [validateString, ensure_eq_ok] at valid
  exact valid (.inl ⟨rfl, rfl⟩)

/-- What a valid source says of itself: its id and the digest of its content are digests, and it has
an endpoint. -/
theorem SourceObservationV1.of_validate {source : SourceObservationV1}
    (valid : source.validate basis = .ok ()) :
    isHex32 source.id = true ∧ isHex32 source.contentSha256 = true ∧ source.endpoint ≠ "" := by
  simp only [SourceObservationV1.validate, bind_eq_ok, ensure_eq_ok] at valid
  obtain ⟨_, texts, _, -, _, -, content, parsed, named⟩ := valid
  refine ⟨?_, isHex32_of_parseHex32 parsed, ?_⟩
  · rw [← named]
    exact isHex32_hexDigest basis _
  · exact ne_empty_of_validateString (forM_eq_ok.mp texts source.endpoint (by simp))

/-- What the view of a valid header needs of it. -/
structure SnapshotHeaderV1.Viewable (basis : SnapshotBasis) (header : SnapshotHeaderV1) : Prop where
  compatibilityProfile : header.compatibilityProfile ≠ 0
  parserSchema : header.parserSchema ≠ 0
  normalizationPolicy : header.normalizationPolicy ≠ 0
  state : header.coverage.state ≠ ""
  scope : header.coverage.scope ≠ ""
  freshness : header.coverage.freshness ≠ ""
  generation : isHex32 header.generation = true
  createdAt : isRfc3339Seconds basis header.createdAt = true
  increasing : Increasing (header.sources.map SourceObservationV1.id)
  sources : ∀ source ∈ header.sources, isHex32 source.id = true ∧
    isHex32 source.contentSha256 = true ∧ source.endpoint ≠ ""

/-- A valid header has what its view needs. -/
theorem viewable_of_validateHeader (valid : validateHeader basis header = .ok ()) :
    header.Viewable basis := by
  simp only [validateHeader, bind_eq_ok, ensure_eq_ok] at valid
  obtain ⟨_, ⟨-, -, -, normalization, compatibility, parser⟩, _, coverage, _, texts, _, -, _,
    generation, _, -, _, createdAt, _, -, _, sources, _, increasing, -⟩ := valid
  have filled : ∀ text ∈ [header.coverage.scope, header.coverage.freshness], text ≠ "" :=
    fun text member => ne_empty_of_validateString (forM_eq_ok.mp texts text (by
      simp only [List.mem_cons, List.not_mem_nil, or_false] at member ⊢
      tauto))
  refine ⟨?_, ?_, ?_, ?_, filled _ (by simp), filled _ (by simp),
    isHex32_of_parseHex32 generation, createdAt, increasing, fun source member =>
      SourceObservationV1.of_validate (forM_eq_ok.mp sources source member)⟩
  · rw [compatibility]; decide
  · rcases parser with schema | schema | schema <;> rw [schema] <;> decide
  · rw [normalization]; decide
  · rcases coverage with state | state <;> rw [state] <;> decide

end Facts

end Rsolve
