import Rsolve.Cran.MetadataAcquisition
import Rsolve.Snapshot.Runs

/-!
# Entries of the raw cache

The file of an entry is read as what was written, with its times cut to whole seconds, and only for
the key that it was written for.
-/
open Checked Faults Framing Ordered

namespace Rsolve

/-- The whole second of an instant. -/
def Timestamp.whole (instant : Timestamp) : Timestamp :=
  ⟨instant.nanosecond - instant.nanosecond % nanosecondsPerSecond, by
    have range := instant.representable
    unfold minTimestamp maxTimestamp at *
    unfold nanosecondsPerSecond
    omega⟩

/-- The nanoseconds of a whole second. -/
theorem Timestamp.whole_nanosecond (instant : Timestamp) :
    instant.whole.nanosecond = instant.nanosecond - instant.nanosecond % 1000000000 := rfl

/-- Whole seconds keep the order of instants. -/
theorem Timestamp.whole_mono {earlier later : Timestamp}
    (ordered : earlier.nanosecond ≤ later.nanosecond) :
    earlier.whole.nanosecond ≤ later.whole.nanosecond := by
  rw [whole_nanosecond, whole_nanosecond]
  omega

/-- The whole second is less than a second before the instant. -/
theorem Timestamp.whole_bounds (instant : Timestamp) :
    instant.whole.nanosecond ≤ instant.nanosecond ∧
      instant.nanosecond < instant.whole.nanosecond + 1000000000 := by
  rw [whole_nanosecond]
  omega

/-- A whole second is its own. -/
theorem Timestamp.whole_whole (instant : Timestamp) : instant.whole.whole = instant.whole := by
  have same : instant.whole.whole.nanosecond = instant.whole.nanosecond := by
    rw [whole_nanosecond, whole_nanosecond]
    omega
  cases found : instant.whole.whole
  cases wanted : instant.whole
  rw [found, wanted] at same
  cases same
  rfl

/-- What the libraries of a cache do: JSON texts are not empty and read back, the text of a URL that
was accepted is accepted as it is, and the text of an instant ends as it should and is read as its
whole second. -/
structure RawCache.Lawful (cache : RawCache) : Prop where
  headers : cache.headerJson.ReadsBack
  filled : ∀ header bytes, cache.headerJson.toVec header = .ok bytes → bytes ≠ []
  settled : ∀ input endpoint, cache.canonicalRequestEndpoint input = .ok endpoint →
    cache.canonicalRequestEndpoint endpoint = .ok endpoint
  zulu : ∀ instant, ['Z'] <:+ (cache.strftime instant).toList
  seconds : ∀ instant read, cache.parseInstant (cache.strftime instant) = .ok read →
    read = instant.whole

section Validators

/-- A header text that passes its check is kept. -/
theorem eq_of_validateHeaderString {value kept : Option String}
    (checked : validateHeaderString value = .ok kept) : kept = value := by
  cases value with
  | none => exact (Except.ok.inj checked).symm
  | some text =>
    obtain ⟨_, -, finished⟩ := bind_eq_ok.mp checked
    exact (Except.ok.inj finished).symm

/-- An entity tag that passes its check is kept. -/
theorem eq_of_validateEtag {value kept : Option String}
    (checked : validateEtag value = .ok kept) : kept = value := by
  obtain ⟨found, text, checked⟩ := bind_eq_ok.mp checked
  rw [← eq_of_validateHeaderString text]
  cases found with
  | none => exact (Except.ok.inj checked).symm
  | some tag =>
    obtain ⟨_, -, checked⟩ := bind_eq_ok.mp checked
    obtain ⟨_, -, finished⟩ := bind_eq_ok.mp checked
    exact (Except.ok.inj finished).symm

/-- A date that passes its check is kept. -/
theorem RawCache.eq_of_validateLastModified {cache : RawCache} {value kept : Option String}
    (checked : cache.validateLastModified value = .ok kept) : kept = value := by
  obtain ⟨found, text, checked⟩ := bind_eq_ok.mp checked
  rw [← eq_of_validateHeaderString text]
  cases found with
  | none => exact (Except.ok.inj checked).symm
  | some date =>
    simp only at checked
    split at checked
    · cases checked
    · obtain ⟨_, -, finished⟩ := bind_eq_ok.mp checked
      exact (Except.ok.inj finished).symm

end Validators

namespace RawCache

variable {cache : RawCache} {key other : RawCacheKey} {write : RawCacheWrite}
  {header : RawCacheHeader} {headerBytes : List UInt8}

/-- The text of an instant that can be represented is read as its whole second. -/
theorem Lawful.parseTimestamp (lawful : cache.Lawful) {instant : Timestamp} {text : String}
    (printed : cache.timestampString instant = .ok text) :
    cache.parseTimestamp text = .ok instant.whole := by
  obtain ⟨_, checked, finished⟩ := bind_eq_ok.mp printed
  obtain rfl := Except.ok.inj finished
  obtain ⟨sized, read⟩ := ensure_eq_ok.mp checked
  obtain ⟨found, parsed⟩ := exists_of_isOk read
  have shaped : byteLength (cache.strftime instant) = 20 ∧
      ['Z'] <:+ (cache.strftime instant).toList := ⟨sized, lawful.zulu instant⟩
  rw [RawCache.parseTimestamp, ensure_of shaped, ok_bind, parsed,
    lawful.seconds instant found parsed]
  rfl

/-- What a write needs for its header, and what the header says. -/
theorem headerForWrite_eq_ok (made : cache.headerForWrite key write = .ok header) :
    write.body.length ≤ maxResponseBytes ∧
      write.observedAt.nanosecond ≤ write.validatedAt.nanosecond ∧
      validateCacheControl write.cacheControl = .ok () ∧
      validateEtag write.etag = .ok write.etag ∧
      cache.validateLastModified write.lastModified = .ok write.lastModified ∧
      ∃ observedAt validatedAt, cache.timestampString write.observedAt = .ok observedAt ∧
        cache.timestampString write.validatedAt = .ok validatedAt ∧
        header = {
          format := rawCacheFormat
          version := 1
          registryId := cache.registryId.text
          keySha256 := key.digest
          endpoint := key.endpoint
          representation := key.representation
          bodyLength := write.body.length
          bodySha256 := hex (cache.sha256 write.body).toList
          observedAt, validatedAt
          etag := write.etag
          lastModified := write.lastModified
          cacheControl := write.cacheControl } := by
  obtain ⟨_, small, made⟩ := bind_eq_ok.mp made
  obtain ⟨_, ordered, made⟩ := bind_eq_ok.mp made
  obtain ⟨_, control, made⟩ := bind_eq_ok.mp made
  obtain ⟨observedAt, observed, made⟩ := bind_eq_ok.mp made
  obtain ⟨validatedAt, validated, made⟩ := bind_eq_ok.mp made
  obtain ⟨etag, tagged, made⟩ := bind_eq_ok.mp made
  obtain ⟨lastModified, dated, made⟩ := bind_eq_ok.mp made
  obtain rfl := eq_of_validateEtag tagged
  obtain rfl := eq_of_validateLastModified dated
  exact ⟨ensure_eq_ok.mp small, not_lt.mp (ensure_eq_ok.mp ordered), control, tagged, dated,
    observedAt, validatedAt, observed, validated, (Except.ok.inj made).symm⟩

/-- The entry that is read where a write was stored. -/
def entryOf (key : RawCacheKey) (write : RawCacheWrite) : RawCacheEntry where
  key := key
  body := write.body
  observedAt := write.observedAt.whole
  validatedAt := write.validatedAt.whole
  etag := write.etag
  lastModified := write.lastModified
  cacheControl := write.cacheControl

/-- What a header says of a body with which it is stored. -/
structure Describes (cache : RawCache) (header : RawCacheHeader) (body : List UInt8) : Prop where
  length : header.bodyLength = body.length
  small : body.length ≤ maxResponseBytes
  digest : hex (cache.sha256 body).toList = header.bodySha256

/-- The file of a header and a body that it describes is read as they are, when the header is right
for the key. -/
theorem Lawful.readEntry_framed (lawful : cache.Lawful) {body : List UInt8}
    (written : cache.headerJson.toVec header = .ok headerBytes)
    (fits : headerBytes.length ≤ maxHeaderBytes) (describes : cache.Describes header body) :
    cache.readEntry key (entryBytes headerBytes body) =
      (do
        cache.validateHeader key header
        let observedAt ← cache.parseTimestamp header.observedAt
        let validatedAt ← cache.parseTimestamp header.validatedAt
        return ⟨key, body, observedAt, validatedAt, header.etag, header.lastModified,
          header.cacheControl⟩) := by
  have prefixed : (littleEndian headerLengthBytes headerBytes.length).length = headerLengthBytes :=
    littleEndian_length _ _
  have total : (entryBytes headerBytes body).length =
      headerLengthBytes + headerBytes.length + body.length := by
    rw [entryBytes, List.length_append, List.length_append, prefixed]
  have number : readLittleEndian ((entryBytes headerBytes body).take headerLengthBytes) =
      headerBytes.length := by
    have shown : (entryBytes headerBytes body).take headerLengthBytes =
        littleEndian headerLengthBytes headerBytes.length := by
      rw [entryBytes, List.append_assoc]
      exact List.take_left' prefixed
    rw [shown, readLittleEndian_littleEndian]
    refine Nat.mod_eq_of_lt (Nat.lt_of_le_of_lt fits ?_)
    decide
  have positive : headerBytes.length ≠ 0 := fun empty =>
    lawful.filled header headerBytes written (List.length_eq_zero_iff.mp empty)
  have inner : ((entryBytes headerBytes body).drop headerLengthBytes).take headerBytes.length =
      headerBytes := by
    rw [entryBytes, List.append_assoc, List.drop_left' prefixed]
    exact List.take_left' rfl
  have rest : ((entryBytes headerBytes body).drop
      (headerLengthBytes + headerBytes.length)).take body.length = body := by
    have front : (littleEndian headerLengthBytes headerBytes.length ++ headerBytes).length =
        headerLengthBytes + headerBytes.length := by
      rw [List.length_append, prefixed]
    rw [entryBytes, List.drop_left' front, List.take_length]
  have enough : headerLengthBytes ≤ (entryBytes headerBytes body).length := by omega
  have whole : headerLengthBytes + headerBytes.length ≤
      (entryBytes headerBytes body).length := by omega
  have shaped : headerBytes.length ≠ 0 ∧ headerBytes.length ≤ maxHeaderBytes := ⟨positive, fits⟩
  have read := lawful.headers header headerBytes written
  have fitting : header.bodyLength ≤ maxResponseBytes ∧ (entryBytes headerBytes body).length =
      headerLengthBytes + headerBytes.length + header.bodyLength := by
    rw [describes.length]
    exact ⟨describes.small, total⟩
  simp only [readEntry, number, ensure_of enough, ensure_of shaped, ensure_of whole, inner, read,
    written, Except.mapError, ok_bind, ensure_of fitting, ensure_of trivial]
  rw [describes.length, rest, ensure_of describes.digest]
  rfl

/-- The file of a write is read, for any key, as the write with whole seconds, when its header is
right for the key. -/
theorem Lawful.readEntry_entryBytes (lawful : cache.Lawful)
    (made : cache.headerForWrite key write = .ok header)
    (written : cache.headerJson.toVec header = .ok headerBytes)
    (fits : headerBytes.length ≤ maxHeaderBytes) :
    cache.readEntry other (entryBytes headerBytes write.body) =
      cache.validateHeader other header >>= fun _ => .ok (entryOf other write) := by
  obtain ⟨small, -, -, -, -, observedAt, validatedAt, observed, validated, rfl⟩ :=
    headerForWrite_eq_ok made
  rw [lawful.readEntry_framed written fits ⟨rfl, small, rfl⟩]
  simp only [lawful.parseTimestamp observed, lawful.parseTimestamp validated, ok_bind]
  rfl

/-- A file is split where its length says. -/
theorem entryBytes_split {bytes : List UInt8} {bodyLength : Nat}
    (total : bytes.length = headerLengthBytes +
      readLittleEndian (bytes.take headerLengthBytes) + bodyLength) :
    bytes = entryBytes
      ((bytes.drop headerLengthBytes).take (readLittleEndian (bytes.take headerLengthBytes)))
      ((bytes.drop (headerLengthBytes +
        readLittleEndian (bytes.take headerLengthBytes))).take bodyLength) := by
  generalize named : readLittleEndian (bytes.take headerLengthBytes) = headerLength at total ⊢
  have four : (bytes.take headerLengthBytes).length = headerLengthBytes := by
    rw [List.length_take]
    omega
  have sized : ((bytes.drop headerLengthBytes).take headerLength).length = headerLength := by
    rw [List.length_take, List.length_drop]
    omega
  have number : littleEndian headerLengthBytes headerLength = bytes.take headerLengthBytes := by
    have same := littleEndian_readLittleEndian (bytes.take headerLengthBytes)
    rw [four, named] at same
    exact same
  have last : ((bytes.drop (headerLengthBytes + headerLength)).take bodyLength) =
      (bytes.drop headerLengthBytes).drop headerLength := by
    rw [List.drop_drop]
    apply List.take_of_length_le
    rw [List.length_drop]
    omega
  rw [entryBytes, sized, number, last, List.append_assoc, List.take_append_drop,
    List.take_append_drop]

/-- The cache makes a key. -/
def IsKey (cache : RawCache) (key : RawCacheKey) : Prop :=
  ∃ input, cache.key input key.representation = .ok key

/-- What a key that the cache makes holds. -/
theorem key_eq_ok {input : String} {representation : RawCacheRepresentation}
    (made : cache.key input representation = .ok key) :
    cache.canonicalRequestEndpoint input = .ok key.endpoint ∧
      cache.canonicalKeyDigest key.registryId key.endpoint key.representation = .ok key.digest ∧
      key.registryId = cache.registryId.text ∧ key.representation = representation := by
  obtain ⟨endpoint, settled, made⟩ := bind_eq_ok.mp made
  obtain ⟨digest, hashed, finished⟩ := bind_eq_ok.mp made
  obtain rfl := Except.ok.inj finished
  exact ⟨settled, hashed, rfl, rfl⟩

/-- A key that was made can be made. -/
theorem isKey_of_key {input : String} {representation : RawCacheRepresentation}
    (made : cache.key input representation = .ok key) : cache.IsKey key := by
  obtain ⟨-, -, -, same⟩ := key_eq_ok made
  exact ⟨input, same ▸ made⟩

/-- A digest is one. -/
theorem isHex32_sha256 (bytes : List UInt8) : isHex32 (hex (cache.sha256 bytes).toList) = true := by
  have sized : (cache.sha256 bytes).toList.length = 32 := Vector.length_toList
  exact isHex32_of_parseHex32 (parseHex32_hex sized)

/-- The digest of a key is one. -/
theorem isHex32_canonicalKeyDigest {registryId endpoint digest : String}
    {representation : RawCacheRepresentation}
    (hashed : cache.canonicalKeyDigest registryId endpoint representation = .ok digest) :
    isHex32 digest = true := by
  obtain ⟨bytes, -, finished⟩ := bind_eq_ok.mp hashed
  rw [← Except.ok.inj finished]
  exact isHex32_sha256 bytes

/-- A header is right for no key but the one that it names. -/
theorem eq_of_validateHeader (checked : cache.validateHeader key header = .ok ()) :
    header.registryId = cache.registryId.text ∧ header.keySha256 = key.digest ∧
      header.endpoint = key.endpoint ∧ header.representation = key.representation := by
  obtain ⟨_, identity, -⟩ := bind_eq_ok.mp checked
  obtain ⟨-, -, registry, digest, endpoint, representation, -⟩ := ensure_eq_ok.mp identity
  exact ⟨registry, digest, endpoint, representation⟩

/-- The header of a write is right for its key. -/
theorem Lawful.validateHeader (lawful : cache.Lawful) (made : cache.IsKey key)
    (headed : cache.headerForWrite key write = .ok header) :
    cache.validateHeader key header = .ok () := by
  obtain ⟨input, made⟩ := made
  obtain ⟨settled, hashed, registry, -⟩ := key_eq_ok made
  obtain ⟨-, ordered, control, tagged, dated, observedAt, validatedAt, observed, validated, same⟩ :=
    headerForWrite_eq_ok headed
  rw [registry] at hashed
  have canonical : cache.isCanonicalEndpoint key.endpoint = true := by
    rw [isCanonicalEndpoint, lawful.settled input key.endpoint settled]
    exact beq_self_eq_true _
  have identity : header.format = rawCacheFormat ∧ header.version = 1 ∧
      header.registryId = cache.registryId.text ∧ header.keySha256 = key.digest ∧
      header.endpoint = key.endpoint ∧ header.representation = key.representation ∧
      isHex32 header.keySha256 = true ∧ isHex32 header.bodySha256 = true ∧
      cache.isCanonicalEndpoint header.endpoint = true := by
    rw [same]
    exact ⟨rfl, rfl, rfl, rfl, rfl, rfl, isHex32_canonicalKeyDigest hashed, isHex32_sha256 _,
      canonical⟩
  have increasing : ¬ write.validatedAt.whole.nanosecond < write.observedAt.whole.nanosecond :=
    not_lt.mpr (Timestamp.whole_mono ordered)
  rw [RawCache.validateHeader, ensure_of identity, same]
  simp only [ok_bind, hashed, ensure_of trivial, lawful.parseTimestamp observed,
    lawful.parseTimestamp validated, tagged, dated, control, ensure_of increasing]

/-- The file of a write is not too long. -/
theorem length_entryBytes_le (headed : cache.headerForWrite key write = .ok header)
    (fits : headerBytes.length ≤ maxHeaderBytes) :
    ¬ maxEntryBytes < (entryBytes headerBytes write.body).length := by
  have small := (headerForWrite_eq_ok headed).1
  rw [entryBytes, List.length_append, List.length_append, littleEndian_length]
  unfold maxEntryBytes headerLengthBytes
  omega

/-- Keys that the cache makes belong to it. -/
theorem IsKey.validateKeyRegistry (made : cache.IsKey key) :
    cache.validateKeyRegistry key = .ok () := by
  obtain ⟨input, made⟩ := made
  exact ensure_of (key_eq_ok made).2.2.1

/-- What is found under a key that the cache makes. -/
theorem IsKey.find (made : cache.IsKey key) (entries : OrderedMap String RawFile) :
    cache.find entries key = cache.lookupFile key (entries.get? key.digest) := by
  rw [RawCache.find, made.validateKeyRegistry]

/-- Keys that the cache makes are the same when they agree. -/
theorem IsKey.ext (made : cache.IsKey key) (otherMade : cache.IsKey other)
    (digest : other.digest = key.digest) (endpoint : key.endpoint = other.endpoint)
    (representation : key.representation = other.representation) : other = key := by
  obtain ⟨input, made⟩ := made
  obtain ⟨otherInput, otherMade⟩ := otherMade
  have registry : other.registryId = key.registryId :=
    (key_eq_ok otherMade).2.2.1.trans (key_eq_ok made).2.2.1.symm
  cases key
  cases other
  cases registry
  cases digest
  cases endpoint
  cases representation
  rfl

/-- An entry is read as that of the key it is read for. -/
theorem key_of_readEntry {bytes : List UInt8} {entry : RawCacheEntry}
    (read : cache.readEntry key bytes = .ok entry) : entry.key = key := by
  simp only [readEntry, bind_eq_ok] at read
  obtain ⟨_, -, _, -, _, -, header, -, _, -, _, -, _, -, _, -, _, -, _, -, _, -, finished⟩ := read
  rw [← Except.ok.inj finished]

/-- An entry that is found is that of the key it was looked up with. -/
theorem key_eq_of_find {entries : OrderedMap String RawFile} {entry : RawCacheEntry}
    (found : cache.find entries key = .hit entry) : entry.key = key := by
  unfold RawCache.find at found
  split at found
  · cases found
  · unfold lookupFile at found
    split at found
    · cases found
    · split at found
      · cases found
      · split at found
        · next read =>
          obtain rfl := RawCacheLookup.hit.inj found
          exact key_of_readEntry read
        · cases found
    · cases found

section Stored

variable {entries : OrderedMap String RawFile}

/-- A write is found under its key. -/
theorem Lawful.find_insert (lawful : cache.Lawful) (made : cache.IsKey key)
    (headed : cache.headerForWrite key write = .ok header)
    (written : cache.headerJson.toVec header = .ok headerBytes)
    (fits : headerBytes.length ≤ maxHeaderBytes) :
    cache.find (entries.insert key.digest (.regular (entryBytes headerBytes write.body))) key =
      .hit (entryOf key write) := by
  rw [made.find, OrderedMap.get?_insert, if_pos rfl, lookupFile,
    if_neg (length_entryBytes_le headed fits), lawful.readEntry_entryBytes headed written fits,
    lawful.validateHeader made headed]
  rfl

/-- What is found after a write is the write, or was found before. -/
theorem Lawful.find_of_insert (lawful : cache.Lawful) (made : cache.IsKey key)
    (otherMade : cache.IsKey other) {entry : RawCacheEntry}
    (headed : cache.headerForWrite key write = .ok header)
    (written : cache.headerJson.toVec header = .ok headerBytes)
    (fits : headerBytes.length ≤ maxHeaderBytes)
    (found : cache.find (entries.insert key.digest
      (.regular (entryBytes headerBytes write.body))) other = .hit entry) :
    (other = key ∧ entry = entryOf key write) ∨ cache.find entries other = .hit entry := by
  rw [otherMade.find, OrderedMap.get?_insert] at found
  by_cases same : other.digest = key.digest
  · left
    rw [if_pos same, lookupFile, if_neg (length_entryBytes_le headed fits),
      lawful.readEntry_entryBytes headed written fits] at found
    cases checked : cache.validateHeader other header with
    | error cause =>
      rw [checked] at found
      cases found
    | ok done =>
      rw [checked] at found
      obtain ⟨-, -, endpoint, representation⟩ := eq_of_validateHeader checked
      obtain ⟨_, _, _, _, _, _, _, _, _, said⟩ := headerForWrite_eq_ok headed
      rw [said] at endpoint representation
      have equal := made.ext otherMade same endpoint representation
      rw [equal, ok_bind] at found
      exact ⟨equal, (RawCacheLookup.hit.inj found).symm⟩
  · right
    rw [if_neg same] at found
    rw [otherMade.find]
    exact found

end Stored

end RawCache

namespace Small

/-- The index of current packages. -/
def dcfEndpoint : String := "https://cran.r-project.org/src/contrib/PACKAGES"

/-- An index. -/
def dcfBody : List UInt8 := textBytes "Package: demo\nVersion: 1.0\n"

/-- The digest of the key of the index. -/
def dcfKeyDigest : String := "945b6ad07c4f433cecdf5c05a4c7da0e24718092470b8ee122add10c371173c6"

/-- The digest of the index. -/
def dcfBodyDigest : String := "3813c5c8f542e0635304ce2c18bde410c894ae40ac0013f3dd3229fd5564e0e4"

/-- The time of an acquisition. -/
def dcfTime : Timestamp := ⟨1704067200000000000, by decide⟩

/-- That time as a text. -/
def dcfTimeText : String := "2024-01-01T00:00:00Z"

/-- What the digest of the key of the index is of. -/
def dcfKeyWire : RawCacheKeyWire := ⟨rawKeyFormat, 1, registry.text, dcfEndpoint, .currentDcf⟩

/-- The key of the index as `serde_json` writes it. -/
def dcfKeyText : List UInt8 :=
  object [member "format" (quoted rawKeyFormat), member "version" (number 1),
    member "registry_id" (quoted registry.text), member "endpoint" (quoted dcfEndpoint),
    member "representation" (quoted "current_dcf")]

/-- The header of the index at that time. -/
def dcfHeader : RawCacheHeader :=
  ⟨rawCacheFormat, 1, registry.text, dcfKeyDigest, dcfEndpoint, .currentDcf, 27,
    dcfBodyDigest, dcfTimeText, dcfTimeText, none, none, .absent⟩

/-- That header as `serde_json` writes it. -/
def dcfHeaderText : List UInt8 :=
  object [member "format" (quoted rawCacheFormat), member "version" (number 1),
    member "registry_id" (quoted registry.text), member "key_sha256" (quoted dcfKeyDigest),
    member "endpoint" (quoted dcfEndpoint), member "representation" (quoted "current_dcf"),
    member "body_length" (number 27), member "body_sha256" (quoted dcfBodyDigest),
    member "observed_at" (quoted dcfTimeText), member "validated_at" (quoted dcfTimeText),
    member "etag" (textBytes "null"), member "last_modified" (textBytes "null"),
    member "cache_control" (object [member "state" (quoted "Absent")])]

/-- A cache that knows the index and that time. -/
def dcfCache : RawCache where
  registryId := registry
  sha256 := fun bytes =>
    if bytes = dcfKeyText then digestOf dcfKeyDigest else digestOf dcfBodyDigest
  parseUrl := fun text =>
    if text = dcfEndpoint then
      .ok ⟨"https", some "cran.r-project.org", false, "", none, none, none, dcfEndpoint⟩
    else .error "relative URL without a base"
  keyJson := formatOf [(dcfKeyWire, dcfKeyText)]
  headerJson := formatOf [(dcfHeader, dcfHeaderText)]
  strftime := fun instant => if instant.whole = dcfTime then dcfTimeText else "Z"
  parseInstant := fun text =>
    if text = dcfTimeText then .ok dcfTime else .error "failed to parse timestamp"
  imfFixdate := fun _ => none

/-- The key for the index. -/
def dcfKey : RawCacheKey := ⟨registry.text, dcfEndpoint, .currentDcf, dcfKeyDigest⟩

/-- The write of the index. -/
def dcfWrite : RawCacheWrite := ⟨200, dcfBody, dcfTime, dcfTime, none, none, .absent⟩

/-- The entry of the index. -/
def dcfEntry : RawCacheEntry := ⟨dcfKey, dcfBody, dcfTime, dcfTime, none, none, .absent⟩

/-- The endpoint of the index is as it should be. -/
theorem dcfCache_settles : dcfCache.canonicalRequestEndpoint dcfEndpoint = .ok dcfEndpoint := by
  have trimmed : String.ofList (trim dcfEndpoint.toList) = dcfEndpoint := by decide
  rw [RawCache.canonicalRequestEndpoint, trimmed]
  rfl

/-- The libraries of that cache do what they should. -/
theorem dcfCache_lawful : dcfCache.Lawful where
  headers := formatOf_readsBack (List.nodup_singleton _)
  filled := by
    intro header bytes written
    have filled : dcfHeaderText ≠ [] := List.cons_ne_nil _ _
    simp only [dcfCache, formatOf] at written
    split at written
    · next entry found =>
      have there : entry = (dcfHeader, dcfHeaderText) :=
        List.mem_singleton.mp (List.mem_of_find?_eq_some found)
      rw [← Except.ok.inj written, there]
      exact filled
    · cases written
  settled := by
    intro input endpoint settled
    obtain ⟨url, parsed, checked⟩ := bind_eq_ok.mp settled
    obtain ⟨_, -, finished⟩ := bind_eq_ok.mp checked
    have read := mapError_eq_ok.mp parsed
    simp only [dcfCache] at read
    split at read
    · rw [← Except.ok.inj finished, ← Except.ok.inj read]
      exact dcfCache_settles
    · cases read
  zulu := by
    intro instant
    simp only [dcfCache]
    split
    · decide
    · decide
  seconds := by
    intro instant read
    simp only [dcfCache]
    by_cases same : instant.whole = dcfTime
    · rw [if_pos same, if_pos rfl, same]
      exact fun found => (Except.ok.inj found).symm
    · have other : "Z" ≠ dcfTimeText := by decide
      rw [if_neg same, if_neg other]
      intro found
      cases found

/-- The key of the index. -/
theorem dcfCache_key : dcfCache.key dcfEndpoint .currentDcf = .ok dcfKey := by
  have digest : hex (digestOf dcfKeyDigest).toList = dcfKeyDigest := by decide
  have sum : dcfCache.sha256 dcfKeyText = digestOf dcfKeyDigest := by
    simp only [dcfCache, ↓reduceIte]
  have written : dcfCache.keyJson.toVec dcfKeyWire = .ok dcfKeyText := formatOf_toVec _ _ _
  have hashed : dcfCache.canonicalKeyDigest registry.text dcfEndpoint .currentDcf =
      .ok dcfKeyDigest := by
    refine bind_eq_ok.mpr ⟨dcfKeyText, mapError_eq_ok.mpr written, ?_⟩
    rw [sum, digest]
    rfl
  exact bind_eq_ok.mpr ⟨dcfEndpoint, dcfCache_settles, bind_eq_ok.mpr ⟨dcfKeyDigest, hashed, rfl⟩⟩

/-- The header of the write of the index. -/
theorem dcfCache_headed :
    dcfCache.headerForWrite dcfKey dcfWrite = .ok dcfHeader := by
  have small : dcfBody.length ≤ maxResponseBytes := by decide
  have ordered : ¬ dcfTime.nanosecond < dcfTime.nanosecond := lt_irrefl _
  have seconds : dcfTime.whole = dcfTime := by decide
  have instant : dcfCache.strftime dcfTime = dcfTimeText := by
    simp only [dcfCache, if_pos seconds]
  have reads : byteLength dcfTimeText = 20 ∧ (dcfCache.parseInstant dcfTimeText).isOk = true := by
    decide
  have printed : dcfCache.timestampString dcfTime = .ok dcfTimeText := by
    rw [RawCache.timestampString, instant, ensure_of reads]
    rfl
  have body : hex (dcfCache.sha256 dcfBody).toList = dcfBodyDigest := by
    have other : dcfBody ≠ dcfKeyText := by decide
    have sum : dcfCache.sha256 dcfBody = digestOf dcfBodyDigest := by
      simp only [dcfCache, if_neg other]
    rw [sum]
    decide
  have length : dcfBody.length = 27 := by decide
  refine bind_eq_ok.mpr ⟨(), ensure_of small, bind_eq_ok.mpr ⟨(), ensure_of ordered, ?_⟩⟩
  refine bind_eq_ok.mpr ⟨(), rfl, bind_eq_ok.mpr ⟨dcfTimeText, printed, ?_⟩⟩
  refine bind_eq_ok.mpr ⟨dcfTimeText, printed, bind_eq_ok.mpr ⟨none, rfl, ?_⟩⟩
  refine bind_eq_ok.mpr ⟨none, rfl, ?_⟩
  simp only [dcfWrite, body, length]
  rfl

end Small

namespace RawCache

variable {cache : RawCache} {key : RawCacheKey}

/-- A file is read as an entry exactly when it is a header as the library writes it, with its length
before it, and a body after it: the header is right for the key and describes the body, and the
entry says what the header says. -/
theorem readEntry_iff (lawful : cache.Lawful) {bytes : List UInt8} {entry : RawCacheEntry} :
    cache.readEntry key bytes = .ok entry ↔ entry.key = key ∧ ∃ header headerBytes,
      cache.headerJson.toVec header = .ok headerBytes ∧ headerBytes.length ≤ maxHeaderBytes ∧
        bytes = entryBytes headerBytes entry.body ∧
          cache.validateHeader key header = .ok () ∧ cache.Describes header entry.body ∧
            cache.parseTimestamp header.observedAt = .ok entry.observedAt ∧
              cache.parseTimestamp header.validatedAt = .ok entry.validatedAt ∧
                header.etag = entry.etag ∧ header.lastModified = entry.lastModified ∧
                  header.cacheControl = entry.cacheControl := by
  constructor
  · intro read
    simp only [readEntry, bind_eq_ok, ensure_eq_ok, mapError_eq_ok] at read
    obtain ⟨_, enough, _, shaped, _, -, header, -, headerBytes, written, _, canonical, _, right, _,
      fitting, _, digest, observedAt, observed, validatedAt, validated, finished⟩ := read
    obtain rfl := Except.ok.inj finished
    have total := fitting.2
    have split := entryBytes_split total
    rw [← canonical] at split
    have length : header.bodyLength = ((bytes.drop (headerLengthBytes +
        readLittleEndian (bytes.take headerLengthBytes))).take header.bodyLength).length := by
      rw [List.length_take, List.length_drop]
      omega
    have short : headerBytes.length ≤ maxHeaderBytes := by
      rw [canonical, List.length_take]
      exact (Nat.min_le_left _ _).trans shaped.2
    exact ⟨rfl, header, headerBytes, written, short, split, right,
      ⟨length, length ▸ fitting.1, digest⟩, observed, validated, rfl, rfl, rfl⟩
  · rintro ⟨rfl, header, headerBytes, written, fits, rfl, right, describes, observed, validated,
      tag, date, control⟩
    rw [lawful.readEntry_framed written fits describes, right]
    simp only [ok_bind, observed, validated, tag, date, control]
    rfl

/-- The file of the index is read. -/
theorem readEntry_iff_index :
    Small.dcfCache.readEntry Small.dcfKey (entryBytes Small.dcfHeaderText Small.dcfBody) =
      .ok Small.dcfEntry := by
  have made : Small.dcfCache.IsKey Small.dcfKey := isKey_of_key Small.dcfCache_key
  obtain ⟨small, -, -, -, -, observedAt, validatedAt, observed, validated, said⟩ :=
    headerForWrite_eq_ok Small.dcfCache_headed
  have seconds : Small.dcfTime.whole = Small.dcfTime := by decide
  have first := Small.dcfCache_lawful.parseTimestamp observed
  have second := Small.dcfCache_lawful.parseTimestamp validated
  have same : Small.dcfHeader.observedAt = observedAt ∧
      Small.dcfHeader.validatedAt = validatedAt := by
    rw [said]
    exact ⟨rfl, rfl⟩
  have describes : Small.dcfCache.Describes Small.dcfHeader Small.dcfBody := by
    rw [said]
    exact ⟨rfl, small, rfl⟩
  rw [← same.1] at first
  rw [← same.2] at second
  exact (readEntry_iff Small.dcfCache_lawful).mpr ⟨rfl, Small.dcfHeader, Small.dcfHeaderText,
    Small.formatOf_toVec _ _ _, by decide +kernel, rfl,
    Small.dcfCache_lawful.validateHeader made Small.dcfCache_headed, describes, first, second, rfl,
    rfl, rfl⟩

end RawCache

end Rsolve
