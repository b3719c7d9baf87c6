import Rsolve.Core.Hex
import Rsolve.Cran.CachePolicy
import Rsolve.Lib.Faults
import Rsolve.Lib.Framing
import Rsolve.Lib.Ordered
import Rsolve.Snapshot.Generation

/-!
# The raw metadata cache

The cache keeps the bodies of responses under keys of registry, endpoint and representation. An
entry is one file: the length of a header, the header as canonical JSON, and the body. The header
repeats the key and holds the digest of the body, when it was observed and last validated, and what
the response said about validation and storing. Everything is checked again when the entry is read,
and an entry that fails is corrupt, which is no error. A write goes to a temporary file of its own,
which nothing reads, and takes the place of the entry at once.

The file operations may fail, or be the last one before the process stops.
-/
open Checked Faults Framing Ordered

namespace Rsolve

/-- `MAX_RESPONSE_BYTES`. -/
def maxResponseBytes : Nat := 256 * 1024 * 1024

/-- `MAX_HEADER_BYTES`. -/
def maxHeaderBytes : Nat := 64 * 1024

/-- `HEADER_LENGTH_BYTES`. -/
def headerLengthBytes : Nat := 4

/-- `MAX_ENTRY_BYTES`. -/
def maxEntryBytes : Nat := maxResponseBytes + maxHeaderBytes + 4

/-- `RAW_CACHE_FORMAT`. -/
def rawCacheFormat : String := "rsolve-cran-raw-response"

/-- `RAW_KEY_FORMAT`. -/
def rawKeyFormat : String := "rsolve-cran-raw-key"

/-- `RawCacheRepresentation`. -/
inductive RawCacheRepresentation
  | currentRds
  | currentGzip
  | currentDcf
  | archiveHistoryRds
  | packageArchiveIndexRds
  | allPackagesZstd
deriving DecidableEq

/-- `RawCacheError`. -/
inductive RawCacheError
  | io (source : String)
  | invalid (message : String)
deriving DecidableEq

/-- `RawCacheError::fmt` — the error text. -/
def RawCacheError.message : RawCacheError → String
  | .io source => "raw cache I/O error: " ++ source
  | .invalid message => message

/-- `RawCacheKeyWire` — what the digest of a key is of. -/
structure RawCacheKeyWire where
  format : String
  version : UInt32
  registryId : String
  endpoint : String
  representation : RawCacheRepresentation
deriving DecidableEq

/-- `RawCacheKey`. -/
structure RawCacheKey where
  registryId : String
  endpoint : String
  representation : RawCacheRepresentation
  digest : String
deriving DecidableEq

/-- `RawCacheHeaderV1`. -/
structure RawCacheHeader where
  format : String
  version : UInt32
  registryId : String
  keySha256 : String
  endpoint : String
  representation : RawCacheRepresentation
  bodyLength : Nat
  bodySha256 : String
  observedAt : String
  validatedAt : String
  etag : Option String
  lastModified : Option String
  cacheControl : CacheControlHeader
deriving DecidableEq

/-- `RawCacheWrite`. -/
structure RawCacheWrite where
  status : UInt16
  body : List UInt8
  observedAt : Timestamp
  validatedAt : Timestamp
  etag : Option String
  lastModified : Option String
  cacheControl : CacheControlHeader

/-- `RawCacheEntry`. -/
structure RawCacheEntry where
  key : RawCacheKey
  body : List UInt8
  observedAt : Timestamp
  validatedAt : Timestamp
  etag : Option String
  lastModified : Option String
  cacheControl : CacheControlHeader
deriving DecidableEq

/-- `RawCacheLookup`. -/
inductive RawCacheLookup
  | missing
  | hit (entry : RawCacheEntry)
  | corrupt (message : String)
deriving DecidableEq

/-- What `Url::parse` finds in a text. -/
structure UrlFields where
  scheme : String
  hostStr : Option String
  cannotBeABase : Bool
  username : String
  password : Option String
  query : Option String
  fragment : Option String
  /-- `Url::to_string`. -/
  text : String

/-- The cache of a registry, with what it uses of libraries. -/
structure RawCache where
  registryId : RegistryId
  /-- `Sha256::digest`. -/
  sha256 : List UInt8 → Vector UInt8 32
  /-- `Url::parse`. -/
  parseUrl : String → Except String UrlFields
  keyJson : JsonFormat RawCacheKeyWire
  headerJson : JsonFormat RawCacheHeader
  /-- `Timestamp::strftime` with the format `%Y-%m-%dT%H:%M:%SZ`. -/
  strftime : Timestamp → String
  /-- `str::parse::<jiff::Timestamp>`. -/
  parseInstant : String → Except String Timestamp
  /-- The text that `jiff::civil::DateTime::strptime` and `strftime` with the format
  `%a, %d %b %Y %H:%M:%S GMT` give for a text. -/
  imfFixdate : String → Option String

/-- A file in the place of an entry. -/
inductive RawFile
  | regular (bytes : List UInt8)
  | symlink
  | directory
deriving DecidableEq

/-- The validators of a request: `TransportValidators`. -/
structure TransportValidators where
  ifNoneMatch : Option String
  ifModifiedSince : Option String
deriving DecidableEq

/-- `TransportResponseHeaders`. -/
structure TransportResponseHeaders where
  etag : Option String
  lastModified : Option String
  retryAfter : Option String
  cacheControl : CacheControlHeader
deriving DecidableEq

/-- `TransportResponse`. -/
structure TransportResponse where
  status : UInt16
  headers : TransportResponseHeaders
  body : List UInt8
deriving DecidableEq

/-- What a session does besides the cache. -/
inductive SessionEvent
  /-- A request for an endpoint, with validators or without, and its answer. -/
  | exchange (endpoint : String) (validators : TransportValidators)
    (answer : Except String TransportResponse)
  /-- A look at the clock. -/
  | clock (instant : Timestamp)

/-- The entries of the cache by digest of their keys, and what happened besides, the latest first.
-/
structure RawSession where
  entries : OrderedMap String RawFile
  events : List SessionEvent

/-- A program of the cache. -/
abbrev RawProgram (α : Type) : Type := Faulty RawSession RawCacheError α

/-! ### Texts of the header -/

/-- `validate_header_string`. -/
def validateHeaderString : Option String → Except RawCacheError (Option String)
  | none => .ok none
  | some value => do
    ensure (value.toList ≠ [] ∧ trim value.toList = value.toList ∧ byteLength value ≤ 8 * 1024 ∧
        value.toList.all (fun character => !isControl character) = true)
      (.invalid "raw cache validator is invalid")
    return some value

/-- `validate_cache_control`. -/
def validateCacheControl : CacheControlHeader → Except RawCacheError Unit
  | .valid value => do
    let _ ← validateHeaderString (some value)
    return ()
  | _ => .ok ()

/-- The opaque part of an entity tag. -/
def opaqueTag (value : List Char) : List Char :=
  if ['W', '/'] <+: value then value.drop 2 else value

/-- A character of an entity tag. -/
def isTagCharacter (character : Char) : Bool :=
  character.toNat == 0x21 || (0x23 ≤ character.toNat && character.toNat ≤ 0x7e)

/-- `validate_etag`. -/
def validateEtag (value : Option String) : Except RawCacheError (Option String) := do
  match ← validateHeaderString value with
  | none => return none
  | some value =>
    let tag := opaqueTag value.toList
    ensure (['"'] <+: tag ∧ ['"'] <:+ tag ∧ 2 ≤ tag.length)
      (.invalid "raw cache ETag is invalid")
    ensure (((tag.drop 1).take (tag.length - 2)).all isTagCharacter = true)
      (.invalid "raw cache ETag is invalid")
    return some value

namespace RawCache

variable (cache : RawCache)

/-- `validate_last_modified`. -/
def validateLastModified (value : Option String) : Except RawCacheError (Option String) := do
  match ← validateHeaderString value with
  | none => return none
  | some value =>
    match cache.imfFixdate value with
    | none => .error (.invalid "raw cache Last-Modified is invalid")
    | some formatted =>
      ensure (formatted = value)
        (.invalid "raw cache Last-Modified is not canonical IMF-fixdate")
      return some value

/-- `parse_timestamp`. -/
def parseTimestamp (value : String) : Except RawCacheError Timestamp := do
  ensure (byteLength value = 20 ∧ ['Z'] <:+ value.toList)
    (.invalid "raw cache timestamp is invalid")
  (cache.parseInstant value).mapError fun error =>
    .invalid ("raw cache timestamp is invalid: " ++ error)

/-- `timestamp_string`. -/
def timestampString (timestamp : Timestamp) : Except RawCacheError String := do
  let value := cache.strftime timestamp
  ensure (byteLength value = 20 ∧ (cache.parseInstant value).isOk = true)
    (.invalid "raw cache timestamp cannot be represented canonically")
  return value

/-! ### Keys -/

/-- `canonical_request_endpoint`. -/
def canonicalRequestEndpoint (input : String) : Except RawCacheError String := do
  let url ← (cache.parseUrl (String.ofList (trim input.toList))).mapError fun error =>
    .invalid ("invalid raw cache endpoint: " ++ error)
  ensure ((url.scheme = "http" ∨ url.scheme = "https") ∧ url.hostStr ≠ none ∧
      url.cannotBeABase = false ∧ url.username = "" ∧ url.password = none ∧ url.query = none ∧
      url.fragment = none)
    (.invalid "raw cache endpoint must be an HTTP(S) URL without userinfo, query, or fragment")
  return url.text

/-- `is_canonical_endpoint`. -/
def isCanonicalEndpoint (endpoint : String) : Bool :=
  match cache.canonicalRequestEndpoint endpoint with
  | .ok canonical => canonical == endpoint
  | .error _ => false

/-- `canonical_key_digest`. -/
def canonicalKeyDigest (registryId endpoint : String) (representation : RawCacheRepresentation) :
    Except RawCacheError String := do
  let bytes ← (cache.keyJson.toVec
    ⟨rawKeyFormat, 1, registryId, endpoint, representation⟩).mapError fun error =>
      .invalid ("unable to encode raw cache key: " ++ error)
  return hex (cache.sha256 bytes).toList

/-- `RawCache::key`, which is `RawCacheKey::new`. -/
def key (endpoint : String) (representation : RawCacheRepresentation) :
    Except RawCacheError RawCacheKey := do
  let endpoint ← cache.canonicalRequestEndpoint endpoint
  let registryId := cache.registryId.text
  let digest ← cache.canonicalKeyDigest registryId endpoint representation
  return { registryId, endpoint, representation, digest }

/-- `validate_key_registry`. -/
def validateKeyRegistry (key : RawCacheKey) : Except RawCacheError Unit :=
  ensure (key.registryId = cache.registryId.text)
    (.invalid "raw cache key belongs to another registry")

/-! ### Reading an entry -/

/-- `validate_header`. -/
def validateHeader (key : RawCacheKey) (header : RawCacheHeader) : Except RawCacheError Unit := do
  let identity := RawCacheError.invalid "raw cache header identity is invalid"
  ensure (header.format = rawCacheFormat ∧ header.version = 1 ∧
      header.registryId = cache.registryId.text ∧ header.keySha256 = key.digest ∧
      header.endpoint = key.endpoint ∧ header.representation = key.representation ∧
      isHex32 header.keySha256 = true ∧ isHex32 header.bodySha256 = true ∧
      cache.isCanonicalEndpoint header.endpoint = true) identity
  let digest ← cache.canonicalKeyDigest header.registryId header.endpoint header.representation
  ensure (digest = header.keySha256) identity
  let observedAt ← cache.parseTimestamp header.observedAt
  let validatedAt ← cache.parseTimestamp header.validatedAt
  let _ ← validateEtag header.etag
  let _ ← cache.validateLastModified header.lastModified
  validateCacheControl header.cacheControl
  ensure (¬ validatedAt.nanosecond < observedAt.nanosecond)
    (.invalid "raw cache header metadata is invalid")

/-- `read_entry`, of the bytes of the file. -/
def readEntry (key : RawCacheKey) (bytes : List UInt8) : Except RawCacheError RawCacheEntry := do
  ensure (headerLengthBytes ≤ bytes.length) (.io "failed to fill whole buffer")
  let headerLength := readLittleEndian (bytes.take headerLengthBytes)
  ensure (headerLength ≠ 0 ∧ headerLength ≤ maxHeaderBytes)
    (.invalid "raw cache header length is invalid")
  let totalPrefix := headerLengthBytes + headerLength
  ensure (totalPrefix ≤ bytes.length) (.invalid "raw cache entry is truncated")
  let headerBytes := (bytes.drop headerLengthBytes).take headerLength
  let header ← (cache.headerJson.fromSlice headerBytes).mapError fun error =>
    .invalid ("invalid raw cache header: " ++ error)
  let canonical ← (cache.headerJson.toVec header).mapError fun error =>
    .invalid ("invalid raw cache header: " ++ error)
  ensure (canonical = headerBytes) (.invalid "raw cache header is not canonical JSON")
  cache.validateHeader key header
  ensure (header.bodyLength ≤ maxResponseBytes ∧ bytes.length = totalPrefix + header.bodyLength)
    (.invalid "raw cache body length is invalid")
  let body := (bytes.drop totalPrefix).take header.bodyLength
  ensure (hex (cache.sha256 body).toList = header.bodySha256)
    (.invalid "raw cache body digest mismatch")
  let observedAt ← cache.parseTimestamp header.observedAt
  let validatedAt ← cache.parseTimestamp header.validatedAt
  return {
    key, body, observedAt, validatedAt
    etag := header.etag
    lastModified := header.lastModified
    cacheControl := header.cacheControl }

/-- The file in the place of an entry as `lookup` takes it. -/
def lookupFile (key : RawCacheKey) : Option RawFile → RawCacheLookup
  | none => .missing
  | some (.regular bytes) =>
    if maxEntryBytes < bytes.length then .corrupt "raw cache entry exceeds size limit"
    else
      match cache.readEntry key bytes with
      | .ok entry => .hit entry
      | .error cause => .corrupt cause.message
  | some _ => .corrupt "raw cache entry is not a regular file"

/-- What `lookup` finds when no operation fails. -/
def find (entries : OrderedMap String RawFile) (key : RawCacheKey) : RawCacheLookup :=
  match cache.validateKeyRegistry key with
  | .error cause => .corrupt cause.message
  | .ok () => cache.lookupFile key (entries.get? key.digest)

/-- The text of an error of the device. -/
def ioFailure : String := "Input/output error (os error 5)"

/-- `RawCache::lookup`, where a failure makes the entry corrupt. -/
def lookup (key : RawCacheKey) : RawProgram RawCacheLookup :=
  Faulty.ask (.corrupt (RawCacheError.io ioFailure).message) fun session =>
    cache.find session.entries key

/-! ### Writing an entry -/

/-- A file operation that changes nothing the cache reads. -/
def device : RawProgram Unit :=
  Faulty.operate (.io ioFailure) fun session => .ok ((), session)

/-- `replace_file`, which puts a file in the place of an entry. -/
def replaceFile (key : RawCacheKey) (bytes : List UInt8) : RawProgram Unit :=
  Faulty.operate (.io ioFailure) fun session =>
    match session.entries.get? key.digest with
    | some .directory => .error (.io "Is a directory (os error 21)")
    | _ => .ok ((), { session with entries := session.entries.insert key.digest (.regular bytes) })

/-- The bytes of an entry. -/
def entryBytes (header body : List UInt8) : List UInt8 :=
  littleEndian headerLengthBytes header.length ++ header ++ body

/-- `header_for_write`. -/
def headerForWrite (key : RawCacheKey) (write : RawCacheWrite) :
    Except RawCacheError RawCacheHeader := do
  ensure (write.body.length ≤ maxResponseBytes)
    (.invalid "raw cache response body exceeds size limit")
  ensure (¬ write.validatedAt.nanosecond < write.observedAt.nanosecond)
    (.invalid "raw cache validation time precedes observation time")
  validateCacheControl write.cacheControl
  let observedAt ← cache.timestampString write.observedAt
  let validatedAt ← cache.timestampString write.validatedAt
  let etag ← validateEtag write.etag
  let lastModified ← cache.validateLastModified write.lastModified
  return {
    format := rawCacheFormat
    version := 1
    registryId := cache.registryId.text
    keySha256 := key.digest
    endpoint := key.endpoint
    representation := key.representation
    bodyLength := write.body.length
    bodySha256 := hex (cache.sha256 write.body).toList
    observedAt, validatedAt, etag, lastModified
    cacheControl := write.cacheControl }

/-- `write_entry`. -/
def writeEntry (key : RawCacheKey) (header : RawCacheHeader) (body : List UInt8) :
    RawProgram Unit := do
  let headerBytes ← Faulty.check ((cache.headerJson.toVec header).mapError fun error =>
    .invalid ("unable to encode raw cache header: " ++ error))
  Faulty.check (ensure (headerBytes.length ≤ maxHeaderBytes)
    (.invalid "raw cache header exceeds size limit"))
  -- the temporary file is created, written in three parts and synchronized
  device
  device
  device
  device
  device
  replaceFile key (entryBytes headerBytes body)
  -- the entry and the directory are synchronized
  device
  device

/-- `remove_entry`. -/
def removeEntry (key : RawCacheKey) : RawProgram Unit := do
  let file ← Faulty.operate (.io ioFailure) fun session : RawSession =>
    .ok (session.entries.get? key.digest, session)
  match file with
  | none => pure ()
  | some .directory =>
    Faulty.check (.error (.invalid "raw cache entry is not removable"))
  | some _ => do
    Faulty.operate (.io ioFailure) fun session : RawSession =>
      .ok ((), { session with entries := session.entries.erase key.digest })
    device

/-- A write that storing is allowed for is written, and the entry is removed otherwise. -/
def storeWrite (key : RawCacheKey) (write : RawCacheWrite) : RawProgram Unit := do
  if (cacheControlPolicy write.cacheControl 0).canStore = true then
    let header ← Faulty.check (cache.headerForWrite key write)
    cache.writeEntry key header write.body
  else removeEntry key

/-- `RawCache::publish`. -/
def publish (key : RawCacheKey) (write : RawCacheWrite) : RawProgram Unit := do
  Faulty.check (cache.validateKeyRegistry key)
  Faulty.check (ensure (write.status = 200)
    (.invalid "only HTTP 200 responses may be stored in the raw cache"))
  cache.storeWrite key write

/-- The entry that an update is of. -/
def RawCacheLookup.entry : RawCacheLookup → Except RawCacheError RawCacheEntry
  | .hit entry => .ok entry
  | .missing => .error (.invalid "raw cache entry is missing")
  | .corrupt error => .error (.invalid error)

/-- The write of an entry that was validated again. -/
def revalidatedWrite (entry : RawCacheEntry) (validatedAt : Timestamp)
    (headers : TransportResponseHeaders) : RawCacheWrite where
  status := 200
  body := entry.body
  observedAt := entry.observedAt
  validatedAt := validatedAt
  etag := headers.etag.or entry.etag
  lastModified := headers.lastModified.or entry.lastModified
  cacheControl :=
    match headers.cacheControl with
    | .absent => entry.cacheControl
    | other => other

/-- `update_validated_at_with_headers`. -/
def updateValidatedAtWithHeaders (key : RawCacheKey) (validatedAt : Timestamp)
    (headers : TransportResponseHeaders) : RawProgram Unit := do
  let found ← cache.lookup key
  let entry ← Faulty.check (RawCacheLookup.entry found)
  Faulty.check (ensure (¬ validatedAt.nanosecond < entry.validatedAt.nanosecond)
    (.invalid "raw cache validation time cannot move backwards"))
  cache.storeWrite key (revalidatedWrite entry validatedAt headers)

end RawCache

end Rsolve
