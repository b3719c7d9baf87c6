import Rsolve.Cran.RawCache
import Rsolve.Cran.SnapshotCache

/-!
# Acquiring metadata

A session acquires the body of an endpoint from its raw cache or from the server. A cached body that
is young enough is used as it is; an older one is validated with what the server said to send, and a
server that answers so keeps it. Where the cache has none, or none that can be read, the body is
fetched. A cached body that does not parse is fetched once more. What was fetched or validated is
stored before it is returned.
-/
open Checked Faults Framing Ordered

namespace Rsolve

/-- `validated_header_value`. -/
def validatedHeaderValue (value : Option String) : Option String := do
  let value ← value
  if value.toList.any fun character => character == '\r' || character == '\n' then none
  else
    let trimmed := String.ofList (trim value.toList)
    if trimmed.toList = [] ∨ 8 * 1024 < byteLength trimmed ∨
        trimmed.toList.any isControl = true then none
    else some trimmed

/-- `TransportValidators::from_values`. -/
def TransportValidators.fromValues (etag lastModified : Option String) : TransportValidators :=
  ⟨validatedHeaderValue etag, validatedHeaderValue lastModified⟩

/-- No validators. -/
def TransportValidators.none : TransportValidators := ⟨.none, .none⟩

/-- `MetadataParseFailure`. -/
inductive MetadataParseFailure
  | invalid (diagnostic : String)
  | noFallback (diagnostic : String)
  | snapshotInvalid (diagnostic : String)
deriving DecidableEq

namespace MetadataParseFailure

/-- `MetadataParseFailure::allows_fallback`. -/
def allowsFallback : MetadataParseFailure → Bool
  | .invalid _ => true
  | _ => false

/-- `MetadataParseFailure::allows_cached_retry`. -/
def allowsCachedRetry : MetadataParseFailure → Bool
  | .snapshotInvalid _ => false
  | _ => true

/-- `MetadataParseFailure::category`. -/
def category : MetadataParseFailure → CandidateLoadErrorCategory
  | .snapshotInvalid _ => .snapshotInvalid
  | _ => .metadataInvalid

/-- `MetadataParseFailure::fmt` — the error text. -/
def message : MetadataParseFailure → String
  | .invalid diagnostic => diagnostic
  | .noFallback diagnostic => diagnostic
  | .snapshotInvalid diagnostic => diagnostic

end MetadataParseFailure

/-- `MetadataAcquisitionFailure`. -/
structure MetadataAcquisitionFailure where
  status : Option UInt16
  retryAfter : Option String
  category : CandidateLoadErrorCategory
  diagnostic : String
  fallbackAllowed : Bool
deriving DecidableEq

namespace MetadataAcquisitionFailure

/-- `MetadataAcquisitionFailure::cache`. -/
def cache (error : RawCacheError) : MetadataAcquisitionFailure :=
  ⟨none, none, .snapshotInvalid, "CRAN metadata raw cache is invalid: " ++ error.message, false⟩

/-- `MetadataAcquisitionFailure::response`. -/
def response (status : UInt16) (diagnostic : String) (retryAfter : Option String) :
    MetadataAcquisitionFailure :=
  ⟨some status, retryAfter, .transportFailure, diagnostic, true⟩

/-- `MetadataAcquisitionFailure::transport`. -/
def transport (error : String) : MetadataAcquisitionFailure :=
  ⟨none, none, .transportFailure, "transport failure: " ++ error, true⟩

/-- `MetadataAcquisitionFailure::invalid`. -/
def invalid (status : Option UInt16) (diagnostic : String) : MetadataAcquisitionFailure :=
  ⟨status, none, .metadataInvalid, diagnostic, true⟩

/-- `MetadataAcquisitionFailure::parse`. -/
def parse (status : Option UInt16) (diagnostic : String) (allowsFallback : Bool) :
    MetadataAcquisitionFailure :=
  { invalid status diagnostic with fallbackAllowed := allowsFallback }

/-- A body that was fetched and does not parse. -/
def ofParse (error : MetadataParseFailure) : MetadataAcquisitionFailure :=
  ⟨some 200, none, error.category, error.message, error.allowsFallback⟩

/-- A response that is not expected. -/
def unexpected (response : TransportResponse) : MetadataAcquisitionFailure :=
  .response response.status ("unexpected metadata status " ++ toString response.status.toNat)
    response.headers.retryAfter

end MetadataAcquisitionFailure

/-- `MetadataAcquisitionOutcome`, which is also `CurrentBodyOrigin`. -/
inductive MetadataAcquisitionOutcome
  | cached
  | network200
  | revalidated304
deriving DecidableEq

/-- `CurrentBody`. -/
structure CurrentBody where
  body : List UInt8
  observedAtTimestamp : Timestamp
  observedAt : String
  etag : Option String
  lastModified : Option String
  cacheControl : CacheControlHeader

/-- What a refresh session uses: its raw cache, when it is attached, the server and the clock, which
may answer differently whenever they are asked. -/
structure MetadataSession where
  cache : RawCache
  attached : Bool
  refreshMetadata : Bool
  transport : List SessionEvent → String → TransportValidators → Except String TransportResponse
  clock : List SessionEvent → Timestamp

/-- A program of a session. -/
abbrev AcquisitionProgram (α : Type) : Type := Faulty RawSession MetadataAcquisitionFailure α

namespace MetadataSession

variable (session : MetadataSession)

/-- Send a request. -/
def get (endpoint : String) (validators : TransportValidators) :
    AcquisitionProgram (Except String TransportResponse) := fun state fates =>
  let answer := session.transport state.events endpoint validators
  (.returned answer,
    { state with events := .exchange endpoint validators answer :: state.events }, fates)

/-- `CranRefreshSession::now`. -/
def now : AcquisitionProgram Timestamp := fun state fates =>
  let instant := session.clock state.events
  (.returned instant, { state with events := .clock instant :: state.events }, fates)

/-- `CurrentBody::from_cache`. -/
def fromCache (entry : RawCacheEntry) : CurrentBody where
  body := entry.body
  observedAtTimestamp := entry.observedAt
  observedAt := session.cache.strftime entry.observedAt
  etag := entry.etag
  lastModified := entry.lastModified
  cacheControl := entry.cacheControl

/-- `CurrentBody::from_response`. -/
def fromResponse (response : TransportResponse) (observedAt : Timestamp) : CurrentBody where
  body := response.body
  observedAtTimestamp := observedAt
  observedAt := session.cache.strftime observedAt
  etag := response.headers.etag
  lastModified := response.headers.lastModified
  cacheControl := response.headers.cacheControl

/-- A cached body that the server validated, with what the answer says about it. -/
def validatedBody (entry : RawCacheEntry) (headers : TransportResponseHeaders) : CurrentBody :=
  { session.fromCache entry with
    cacheControl :=
      match headers.cacheControl with
      | .absent => entry.cacheControl
      | other => other
    etag := headers.etag.or entry.etag
    lastModified := headers.lastModified.or entry.lastModified }

/-- `CurrentBody::source_as`. -/
def sourceAs (body : CurrentBody) (kind representation endpoint : String) : SourceInput where
  kind := kind
  representation := representation
  contentSha256 := session.cache.sha256 body.body
  etag := body.etag
  lastModified := body.lastModified
  observedAt := body.observedAt
  endpoint := endpoint

/-- Raise an error. -/
def raise {α : Type} (failure : MetadataAcquisitionFailure) : AcquisitionProgram α :=
  Faulty.check (.error failure)

/-- A body that was fetched. -/
def network (response : TransportResponse) :
    AcquisitionProgram (CurrentBody × MetadataAcquisitionOutcome) := do
  let instant ← session.now
  return (session.fromResponse response instant, .network200)

/-- The body of an unconditional request. -/
def fetch (endpoint : String) : AcquisitionProgram (CurrentBody × MetadataAcquisitionOutcome) := do
  match ← session.get endpoint .none with
  | .ok response =>
    if response.status = 200 then session.network response
    else raise (.unexpected response)
  | .error error => raise (.transport error)

/-- The body of an entry, validated or fetched. -/
def revalidate (endpoint : String) (entry : RawCacheEntry) :
    AcquisitionProgram (CurrentBody × MetadataAcquisitionOutcome) := do
  match ← session.get endpoint (.fromValues entry.etag entry.lastModified) with
  | .ok response =>
    if response.status = 304 ∧ response.body = [] then
      return (session.validatedBody entry response.headers, .revalidated304)
    else if response.status = 200 then session.network response
    else raise (.unexpected response)
  | .error error => raise (.transport error)

/-- The body of an entry that was found. -/
def useEntry (endpoint : String) (entry : RawCacheEntry) :
    AcquisitionProgram (CurrentBody × MetadataAcquisitionOutcome) := do
  let policy := cacheControlPolicy entry.cacheControl defaultCompatibleGenerationTtl.toNat
  if session.refreshMetadata then session.revalidate endpoint entry
  else do
    let instant ← session.now
    if permitsReuse instant entry.validatedAt policy then
      return (session.fromCache entry, .cached)
    else session.revalidate endpoint entry

/-- The first body that `acquire_metadata` parses. -/
def candidate (endpoint : String) (key : Option RawCacheKey) :
    AcquisitionProgram (CurrentBody × MetadataAcquisitionOutcome) := do
  match key with
  | none => session.fetch endpoint
  | some key =>
    match ← (session.cache.lookup key).mapErrors .cache with
    | .hit entry => session.useEntry endpoint entry
    | _ => session.fetch endpoint

/-- Store what was fetched or validated. -/
def store (key : RawCacheKey) (body : CurrentBody) :
    MetadataAcquisitionOutcome → AcquisitionProgram Unit
  | .cached => pure ()
  | .network200 =>
    (session.cache.publish key {
      status := 200
      body := body.body
      observedAt := body.observedAtTimestamp
      validatedAt := body.observedAtTimestamp
      etag := body.etag
      lastModified := body.lastModified
      cacheControl := body.cacheControl }).mapErrors .cache
  | .revalidated304 => do
    let instant ← session.now
    (session.cache.updateValidatedAtWithHeaders key instant
      ⟨body.etag, body.lastModified, none, body.cacheControl⟩).mapErrors .cache

/-- What was asked for: `acquire_metadata` without the body that it parses. -/
structure Request where
  endpoint : String
  representation : RawCacheRepresentation
  sourceKind : String
  sourceRepresentation : String

/-- Return the value of a body, once it is stored. -/
def accept {V : Type} (request : Request) (key : Option RawCacheKey) (body : CurrentBody)
    (origin : MetadataAcquisitionOutcome) (value : V) :
    AcquisitionProgram (V × SourceInput × MetadataAcquisitionOutcome) := do
  match key with
  | none => pure ()
  | some key => session.store key body origin
  return (value, session.sourceAs body request.sourceKind request.sourceRepresentation
    request.endpoint, origin)

/-- The body of the unconditional request after a cached body that does not parse. -/
def recover (endpoint : String) (error : MetadataParseFailure) :
    AcquisitionProgram (CurrentBody × MetadataAcquisitionOutcome) := do
  match ← session.get endpoint .none with
  | .ok response =>
    if response.status = 200 then session.network response
    else raise (.parse (some response.status) ("cached metadata was invalid (" ++ error.message ++
      ") and unconditional recovery returned HTTP " ++ toString response.status.toNat)
      error.allowsFallback)
  | .error fetchError =>
    raise (.parse none ("cached metadata was invalid (" ++ error.message ++
      ") and unconditional recovery failed: " ++ fetchError) error.allowsFallback)

/-- The key of a request, when the cache is attached. -/
def cacheKey (request : Request) : Except MetadataAcquisitionFailure (Option RawCacheKey) :=
  if session.attached then
    ((session.cache.key request.endpoint request.representation).map some).mapError .cache
  else .ok none

/-- `acquire_metadata`. -/
def acquireMetadata {V : Type} (request : Request)
    (parse : List UInt8 → Except MetadataParseFailure V) :
    AcquisitionProgram (V × SourceInput × MetadataAcquisitionOutcome) := do
  let key ← Faulty.check (session.cacheKey request)
  let (body, origin) ← session.candidate request.endpoint key
  match parse body.body with
  | .ok value => session.accept request key body origin value
  | .error error =>
    if origin ≠ .network200 ∧ error.allowsCachedRetry = true then do
      let (body, origin) ← session.recover request.endpoint error
      match parse body.body with
      | .ok value => session.accept request key body origin value
      | .error error => raise (.ofParse error)
    else raise (.ofParse error)

end MetadataSession

end Rsolve
