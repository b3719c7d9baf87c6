import Rsolve.Cran.AcquisitionWorking

/-!
# Runs of acquisitions

Acquisitions of a cache follow each other, each with its own server and clock, and each of them
returns, fails or stops after any of its operations. Between them anything may become of the files,
so long as it is not read as an entry. What an acquisition returns is parsed from a body that a
server sent for the same endpoint all the same.
-/
open Checked Faults Framing Ordered

namespace Rsolve

/-- An acquisition, or a file that something else puts in the place of an entry or removes. -/
inductive RawCall : Type 1
  | acquire {V : Type} (session : MetadataSession) (request : MetadataSession.Request)
      (parse : List UInt8 → Except MetadataParseFailure V) (operations : List Fate)
  | damage (digest : String) (file : Option RawFile)

/-- The state before anything happened. -/
def RawSession.initial : RawSession := ⟨.empty, []⟩

/-- The files after something became of one. -/
def RawSession.damaged (state : RawSession) (digest : String) : Option RawFile → RawSession
  | some file => ⟨state.entries.insert digest file, state.events⟩
  | none => ⟨state.entries.erase digest, state.events⟩

/-- The state after a call. -/
def RawCall.after (state : RawSession) : RawCall → RawSession
  | .acquire session request parse operations =>
    (session.acquireMetadata request parse state ⟨operations, []⟩).2.1
  | .damage digest file => state.damaged digest file

/-- The state after some calls. -/
def runRawCalls (calls : List RawCall) : RawSession :=
  calls.foldl RawCall.after .initial

/-- A call is one of a cache; what something else puts there is not read as an entry. -/
def RawCall.Admissible (cache : RawCache) : RawCall → Prop
  | .acquire session _ _ _ => session.cache = cache
  | .damage _ file => ∀ key entry, cache.IsKey key → cache.lookupFile key file ≠ .hit entry

/-- A server sent a body for an endpoint. -/
def RawCache.Sent (cache : RawCache) (endpoint : String) (events : List SessionEvent)
    (body : List UInt8) : Prop :=
  ∃ input validators response, SessionEvent.exchange input validators (.ok response) ∈ events ∧
    cache.canonicalRequestEndpoint input = cache.canonicalRequestEndpoint endpoint ∧
    response.status = 200 ∧ response.body = body

section Steps

variable {cache : RawCache} {session : MetadataSession} {request : MetadataSession.Request}
  {state before after : RawSession} {key : Option RawCacheKey} {body : List UInt8}
  {origin : MetadataAcquisitionOutcome} {calls : List RawCall}

/-- Nothing is found at first. -/
theorem RawSession.Genuine.initial : RawSession.initial.Genuine cache := by
  have absent : ∀ key entry, cache.IsKey key →
      cache.find RawSession.initial.entries key ≠ .hit entry := by
    intro key entry made found
    rw [made.find_missing rfl] at found
    cases found
  exact ⟨fun key entry made found => absurd found (absent key entry made),
    fun key entry made found => absurd found (absent key entry made)⟩

/-- What is not read as an entry is not found. -/
theorem RawSession.Genuine.damaged (genuine : state.Genuine cache) {digest : String}
    {file : Option RawFile}
    (unread : ∀ key entry, cache.IsKey key → cache.lookupFile key file ≠ .hit entry) :
    (state.damaged digest file).Genuine cache := by
  cases file with
  | none => exact genuine.erase digest
  | some file =>
    have before : ∀ key entry, cache.IsKey key →
        cache.find (state.entries.insert digest file) key = .hit entry →
        cache.find state.entries key = .hit entry := by
      intro key entry made found
      rw [made.find, OrderedMap.get?_insert] at found
      by_cases same : key.digest = digest
      · rw [if_pos same] at found
        exact absurd found (unread key entry made)
      · rw [if_neg same] at found
        rw [made.find]
        exact found
    exact ⟨fun key entry made found => genuine.vouched key entry made (before key entry made found),
      fun key entry made found => genuine.storable key entry made (before key entry made found)⟩

/-- An acquisition without a key changes nothing. -/
theorem acquireMetadata_keyless {V : Type} {parse : List UInt8 → Except MetadataParseFailure V}
    {cause : MetadataAcquisitionFailure} (unkeyed : session.cacheKey request = .error cause)
    (fates : Fates) :
    session.acquireMetadata request parse state fates = (.raised cause, state, fates) := by
  unfold MetadataSession.acquireMetadata
  rw [unkeyed]
  rfl

/-- Every call keeps what is found vouched for. -/
theorem RawSession.Genuine.call (lawful : cache.Lawful) (genuine : state.Genuine cache)
    {call : RawCall} (admissible : call.Admissible cache) :
    (RawCall.after state call).Genuine cache := by
  cases call with
  | damage digest file => exact genuine.damaged admissible
  | acquire session request parse operations =>
    have same : session.cache = cache := admissible
    subst same
    have calm : (⟨operations, []⟩ : Fates).Calm := List.not_mem_nil
    cases keyed : session.cacheKey request with
    | error cause =>
      simp only [RawCall.after, acquireMetadata_keyless keyed]
      exact genuine
    | ok key =>
      exact (traces_acquireMetadata lawful genuine keyed parse state _ calm genuine rfl).1.2.1

/-- Every run keeps what is found vouched for. -/
theorem RawSession.Genuine.run (lawful : cache.Lawful) (genuine : state.Genuine cache)
    (admissible : ∀ call ∈ calls, call.Admissible cache) :
    (calls.foldl RawCall.after state).Genuine cache := by
  induction calls generalizing state with
  | nil => exact genuine
  | cons call rest ih =>
    exact ih (genuine.call lawful (admissible call List.mem_cons_self))
      fun later member => admissible later (List.mem_cons_of_mem _ member)

/-- What is found under a key was sent for its endpoint. -/
theorem RawSession.Genuine.sent (genuine : state.Genuine cache) {found : RawCacheKey}
    {endpoint : String} {representation : RawCacheRepresentation} {entry : RawCacheEntry}
    (made : cache.key endpoint representation = .ok found)
    (hit : cache.find state.entries found = .hit entry) :
    cache.Sent endpoint state.events entry.body := by
  have vouched := genuine.vouched found entry (RawCache.isKey_of_key made) hit
  obtain ⟨input, validators, response, member, settled, status, same⟩ := vouched.exists_answer
  rw [RawCache.key_eq_of_find hit] at settled
  exact ⟨input, validators, response, member, settled.trans (RawCache.key_eq_ok made).1.symm,
    status, same⟩

/-- What was sent was sent afterwards. -/
theorem RawCache.Sent.mono {endpoint : String} {events more : List SessionEvent}
    (sent : cache.Sent endpoint events body) (grown : events <:+ more) :
    cache.Sent endpoint more body := by
  obtain ⟨input, validators, response, member, rest⟩ := sent
  exact ⟨input, validators, response, grown.subset member, rest⟩

/-- What an acquisition has was sent for its endpoint. -/
theorem Acquired.sent (genuine : before.Genuine session.cache)
    (keyed : session.cacheKey request = .ok key) (touches : Touches key before after)
    (acquired : Acquired session request.endpoint key before after body origin) :
    session.cache.Sent request.endpoint after.events body := by
  cases acquired with
  | cached found trusting hit young =>
    exact (genuine.sent (key_of_cacheKey keyed _ found) hit).mono (List.suffix_cons _ _)
  | confirmed found hit status bodiless happened stored =>
    exact (genuine.sent (key_of_cacheKey keyed _ found) hit).mono touches.events
  | @fetched validators response instant middle _ status happened stored =>
    refine ⟨request.endpoint, validators, response, ?_, rfl, status, rfl⟩
    rw [happened]
    exact List.mem_cons_of_mem _ List.mem_cons_self

end Steps

namespace Small

/-- What a server says with the index. -/
def dcfResponse : TransportResponse := ⟨200, ⟨none, none, none, .absent⟩, dcfBody⟩

/-- A session of that cache at that time with a server that sends the index. -/
def dcfSession : MetadataSession where
  cache := dcfCache
  attached := true
  refreshMetadata := false
  transport := fun _ _ _ => .ok dcfResponse
  clock := fun _ => dcfTime

/-- A request for the index. -/
def dcfRequest : MetadataSession.Request :=
  ⟨dcfEndpoint, .currentDcf, "current", "dcf"⟩

/-- An index is read when it is that one. -/
def readDcf (body : List UInt8) : Except MetadataParseFailure Nat :=
  if body = dcfBody then .ok 1 else .error (.invalid "invalid DCF")

/-- The key of a request for the index. -/
theorem dcfSession_keyed : dcfSession.cacheKey dcfRequest = .ok (some dcfKey) := by
  have mapped : dcfSession.cacheKey dcfRequest =
      ((dcfCache.key dcfEndpoint .currentDcf).map some).mapError .cache := rfl
  rw [mapped, dcfCache_key]
  rfl

/-- The server sends the index. -/
theorem dcfSession_serves : Serves dcfSession dcfKey readDcf dcfResponse where
  status := rfl
  parses := ⟨1, if_pos rfl⟩
  fits := fun events storable =>
    ⟨dcfHeader, dcfHeaderText, dcfCache_headed, formatOf_toVec _ _ _, by decide +kernel⟩

/-- An index that cannot be read is fetched again. -/
theorem readDcf_tolerant {body : List UInt8} {error : MetadataParseFailure}
    (failed : readDcf body = .error error) : error.allowsCachedRetry = true := by
  unfold readDcf at failed
  split at failed
  · cases failed
  · rw [← Except.error.inj failed]
    rfl

/-- The index is acquired, and then a link takes the place of the entry. -/
def dcfCalls : List RawCall :=
  [.acquire dcfSession dcfRequest readDcf [], .damage dcfKeyDigest (some .symlink)]

/-- The calls are calls of the cache. -/
theorem dcfCalls_admissible : ∀ call ∈ dcfCalls, call.Admissible dcfSession.cache := by
  intro call member
  rcases List.mem_cons.mp member with rfl | second
  · rfl
  · rw [List.mem_singleton.mp second]
    exact fun key entry made found => nomatch found

/-- No directory is in the place of the entry. -/
theorem dcfCalls_plain :
    (runRawCalls dcfCalls).entries.get? dcfKey.digest ≠ some .directory := by
  have linked : (runRawCalls dcfCalls).entries.get? dcfKeyDigest = some .symlink :=
    (OrderedMap.get?_insert _ _ _ _).trans (if_pos rfl)
  intro directory
  cases linked.symm.trans directory

/-- The index is acquired once more. -/
theorem dcfCalls_works : ∃ value source origin after,
    Works (dcfSession.acquireMetadata dcfRequest readDcf) (runRawCalls dcfCalls) []
      (value, source, origin) after [] := by
  obtain ⟨value, source, origin, after, works, -⟩ := works_acquireMetadata dcfCache_lawful
    dcfSession_keyed dcfCalls_plain (fun _ => ⟨dcfResponse, rfl, dcfSession_serves⟩)
    (fun _ _ _ => ⟨dcfResponse, rfl, .inl dcfSession_serves⟩)
    fun _ _ _ failed => readDcf_tolerant failed
  exact ⟨value, source, origin, after, works⟩

end Small

section Runs

variable {session : MetadataSession} {request : MetadataSession.Request} {calls : List RawCall}
  {V : Type} {parse : List UInt8 → Except MetadataParseFailure V} {operations : List Fate}
  {value : V} {source : SourceInput} {origin : MetadataAcquisitionOutcome} {after : RawSession}
  {left : Fates}

/-- Whatever happened before, and whatever fails, an acquisition that returns a value has parsed it
from a body that a server sent for the same endpoint: from an entry that is young enough and was not
to be refreshed, from an entry that the server has just confirmed for the validators of that entry,
or from the answer that it has just sent. What the server said last is what is found for its key
afterwards, and nothing else is changed. -/
theorem acquireMetadata_sent (lawful : session.cache.Lawful)
    (admissible : ∀ call ∈ calls, call.Admissible session.cache)
    (returned : session.acquireMetadata request parse (runRawCalls calls) ⟨operations, []⟩ =
      (.returned (value, source, origin), after, left)) :
    after.Genuine session.cache ∧ ∃ key body, session.cacheKey request = .ok key ∧
      parse body = .ok value ∧ source.contentSha256 = session.cache.sha256 body ∧
        session.cache.Sent request.endpoint after.events body ∧
          Touches key (runRawCalls calls) after ∧
            Acquired session request.endpoint key (runRawCalls calls) after body origin := by
  have genuine : (runRawCalls calls).Genuine session.cache :=
    RawSession.Genuine.initial.run lawful admissible
  have calm : (⟨operations, []⟩ : Fates).Calm := List.not_mem_nil
  cases keyed : session.cacheKey request with
  | error cause =>
    rw [acquireMetadata_keyless keyed] at returned
    cases returned
  | ok key =>
    obtain ⟨⟨-, kept, touches⟩, meets⟩ :=
      traces_acquireMetadata lawful genuine keyed parse _ _ calm genuine rfl
    rw [returned] at kept touches meets
    obtain ⟨body, parsed, hashed, acquired⟩ := meets _ rfl
    exact ⟨kept, key, body, rfl, parsed, hashed, acquired.sent genuine keyed touches, touches,
      acquired⟩

/-- The index that is acquired after a link took the place of its entry was sent. -/
theorem acquireMetadata_sent_index : ∃ (value : Nat) (source : SourceInput)
    (origin : MetadataAcquisitionOutcome) (after : RawSession), after.Genuine Small.dcfCache ∧
    ∃ key body, Small.dcfSession.cacheKey Small.dcfRequest = .ok key ∧
        Small.readDcf body = .ok value ∧
          source.contentSha256 = Small.dcfCache.sha256 body ∧
            Small.dcfCache.Sent Small.dcfEndpoint after.events body ∧
              Touches key (runRawCalls Small.dcfCalls) after ∧
                Acquired Small.dcfSession Small.dcfEndpoint key (runRawCalls Small.dcfCalls) after
                  body origin := by
  obtain ⟨value, source, origin, after, works⟩ := Small.dcfCalls_works
  exact ⟨value, source, origin, after,
    acquireMetadata_sent Small.dcfCache_lawful Small.dcfCalls_admissible works⟩

/-- Whatever happened before, an acquisition in which nothing fails returns a value when the server
answers, so long as no directory is in the place of the entry and no entry that is found there is
refused for good: the value is parsed from a body that a server sent for the endpoint, and that body
is what is found afterwards, unless it may not be stored. -/
theorem acquireMetadata_completes (lawful : session.cache.Lawful)
    (admissible : ∀ call ∈ calls, call.Admissible session.cache) {key : RawCacheKey}
    (keyed : session.cacheKey request = .ok (some key))
    (plain : (runRawCalls calls).entries.get? key.digest ≠ some .directory)
    (serves : ∀ events, ∃ response,
      session.transport events request.endpoint .none = .ok response ∧
        Serves session key parse response)
    (validates : ∀ entry, session.cache.find (runRawCalls calls).entries key = .hit entry →
      ∀ events, ∃ response, session.transport events request.endpoint
          (.fromValues entry.etag entry.lastModified) = .ok response ∧
        (Serves session key parse response ∨ Confirms session key entry response))
    (tolerant : ∀ entry error, session.cache.find (runRawCalls calls).entries key = .hit entry →
      parse entry.body = .error error → error.allowsCachedRetry = true) :
    ∃ value source origin after body,
      Works (session.acquireMetadata request parse) (runRawCalls calls) [] (value, source, origin)
          after [] ∧
        parse body = .ok value ∧ source.contentSha256 = session.cache.sha256 body ∧
          session.cache.Sent request.endpoint after.events body ∧
            RawCache.Rests parse key value (session.cache.find after.entries key) := by
  have genuine : (runRawCalls calls).Genuine session.cache :=
    RawSession.Genuine.initial.run lawful admissible
  have calm : (⟨[], []⟩ : Fates).Calm := List.not_mem_nil
  obtain ⟨value, source, origin, after, works, rests⟩ :=
    works_acquireMetadata lawful keyed plain serves validates tolerant
  obtain ⟨⟨-, -, touches⟩, meets⟩ :=
    traces_acquireMetadata lawful genuine keyed parse _ _ calm genuine rfl
  have outcome : session.acquireMetadata request parse (runRawCalls calls) ⟨[], []⟩ =
      (.returned (value, source, origin), after, ⟨[], []⟩) := works
  rw [outcome] at touches meets
  obtain ⟨body, parsed, hashed, acquired⟩ := meets _ rfl
  exact ⟨value, source, origin, after, body, works, parsed, hashed,
    acquired.sent genuine keyed touches, rests⟩

/-- The index is acquired after a link took the place of its entry. -/
theorem acquireMetadata_completes_index : ∃ value source origin after body,
    Works (Small.dcfSession.acquireMetadata Small.dcfRequest Small.readDcf)
        (runRawCalls Small.dcfCalls) [] (value, source, origin) after [] ∧
      Small.readDcf body = .ok value ∧ source.contentSha256 = Small.dcfCache.sha256 body ∧
        Small.dcfCache.Sent Small.dcfEndpoint after.events body ∧
          RawCache.Rests Small.readDcf Small.dcfKey value
            (Small.dcfCache.find after.entries Small.dcfKey) :=
  acquireMetadata_completes Small.dcfCache_lawful Small.dcfCalls_admissible
    Small.dcfSession_keyed Small.dcfCalls_plain
    (fun _ => ⟨Small.dcfResponse, rfl, Small.dcfSession_serves⟩)
    (fun _ _ _ => ⟨Small.dcfResponse, rfl, .inl Small.dcfSession_serves⟩)
    fun _ _ _ failed => Small.readDcf_tolerant failed

end Runs

end Rsolve
