import Rsolve.Cran.AcquisitionSteps

/-!
# Acquisitions in which the operations work

Whatever is in the place of an entry, so long as it is not a directory, an acquisition returns a
value when the server answers with bodies that parse. What it leaves there is the body of that
value, or nothing where the server does not let it be stored.
-/
open Checked Faults Framing Ordered

namespace Rsolve

/-- A write that may be stored can be: its header can be made and written, and is not too long. -/
def RawCache.Fits (cache : RawCache) (key : RawCacheKey) (write : RawCacheWrite) : Prop :=
  (cacheControlPolicy write.cacheControl 0).canStore = true →
    ∃ header headerBytes, cache.headerForWrite key write = .ok header ∧
      cache.headerJson.toVec header = .ok headerBytes ∧ headerBytes.length ≤ maxHeaderBytes

/-- What is found is a value that a body parses to, where it may be stored. -/
def RawCache.Rests {V : Type} (parse : List UInt8 → Except MetadataParseFailure V)
    (key : RawCacheKey) (value : V) (found : RawCacheLookup) : Prop :=
  ∃ entry : RawCacheEntry, entry.key = key ∧ parse entry.body = .ok value ∧
    (found = .hit entry ∨
      found = .missing ∧ (cacheControlPolicy entry.cacheControl 0).canStore = false)

section Writing

variable {cache : RawCache} {key : RawCacheKey} {write : RawCacheWrite} {state : RawSession}

/-- An operation of the device works. -/
theorem works_device : Works RawCache.device state [] () state [] :=
  .operate rfl

/-- A file takes the place of one that is no directory. -/
theorem works_replaceFile {bytes : List UInt8}
    (plain : state.entries.get? key.digest ≠ some .directory) :
    Works (RawCache.replaceFile key bytes) state [] ()
      ⟨state.entries.insert key.digest (.regular bytes), state.events⟩ [] := by
  apply Works.operate
  split
  · next directory => exact absurd directory plain
  · rfl

/-- A file is removed that is no directory. -/
theorem works_removeEntry (made : cache.IsKey key)
    (plain : state.entries.get? key.digest ≠ some .directory) :
    ∃ entries, Works (RawCache.removeEntry key) state [] () ⟨entries, state.events⟩ [] ∧
      cache.find entries key = .missing := by
  have looked : Works (Faulty.operate (RawCacheError.io RawCache.ioFailure)
      fun session : RawSession => .ok (session.entries.get? key.digest, session)) state []
      (state.entries.get? key.digest) state [] := .operate rfl
  have erased : cache.find (state.entries.erase key.digest) key = .missing := by
    apply made.find_missing
    rw [OrderedMap.get?_erase, if_pos rfl]
  have erases : Works (Faulty.operate (RawCacheError.io RawCache.ioFailure)
      fun session : RawSession =>
        .ok ((), { session with entries := session.entries.erase key.digest })) state [] ()
      ⟨state.entries.erase key.digest, state.events⟩ [] := .operate rfl
  cases there : state.entries.get? key.digest with
  | none =>
    rw [there] at looked
    exact ⟨state.entries, looked.bind .pure, made.find_missing there⟩
  | some file =>
    rw [there] at looked
    cases file with
    | directory => exact absurd there plain
    | regular bytes => exact ⟨_, looked.bind (erases.bind works_device), erased⟩
    | symlink => exact ⟨_, looked.bind (erases.bind works_device), erased⟩

/-- A write that can be stored is found. -/
theorem works_storeWrite (lawful : cache.Lawful) (made : cache.IsKey key)
    (fits : cache.Fits key write) (plain : state.entries.get? key.digest ≠ some .directory) :
    ∃ entries, Works (cache.storeWrite key write) state [] () ⟨entries, state.events⟩ [] ∧
      cache.find entries key = RawCache.stored key write := by
  unfold RawCache.storeWrite RawCache.stored
  by_cases storable : (cacheControlPolicy write.cacheControl 0).canStore = true
  · simp only [if_pos storable]
    obtain ⟨header, headerBytes, headed, written, short⟩ := fits storable
    have encoded : Works (Faulty.check ((cache.headerJson.toVec header).mapError fun error =>
        RawCacheError.invalid ("unable to encode raw cache header: " ++ error))) state []
        headerBytes state [] := .check (mapError_eq_ok.mpr written)
    have bounded : Works (Faulty.check (ensure (headerBytes.length ≤ maxHeaderBytes)
        (RawCacheError.invalid "raw cache header exceeds size limit"))) state [] () state [] :=
      .check (ensure_of short)
    have writes : Works (cache.writeEntry key header write.body) state [] ()
        ⟨state.entries.insert key.digest
          (.regular (RawCache.entryBytes headerBytes write.body)), state.events⟩ [] :=
      encoded.bind (bounded.bind (works_device.bind (works_device.bind (works_device.bind
        (works_device.bind (works_device.bind ((works_replaceFile plain).bind
          (works_device.bind works_device))))))))
    exact ⟨_, (Works.check headed).bind writes, lawful.find_insert made headed written short⟩
  · simp only [if_neg storable]
    exact works_removeEntry made plain

/-- A body that is stored, or may not be, rests with its value. -/
theorem rests_stored {V : Type} {parse : List UInt8 → Except MetadataParseFailure V} {value : V}
    (parsed : parse write.body = .ok value) :
    RawCache.Rests parse key value (RawCache.stored key write) := by
  refine ⟨RawCache.entryOf key write, rfl, parsed, ?_⟩
  unfold RawCache.stored
  by_cases storable : (cacheControlPolicy write.cacheControl 0).canStore = true
  · rw [if_pos storable]
    exact .inl rfl
  · rw [if_neg storable]
    exact .inr ⟨rfl, Bool.eq_false_iff.mpr storable⟩

end Writing

section Acquiring

variable {session : MetadataSession} {request : MetadataSession.Request} {key : RawCacheKey}
  {state : RawSession} {V : Type} {parse : List UInt8 → Except MetadataParseFailure V}
  {response : TransportResponse} {endpoint : String} {validators : TransportValidators}
  {entry : RawCacheEntry}

/-- An answer has a body that parses, and that can be stored at any time. -/
structure Serves (session : MetadataSession) (key : RawCacheKey)
    (parse : List UInt8 → Except MetadataParseFailure V) (response : TransportResponse) : Prop where
  status : response.status = 200
  parses : ∃ value, parse response.body = .ok value
  fits : ∀ events, session.cache.Fits key (fetchedWrite response (session.clock events))

/-- An answer confirms an entry, which can be stored with it at any time. -/
structure Confirms (session : MetadataSession) (key : RawCacheKey) (entry : RawCacheEntry)
    (response : TransportResponse) : Prop where
  status : response.status = 304
  bodiless : response.body = []
  forward : ∀ events, entry.validatedAt.nanosecond ≤ (session.clock events).nanosecond
  fits : ∀ events, session.cache.Fits key
    (RawCache.revalidatedWrite entry (session.clock events) response.headers)

/-- A request is answered. -/
theorem works_get {answer : Except String TransportResponse}
    (answered : session.transport state.events endpoint validators = answer) :
    Works (session.get endpoint validators) state [] answer
      ⟨state.entries, .exchange endpoint validators answer :: state.events⟩ [] := by
  rw [← answered]
  rfl

/-- The clock is read. -/
theorem works_now : Works session.now state [] (session.clock state.events)
    ⟨state.entries, .clock (session.clock state.events) :: state.events⟩ [] := rfl

/-- A body of an acquisition in which nothing fails. -/
inductive Ready (session : MetadataSession) (key : RawCacheKey)
    (parse : List UInt8 → Except MetadataParseFailure V) (entries : OrderedMap String RawFile) :
    CurrentBody → MetadataAcquisitionOutcome → Prop
  | cached {entry : RawCacheEntry} (hit : session.cache.find entries key = .hit entry) :
      Ready session key parse entries (session.fromCache entry) .cached
  | confirmed {entry : RawCacheEntry} {response : TransportResponse}
      (hit : session.cache.find entries key = .hit entry)
      (confirms : Confirms session key entry response) :
      Ready session key parse entries (session.validatedBody entry response.headers)
        .revalidated304
  | fetched {response : TransportResponse} (serves : Serves session key parse response)
      (events : List SessionEvent) :
      Ready session key parse entries (session.fromResponse response (session.clock events))
        .network200

/-- An answer with a body is taken with the time after it. -/
theorem works_network (session : MetadataSession) (response : TransportResponse)
    (state : RawSession) :
    Works (session.network response) state []
      (session.fromResponse response (session.clock state.events), .network200)
      ⟨state.entries, .clock (session.clock state.events) :: state.events⟩ [] :=
  works_now.bind .pure

/-- A body is fetched from a server that serves it. -/
theorem works_fetch (answered : session.transport state.events endpoint .none = .ok response)
    (serves : Serves session key parse response) :
    ∃ body events, Works (session.fetch endpoint) state [] (body, .network200)
        ⟨state.entries, events⟩ [] ∧
      Ready session key parse state.entries body .network200 :=
  ⟨_, _, (works_get answered).bind (.branch serves.status (works_network session response _)),
    .fetched serves _⟩

/-- A body is fetched after one that does not parse. -/
theorem works_recover (answered : session.transport state.events endpoint .none = .ok response)
    (serves : Serves session key parse response) (error : MetadataParseFailure) :
    ∃ body events, Works (session.recover endpoint error) state [] (body, .network200)
        ⟨state.entries, events⟩ [] ∧
      Ready session key parse state.entries body .network200 :=
  ⟨_, _, (works_get answered).bind (.branch serves.status (works_network session response _)),
    .fetched serves _⟩

/-- An entry is confirmed, or a body is fetched from a server that serves it. -/
theorem works_revalidate (hit : session.cache.find state.entries key = .hit entry)
    (answered : session.transport state.events endpoint
      (.fromValues entry.etag entry.lastModified) = .ok response)
    (answers : Serves session key parse response ∨ Confirms session key entry response) :
    ∃ body origin events, Works (session.revalidate endpoint entry) state [] (body, origin)
        ⟨state.entries, events⟩ [] ∧
      Ready session key parse state.entries body origin := by
  rcases answers with serves | confirms
  · have fresh : ¬ (response.status = 304 ∧ response.body = []) := by
      rw [serves.status]
      exact fun confirming => absurd confirming.1 (by decide)
    exact ⟨_, _, _, (works_get answered).bind (.otherwise fresh (.branch serves.status
      (works_network session response _))), .fetched serves _⟩
  · have confirming : response.status = 304 ∧ response.body = [] :=
      ⟨confirms.status, confirms.bodiless⟩
    exact ⟨_, _, _, (works_get answered).bind (.branch confirming .pure),
      .confirmed hit confirms⟩

/-- The first body of an acquisition from a server that answers. -/
theorem works_candidate
    (serves : ∀ events, ∃ response, session.transport events endpoint .none = .ok response ∧
      Serves session key parse response)
    (validates : ∀ entry, session.cache.find state.entries key = .hit entry → ∀ events,
      ∃ response, session.transport events endpoint (.fromValues entry.etag entry.lastModified) =
          .ok response ∧
        (Serves session key parse response ∨ Confirms session key entry response)) :
    ∃ body origin events, Works (session.candidate endpoint (some key)) state [] (body, origin)
        ⟨state.entries, events⟩ [] ∧
      Ready session key parse state.entries body origin := by
  have looked : Works ((session.cache.lookup key).mapErrors MetadataAcquisitionFailure.cache)
      state [] (session.cache.find state.entries key) state [] := Works.ask.mapErrors
  obtain ⟨response, answered, served⟩ := serves state.events
  have fetches := works_fetch answered served
  cases found : session.cache.find state.entries key with
  | missing =>
    rw [found] at looked
    obtain ⟨body, events, fetches, ready⟩ := fetches
    exact ⟨body, _, events, looked.bind fetches, ready⟩
  | corrupt message =>
    rw [found] at looked
    obtain ⟨body, events, fetches, ready⟩ := fetches
    exact ⟨body, _, events, looked.bind fetches, ready⟩
  | hit entry =>
    rw [found] at looked
    have uses : ∃ body origin events, Works (session.useEntry endpoint entry) state []
        (body, origin) ⟨state.entries, events⟩ [] ∧
        Ready session key parse state.entries body origin := by
      by_cases refreshing : session.refreshMetadata = true
      · obtain ⟨response, answered, answers⟩ := validates entry found state.events
        obtain ⟨body, origin, events, works, ready⟩ := works_revalidate found answered answers
        exact ⟨body, origin, events, .branch refreshing works, ready⟩
      · by_cases young : permitsReuse (session.clock state.events) entry.validatedAt
            (cacheControlPolicy entry.cacheControl defaultCompatibleGenerationTtl.toNat) = true
        · exact ⟨_, _, _, .otherwise refreshing (works_now.bind (.branch young .pure)),
            .cached found⟩
        · obtain ⟨response, answered, answers⟩ := validates entry found
            (.clock (session.clock state.events) :: state.events)
          have there : session.cache.find (⟨state.entries,
              .clock (session.clock state.events) :: state.events⟩ : RawSession).entries key =
                .hit entry := found
          obtain ⟨body, origin, events, works, ready⟩ := works_revalidate there answered answers
          exact ⟨body, origin, events,
            .otherwise refreshing (works_now.bind (.otherwise young works)), ready⟩
    obtain ⟨body, origin, events, works, ready⟩ := uses
    exact ⟨body, origin, events, looked.bind works, ready⟩

/-- A confirmed entry is stored again. -/
theorem works_update (lawful : session.cache.Lawful) (made : session.cache.IsKey key)
    (plain : state.entries.get? key.digest ≠ some .directory)
    (hit : session.cache.find state.entries key = .hit entry)
    (confirms : Confirms session key entry response) (instants : List SessionEvent) :
    ∃ entries, Works (session.cache.updateValidatedAtWithHeaders key (session.clock instants)
        ⟨(session.validatedBody entry response.headers).etag,
          (session.validatedBody entry response.headers).lastModified, none,
          (session.validatedBody entry response.headers).cacheControl⟩) state [] ()
        ⟨entries, state.events⟩ [] ∧
      session.cache.find entries key = RawCache.stored key
        (RawCache.revalidatedWrite entry (session.clock instants) response.headers) := by
  obtain ⟨entries, stores, found⟩ :=
    works_storeWrite lawful made (confirms.fits instants) plain
  have looked : Works (session.cache.lookup key) state [] (.hit entry) state [] := by
    rw [← hit]
    exact .ask
  have forward : ¬ (session.clock instants).nanosecond < entry.validatedAt.nanosecond :=
    not_lt.mpr (confirms.forward instants)
  rw [← revalidatedWrite_validatedBody] at stores
  exact ⟨entries, looked.bind ((Works.check rfl).bind
    ((Works.check (ensure_of forward)).bind stores)), found⟩

/-- What is returned is stored, or was there, or may not be stored. -/
theorem works_accept (lawful : session.cache.Lawful) (made : session.cache.IsKey key)
    {body : CurrentBody} {origin : MetadataAcquisitionOutcome} {value : V}
    (plain : state.entries.get? key.digest ≠ some .directory)
    (ready : Ready session key parse state.entries body origin)
    (parsed : parse body.body = .ok value) :
    ∃ source after, Works (session.accept request (some key) body origin value) state []
        (value, source, origin) after [] ∧
      RawCache.Rests parse key value (session.cache.find after.entries key) := by
  cases ready with
  | @cached entry hit =>
    have stays : Works (session.store key (session.fromCache entry) .cached) state [] () state [] :=
      .pure
    refine ⟨_, state, stays.bind .pure, ?_⟩
    exact ⟨entry, RawCache.key_eq_of_find hit, parsed, .inl hit⟩
  | @fetched response serves events =>
    obtain ⟨entries, stores, found⟩ := works_storeWrite lawful made (serves.fits events) plain
    have published : Works (session.cache.publish key
        (fetchedWrite response (session.clock events))) state [] () ⟨entries, state.events⟩ [] :=
      (Works.check made.validateKeyRegistry).bind ((Works.check (ensure_of rfl)).bind stores)
    refine ⟨_, _, published.mapErrors.bind .pure, ?_⟩
    rw [found]
    exact rests_stored parsed
  | @confirmed entry response hit confirms =>
    obtain ⟨entries, updates, found⟩ := @works_update session key
      ⟨state.entries, .clock (session.clock state.events) :: state.events⟩ response entry lawful
        made plain hit confirms state.events
    refine ⟨_, _, (works_now.bind updates.mapErrors).bind .pure, ?_⟩
    rw [found]
    exact rests_stored parsed

/-- An acquisition from a server that answers returns a value. -/
theorem works_acquireMetadata (lawful : session.cache.Lawful)
    (keyed : session.cacheKey request = .ok (some key))
    (plain : state.entries.get? key.digest ≠ some .directory)
    (serves : ∀ events, ∃ response,
      session.transport events request.endpoint .none = .ok response ∧
        Serves session key parse response)
    (validates : ∀ entry, session.cache.find state.entries key = .hit entry → ∀ events,
      ∃ response, session.transport events request.endpoint
          (.fromValues entry.etag entry.lastModified) = .ok response ∧
        (Serves session key parse response ∨ Confirms session key entry response))
    (tolerant : ∀ entry error, session.cache.find state.entries key = .hit entry →
      parse entry.body = .error error → error.allowsCachedRetry = true) :
    ∃ value source origin after, Works (session.acquireMetadata request parse) state []
        (value, source, origin) after [] ∧
      RawCache.Rests parse key value (session.cache.find after.entries key) := by
  have made : session.cache.IsKey key := RawCache.isKey_of_key (key_of_cacheKey keyed key rfl)
  obtain ⟨body, origin, events, obtains, ready⟩ := works_candidate serves validates
  cases parsed : parse body.body with
  | ok value =>
    obtain ⟨source, after, accepts, rests⟩ := @works_accept session request key
      ⟨state.entries, events⟩ V parse lawful made body origin value plain ready parsed
    refine ⟨value, source, origin, after, (Works.check keyed).bind (obtains.bind ?_), rests⟩
    simp only [parsed]
    exact accepts
  | error error =>
    have retries : origin ≠ .network200 ∧ error.allowsCachedRetry = true := by
      cases ready with
      | cached hit => exact ⟨by decide, tolerant _ error hit parsed⟩
      | confirmed hit confirms => exact ⟨by decide, tolerant _ error hit parsed⟩
      | fetched serves events =>
        obtain ⟨value, parses⟩ := serves.parses
        have both := parses.symm.trans parsed
        cases both
    obtain ⟨response, answered, served⟩ := serves events
    obtain ⟨again, later, recovers, fresh⟩ := @works_recover session key ⟨state.entries, events⟩ V
      parse response request.endpoint answered served error
    obtain ⟨value, parses⟩ : ∃ value, parse again.body = .ok value := by
      cases fresh with
      | fetched serves events => exact serves.parses
    obtain ⟨source, after, accepts, rests⟩ := @works_accept session request key
      ⟨state.entries, later⟩ V parse lawful made again .network200 value plain fresh parses
    refine ⟨value, source, .network200, after, (Works.check keyed).bind (obtains.bind ?_), rests⟩
    simp only [parsed]
    apply Works.branch retries
    apply recovers.bind
    simp only [parses]
    exact accepts

end Acquiring

end Rsolve
