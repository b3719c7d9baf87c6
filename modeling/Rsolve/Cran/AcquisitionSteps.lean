import Rsolve.Cran.RawCacheEntries

/-!
# Steps of an acquisition

What happened vouches for an entry when a server answered with its body for its endpoint, and when
its later times and validators are those of answers that confirmed it. Every entry that is found is
vouched for. An acquisition keeps this, wherever it fails or stops, and it changes no entry but its
own.
-/
open Checked Faults Framing Ordered

namespace Rsolve

/-- The write of an answer with a body. -/
def fetchedWrite (response : TransportResponse) (instant : Timestamp) : RawCacheWrite where
  status := 200
  body := response.body
  observedAt := instant
  validatedAt := instant
  etag := response.headers.etag
  lastModified := response.headers.lastModified
  cacheControl := response.headers.cacheControl

/-- What happened vouches for an entry: a server answered with its body for its endpoint, or what
happened before vouches for an entry that a server confirmed for its validators. -/
inductive Vouched (cache : RawCache) : List SessionEvent → RawCacheEntry → Prop
  | fetched {earlier : List SessionEvent} {key : RawCacheKey} {input : String}
      {validators : TransportValidators} {response : TransportResponse} {instant : Timestamp}
      (settled : cache.canonicalRequestEndpoint input = .ok key.endpoint)
      (status : response.status = 200) :
      Vouched cache (.clock instant :: .exchange input validators (.ok response) :: earlier)
        (RawCache.entryOf key (fetchedWrite response instant))
  | confirmed {earlier : List SessionEvent} {entry : RawCacheEntry} {input : String}
      {response : TransportResponse} {instant : Timestamp} (vouched : Vouched cache earlier entry)
      (settled : cache.canonicalRequestEndpoint input = .ok entry.key.endpoint)
      (status : response.status = 304) (bodiless : response.body = [])
      (forward : entry.validatedAt.nanosecond ≤ instant.nanosecond) :
      Vouched cache (.clock instant :: .exchange input
          (.fromValues entry.etag entry.lastModified) (.ok response) :: earlier)
        (RawCache.entryOf entry.key (RawCache.revalidatedWrite entry instant response.headers))
  | later {earlier : List SessionEvent} {entry : RawCacheEntry} (event : SessionEvent)
      (vouched : Vouched cache earlier entry) : Vouched cache (event :: earlier) entry

/-- What is found is vouched for, and may be stored. -/
structure RawSession.Genuine (cache : RawCache) (state : RawSession) : Prop where
  vouched : ∀ key entry, cache.IsKey key → cache.find state.entries key = .hit entry →
    Vouched cache state.events entry
  storable : ∀ key entry, cache.IsKey key → cache.find state.entries key = .hit entry →
    (cacheControlPolicy entry.cacheControl 0).canStore = true

/-- Nothing that happened is undone, and no entry but that of a key is changed. -/
structure Touches (key : Option RawCacheKey) (state reached : RawSession) : Prop where
  events : state.events <:+ reached.events
  entries : ∀ digest, (∀ touched ∈ key, digest ≠ touched.digest) →
    reached.entries.get? digest = state.entries.get? digest

/-- What is found after a write. -/
def RawCache.stored (key : RawCacheKey) (write : RawCacheWrite) : RawCacheLookup :=
  if (cacheControlPolicy write.cacheControl 0).canStore = true then .hit (entryOf key write)
  else .missing

/-- An invariant survives what the storing of a write does to the entries. -/
structure Survives (cache : RawCache) (inv : RawSession → Prop) (events : List SessionEvent)
    (key : RawCacheKey) (write : RawCacheWrite) : Prop where
  inserted : ∀ state header headerBytes,
    (cacheControlPolicy write.cacheControl 0).canStore = true →
    cache.headerForWrite key write = .ok header → cache.headerJson.toVec header = .ok headerBytes →
    headerBytes.length ≤ maxHeaderBytes → inv state → state.events = events →
    inv ⟨state.entries.insert key.digest (.regular (RawCache.entryBytes headerBytes write.body)),
      state.events⟩
  erased : ∀ state, inv state → inv ⟨state.entries.erase key.digest, state.events⟩

section Relations

variable {cache : RawCache} {key : Option RawCacheKey} {state reached : RawSession}
  {events more : List SessionEvent} {entry : RawCacheEntry}

instance : Std.Refl (Touches key) := ⟨fun _ => ⟨List.suffix_refl _, fun _ _ => rfl⟩⟩

instance : IsTrans RawSession (Touches key) where
  trans _ _ _ first second := ⟨first.events.trans second.events,
    fun digest apart => (second.entries digest apart).trans (first.entries digest apart)⟩

/-- What vouches for an entry does so afterwards. -/
theorem Vouched.mono (vouched : Vouched cache events entry) (grown : events <:+ more) :
    Vouched cache more entry := by
  obtain ⟨added, rfl⟩ := grown
  induction added with
  | nil => exact vouched
  | cons event rest ih => exact .later event ih

/-- Where a body is vouched for, a server answered with it for the same endpoint. -/
theorem Vouched.exists_answer (vouched : Vouched cache events entry) :
    ∃ input validators response, SessionEvent.exchange input validators (.ok response) ∈ events ∧
      cache.canonicalRequestEndpoint input = .ok entry.key.endpoint ∧ response.status = 200 ∧
      response.body = entry.body := by
  induction vouched with
  | fetched settled status =>
    exact ⟨_, _, _, List.mem_cons_of_mem _ List.mem_cons_self, settled, status, rfl⟩
  | confirmed vouched settled status bodiless forward ih =>
    obtain ⟨input, validators, response, member, answer⟩ := ih
    exact ⟨input, validators, response,
      List.mem_cons_of_mem _ (List.mem_cons_of_mem _ member), answer⟩
  | later event vouched ih =>
    obtain ⟨input, validators, response, member, answer⟩ := ih
    exact ⟨input, validators, response, List.mem_cons_of_mem _ member, answer⟩

/-- The entry of a vouched write may be put in its place. -/
theorem RawSession.Genuine.insert (lawful : cache.Lawful) (genuine : state.Genuine cache)
    {key : RawCacheKey} {write : RawCacheWrite} {header : RawCacheHeader}
    {headerBytes : List UInt8} (made : cache.IsKey key)
    (vouched : Vouched cache state.events (RawCache.entryOf key write))
    (storable : (cacheControlPolicy write.cacheControl 0).canStore = true)
    (headed : cache.headerForWrite key write = .ok header)
    (written : cache.headerJson.toVec header = .ok headerBytes)
    (fits : headerBytes.length ≤ maxHeaderBytes) :
    (⟨state.entries.insert key.digest (.regular (RawCache.entryBytes headerBytes write.body)),
      state.events⟩ : RawSession).Genuine cache where
  vouched := fun other entry otherMade found => by
    rcases lawful.find_of_insert made otherMade headed written fits found with ⟨-, rfl⟩ | before
    · exact vouched
    · exact genuine.vouched other entry otherMade before
  storable := fun other entry otherMade found => by
    rcases lawful.find_of_insert made otherMade headed written fits found with ⟨-, rfl⟩ | before
    · exact storable
    · exact genuine.storable other entry otherMade before

/-- An entry may be removed. -/
theorem RawSession.Genuine.erase (genuine : state.Genuine cache) (digest : String) :
    (⟨state.entries.erase digest, state.events⟩ : RawSession).Genuine cache := by
  have before : ∀ key entry, cache.IsKey key →
      cache.find (state.entries.erase digest) key = .hit entry →
      cache.find state.entries key = .hit entry := by
    intro key entry made found
    rw [made.find, OrderedMap.get?_erase] at found
    by_cases same : key.digest = digest
    · rw [if_pos same] at found
      cases found
    · rw [if_neg same] at found
      rw [made.find]
      exact found
  exact ⟨fun key entry made found => genuine.vouched key entry made (before key entry made found),
    fun key entry made found => genuine.storable key entry made (before key entry made found)⟩

/-- More may happen. -/
theorem RawSession.Genuine.happens (genuine : state.Genuine cache) (event : SessionEvent) :
    (⟨state.entries, event :: state.events⟩ : RawSession).Genuine cache :=
  ⟨fun key entry made found => .later event (genuine.vouched key entry made found),
    genuine.storable⟩

/-- A vouched write may be stored. -/
theorem RawSession.Genuine.survives (lawful : cache.Lawful) {key : RawCacheKey}
    {write : RawCacheWrite} (made : cache.IsKey key)
    (vouched : Vouched cache events (RawCache.entryOf key write)) :
    Survives cache (RawSession.Genuine cache) events key write where
  inserted := fun _ _ _ storable headed written fits genuine happened =>
    genuine.insert lawful made (happened ▸ vouched) storable headed written fits
  erased := fun _ genuine => genuine.erase key.digest

end Relations

section Operations

variable {cache : RawCache} {key : RawCacheKey} {write : RawCacheWrite} {header : RawCacheHeader}
  {entry : RawCacheEntry} {events : List SessionEvent} {inv pre : RawSession → Prop}

/-- What is found where no file is. -/
theorem RawCache.IsKey.find_missing (made : cache.IsKey key) {entries : OrderedMap String RawFile}
    (absent : entries.get? key.digest = none) : cache.find entries key = .missing := by
  rw [made.find, absent]
  rfl

/-- A change in the place of a key. -/
theorem Touches.insert (key : RawCacheKey) (file : RawFile) (state : RawSession) :
    Touches (some key) state ⟨state.entries.insert key.digest file, state.events⟩ where
  events := List.suffix_refl _
  entries := fun digest apart => by
    rw [OrderedMap.get?_insert, if_neg (apart key rfl)]

/-- A removal from the place of a key. -/
theorem Touches.erase (key : RawCacheKey) (state : RawSession) :
    Touches (some key) state ⟨state.entries.erase key.digest, state.events⟩ where
  events := List.suffix_refl _
  entries := fun digest apart => by
    rw [OrderedMap.get?_erase, if_neg (apart key rfl)]

/-- An operation of the device changes nothing. -/
theorem traces_device {related : RawSession → RawSession → Prop} [Std.Refl related] :
    Traces inv pre RawCache.device related (fun _ => pre) := by
  apply Traces.operate
  intro state value reached kept held worked
  obtain ⟨-, rfl⟩ := Prod.mk.inj (Except.ok.inj worked)
  exact ⟨kept, Std.Refl.refl state, held⟩

/-- A write is found once it is written. -/
theorem traces_writeEntry (lawful : cache.Lawful) (made : cache.IsKey key)
    (survives : Survives cache inv events key write)
    (storable : (cacheControlPolicy write.cacheControl 0).canStore = true)
    (headed : cache.headerForWrite key write = .ok header) :
    Traces inv (fun state => state.events = events)
      (cache.writeEntry key header write.body) (Touches (some key)) (fun _ state =>
        state.events = events ∧
          cache.find state.entries key = .hit (RawCache.entryOf key write)) := by
  apply (Traces.check _).bind
  intro headerBytes
  apply Traces.assuming
  intro encoded
  have written : cache.headerJson.toVec header = .ok headerBytes := mapError_eq_ok.mp encoded
  apply (Traces.check _).bind
  intro _
  apply Traces.assuming
  intro checked
  have fits : headerBytes.length ≤ maxHeaderBytes := ensure_eq_ok.mp checked
  apply traces_device.bind
  intro _
  apply traces_device.bind
  intro _
  apply traces_device.bind
  intro _
  apply traces_device.bind
  intro _
  apply traces_device.bind
  intro _
  have replaced : Traces inv (fun state => state.events = events)
      (RawCache.replaceFile key (RawCache.entryBytes headerBytes write.body)) (Touches (some key))
      (fun _ state => state.events = events ∧
        cache.find state.entries key = .hit (RawCache.entryOf key write)) := by
    apply Traces.operate
    intro state value reached kept happened worked
    have placed : reached = ⟨state.entries.insert key.digest
        (.regular (RawCache.entryBytes headerBytes write.body)), state.events⟩ := by
      split at worked
      · cases worked
      · exact (Prod.mk.inj (Except.ok.inj worked)).2.symm
    rw [placed]
    exact ⟨survives.inserted state header headerBytes storable headed written fits kept happened,
      Touches.insert key _ state, happened, lawful.find_insert made headed written fits⟩
  apply replaced.bind
  intro _
  apply traces_device.bind
  intro _
  exact traces_device

/-- Nothing is found once an entry is removed. -/
theorem traces_removeEntry (made : cache.IsKey key)
    (erased : ∀ state, inv state → inv ⟨state.entries.erase key.digest, state.events⟩) :
    Traces inv (fun state => state.events = events)
      (RawCache.removeEntry key) (Touches (some key)) (fun _ state =>
        state.events = events ∧ cache.find state.entries key = .missing) := by
  have looked : Traces inv (fun state => state.events = events)
      (Faulty.operate (RawCacheError.io RawCache.ioFailure) fun session : RawSession =>
        .ok (session.entries.get? key.digest, session)) (Touches (some key))
      (fun file state => file = state.entries.get? key.digest ∧ state.events = events) := by
    apply Traces.operate
    intro state value reached kept held worked
    obtain ⟨rfl, rfl⟩ := Prod.mk.inj (Except.ok.inj worked)
    exact ⟨kept, Std.Refl.refl state, rfl, held⟩
  have erases : Traces inv (fun state => state.events = events)
      (Faulty.operate (RawCacheError.io RawCache.ioFailure) fun session : RawSession =>
        .ok ((), { session with entries := session.entries.erase key.digest }))
      (Touches (some key)) (fun _ state =>
        state.events = events ∧ cache.find state.entries key = .missing) := by
    apply Traces.operate
    intro state value reached kept held worked
    obtain ⟨-, rfl⟩ := Prod.mk.inj (Except.ok.inj worked)
    refine ⟨erased state kept, Touches.erase key state, held, made.find_missing ?_⟩
    rw [OrderedMap.get?_erase, if_pos rfl]
  apply looked.bind
  intro file
  have removed : Traces inv (fun state => state.events = events)
      (do
        Faulty.operate (RawCacheError.io RawCache.ioFailure) fun session : RawSession =>
          .ok ((), { session with entries := session.entries.erase key.digest })
        RawCache.device) (Touches (some key)) (fun _ state =>
          state.events = events ∧ cache.find state.entries key = .missing) := by
    apply erases.bind
    intro _
    exact traces_device
  cases file with
  | none =>
    apply (Traces.pure ()).weaken (fun _ _ held => held)
    intro _ state _ held
    exact ⟨held.2.2, made.find_missing held.2.1.symm⟩
  | some file =>
    cases file with
    | directory =>
      apply (Traces.check _).weaken (fun _ _ held => held)
      intro _ _ _ held
      exact nomatch held.1
    | regular bytes => exact removed.weaken (fun _ _ held => held.2) fun _ _ _ held => held
    | symlink => exact removed.weaken (fun _ _ held => held.2) fun _ _ _ held => held

/-- What is found after a write is what is stored of it. -/
theorem traces_storeWrite (lawful : cache.Lawful) (made : cache.IsKey key)
    (survives : Survives cache inv events key write) :
    Traces inv (fun state => state.events = events)
      (cache.storeWrite key write) (Touches (some key)) (fun _ state =>
        state.events = events ∧ cache.find state.entries key = RawCache.stored key write) := by
  unfold RawCache.storeWrite RawCache.stored
  by_cases storable : (cacheControlPolicy write.cacheControl 0).canStore = true
  · simp only [if_pos storable]
    apply (Traces.check _).bind
    intro header
    apply Traces.assuming
    intro headed
    exact traces_writeEntry lawful made survives storable headed
  · simp only [if_neg storable]
    exact traces_removeEntry made survives.erased

/-- What is found after a write is published. -/
theorem traces_publish (lawful : cache.Lawful) (made : cache.IsKey key)
    (survives : Survives cache inv events key write) :
    Traces inv (fun state => state.events = events)
      (cache.publish key write) (Touches (some key)) (fun _ state =>
        state.events = events ∧ cache.find state.entries key = RawCache.stored key write) := by
  apply (Traces.check _).bind
  intro _
  apply Traces.assuming
  intro _
  apply (Traces.check _).bind
  intro _
  apply Traces.assuming
  intro _
  exact traces_storeWrite lawful made survives

/-- The entry that an update is of was found. -/
theorem hit_of_entry {found : RawCacheLookup}
    (said : RawCache.RawCacheLookup.entry found = .ok entry) : found = .hit entry := by
  cases found with
  | hit other => rw [← Except.ok.inj said]
  | missing => cases said
  | corrupt cause => cases said

/-- What is found after an entry was confirmed. -/
theorem traces_updateValidatedAtWithHeaders (lawful : cache.Lawful) (made : cache.IsKey key)
    {validatedAt : Timestamp} {headers : TransportResponseHeaders}
    (survives : ∀ state entry, inv state → pre state → cache.find state.entries key = .hit entry →
      entry.validatedAt.nanosecond ≤ validatedAt.nanosecond →
      Survives cache inv state.events key
        (RawCache.revalidatedWrite entry validatedAt headers)) :
    Traces inv pre (cache.updateValidatedAtWithHeaders key validatedAt headers)
      (Touches (some key)) (fun _ reached => ∃ state entry, pre state ∧
        cache.find state.entries key = .hit entry ∧ reached.events = state.events ∧
          cache.find reached.entries key =
            RawCache.stored key (RawCache.revalidatedWrite entry validatedAt headers)) := by
  apply Traces.asked.bind
  intro found
  apply (Traces.check _).bind
  intro entry
  apply Traces.assuming
  intro said
  apply (Traces.check _).bind
  intro _
  apply Traces.assuming
  intro ordered
  have forward := not_lt.mp (ensure_eq_ok.mp ordered)
  intro state fates calm kept held
  obtain ⟨answered, known⟩ := held
  have hit : cache.find state.entries key = .hit entry := by
    rcases answered with asked | failed
    · rw [asked] at said
      exact hit_of_entry said
    · rw [failed] at said
      cases said
  have traced := traces_storeWrite lawful made (survives state entry kept known hit forward)
  apply traced.weaken (fun _ _ held => held) _ state fates calm kept rfl
  intro _ reached _ stored
  exact ⟨state, entry, known, hit, stored.1, stored.2⟩

end Operations

/-- Where the first body of an acquisition comes from, and the state there. -/
inductive Obtained (session : MetadataSession) (endpoint : String) (key : Option RawCacheKey)
    (before : RawSession) : RawSession → CurrentBody → MetadataAcquisitionOutcome → Prop
  | cached {found : RawCacheKey} {entry : RawCacheEntry} {instant : Timestamp}
      (keyed : key = some found) (trusting : session.refreshMetadata = false)
      (hit : session.cache.find before.entries found = .hit entry)
      (young : permitsReuse instant entry.validatedAt
        (cacheControlPolicy entry.cacheControl defaultCompatibleGenerationTtl.toNat) = true) :
      Obtained session endpoint key before ⟨before.entries, .clock instant :: before.events⟩
        (session.fromCache entry) .cached
  | confirmed {found : RawCacheKey} {entry : RawCacheEntry} {response : TransportResponse}
      {middle : List SessionEvent} (keyed : key = some found)
      (hit : session.cache.find before.entries found = .hit entry)
      (status : response.status = 304) (bodiless : response.body = []) :
      Obtained session endpoint key before
        ⟨before.entries, .exchange endpoint (.fromValues entry.etag entry.lastModified)
          (.ok response) :: (middle ++ before.events)⟩
        (session.validatedBody entry response.headers) .revalidated304
  | fetched {validators : TransportValidators} {response : TransportResponse} {instant : Timestamp}
      {middle : List SessionEvent} (status : response.status = 200) :
      Obtained session endpoint key before
        ⟨before.entries, .clock instant :: .exchange endpoint validators (.ok response) ::
          (middle ++ before.events)⟩
        (session.fromResponse response instant) .network200

/-- Where a body that is returned comes from, and what is found for its key afterwards. -/
inductive Acquired (session : MetadataSession) (endpoint : String) (key : Option RawCacheKey)
    (before : RawSession) : RawSession → List UInt8 → MetadataAcquisitionOutcome → Prop
  | cached {found : RawCacheKey} {entry : RawCacheEntry} {instant : Timestamp}
      (keyed : key = some found) (trusting : session.refreshMetadata = false)
      (hit : session.cache.find before.entries found = .hit entry)
      (young : permitsReuse instant entry.validatedAt
        (cacheControlPolicy entry.cacheControl defaultCompatibleGenerationTtl.toNat) = true) :
      Acquired session endpoint key before ⟨before.entries, .clock instant :: before.events⟩
        entry.body .cached
  | confirmed {found : RawCacheKey} {entry : RawCacheEntry} {response : TransportResponse}
      {middle : List SessionEvent} {instant : Timestamp} {after : RawSession}
      (keyed : key = some found) (hit : session.cache.find before.entries found = .hit entry)
      (status : response.status = 304) (bodiless : response.body = [])
      (happened : after.events = .clock instant ::
        .exchange endpoint (.fromValues entry.etag entry.lastModified) (.ok response) ::
          (middle ++ before.events))
      (stored : session.cache.find after.entries found =
        RawCache.stored found (RawCache.revalidatedWrite entry instant response.headers)) :
      Acquired session endpoint key before after entry.body .revalidated304
  | fetched {validators : TransportValidators} {response : TransportResponse} {instant : Timestamp}
      {middle : List SessionEvent} {after : RawSession} (status : response.status = 200)
      (happened : after.events = .clock instant ::
        .exchange endpoint validators (.ok response) :: (middle ++ before.events))
      (stored : ∀ found ∈ key, session.cache.find after.entries found =
        RawCache.stored found (fetchedWrite response instant)) :
      Acquired session endpoint key before after response.body .network200

section Acquisitions

variable {session : MetadataSession} {before start : RawSession} {endpoint : String}
  {key touched : Option RawCacheKey} {middle : List SessionEvent} {entry : RawCacheEntry}

/-- A program that raises an error meets every postcondition. -/
theorem traces_raise {α : Type} {inv pre : RawSession → Prop} {post : α → RawSession → Prop}
    {failure : MetadataAcquisitionFailure} :
    Traces inv pre (MetadataSession.raise failure) (Touches touched) post :=
  (Traces.check _).weaken (fun _ _ held => held) fun _ _ _ held => nomatch held.1

/-- A request is answered. -/
theorem traces_get {validators : TransportValidators} :
    Traces (RawSession.Genuine session.cache) (fun state => state = start)
      (session.get endpoint validators) (Touches touched) (fun answer state =>
        state = ⟨start.entries, .exchange endpoint validators answer :: start.events⟩) := by
  intro state fates calm genuine same
  rw [← same]
  exact .returned calm (genuine.happens _) ⟨List.suffix_cons _ _, fun _ _ => rfl⟩ rfl

/-- The clock is read. -/
theorem traces_now :
    Traces (RawSession.Genuine session.cache) (fun state => state = start) session.now
      (Touches touched) (fun instant state =>
        state = ⟨start.entries, .clock instant :: start.events⟩) := by
  intro state fates calm genuine same
  rw [← same]
  exact .returned calm (genuine.happens _) ⟨List.suffix_cons _ _, fun _ _ => rfl⟩ rfl

/-- An answer with a body is taken with the time after it. -/
theorem traces_network {validators : TransportValidators} {response : TransportResponse}
    (status : response.status = 200) :
    Traces (RawSession.Genuine session.cache)
      (fun state => state = ⟨before.entries, .exchange endpoint validators (.ok response) ::
        (middle ++ before.events)⟩)
      (session.network response) (Touches touched) (fun result state =>
        result.2 = .network200 ∧
          Obtained session endpoint key before state result.1 result.2) := by
  apply traces_now.bind
  intro instant
  apply (Traces.pure _).weaken (fun _ _ held => held)
  intro result state _ held
  rw [held.1, held.2]
  exact ⟨rfl, .fetched status⟩

/-- A body is fetched. -/
theorem traces_fetch (middle : List SessionEvent) :
    Traces (RawSession.Genuine session.cache)
      (fun state => state = ⟨before.entries, middle ++ before.events⟩)
      (session.fetch endpoint) (Touches touched) (fun result state =>
        Obtained session endpoint key before state result.1 result.2) := by
  apply traces_get.bind
  intro answer
  cases answer with
  | error failure => exact traces_raise
  | ok response =>
    by_cases status : response.status = 200
    · simp only [if_pos status]
      exact (traces_network status).weaken (fun _ _ held => held) fun _ _ _ held => held.2
    · simp only [if_neg status]
      exact traces_raise

/-- A body is fetched after one that does not parse. -/
theorem traces_recover {error : MetadataParseFailure} :
    Traces (RawSession.Genuine session.cache)
      (fun state => state = ⟨before.entries, middle ++ before.events⟩)
      (session.recover endpoint error) (Touches touched) (fun result state =>
        Obtained session endpoint key before state result.1 result.2) := by
  apply traces_get.bind
  intro answer
  cases answer with
  | error failure => exact traces_raise
  | ok response =>
    by_cases status : response.status = 200
    · simp only [if_pos status]
      exact (traces_network status).weaken (fun _ _ held => held) fun _ _ _ held => held.2
    · simp only [if_neg status]
      exact traces_raise

/-- An entry is confirmed, or a body is fetched. -/
theorem traces_revalidate {found : RawCacheKey} (middle : List SessionEvent)
    (keyed : key = some found) (hit : session.cache.find before.entries found = .hit entry) :
    Traces (RawSession.Genuine session.cache)
      (fun state => state = ⟨before.entries, middle ++ before.events⟩)
      (session.revalidate endpoint entry) (Touches touched) (fun result state =>
        Obtained session endpoint key before state result.1 result.2) := by
  apply traces_get.bind
  intro answer
  cases answer with
  | error failure => exact traces_raise
  | ok response =>
    by_cases confirms : response.status = 304 ∧ response.body = []
    · simp only [if_pos confirms]
      apply (Traces.pure _).weaken (fun _ _ held => held)
      intro result state _ held
      rw [held.1, held.2]
      exact .confirmed keyed hit confirms.1 confirms.2
    · simp only [if_neg confirms]
      by_cases status : response.status = 200
      · simp only [if_pos status]
        exact (traces_network status).weaken (fun _ _ held => held) fun _ _ _ held => held.2
      · simp only [if_neg status]
        exact traces_raise

/-- An entry that is found is used when it is young enough. -/
theorem traces_useEntry {found : RawCacheKey} (keyed : key = some found)
    (hit : session.cache.find before.entries found = .hit entry) :
    Traces (RawSession.Genuine session.cache) (fun state => state = before)
      (session.useEntry endpoint entry) (Touches touched) (fun result state =>
        Obtained session endpoint key before state result.1 result.2) := by
  unfold MetadataSession.useEntry
  by_cases refreshing : session.refreshMetadata = true
  · simp only [if_pos refreshing]
    exact (traces_revalidate [] keyed hit).weaken (fun _ _ held => held)
      fun _ _ _ held => held
  · simp only [if_neg refreshing]
    have trusting : session.refreshMetadata = false := Bool.eq_false_iff.mpr refreshing
    apply traces_now.bind
    intro instant
    by_cases young : permitsReuse instant entry.validatedAt
        (cacheControlPolicy entry.cacheControl defaultCompatibleGenerationTtl.toNat) = true
    · simp only [if_pos young]
      apply (Traces.pure _).weaken (fun _ _ held => held)
      intro result state _ held
      rw [held.1, held.2]
      exact .cached keyed trusting hit young
    · simp only [if_neg young]
      exact traces_revalidate [.clock instant] keyed hit

/-- The first body of an acquisition. -/
theorem traces_candidate :
    Traces (RawSession.Genuine session.cache) (fun state => state = before)
      (session.candidate endpoint key) (Touches touched) (fun result state =>
        Obtained session endpoint key before state result.1 result.2) := by
  have fetches : Traces (RawSession.Genuine session.cache) (fun state => state = before)
      (session.fetch endpoint) (Touches touched) (fun result state =>
        Obtained session endpoint key before state result.1 result.2) :=
    traces_fetch []
  unfold MetadataSession.candidate
  cases key with
  | none => exact fetches
  | some found =>
    apply Traces.asked.mapErrors.bind
    intro looked
    cases looked with
    | missing => exact fetches.weaken (fun _ _ held => held.2) fun _ _ _ held => held
    | corrupt message => exact fetches.weaken (fun _ _ held => held.2) fun _ _ _ held => held
    | hit entry =>
      intro state fates calm genuine held
      have hit : session.cache.find before.entries found = .hit entry := by
        rcases held.1 with answered | failed
        · rw [← held.2]
          exact answered.symm
        · cases failed
      exact traces_useEntry rfl hit state fates calm genuine held.2

/-- What happened before a body was obtained. -/
theorem Obtained.exists_middle {state : RawSession} {body : CurrentBody}
    {origin : MetadataAcquisitionOutcome}
    (obtained : Obtained session endpoint key before state body origin) :
    ∃ middle, state = ⟨before.entries, middle ++ before.events⟩ := by
  cases obtained with
  | cached keyed trusting hit young => exact ⟨[.clock _], rfl⟩
  | @confirmed found entry response middle keyed hit status bodiless =>
    exact ⟨.exchange endpoint (.fromValues entry.etag entry.lastModified) (.ok response) :: middle,
      rfl⟩
  | @fetched validators response instant middle status =>
    exact ⟨.clock instant :: .exchange endpoint validators (.ok response) :: middle, rfl⟩

variable {request : MetadataSession.Request} {body : CurrentBody}
  {origin : MetadataAcquisitionOutcome} {V : Type}

/-- What a confirmed body says for its entry is what the answer says. -/
theorem revalidatedWrite_validatedBody {instant : Timestamp} {headers : TransportResponseHeaders} :
    RawCache.revalidatedWrite entry instant
        ⟨(session.validatedBody entry headers).etag,
          (session.validatedBody entry headers).lastModified, none,
          (session.validatedBody entry headers).cacheControl⟩ =
      RawCache.revalidatedWrite entry instant headers := by
  have twice : ∀ first second : Option String, (first.or second).or second = first.or second := by
    intro first second
    cases first with
    | none => exact Option.or_self
    | some value => rfl
  simp only [RawCache.revalidatedWrite, MetadataSession.validatedBody, twice]
  cases headers.cacheControl with
  | absent => cases found : entry.cacheControl <;> rfl
  | valid value => rfl
  | invalid => rfl

/-- What is stored of a confirmed body. -/
theorem traces_store_confirmed (lawful : session.cache.Lawful)
    (genuine : before.Genuine session.cache) {found : RawCacheKey}
    {response : TransportResponse} (isKey : session.cache.IsKey found)
    (settled : session.cache.canonicalRequestEndpoint endpoint = .ok found.endpoint)
    (hit : session.cache.find before.entries found = .hit entry)
    (status : response.status = 304) (bodiless : response.body = []) :
    Traces (RawSession.Genuine session.cache)
      (fun state => state = ⟨before.entries, .exchange endpoint
        (.fromValues entry.etag entry.lastModified) (.ok response) :: (middle ++ before.events)⟩)
      (session.store found (session.validatedBody entry response.headers) .revalidated304)
      (Touches (some found)) (fun _ state =>
        Acquired session endpoint (some found) before state entry.body .revalidated304) := by
  have own : entry.key = found := RawCache.key_eq_of_find hit
  have known : Vouched session.cache (middle ++ before.events) entry :=
    (genuine.vouched found entry isKey hit).mono (List.suffix_append _ _)
  apply traces_now.bind
  intro instant
  have vouched : entry.validatedAt.nanosecond ≤ instant.nanosecond → Vouched session.cache
      (.clock instant :: .exchange endpoint (.fromValues entry.etag entry.lastModified)
        (.ok response) :: (middle ++ before.events))
      (RawCache.entryOf found (RawCache.revalidatedWrite entry instant
        ⟨(session.validatedBody entry response.headers).etag,
          (session.validatedBody entry response.headers).lastModified, none,
          (session.validatedBody entry response.headers).cacheControl⟩)) := by
    intro forward
    rw [revalidatedWrite_validatedBody, ← own]
    rw [← own] at settled
    exact .confirmed known settled status bodiless forward
  refine (traces_updateValidatedAtWithHeaders lawful isKey ?_).mapErrors.weaken
    (fun _ _ same => same) ?_
  · intro state current _ same there forward
    rw [same] at there ⊢
    obtain rfl := RawCacheLookup.hit.inj (hit.symm.trans there)
    exact RawSession.Genuine.survives lawful isKey (vouched forward)
  · intro _ reached _ held
    obtain ⟨state, current, same, there, happened, stored⟩ := held
    rw [same] at there happened
    rw [← RawCacheLookup.hit.inj (hit.symm.trans there), revalidatedWrite_validatedBody] at stored
    exact .confirmed rfl hit status bodiless happened stored

/-- What is stored of a body that is returned. -/
theorem traces_store (lawful : session.cache.Lawful) (genuine : before.Genuine session.cache)
    {found : RawCacheKey}
    (made : session.cache.key endpoint request.representation = .ok found) :
    Traces (RawSession.Genuine session.cache)
      (fun state => Obtained session endpoint (some found) before state body origin)
      (session.store found body origin) (Touches (some found)) (fun _ state =>
        Acquired session endpoint (some found) before state body.body origin) := by
  have isKey : session.cache.IsKey found := RawCache.isKey_of_key made
  have settled : session.cache.canonicalRequestEndpoint endpoint = .ok found.endpoint :=
    (RawCache.key_eq_ok made).1
  intro state fates calm kept obtained
  cases obtained with
  | cached keyed trusting hit young =>
    exact .returned calm kept (Std.Refl.refl _) (.cached keyed trusting hit young)
  | @fetched validators response instant middle status =>
    have vouched : Vouched session.cache
        (.clock instant :: .exchange endpoint validators (.ok response) ::
          (middle ++ before.events))
        (RawCache.entryOf found (fetchedWrite response instant)) := .fetched settled status
    obtain ⟨ended, stored⟩ : Faults.Meets _ _ _
        ((session.cache.publish found (fetchedWrite response instant)).mapErrors
          MetadataAcquisitionFailure.cache _ fates) :=
      (traces_publish lawful isKey (RawSession.Genuine.survives lawful isKey vouched)).mapErrors _
        fates calm kept rfl
    refine ⟨ended, fun value returned => ?_⟩
    obtain ⟨happened, there⟩ := stored value returned
    apply Acquired.fetched status happened
    intro other same
    rw [← Option.some.inj same]
    exact there
  | @confirmed other entry response middle keyed hit status bodiless =>
    obtain rfl := Option.some.inj keyed
    exact traces_store_confirmed lawful genuine isKey settled hit status bodiless _ fates calm kept
      rfl

/-- What is returned of a body. -/
theorem traces_accept (lawful : session.cache.Lawful) (genuine : before.Genuine session.cache)
    (keyed : ∀ found ∈ key,
      session.cache.key request.endpoint request.representation = .ok found) {value : V} :
    Traces (RawSession.Genuine session.cache)
      (fun state => Obtained session request.endpoint key before state body origin)
      (session.accept request key body origin value) (Touches key) (fun result state =>
        result.1 = value ∧ result.2.1.contentSha256 = session.cache.sha256 body.body ∧
          result.2.2 = origin ∧
          Acquired session request.endpoint key before state body.body origin) := by
  have returns : Traces (RawSession.Genuine session.cache)
      (fun state => Acquired session request.endpoint key before state body.body origin)
      (pure (value, session.sourceAs body request.sourceKind request.sourceRepresentation
        request.endpoint, origin) :
        AcquisitionProgram (V × SourceInput × MetadataAcquisitionOutcome))
      (Touches key) (fun result state =>
        result.1 = value ∧ result.2.1.contentSha256 = session.cache.sha256 body.body ∧
          result.2.2 = origin ∧
          Acquired session request.endpoint key before state body.body origin) := by
    apply (Traces.pure _).weaken (fun _ _ held => held)
    intro result state _ held
    rw [held.1]
    exact ⟨rfl, rfl, rfl, held.2⟩
  unfold MetadataSession.accept
  cases key with
  | some found => exact (traces_store lawful genuine (keyed found rfl)).bind fun _ => returns
  | none =>
    apply returns.weaken
    · intro state _ obtained
      cases obtained with
      | cached keyed trusting hit young => cases keyed
      | confirmed keyed hit status bodiless => cases keyed
      | fetched status => exact .fetched status rfl fun _ member => nomatch member
    · exact fun _ _ _ held => held

/-- The key of an acquisition is made for its endpoint. -/
theorem key_of_cacheKey (keyed : session.cacheKey request = .ok key) :
    ∀ found ∈ key, session.cache.key request.endpoint request.representation = .ok found := by
  intro found member
  unfold MetadataSession.cacheKey at keyed
  split at keyed
  · have mapped := mapError_eq_ok.mp keyed
    cases made : session.cache.key request.endpoint request.representation with
    | error cause =>
      rw [made] at mapped
      cases mapped
    | ok other =>
      rw [made] at mapped
      have same : some other = key := Except.ok.inj mapped
      rw [← same] at member
      exact congrArg Except.ok (Option.some.inj member)
  · have none : Option.none = key := Except.ok.inj keyed
    rw [← none] at member
    cases member

/-- What an acquisition returns is parsed from a body that it has from somewhere. -/
theorem traces_acquireMetadata (lawful : session.cache.Lawful)
    (genuine : before.Genuine session.cache) (keyed : session.cacheKey request = .ok key)
    (parse : List UInt8 → Except MetadataParseFailure V) :
    Traces (RawSession.Genuine session.cache) (fun state => state = before)
      (session.acquireMetadata request parse) (Touches key) (fun result state =>
        ∃ body, parse body = .ok result.1 ∧
          result.2.1.contentSha256 = session.cache.sha256 body ∧
          Acquired session request.endpoint key before state body result.2.2) := by
  have accepts : ∀ (body : CurrentBody) origin value, parse body.body = .ok value →
      Traces (RawSession.Genuine session.cache)
        (fun state => Obtained session request.endpoint key before state body origin)
        (session.accept request key body origin value) (Touches key) (fun result state =>
          ∃ body, parse body = .ok result.1 ∧
            result.2.1.contentSha256 = session.cache.sha256 body ∧
            Acquired session request.endpoint key before state body result.2.2) := by
    intro body origin value parsed
    apply (traces_accept lawful genuine (key_of_cacheKey keyed)).weaken (fun _ _ held => held)
    intro result state _ held
    obtain ⟨same, hashed, source, acquired⟩ := held
    rw [← same] at parsed
    rw [← source] at acquired
    exact ⟨body.body, parsed, hashed, acquired⟩
  unfold MetadataSession.acquireMetadata
  apply (Traces.check _).bind
  intro found
  apply Traces.assuming
  intro made
  obtain rfl := Except.ok.inj (keyed.symm.trans made)
  apply traces_candidate.bind
  intro result
  obtain ⟨body, origin⟩ := result
  cases parsed : parse body.body with
  | ok value =>
    simp only [parsed]
    exact accepts body origin value parsed
  | error error =>
    simp only [parsed]
    by_cases retries : origin ≠ .network200 ∧ error.allowsCachedRetry = true
    · simp only [if_pos retries]
      apply Traces.choosing fun state obtained => obtained.exists_middle
      intro middle
      apply traces_recover.bind
      intro result
      obtain ⟨body, origin⟩ := result
      cases parsed : parse body.body with
      | ok value =>
        exact accepts body origin value parsed
      | error error =>
        exact traces_raise
    · simp only [if_neg retries]
      exact traces_raise

end Acquisitions

end Rsolve
