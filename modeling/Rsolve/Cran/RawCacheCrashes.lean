import Rsolve.Cran.AcquisitionSteps

/-!
# Crashes of the raw cache

The calls that change the raw cache may fail or stop at any operation. What is found afterwards is
whole: an entry has the body of an entry that was there before or of a write of one of the calls,
nothing that was readable has become unreadable, and only a call for an entry removes it.
-/
open Checked Faults Framing Ordered

namespace Rsolve

/-- A call that changes the raw cache. -/
inductive EntryCall
  | publish (key : RawCacheKey) (write : RawCacheWrite)
  | update (key : RawCacheKey) (validatedAt : Timestamp) (headers : TransportResponseHeaders)

namespace EntryCall

/-- The key of the entry that a call changes. -/
def key : EntryCall → RawCacheKey
  | .publish key _ => key
  | .update key _ _ => key

/-- What a call does. -/
def program (cache : RawCache) : EntryCall → RawProgram Unit
  | .publish key write => cache.publish key write
  | .update key validatedAt headers => cache.updateValidatedAtWithHeaders key validatedAt headers

/-- The session after a call, from the fates of its operations. -/
def after (cache : RawCache) (call : EntryCall) (fates : List Fate) (session : RawSession) :
    RawSession :=
  (call.program cache session ⟨fates, []⟩).2.1

end EntryCall

/-- The session after a sequence of calls, each with the fates of its operations. -/
def runEntryCalls (cache : RawCache) (calls : List (EntryCall × List Fate))
    (session : RawSession) : RawSession :=
  calls.foldl (fun session step => step.1.after cache step.2 session) session

/-- A body under a key is that of an entry that was there before, or of a write of a call. -/
inductive StoredBody (cache : RawCache) (before : OrderedMap String RawFile)
    (calls : List (EntryCall × List Fate)) (key : RawCacheKey) : List UInt8 → Prop
  | kept {entry : RawCacheEntry} (found : cache.find before key = .hit entry) :
      StoredBody cache before calls key entry.body
  | published {write : RawCacheWrite} {fates : List Fate}
      (member : (.publish key write, fates) ∈ calls) : StoredBody cache before calls key write.body

/-- What is found under a key is whole: it has such a body, it is readable unless it was not
before, and it is there unless it was not before or a call changes it. -/
structure Untorn (cache : RawCache) (before : OrderedMap String RawFile)
    (calls : List (EntryCall × List Fate)) (key : RawCacheKey) (state : RawSession) : Prop where
  whole : ∀ entry, cache.find state.entries key = .hit entry →
    StoredBody cache before calls key entry.body
  readable : ∀ cause, cache.find state.entries key = .corrupt cause →
    cache.find before key = .corrupt cause
  present : cache.find state.entries key = .missing →
    cache.find before key = .missing ∨ ∃ step ∈ calls, step.1.key = key

section Crashes

variable {cache : RawCache} {before : OrderedMap String RawFile}
  {calls : List (EntryCall × List Fate)} {key other : RawCacheKey} {write : RawCacheWrite}
  {events : List SessionEvent} {session reached : RawSession}

/-- What is found as before stays whole. -/
theorem Untorn.of_same (untorn : Untorn cache before calls key session)
    (same : cache.find reached.entries key = cache.find session.entries key) :
    Untorn cache before calls key reached where
  whole := fun entry found => untorn.whole entry (same ▸ found)
  readable := fun cause found => untorn.readable cause (same ▸ found)
  present := fun found => untorn.present (same ▸ found)

/-- An entry with a body of a call is whole. -/
theorem Untorn.of_hit {entry : RawCacheEntry} (hit : cache.find reached.entries key = .hit entry)
    (stored : StoredBody cache before calls key entry.body) :
    Untorn cache before calls key reached where
  whole := by
    intro other found
    rw [← RawCacheLookup.hit.inj (hit.symm.trans found)]
    exact stored
  readable := by
    intro cause found
    rw [hit] at found
    cases found
  present := by
    intro found
    rw [hit] at found
    cases found

/-- An entry may be missing where a call changes it. -/
theorem Untorn.of_missing (missing : cache.find reached.entries key = .missing)
    (called : ∃ step ∈ calls, step.1.key = key) : Untorn cache before calls key reached where
  whole := by
    intro entry found
    rw [missing] at found
    cases found
  readable := by
    intro cause found
    rw [missing] at found
    cases found
  present := fun _ => .inr called

/-- What is found stays whole when a write is stored under the same key or in another place. -/
theorem Untorn.survives (lawful : cache.Lawful) (made : cache.IsKey key)
    (otherMade : cache.IsKey other) (apart : other.digest = key.digest → other = key)
    (stored : other = key → StoredBody cache before calls key write.body)
    (called : other = key → ∃ step ∈ calls, step.1.key = key) :
    Survives cache (Untorn cache before calls key) events other write where
  inserted := by
    intro state header headerBytes storable headed written fits untorn _
    by_cases same : key.digest = other.digest
    · obtain rfl := apart same.symm
      exact .of_hit (lawful.find_insert otherMade headed written fits) (stored rfl)
    · apply untorn.of_same
      rw [made.find, OrderedMap.get?_insert, if_neg same, ← made.find]
  erased := by
    intro state untorn
    by_cases same : key.digest = other.digest
    · have absent : (state.entries.erase other.digest).get? key.digest = none := by
        rw [OrderedMap.get?_erase, if_pos same]
      exact .of_missing (made.find_missing absent) (called (apart same.symm))
    · apply untorn.of_same
      rw [made.find, OrderedMap.get?_erase, if_neg same, ← made.find]

/-- What is found stays whole over a call, however it ends. -/
theorem Untorn.call (lawful : cache.Lawful) (made : cache.IsKey key) {call : EntryCall}
    {fates : List Fate} (member : (call, fates) ∈ calls) (otherMade : cache.IsKey call.key)
    (apart : call.key.digest = key.digest → call.key = key)
    (untorn : Untorn cache before calls key session) :
    Untorn cache before calls key (call.after cache fates session) := by
  have calm : (⟨fates, []⟩ : Fates).Calm := List.not_mem_nil
  have called : call.key = key → ∃ step ∈ calls, step.1.key = key := fun same => ⟨_, member, same⟩
  cases call with
  | publish other write =>
    have survives : Survives cache (Untorn cache before calls key) session.events other write :=
      Untorn.survives lawful made otherMade apart (fun same => .published (same ▸ member)) called
    exact (traces_publish lawful otherMade survives session _ calm untorn rfl).1.2.1
  | update other validatedAt headers =>
    have survives : ∀ state entry, Untorn cache before calls key state → True →
        cache.find state.entries other = .hit entry →
        entry.validatedAt.nanosecond ≤ validatedAt.nanosecond →
        Survives cache (Untorn cache before calls key) state.events other
          (RawCache.revalidatedWrite entry validatedAt headers) := by
      intro state entry whole _ found _
      apply Untorn.survives lawful made otherMade apart _ called
      intro same
      exact whole.whole entry (same ▸ found)
    exact (traces_updateValidatedAtWithHeaders lawful otherMade survives session _ calm untorn
      trivial).1.2.1

/-- What is found stays whole over some of the calls. -/
theorem Untorn.run (lawful : cache.Lawful) (made : cache.IsKey key)
    (keys : ∀ step ∈ calls, cache.IsKey step.1.key)
    (apart : ∀ step ∈ calls, step.1.key.digest = key.digest → step.1.key = key)
    (later : List (EntryCall × List Fate)) (among : ∀ step ∈ later, step ∈ calls)
    (untorn : Untorn cache before calls key session) :
    Untorn cache before calls key (runEntryCalls cache later session) := by
  induction later generalizing session with
  | nil => exact untorn
  | cons step rest ih =>
    have member := among step List.mem_cons_self
    apply ih fun other found => among other (List.mem_cons_of_mem _ found)
    exact untorn.call lawful made member (keys step member) (apart step member)

/-- Over every sequence of calls that change the raw cache, each of which may fail or stop at any
operation, what is found under a key stays whole; and when a write is published after them and the
call returns, what is found is what is stored of the write. -/
theorem untorn_of_calls (lawful : cache.Lawful) (made : cache.IsKey key)
    (calls : List (EntryCall × List Fate)) (session : RawSession)
    (keys : ∀ step ∈ calls, cache.IsKey step.1.key)
    (apart : ∀ step ∈ calls, step.1.key.digest = key.digest → step.1.key = key) :
    Untorn cache session.entries calls key (runEntryCalls cache calls session) ∧
      ∀ write fates, (cache.publish key write (runEntryCalls cache calls session)
          ⟨fates, []⟩).1 = .returned () →
        cache.find ((EntryCall.publish key write).after cache fates
          (runEntryCalls cache calls session)).entries key = RawCache.stored key write := by
  constructor
  · apply Untorn.run lawful made keys apart calls fun _ found => found
    exact ⟨fun _ found => .kept found, fun _ found => found, .inl⟩
  · intro write fates returned
    have survives : Survives cache (fun _ => True) (runEntryCalls cache calls session).events key
        write := ⟨fun _ _ _ _ _ _ _ _ _ => trivial, fun _ _ => trivial⟩
    have calm : (⟨fates, []⟩ : Fates).Calm := List.not_mem_nil
    exact ((traces_publish lawful made survives _ _ calm trivial rfl).2 () returned).2

/-- The index is found once it is published, after a call that stopped before its file was there. -/
theorem untorn_of_calls_index :
    Untorn Small.dcfCache .empty [(.publish Small.dcfKey Small.dcfWrite, [.works, .stops])]
        Small.dcfKey (runEntryCalls Small.dcfCache
          [(.publish Small.dcfKey Small.dcfWrite, [.works, .stops])] ⟨.empty, []⟩) ∧
      ∀ write fates, (Small.dcfCache.publish Small.dcfKey write (runEntryCalls Small.dcfCache
          [(.publish Small.dcfKey Small.dcfWrite, [.works, .stops])] ⟨.empty, []⟩)
          ⟨fates, []⟩).1 = .returned () →
        Small.dcfCache.find ((EntryCall.publish Small.dcfKey write).after Small.dcfCache fates
          (runEntryCalls Small.dcfCache [(.publish Small.dcfKey Small.dcfWrite, [.works, .stops])]
            ⟨.empty, []⟩)).entries Small.dcfKey = RawCache.stored Small.dcfKey write := by
  have made : Small.dcfCache.IsKey Small.dcfKey := RawCache.isKey_of_key Small.dcfCache_key
  apply untorn_of_calls Small.dcfCache_lawful made
    [(.publish Small.dcfKey Small.dcfWrite, [.works, .stops])] ⟨.empty, []⟩
  · intro step member
    rw [List.mem_singleton.mp member]
    exact made
  · intro step member _
    rw [List.mem_singleton.mp member]
    rfl

end Crashes

end Rsolve
