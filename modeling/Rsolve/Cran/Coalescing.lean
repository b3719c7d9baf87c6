import Rsolve.Cran.SnapshotCache

/-!
# Forced refreshes that wait for each other

A forced refresh observes the latest validation of its endpoint without the lock, waits for the lock,
and is skipped when the validation it then finds is another one. The observation reads heads only,
while the reader with the lock skips the views whose generation it cannot open. A publish replaces at
most one head, by one operation, so whatever the observation reads while publishers are at work is
stored there before their calls or after some of them.
-/
open Checked Framing Ordered Sorting Faults

namespace Rsolve

/-- `PersistentRefreshProbe`. -/
structure PersistentRefreshProbe where
  revision : Option String
  observationValid : Bool
deriving DecidableEq, Repr

/-- `refresh_completed_after_wait`, which `refresh_completed_while_waiting` calls. -/
def refreshCompletedAfterWait (probe : PersistentRefreshProbe) (lockedRevision : Option String) :
    Bool :=
  probe.observationValid && lockedRevision.isSome && probe.revision != lockedRevision

/-- `cache_revision`. -/
def CranSnapshotCacheResult.revision : CranSnapshotCacheResult → Option String
  | .compatible _ diagnostic => diagnostic.revisionToken
  | .rejected _ => none

section Definitions

variable (store : SnapshotStore) (recordBytes : RecordBytes)

/-- `observe_persistent_refresh_probe`, from what is read under the keys. -/
def observePersistentRefreshProbe (policy : CranSnapshotCachePolicy)
    (seen : List (String × Option (List UInt8))) : PersistentRefreshProbe :=
  match readViewValidationRevisionUnlocked store recordBytes policy.expectedEndpoint seen with
  | .ok revision => ⟨revision, true⟩
  | .error _ => ⟨none, false⟩

/-- The files after some calls on given files. -/
def runFrom (files : StoreFiles) (calls : List (StoreCall × Fates)) : StoreFiles :=
  calls.foldl (StoreCall.after store) files

/-- What a reader without the lock may read while some calls are made: every key that was there is
listed, and under a key is read what is stored there after some of the calls. -/
structure Glimpses (files : StoreFiles) (calls : List (StoreCall × Fates))
    (seen : List (String × Option (List UInt8))) : Prop where
  listed : ∀ viewKey content, files.views.get? viewKey = some content →
    ∃ entry ∈ seen, entry.1 = viewKey
  read : ∀ entry ∈ seen, ∃ before, before <+: calls ∧
    entry.2 = (runFrom store files before).views.get? entry.1

/-- A head for an endpoint is stored under its key, whether its generation can be opened or not. -/
def StoreFiles.Observes (files : StoreFiles) (expected : String) (head : ViewHeadV1) : Prop :=
  ∃ content, files.views.get? head.viewKey = some content ∧
    decodeViewHead store (content.take (viewHeadLimit + 1)) = .ok head ∧
    viewEndpointMatches head.validation.effectiveEndpoint expected = true

/-- The latest head for an endpoint that is stored. -/
def StoreFiles.ObservesLast (files : StoreFiles) (expected : String) (head : ViewHeadV1) : Prop :=
  files.Observes store expected head ∧
    ∀ other, files.Observes store expected other → other = head ∨ head.IsAfter other

/-- Calls that publish into some files, each for an expected endpoint or for one that does not match it.
The latest head that is stored for the endpoint is read, its generation is valid, and the calls for
other endpoints do not publish under its key; no lookup fails. -/
structure Coalesces (expected : String) (files : StoreFiles) (calls : List (StoreCall × Fates)) :
    Prop where
  calm : ∀ step ∈ calls, step.2.Calm
  publishes : ∀ step ∈ calls, ∃ input endpoint process order,
    step.1 = .publish input endpoint process order
  apart : ∀ step ∈ calls, ∀ viewKey endpoint, step.1.PublishesFor store viewKey endpoint →
    endpoint = expected ∨ viewEndpointMatches endpoint expected = false
  readable : ∀ head, files.ObservesLast store expected head →
    ∃ loader, files.Displays store (head, loader)
  keyed : ∀ head, files.ObservesLast store expected head → ∀ step ∈ calls, ∀ endpoint,
    step.1.PublishesFor store head.viewKey endpoint → endpoint = expected

/-- A head for an endpoint was committed by the calls that led from some files to others. -/
def CommittedFor (expected : String) (files reached : StoreFiles) : Prop :=
  ∃ newer, reached.committed = newer ++ files.committed ∧
    ∃ head ∈ newer, head.validation.effectiveEndpoint = expected

/-- What keeps a refresh of an endpoint from being skipped: the heads for the endpoint are those that
were stored before, and the latest one of them is still read. -/
structure Unmoved (expected : String) (files reached : StoreFiles) : Prop where
  older : ∀ head, reached.Observes store expected head → files.Observes store expected head
  latest : ∀ view : View, files.ObservesLast store expected view.1 → files.Displays store view →
    reached.Displays store view

end Definitions

variable {store : SnapshotStore} {files reached : StoreFiles} {expected : String}

section Heads

variable {head other : ViewHeadV1}

/-- Of two heads, at most one is after the other. -/
theorem ViewHeadV1.IsAfter.asymm (isAfter : head.IsAfter other) : ¬ other.IsAfter head := by
  rintro (above | ⟨same, above⟩)
  · rcases isAfter with below | ⟨same, -⟩
    · exact absurd below (Nat.not_lt_of_gt above)
    · exact absurd above (same ▸ Nat.lt_irrefl _)
  · rcases isAfter with below | ⟨-, below⟩
    · exact absurd below (same ▸ Nat.lt_irrefl _)
    · rw [@Std.OrientedCmp.eq_swap _ compare _ _ _, below] at above
      cases above

/-- No head is after itself. -/
theorem ViewHeadV1.not_isAfter_self : ¬ head.IsAfter head := fun isAfter => isAfter.asymm isAfter

/-- A view whose head is after another one comes after it. -/
theorem compareViews_of_isAfter {view : View} {loader : GenerationLoader}
    (isAfter : view.1.IsAfter other) : compareViews (other, loader) view = .lt := by
  simp only [compareViews, compareLex, compareOn]
  rcases isAfter with below | ⟨same, below⟩
  · rw [Nat.compare_eq_lt.mpr below]
    rfl
  · rw [Nat.compare_eq_eq.mpr same, below]
    rfl

/-- What is stored under a key is one head. -/
theorem StoreFiles.Observes.unique (first : files.Observes store expected head)
    (second : files.Observes store expected other) (same : head.viewKey = other.viewKey) :
    head = other := by
  obtain ⟨content, present, decoded, -⟩ := first
  obtain ⟨text, presentOther, decodedOther, -⟩ := second
  rw [same, presentOther] at present
  obtain rfl := Option.some.inj present
  exact Except.ok.inj (decoded.symm.trans decodedOther)

/-- The head for an endpoint in what is read under a key. -/
def observedHead (store : SnapshotStore) (expected : String) (seen : String × Option (List UInt8)) :
    Option ViewHeadV1 :=
  seen.2.bind fun content =>
    (decodeViewHead store (content.take (viewHeadLimit + 1))).toOption.filter fun head =>
      head.viewKey == seen.1 && viewEndpointMatches head.validation.effectiveEndpoint expected

/-- The head for an endpoint in what is stored under a key is stored there. -/
theorem observedHead_eq_some {viewKey : String} :
    observedHead store expected (viewKey, files.views.get? viewKey) = some head ↔
      head.viewKey = viewKey ∧ files.Observes store expected head := by
  constructor
  · intro observed
    obtain ⟨content, present, filtered⟩ := Option.bind_eq_some_iff.mp observed
    obtain ⟨decoded, held⟩ := Option.filter_eq_some_iff.mp filtered
    obtain ⟨named, matched⟩ := Bool.and_eq_true_iff.mp held
    obtain rfl := eq_of_beq named
    refine ⟨rfl, content, present, ?_, matched⟩
    cases outcome : decodeViewHead store (content.take (viewHeadLimit + 1)) with
    | error cause =>
      rw [outcome] at decoded
      cases decoded
    | ok found =>
      rw [outcome] at decoded
      exact congrArg Except.ok (Option.some.inj decoded)
  · rintro ⟨rfl, content, present, decoded, matched⟩
    refine Option.bind_eq_some_iff.mpr ⟨content, present, Option.filter_eq_some_iff.mpr ?_⟩
    rw [decoded, matched]
    exact ⟨rfl, by simp⟩

/-- Heads by their sequence numbers, then by their keys. -/
def compareHeads : ViewHeadV1 → ViewHeadV1 → Ordering :=
  compareLex (compareOn fun head => head.validation.refreshSequence)
    (compareOn fun head => head.viewKey)

instance : Std.TransCmp compareHeads := inferInstanceAs (Std.TransCmp (compareLex _ _))

/-- Of two heads with different keys, one that does not come before the other is after it. -/
theorem ViewHeadV1.isAfter_of_isLE (apart : other.viewKey ≠ head.viewKey)
    (le : (compareHeads other head).isLE = true) : head.IsAfter other := by
  simp only [compareHeads, compareLex, compareOn] at le
  rcases Nat.lt_trichotomy other.validation.refreshSequence head.validation.refreshSequence with
    below | same | above
  · exact .inl below
  · rw [Nat.compare_eq_eq.mpr same, Ordering.then] at le
    refine .inr ⟨same, ?_⟩
    cases order : compare other.viewKey head.viewKey with
    | lt => rfl
    | eq => exact absurd (Std.LawfulEqCmp.eq_of_compare order) apart
    | gt =>
      rw [order] at le
      cases le
  · rw [Nat.compare_eq_gt.mpr above] at le
    cases le

/-- Where heads are stored for an endpoint, there is a latest one. -/
theorem StoreFiles.Observes.exists_last (observes : files.Observes store expected head) :
    ∃ last, files.ObservesLast store expected last := by
  have mem_heads : ∀ other : ViewHeadV1,
      other ∈ files.views.keys.filterMap (fun viewKey =>
          observedHead store expected (viewKey, files.views.get? viewKey)) ↔
        files.Observes store expected other := by
    intro other
    rw [List.mem_filterMap]
    constructor
    · rintro ⟨viewKey, -, observed⟩
      exact (observedHead_eq_some.mp observed).2
    · intro held
      obtain ⟨content, present, _⟩ := id held
      exact ⟨other.viewKey, OrderedMap.mem_keys.mpr ⟨content, present⟩,
        observedHead_eq_some.mpr ⟨rfl, held⟩⟩
  obtain ⟨last, inside, -, above⟩ :=
    exists_last_sortBy compareHeads ((mem_heads head).mpr observes)
  refine ⟨last, (mem_heads last).mp inside, fun other held => ?_⟩
  by_cases named : other.viewKey = last.viewKey
  · exact .inl (held.unique ((mem_heads last).mp inside) named)
  · exact .inr (ViewHeadV1.isAfter_of_isLE named (above other ((mem_heads other).mpr held)))

/-- A view that is read is stored for the endpoints that it matches. -/
theorem observes_of_readView {viewKey : String} {view : View}
    (read : readViewOptionalLocked store files viewKey = .ok (some view))
    (held : viewEndpointMatches view.1.validation.effectiveEndpoint expected = true) :
    files.Observes store expected view.1 := by
  have named := viewKey_of_readView read
  obtain ⟨reads, -⟩ := readView_eq_ok.mp read
  unfold readHead at reads
  cases present : files.views.get? viewKey with
  | none => simp [present, bind_eq_ok, pure, Except.pure] at reads
  | some content =>
    simp only [present, bind_eq_ok, ensure_eq_ok, pure, Except.pure, Except.ok.injEq,
      Option.some.injEq] at reads
    obtain ⟨_, -, found, decoded, _, -, _, -, rfl⟩ := reads
    exact ⟨content, named ▸ present, decoded, held⟩

end Heads

section Publishing

variable {calls : List (StoreCall × Fates)} {head : ViewHeadV1}

/-- The first calls of coalescing ones coalesce. -/
theorem Coalesces.of_append {before later : List (StoreCall × Fates)}
    (coalesces : Coalesces store expected files (before ++ later)) :
    Coalesces store expected files before where
  calm := fun step member => coalesces.calm step (List.mem_append_left _ member)
  publishes := fun step member => coalesces.publishes step (List.mem_append_left _ member)
  apart := fun step member => coalesces.apart step (List.mem_append_left _ member)
  readable := coalesces.readable
  keyed := fun head last step member => coalesces.keyed head last step (List.mem_append_left _ member)

/-- The first calls of coalescing ones coalesce. -/
theorem Coalesces.of_prefix {before : List (StoreCall × Fates)}
    (coalesces : Coalesces store expected files calls) (first : before <+: calls) :
    Coalesces store expected files before := by
  obtain ⟨later, rfl⟩ := first
  exact coalesces.of_append

/-- Nothing has moved before any call. -/
theorem Unmoved.refl (files : StoreFiles) : Unmoved store expected files files :=
  ⟨fun _ observes => observes, fun _ _ displays => displays⟩

/-- What keeps the heads moves nothing. -/
theorem Unmoved.keeps {between : StoreFiles} (unmoved : Unmoved store expected files between)
    (keeps : Keeps store between reached) : Unmoved store expected files reached where
  older := by
    rintro head ⟨content, present, decoded⟩
    rw [keeps.views] at present
    exact unmoved.older head ⟨content, present, decoded⟩
  latest := fun view last displays => (unmoved.latest view last displays).keeps keeps

/-- A head that is committed for an endpoint that does not match, and not under the key of the latest
head, moves nothing. -/
theorem Unmoved.places {between : StoreFiles} (unmoved : Unmoved store expected files between)
    (readsBack : store.headJson.ReadsBack) {kind : ViewHeadV1 → Prop}
    (places : Places store kind head between reached)
    (apart : viewEndpointMatches head.validation.effectiveEndpoint expected = false)
    (keyed : ∀ last, files.ObservesLast store expected last → last.viewKey ≠ head.viewKey) :
    Unmoved store expected files reached := by
  obtain ⟨text, stored, views⟩ := places.views
  constructor
  · rintro other ⟨content, present, decoded, matched⟩
    rw [views, OrderedMap.get?_insert] at present
    split at present
    · obtain rfl := Option.some.inj present
      obtain rfl := stored.decoded readsBack decoded
      rw [apart] at matched
      cases matched
    · exact unmoved.older other ⟨content, present, decoded, matched⟩
  · intro view last displays
    refine (unmoved.latest view last displays).endures ?_ places.generations
    rw [views, OrderedMap.get?_insert, if_neg (keyed view.1 last)]

/-- A head for an endpoint that was committed stays committed. -/
theorem CommittedFor.onward {between : StoreFiles} (committed : CommittedFor expected files between)
    {newer : List ViewHeadV1} (later : reached.committed = newer ++ between.committed) :
    CommittedFor expected files reached := by
  obtain ⟨earlier, same, head, member, named⟩ := committed
  refine ⟨newer ++ earlier, ?_, head, List.mem_append_right _ member, named⟩
  rw [later, same, List.append_assoc]

/-- After a publish, a head for the endpoint was committed, or nothing has moved. -/
theorem Unmoved.publish {between : StoreFiles} (readsBack : store.headJson.ReadsBack)
    {step : StoreCall × Fates} (coalesces : Coalesces store expected files (calls ++ [step])) :
    let reached := StoreCall.after store between step
    ∃ newer, reached.committed = newer ++ between.committed ∧
      (Unmoved store expected files between → Unmoved store expected files reached ∨
        ∃ head ∈ newer, head.validation.effectiveEndpoint = expected) := by
  have member : step ∈ calls ++ [step] := List.mem_append_right _ (List.mem_singleton_self _)
  obtain ⟨input, given, process, order, call_eq⟩ := coalesces.publishes step member
  obtain ⟨call, fates⟩ := step
  obtain rfl : call = _ := call_eq
  have placed : Traces (fun _ => True) (Displaying store (between.Displays store))
      (buildAndPublish store input given process order)
      (Placing store (ViewHeadV1.FollowsInput store input (given.getD (effectiveEndpoint input))
        (between.Displays store))) (fun _ _ => True) :=
    placing_buildAndPublish input given process order
  obtain ⟨⟨-, -, placing⟩, -⟩ :=
    placed between fates (coalesces.calm _ member) trivial fun _ displays => displays
  rcases placing with keeps | ⟨head, places⟩
  · exact ⟨[], keeps.committed, fun unmoved => .inl (unmoved.keeps keeps)⟩
  · obtain ⟨-, publishes, -⟩ := places.fits.named process order
    refine ⟨[head], places.committed, fun unmoved => ?_⟩
    by_cases named : head.validation.effectiveEndpoint = expected
    · exact .inr ⟨head, List.mem_singleton_self _, named⟩
    · have apart := (coalesces.apart _ member _ _ publishes).resolve_left named
      refine .inl (unmoved.places readsBack places apart fun last observed same => named ?_)
      exact coalesces.keyed last observed _ member _ (same ▸ publishes)

/-- A run from some files is one call after another. -/
theorem runFrom_concat (calls : List (StoreCall × Fates)) (step : StoreCall × Fates) :
    runFrom store files (calls ++ [step]) = StoreCall.after store (runFrom store files calls) step := by
  rw [runFrom, List.foldl_append]
  rfl

/-- After some publishes, a head for the endpoint was committed, or nothing has moved. -/
theorem unmoved_runFrom (readsBack : store.headJson.ReadsBack)
    (coalesces : Coalesces store expected files calls) :
    CommittedFor expected files (runFrom store files calls) ∨
      Unmoved store expected files (runFrom store files calls) ∧
        ∃ newer, (runFrom store files calls).committed = newer ++ files.committed := by
  induction calls using List.reverseRecOn with
  | nil => exact .inr ⟨.refl files, [], rfl⟩
  | append_singleton before step ih =>
    rw [runFrom_concat]
    obtain ⟨newer, later, moves⟩ := Unmoved.publish readsBack coalesces
    rcases ih coalesces.of_append with committed | ⟨unmoved, earlier, same⟩
    · exact .inl (committed.onward later)
    · rw [same, ← List.append_assoc] at later
      rcases moves unmoved with unmoved | ⟨head, member, named⟩
      · exact .inr ⟨unmoved, _, later⟩
      · exact .inl ⟨_, later, head, List.mem_append_left _ member, named⟩

/-- What some of the calls committed stays committed after the others. -/
theorem committedFor_of_leading (readsBack : store.headJson.ReadsBack)
    {before : List (StoreCall × Fates)} (first : before <+: calls)
    (coalesces : Coalesces store expected files calls)
    (committed : CommittedFor expected files (runFrom store files before)) :
    CommittedFor expected files (runFrom store files calls) := by
  obtain ⟨later, rfl⟩ := first
  induction later using List.reverseRecOn with
  | nil =>
    rw [List.append_nil]
    exact committed
  | append_singleton between step ih =>
    rw [← List.append_assoc] at coalesces ⊢
    obtain ⟨newer, same, -⟩ := Unmoved.publish readsBack coalesces
    rw [runFrom_concat]
    exact (ih coalesces.of_append).onward same

end Publishing

section Observing

variable {last : ViewHeadV1} {seen : List (String × Option (List UInt8))}

/-- The latest head so far, after another one for the endpoint. -/
def laterHead (current candidate : Option ViewHeadV1) : Option ViewHeadV1 :=
  match candidate with
  | none => current
  | some head => if current.all fun current => head.IsAfter current then some head else current

/-- With an endpoint, what is read under a key changes the latest head by its head for the endpoint. -/
theorem observeHead_some (state : Option ViewHeadV1 × Bool) (entry : String × Option (List UInt8)) :
    ∃ malformed, observeHead store (some expected) state entry =
      .ok (laterHead state.1 (observedHead store expected entry), malformed) := by
  unfold observeHead observedHead
  cases entry.2 with
  | none => exact ⟨true, rfl⟩
  | some content =>
    cases decoded : decodeViewHead store (content.take (viewHeadLimit + 1)) with
    | error cause => exact ⟨true, by simp [decoded, laterHead, Except.toOption]⟩
    | ok head =>
      simp only [decoded, Option.bind_some, Except.toOption, Option.filter_some, Option.any_some]
      by_cases named : head.viewKey = entry.1
      · by_cases matched : viewEndpointMatches head.validation.effectiveEndpoint expected = true
        · by_cases isAfter : (state.1.all fun current => head.IsAfter current) = true
          · exact ⟨state.2, by simp [named, matched, isAfter, laterHead]⟩
          · exact ⟨state.2, by simp [named, matched, isAfter, laterHead]⟩
        · exact ⟨state.2, by simp [named, matched, laterHead]⟩
      · exact ⟨true, by simp [named, laterHead]⟩

/-- What is read under some keys changes the latest head by the heads for the endpoint. -/
theorem foldlM_observeHead (state : Option ViewHeadV1 × Bool) :
    ∃ malformed, seen.foldlM (observeHead store (some expected)) state =
      .ok ((seen.map (observedHead store expected)).foldl laterHead state.1, malformed) := by
  induction seen generalizing state with
  | nil => exact ⟨state.2, rfl⟩
  | cons entry rest ih =>
    obtain ⟨malformed, observed⟩ := @observeHead_some store expected state entry
    obtain ⟨reached, folded⟩ := ih (laterHead state.1 (observedHead store expected entry), malformed)
    refine ⟨reached, ?_⟩
    rw [List.foldlM_cons, observed]
    exact folded

/-- Every head of some is the last one, or the last one is after it. -/
def Bounds (last : ViewHeadV1) (head : Option ViewHeadV1) : Prop :=
  ∀ found ∈ head, found = last ∨ last.IsAfter found

/-- A later head is bounded, and it is the last one when one of the two is. -/
theorem laterHead_of_bounds {current candidate : Option ViewHeadV1} (bounded : Bounds last current)
    (bounds : Bounds last candidate) :
    Bounds last (laterHead current candidate) ∧
      (current = some last ∨ candidate = some last → laterHead current candidate = some last) := by
  cases candidate with
  | none => exact ⟨bounded, fun isLast => isLast.resolve_right nofun⟩
  | some head =>
    cases current with
    | none => exact ⟨bounds, fun isLast => isLast.resolve_left nofun⟩
    | some found =>
      simp only [laterHead, Option.all_some, decide_eq_true_eq, Option.some.injEq]
      split
      · next isAfter =>
        refine ⟨bounds, fun isLast => congrArg some (isLast.resolve_left ?_)⟩
        rintro rfl
        rcases bounds head rfl with rfl | before
        · exact ViewHeadV1.not_isAfter_self isAfter
        · exact before.asymm isAfter
      · next notAfter =>
        refine ⟨bounded, fun isLast => congrArg some (isLast.elim id ?_)⟩
        rintro rfl
        exact (bounded found rfl).resolve_right notAfter

/-- Where every head is bounded and the last one is among them, it is the latest one. -/
theorem foldl_laterHead {heads : List (Option ViewHeadV1)} {current : Option ViewHeadV1}
    (bounded : Bounds last current) (bounds : ∀ head ∈ heads, Bounds last head)
    (isThere : current = some last ∨ some last ∈ heads) :
    heads.foldl laterHead current = some last := by
  induction heads generalizing current with
  | nil => exact isThere.resolve_right List.not_mem_nil
  | cons head rest ih =>
    obtain ⟨kept, found⟩ := laterHead_of_bounds bounded (bounds head List.mem_cons_self)
    refine ih kept (fun other member => bounds other (List.mem_cons_of_mem _ member)) ?_
    rcases isThere with isLast | isThere
    · exact .inl (found (.inl isLast))
    · rcases List.mem_cons.mp isThere with same | member
      · exact .inl (found (.inr same.symm))
      · exact .inr member

/-- Where the last head is among those that are read, and every other one is before it, it is observed. -/
theorem observeLatest_eq_some
    (bounds : ∀ entry ∈ seen, Bounds last (observedHead store expected entry))
    (isThere : ∃ entry ∈ seen, observedHead store expected entry = some last) :
    observeLatest store (some expected) seen = .ok (some last) := by
  have latest : (seen.map (observedHead store expected)).foldl laterHead none = some last := by
    refine foldl_laterHead (fun _ found => nomatch found) (fun head member => ?_) (.inr ?_)
    · obtain ⟨entry, inside, rfl⟩ := List.mem_map.mp member
      exact bounds entry inside
    · obtain ⟨entry, inside, same⟩ := isThere
      exact List.mem_map.mpr ⟨entry, inside, same⟩
  obtain ⟨malformed, folded⟩ :=
    @foldlM_observeHead store expected seen (none, false)
  rw [latest] at folded
  simp only [observeLatest, folded, bind_eq_ok, ensure_eq_ok, pure, Except.pure, Except.ok.injEq]
  exact ⟨(some last, malformed), rfl, (), nofun, rfl⟩

/-- While nothing moves, what is read without the lock observes the latest head. -/
theorem observeLatest_of_unmoved {calls : List (StoreCall × Fates)} {loader : GenerationLoader}
    (glimpses : Glimpses store files calls seen)
    (unmoved : ∀ before, before <+: calls →
      Unmoved store expected files (runFrom store files before))
    (isLast : files.ObservesLast store expected last) (displays : files.Displays store (last, loader)) :
    observeLatest store (some expected) seen = .ok (some last) := by
  have read : ∀ entry ∈ seen, ∃ before, before <+: calls ∧
      entry = (entry.1, (runFrom store files before).views.get? entry.1) := by
    intro entry member
    obtain ⟨before, first, same⟩ := glimpses.read entry member
    exact ⟨before, first, Prod.ext rfl same⟩
  refine observeLatest_eq_some (fun entry member found observed => ?_) ?_
  · obtain ⟨before, first, same⟩ := read entry member
    rw [same] at observed
    exact isLast.2 found ((unmoved before first).older found (observedHead_eq_some.mp observed).2)
  · obtain ⟨content, present, _, matched⟩ := isLast.1
    obtain ⟨entry, member, named⟩ := glimpses.listed last.viewKey content present
    obtain ⟨before, first, same⟩ := read entry member
    have there := (unmoved before first).latest (last, loader) isLast displays
    have stored : (runFrom store files before).Observes store expected last :=
      @observes_of_readView _ _ _ _ (last, loader) there.1 matched
    refine ⟨entry, member, ?_⟩
    rw [same, observedHead_eq_some]
    exact ⟨named.symm, stored⟩

/-- While nothing moves, the reader with the lock finds the latest head. -/
theorem readViewForEndpoint_of_unmoved {loader : GenerationLoader} {order : Enumeration} {view : View}
    (unmoved : Unmoved store expected files reached) (isLast : files.ObservesLast store expected last)
    (displays : files.Displays store (last, loader))
    (found : readViewForEndpoint store order reached expected = .ok (some view)) :
    view.1 = last := by
  obtain ⟨_, _, _, matched⟩ := isLast.1
  have there := unmoved.latest (last, loader) isLast displays
  have latest : readViewForEndpoint store order reached expected = .ok (some (last, loader)) := by
    refine latestOf_eq_of_last (mem_readViews_for.mpr ⟨⟨_, there.1⟩, matched⟩) fun other member => ?_
    obtain ⟨⟨viewKey, read⟩, held⟩ := mem_readViews_for.mp member
    refine (isLast.2 other.1 (unmoved.older _ (observes_of_readView read held))).imp (fun same => ?_)
      fun isAfter => compareViews_of_isAfter isAfter
    have named := viewKey_of_readView read
    rw [same] at named
    subst named
    exact Option.some.inj (Except.ok.inj (read.symm.trans there.1))
  rw [latest] at found
  exact congrArg Prod.fst (Option.some.inj (Except.ok.inj found)).symm

end Observing

section Waiting

variable (parseTimestamp : String → Except String Timestamp) (store : SnapshotStore)
  (recordBytes : RecordBytes) (policy : CranSnapshotCachePolicy)

/-- The revision that is reported is that of the record. -/
theorem revisionToken_of_compatible {outcome : Except CandidateLoadError (Option GenerationLoader)}
    {validation : Option ViewValidationV1} {loader : GenerationLoader}
    {diagnostic : CranSnapshotCacheDiagnostic}
    (reported : inspectFromReads parseTimestamp store recordBytes policy outcome validation =
      .compatible loader diagnostic) :
    diagnostic.revisionToken = validation.map (viewValidationRevisionToken store recordBytes) := by
  unfold inspectFromReads at reported
  split at reported
  · cases reported
  · cases reported
  · dsimp only at reported
    split at reported
    · cases reported
    · split at reported
      · cases reported
      · split at reported
        · cases reported
        · obtain ⟨-, rfl⟩ := CranSnapshotCacheResult.compatible.inj reported
          rfl

/-- The revision that is reported is that of the view that is found for the endpoint. -/
theorem exists_of_revision {order : Enumeration} {files : StoreFiles} {expected revision : String}
    (reported : (inspectCranSnapshotCache parseTimestamp store recordBytes
      (policy.withExpectedEndpoint expected) (.ok ()) order files).revision = some revision) :
    ∃ view : View, readViewForEndpoint store order files expected = .ok (some view) ∧
      revision = viewValidationRevisionToken store recordBytes (validationRecord view.1) := by
  cases inspected : inspectCranSnapshotCache parseTimestamp store recordBytes
      (policy.withExpectedEndpoint expected) (.ok ()) order files with
  | rejected diagnostic =>
    rw [inspected] at reported
    cases reported
  | compatible loader diagnostic =>
    rw [inspected] at reported
    obtain ⟨view, found, -⟩ := inspect_of_compatible _ _ _ _ inspected
    refine ⟨view, found, ?_⟩
    rw [inspect_of_found _ _ _ _ found] at inspected
    exact (Option.some.inj ((revisionToken_of_compatible _ _ _ _ inspected).symm.trans reported)).symm

/-- A refresh of an endpoint is skipped after the wait only where a head for the endpoint was committed
meanwhile. -/
def SkipsSoundly (expected : String) (files : StoreFiles) (calls : List (StoreCall × Fates)) : Prop :=
  ∀ seen, Glimpses store files calls seen → ∀ order,
    refreshCompletedAfterWait
      (observePersistentRefreshProbe store recordBytes (policy.withExpectedEndpoint expected) seen)
      (inspectCranSnapshotCache parseTimestamp store recordBytes
        (policy.withExpectedEndpoint expected) (.ok ()) order
        (runFrom store files calls)).revision = true →
    CommittedFor expected files (runFrom store files calls)

/-- In every run of publishes on files whose latest head for an endpoint is read, where no head of
another endpoint matches the endpoint or takes the key of that one, refreshes are skipped soundly. -/
theorem skipsSoundly_of_coalesces (readsBack : store.headJson.ReadsBack) (expected : String)
    (files : StoreFiles) (calls : List (StoreCall × Fates))
    (coalesces : Coalesces store expected files calls) :
    SkipsSoundly parseTimestamp store recordBytes policy expected files calls := by
  intro seen glimpses order completed
  by_contra uncommitted
  have unmoved : ∀ before, before <+: calls →
      Unmoved store expected files (runFrom store files before) := by
    intro before first
    refine ((unmoved_runFrom readsBack (coalesces.of_prefix first)).resolve_left ?_).1
    exact fun committed => uncommitted (committedFor_of_leading readsBack first coalesces committed)
  unfold refreshCompletedAfterWait at completed
  simp only [Bool.and_eq_true, bne_iff_ne, Option.isSome_iff_exists] at completed
  obtain ⟨⟨-, revision, reported⟩, differs⟩ := completed
  obtain ⟨view, found, rfl⟩ := exists_of_revision _ _ _ _ reported
  obtain ⟨read, held⟩ := readView_of_readViewForEndpoint found
  obtain ⟨last, isLast⟩ :=
    ((unmoved calls (List.prefix_refl _)).older _ (observes_of_readView read held)).exists_last
  obtain ⟨loader, displays⟩ := coalesces.readable last isLast
  have same : view.1 = last :=
    readViewForEndpoint_of_unmoved (unmoved calls (List.prefix_refl _)) isLast displays found
  refine differs ?_
  rw [reported, same]
  simp only [observePersistentRefreshProbe, CranSnapshotCachePolicy.withExpectedEndpoint,
    readViewValidationRevisionUnlocked, observeLatest_of_unmoved glimpses unmoved isLast displays]
  rfl

end Waiting

namespace Small

/-- Without views nothing is observed. -/
theorem not_observes_empty {head : ViewHeadV1} : ¬ StoreFiles.empty.Observes store expected head := by
  rintro ⟨content, present, -⟩
  cases present

/-- The publish for the mirror coalesces with a refresh of the mirror. -/
theorem coalesces_mirrorPublish :
    Coalesces mirrorStore mirrorEndpoint .empty [(mirrorPublish, ⟨[], []⟩)] where
  calm := isolated_mirrorPublish.calm
  publishes := isolated_mirrorPublish.publishes
  apart := isolated_mirrorPublish.apart
  readable := fun _ isLast => absurd isLast.1 not_observes_empty
  keyed := fun _ isLast => absurd isLast.1 not_observes_empty

/-- Before the publish for the mirror nothing is listed. -/
theorem glimpses_empty : Glimpses mirrorStore .empty [(mirrorPublish, ⟨[], []⟩)] [] where
  listed := fun _ _ present => by cases present
  read := fun _ member => by cases member

/-- A refresh that observed nothing is skipped after the publish for the mirror, for each endpoint that
its view matches. -/
theorem completed_mirror (endpoint : String) (member : endpoint ∈ [mirrorEndpoint, aboveEndpoint]) :
    refreshCompletedAfterWait
      (observePersistentRefreshProbe mirrorStore noRecordBytes
        (publishPolicy.withExpectedEndpoint endpoint) [])
      (inspectCranSnapshotCache parsePublishTime mirrorStore noRecordBytes
        (publishPolicy.withExpectedEndpoint endpoint) (.ok ()) byName
        (runFrom mirrorStore .empty [(mirrorPublish, ⟨[], []⟩)])).revision = true := by
  obtain ⟨held, fresh⟩ := status_mirror endpoint member
  have found := readViewForEndpoint_mirror held
  rw [← runCalls_mirrorPublish] at found
  obtain ⟨diagnostic, reported, -⟩ := compatible_of_fresh _ _ _ _ fresh
  have inspected : inspectCranSnapshotCache parsePublishTime mirrorStore noRecordBytes
      (publishPolicy.withExpectedEndpoint endpoint) (.ok ()) byName
      (runFrom mirrorStore .empty [(mirrorPublish, ⟨[], []⟩)]) = .compatible mirrorLoader diagnostic :=
    (inspect_of_found _ _ _ _ found).trans reported
  rw [inspected, CranSnapshotCacheResult.revision, revisionToken_of_compatible _ _ _ _ reported]
  rfl

end Small

/-- A refresh of the mirror is skipped after the publish for the mirror, which committed its head. -/
theorem committedFor_mirror :
    CommittedFor Small.mirrorEndpoint .empty
      (runFrom Small.mirrorStore .empty [(Small.mirrorPublish, ⟨[], []⟩)]) :=
  skipsSoundly_of_coalesces Small.parsePublishTime Small.mirrorStore Small.noRecordBytes
    Small.publishPolicy Small.mirrorStore_readsBack Small.mirrorEndpoint .empty _
    Small.coalesces_mirrorPublish [] Small.glimpses_empty Small.byName
    (Small.completed_mirror _ (by decide))

/-- A refresh of the endpoint above the mirror is skipped after the publish for the mirror. -/
theorem not_skipsSoundly :
    ¬ SkipsSoundly Small.parsePublishTime Small.mirrorStore Small.noRecordBytes Small.publishPolicy
      Small.aboveEndpoint .empty [(Small.mirrorPublish, ⟨[], []⟩)] := by
  intro sound
  obtain ⟨newer, committed, head, member, named⟩ :=
    sound [] Small.glimpses_empty Small.byName (Small.completed_mirror _ (by decide))
  have same : (runCalls Small.mirrorStore [(Small.mirrorPublish, ⟨[], []⟩)]).committed =
      newer ++ StoreFiles.empty.committed := committed
  rw [Small.runCalls_mirrorPublish] at same
  have only : [Small.mirrorHead] = newer := same.trans (List.append_nil _)
  rw [← only, List.mem_singleton] at member
  subst member
  exact absurd named (by decide)

end Rsolve
