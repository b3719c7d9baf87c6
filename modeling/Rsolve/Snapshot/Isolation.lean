import Rsolve.Snapshot.Repair

/-!
# Views of several endpoints in one store

The views of a store are published for endpoints, and a reader asks for the latest view of one of
them. A view matches the endpoint it was published for and the endpoints above it. Where the views of
other endpoints do not match the one that is asked for, the reader finds the view that was published
for it last, whatever is published for the others.
-/
open Checked Framing Ordered Sorting Faults

namespace Rsolve

variable (store : SnapshotStore)

/-- A call publishes a view under a key, for an endpoint. -/
def StoreCall.PublishesFor (call : StoreCall) (viewKey endpoint : String) : Prop :=
  ∃ input given process order header bytes histories, call = .publish input given process order ∧
    prepared store.basis input = .ok (header, bytes, histories) ∧
    viewKey = publishedKey store header input given ∧
    endpoint = given.getD (effectiveEndpoint input)

/-- Calls that publish, each for an expected endpoint or for one that does not match it; no lookup
fails, and views for different endpoints have different keys. -/
structure Isolated (expected : String) (calls : List (StoreCall × Fates)) : Prop where
  calm : ∀ step ∈ calls, step.2.Calm
  publishes : ∀ step ∈ calls, ∃ input endpoint process order,
    step.1 = .publish input endpoint process order
  apart : ∀ step ∈ calls, ∀ viewKey endpoint, step.1.PublishesFor store viewKey endpoint →
    endpoint = expected ∨ viewEndpointMatches endpoint expected = false
  keyed : ∀ first ∈ calls, ∀ second ∈ calls, ∀ viewKey endpoint other,
    first.1.PublishesFor store viewKey endpoint → second.1.PublishesFor store viewKey other →
    endpoint = other

/-- The last head that was committed for an endpoint. -/
def StoreFiles.latestFor (files : StoreFiles) (endpoint : String) : Option ViewHeadV1 :=
  files.committed.find? fun head => head.validation.effectiveEndpoint = endpoint

/-- The last head that was committed under a key. -/
def StoreFiles.latestUnder (files : StoreFiles) (viewKey : String) : Option ViewHeadV1 :=
  files.committed.find? fun head => head.viewKey = viewKey

/-- The files without the views under other keys. -/
def StoreFiles.only (files : StoreFiles) (viewKey : String) : StoreFiles :=
  { files with
    views := match files.views.get? viewKey with
      | some content => OrderedMap.empty.insert viewKey content
      | none => .empty }

/-- What holds of the files that some calls published, with regard to an endpoint: every head is that
of a call, the head that is stored under a key is the last one committed there, and it pins a
generation; the last head committed for the endpoint has the highest sequence number of those that are
read. -/
structure StoreFiles.Published (expected : String) (calls : List (StoreCall × Fates))
    (files : StoreFiles) : Prop where
  published : ∀ head ∈ files.committed, ∃ step ∈ calls,
    step.1.PublishesFor store head.viewKey head.validation.effectiveEndpoint
  heads : ∀ viewKey content, files.views.get? viewKey = some content → ∃ head,
    files.latestUnder viewKey = some head ∧ head.Stored store content ∧ head.Pins store files
  highest : ∀ latest, files.latestFor expected = some latest → ∀ view, files.Displays store view →
    view.1.validation.effectiveEndpoint = expected → view.1 = latest ∨
      view.1.validation.refreshSequence < latest.validation.refreshSequence

variable {store} {files reached : StoreFiles} {expected : String}

section Selecting

/-- The views of an endpoint are those that are read and match it. -/
theorem mem_readViews_for {order : Enumeration} {view : View} :
    view ∈ readViews (((order.list files.views.keys).map (readViewOptionalLocked store files)).map
      (Except.map (Option.filter fun view =>
        viewEndpointMatches view.1.validation.effectiveEndpoint expected))) ↔
      (∃ viewKey, readViewOptionalLocked store files viewKey = .ok (some view)) ∧
        viewEndpointMatches view.1.validation.effectiveEndpoint expected = true := by
  rw [← @mem_readViews _ _ order]
  simp only [readViews, List.filterMap_map, List.mem_filterMap]
  constructor
  · rintro ⟨viewKey, listed, found⟩
    cases read : readViewOptionalLocked store files viewKey with
    | error cause =>
      rw [Function.comp_apply, Function.comp_apply, read] at found
      cases found
    | ok outcome =>
      rw [Function.comp_apply, Function.comp_apply, read] at found
      obtain ⟨same, held⟩ := Option.filter_eq_some_iff.mp found
      refine ⟨⟨viewKey, listed, ?_⟩, held⟩
      rw [Function.comp_apply, read]
      exact same
  · rintro ⟨⟨viewKey, listed, found⟩, held⟩
    refine ⟨viewKey, listed, ?_⟩
    cases read : readViewOptionalLocked store files viewKey with
    | error cause =>
      rw [Function.comp_apply, read] at found
      cases found
    | ok outcome =>
      rw [Function.comp_apply, read] at found
      rw [Function.comp_apply, Function.comp_apply, read]
      exact Option.filter_eq_some_iff.mpr ⟨found, held⟩

/-- The key under which a view is read is that of its head. -/
theorem viewKey_of_readView {viewKey : String} {view : View}
    (read : readViewOptionalLocked store files viewKey = .ok (some view)) :
    view.1.viewKey = viewKey := by
  obtain ⟨reads, -⟩ := readView_eq_ok.mp read
  unfold readHead at reads
  cases present : files.views.get? viewKey with
  | none => simp [present, bind_eq_ok, pure, Except.pure] at reads
  | some content =>
    simp only [present, bind_eq_ok, ensure_eq_ok, pure, Except.pure, Except.ok.injEq,
      Option.some.injEq] at reads
    obtain ⟨_, -, found, -, _, named, _, -, rfl⟩ := reads
    exact named

/-- The view that is found for an endpoint is read under its key and matches the endpoint. -/
theorem readView_of_readViewForEndpoint {order : Enumeration} {view : View}
    (found : readViewForEndpoint store order files expected = .ok (some view)) :
    readViewOptionalLocked store files view.1.viewKey = .ok (some view) ∧
      viewEndpointMatches view.1.validation.effectiveEndpoint expected = true := by
  unfold readViewForEndpoint latestOf at found
  split at found
  · cases found
  · have member := (sortBy_perm _ _).mem_iff.mp (List.mem_of_getLast? (Except.ok.inj found))
    obtain ⟨⟨viewKey, read⟩, held⟩ := mem_readViews_for.mp member
    rw [viewKey_of_readView read]
    exact ⟨read, held⟩

/-- What is read of a view depends on what is stored under its key and on the generations. -/
theorem readView_congr_at {viewKey : String}
    (views : reached.views.get? viewKey = files.views.get? viewKey)
    (generations : reached.generations = files.generations) :
    readViewOptionalLocked store reached viewKey = readViewOptionalLocked store files viewKey := by
  simp only [readViewOptionalLocked, openGenerationLocked, views, generations]

/-- Without the views under other keys, only the view under the key is found. -/
theorem readView_of_only {order : Enumeration} {viewKey : String} {view : View}
    (found : readViewForEndpoint store order (files.only viewKey) expected = .ok (some view)) :
    readViewOptionalLocked store files viewKey = .ok (some view) ∧
      viewEndpointMatches view.1.validation.effectiveEndpoint expected = true := by
  obtain ⟨read, held⟩ := readView_of_readViewForEndpoint found
  refine ⟨?_, held⟩
  have listed := mem_enumerated_views.mp (mem_views_of_readView order read)
  obtain ⟨content, present⟩ := listed
  cases stored : files.views.get? viewKey with
  | none =>
    simp only [StoreFiles.only, stored] at present
    cases present
  | some text =>
    have kept : (files.only viewKey).views.get? viewKey = files.views.get? viewKey := by
      simp only [StoreFiles.only, stored, OrderedMap.get?_insert, if_true]
    have same : view.1.viewKey = viewKey := by
      simp only [StoreFiles.only, stored, OrderedMap.get?_insert] at present
      by_contra differs
      rw [if_neg differs] at present
      cases present
    rw [← readView_congr_at kept rfl]
    exact same ▸ read

end Selecting

section Publishing

variable {calls : List (StoreCall × Fates)} {content : List UInt8} {head : ViewHeadV1}

/-- A head that is stored is the one that is decoded. -/
theorem ViewHeadV1.Stored.decoded (readsBack : store.headJson.ReadsBack)
    (stored : head.Stored store content) {found : ViewHeadV1}
    (decoded : decodeViewHead store (content.take (viewHeadLimit + 1)) = .ok found) :
    found = head := by
  rw [List.take_of_length_le (Nat.le_succ_of_le stored.short)] at decoded
  simp only [decodeViewHead, bind_eq_ok, mapError_eq_ok, pure, Except.pure, Except.ok.injEq,
    readsBack _ _ stored.written] at decoded
  obtain ⟨_, -, _, rfl, -, -, -, -, -, -, -, -, -, -, -, -, rfl⟩ := decoded
  rfl

/-- The head that is read is the one that is stored. -/
theorem readHead_stored (readsBack : store.headJson.ReadsBack) {viewKey : String} {found : ViewHeadV1}
    (present : files.views.get? viewKey = some content) (stored : head.Stored store content)
    (reads : readHead store files viewKey = .ok (some found)) : found = head := by
  simp only [readHead, present, bind_eq_ok, ensure_eq_ok, pure, Except.pure, Except.ok.injEq,
    Option.some.injEq] at reads
  obtain ⟨_, -, other, decoded, _, -, _, -, rfl⟩ := reads
  exact stored.decoded readsBack decoded

/-- A head that is read and pins a generation is displayed. -/
theorem ViewHeadV1.Pins.displays {loader : GenerationLoader} (pins : head.Pins store files)
    (read : readViewOptionalLocked store files head.viewKey = .ok (some (head, loader))) :
    files.Displays store (head, loader) := by
  obtain ⟨file, header, _, present, valid, -⟩ := pins
  exact ⟨read, file, header, present, valid⟩

/-- In published files what is read under a key is the last head committed there, and it is
displayed. -/
theorem StoreFiles.Published.of_readView (published : files.Published store expected calls)
    (readsBack : store.headJson.ReadsBack) {viewKey : String} {view : View}
    (read : readViewOptionalLocked store files viewKey = .ok (some view)) :
    files.latestUnder viewKey = some view.1 ∧ files.Displays store view := by
  obtain ⟨content, present⟩ :=
    mem_enumerated_views.mp (mem_views_of_readView ⟨id, fun _ => .refl _⟩ read)
  obtain ⟨head, last, stored, pins⟩ := published.heads viewKey content present
  have same := readHead_stored readsBack present stored (readView_eq_ok.mp read).1
  subst same
  have named := viewKey_of_readView read
  exact ⟨last, pins.displays (named.symm ▸ read)⟩

/-- A view that is displayed where the generations endured was displayed before, when its head was
stored there and pinned a generation. -/
theorem StoreFiles.Published.displays_of (published : files.Published store expected calls)
    (readsBack : store.headJson.ReadsBack) {view : View} (displays : reached.Displays store view)
    (same : reached.views.get? view.1.viewKey = files.views.get? view.1.viewKey)
    (endures : Endures store files reached) : files.Displays store view := by
  obtain ⟨reads, opens, agrees⟩ := readView_eq_ok.mp displays.1
  have readsBefore := (readHead_congr same).symm.trans reads
  obtain ⟨content, present⟩ :=
    mem_enumerated_views.mp (mem_views_of_readView ⟨id, fun _ => .refl _⟩ displays.1)
  rw [same] at present
  obtain ⟨head, -, stored, pins⟩ := published.heads _ content present
  obtain rfl := readHead_stored readsBack present stored readsBefore
  obtain ⟨file, header, _, there, valid, -⟩ := pins
  have kept := endures.kept _ _ _ there valid
  refine ⟨readView_eq_ok.mpr ⟨readsBefore, ?_, agrees⟩, file, header, there, valid⟩
  rw [← openGeneration_congr (kept.trans there.symm), opens]

/-- A head that follows some views for an endpoint has that endpoint and the key of its view. -/
theorem ViewHeadV1.FollowsInput.named {input : SnapshotBuildInput} {given : Option String}
    {earlier : View → Prop}
    (follows : head.FollowsInput store input (given.getD (effectiveEndpoint input)) earlier)
    (process : ProcessEnvironment) (order : Enumeration) :
    head.validation.effectiveEndpoint = given.getD (effectiveEndpoint input) ∧
      (StoreCall.publish input given process order).PublishesFor store head.viewKey
        head.validation.effectiveEndpoint ∧
      ∀ view, earlier view →
        view.1.validation.refreshSequence < head.validation.refreshSequence := by
  obtain ⟨header, bytes, histories, made, ⟨finalHeader, sequence, -, rfl⟩, -, above⟩ := follows
  exact ⟨rfl, ⟨input, given, process, order, header, bytes, histories, rfl, made, rfl, rfl⟩, above⟩

/-- A publish that keeps the heads keeps what holds of published files. -/
theorem StoreFiles.Published.keeps (published : files.Published store expected calls)
    (readsBack : store.headJson.ReadsBack) (keeps : Keeps store files reached)
    (step : StoreCall × Fates) : reached.Published store expected (calls ++ [step]) where
  published := by
    rw [keeps.committed]
    intro head member
    obtain ⟨earlier, inside, publishes⟩ := published.published head member
    exact ⟨earlier, List.mem_append_left _ inside, publishes⟩
  heads := by
    intro viewKey content present
    rw [keeps.views] at present
    obtain ⟨head, last, stored, pins⟩ := published.heads viewKey content present
    refine ⟨head, ?_, stored, pins.endures keeps.generations⟩
    rw [StoreFiles.latestUnder, keeps.committed]
    exact last
  highest := by
    intro latest found view displays matched
    rw [StoreFiles.latestFor, keeps.committed] at found
    exact published.highest latest found view
      (published.displays_of readsBack displays (by rw [keeps.views]) keeps.generations) matched

/-- A publish that commits a head keeps what holds of published files. -/
theorem StoreFiles.Published.places (published : files.Published store expected calls)
    (readsBack : store.headJson.ReadsBack) {step : StoreCall × Fates} {kind : ViewHeadV1 → Prop}
    (places : Places store kind head files reached)
    (publishes : step.1.PublishesFor store head.viewKey head.validation.effectiveEndpoint)
    (above : ∀ view, files.Displays store view →
      view.1.validation.refreshSequence < head.validation.refreshSequence) :
    reached.Published store expected (calls ++ [step]) := by
  obtain ⟨text, storedHead, views⟩ := places.views
  -- What is displayed under another key was displayed before.
  have older : ∀ view : View, view.1.viewKey ≠ head.viewKey → reached.Displays store view →
      files.Displays store view := by
    intro view differs displays
    refine published.displays_of readsBack displays ?_ places.generations
    rw [views, OrderedMap.get?_insert, if_neg differs]
  have newer : ∀ view : View, view.1.viewKey = head.viewKey → reached.Displays store view →
      view.1 = head := by
    intro view same displays
    refine readHead_stored readsBack ?_ storedHead (readView_eq_ok.mp displays.1).1
    rw [views, OrderedMap.get?_insert, if_pos same]
  refine ⟨?_, ?_, ?_⟩
  · rw [places.committed]
    intro other member
    rcases List.mem_cons.mp member with rfl | member
    · exact ⟨step, List.mem_append_right _ (List.mem_singleton_self _), publishes⟩
    · obtain ⟨earlier, inside, published⟩ := published.published other member
      exact ⟨earlier, List.mem_append_left _ inside, published⟩
  · intro viewKey content present
    rw [views, OrderedMap.get?_insert] at present
    rw [StoreFiles.latestUnder, places.committed]
    split at present
    · next same =>
      obtain rfl := Option.some.inj present
      refine ⟨head, List.find?_cons_of_pos ?_, storedHead, places.pins⟩
      exact decide_eq_true same.symm
    · next differs =>
      obtain ⟨other, last, stored, pins⟩ := published.heads viewKey content present
      refine ⟨other, ?_, stored, pins.endures places.generations⟩
      rw [List.find?_cons_of_neg (by simpa using Ne.symm differs)]
      exact last
  · intro latest found view displays matched
    rw [StoreFiles.latestFor, places.committed] at found
    by_cases same : view.1.viewKey = head.viewKey
    · obtain same := newer view same displays
      rw [same] at matched
      simp only [List.find?_cons, matched, decide_true, Option.some.injEq] at found
      exact .inl (same.trans found)
    · by_cases chosen : head.validation.effectiveEndpoint = expected
      · simp only [List.find?_cons, chosen, decide_true, Option.some.injEq] at found
        exact .inr (found ▸ above view (older view same displays))
      · rw [List.find?_cons_of_neg (by simpa using chosen)] at found
        exact published.highest latest found view (older view same displays) matched

/-- A publish keeps what holds of published files; it keeps the heads, or it commits one for its
endpoint under its key. -/
theorem StoreFiles.Published.publish (published : files.Published store expected calls)
    (readsBack : store.headJson.ReadsBack) (input : SnapshotBuildInput) (given : Option String)
    (process : ProcessEnvironment) (order : Enumeration) {fates : Fates} (calm : fates.Calm) :
    let step : StoreCall × Fates := (.publish input given process order, fates)
    let reached := StoreCall.after store files step
    reached.Published store expected (calls ++ [step]) ∧
      (Keeps store files reached ∨ ∃ kind head, Places store kind head files reached ∧
        step.1.PublishesFor store head.viewKey head.validation.effectiveEndpoint) := by
  have placed : Traces (fun _ => True) (Displaying store (files.Displays store))
      (buildAndPublish store input given process order)
      (Placing store (ViewHeadV1.FollowsInput store input (given.getD (effectiveEndpoint input))
        (files.Displays store))) (fun _ _ => True) :=
    placing_buildAndPublish input given process order
  obtain ⟨⟨-, -, placing⟩, -⟩ := placed files fates calm trivial fun _ displays => displays
  rcases placing with keeps | ⟨head, places⟩
  · exact ⟨published.keeps readsBack keeps _, .inl keeps⟩
  · obtain ⟨-, publishes, above⟩ := places.fits.named process order
    exact ⟨published.places readsBack places publishes above, .inr ⟨_, head, places, publishes⟩⟩

/-- The files of a new store are published by no call. -/
theorem StoreFiles.Published.empty : StoreFiles.empty.Published store expected [] where
  published := fun _ member => by cases member
  heads := fun _ _ present => by cases present
  highest := fun _ found => by cases found

/-- A run is one call after another. -/
theorem runCalls_concat (calls : List (StoreCall × Fates)) (step : StoreCall × Fates) :
    runCalls store (calls ++ [step]) = StoreCall.after store (runCalls store calls) step := by
  rw [runCalls, List.foldl_append]
  rfl

/-- The first calls of isolated ones are isolated. -/
theorem Isolated.of_append {before later : List (StoreCall × Fates)}
    (isolated : Isolated store expected (before ++ later)) : Isolated store expected before where
  calm := fun step member => isolated.calm step (List.mem_append_left _ member)
  publishes := fun step member => isolated.publishes step (List.mem_append_left _ member)
  apart := fun step member => isolated.apart step (List.mem_append_left _ member)
  keyed := fun first member second other =>
    isolated.keyed first (List.mem_append_left _ member) second (List.mem_append_left _ other)

/-- The files of a run of isolated calls are published. -/
theorem published_runCalls (readsBack : store.headJson.ReadsBack)
    (isolated : Isolated store expected calls) :
    (runCalls store calls).Published store expected calls := by
  induction calls using List.reverseRecOn with
  | nil => exact .empty
  | append_singleton before step ih =>
    obtain ⟨input, given, process, order, same⟩ := isolated.publishes step (by simp)
    obtain ⟨call, fates⟩ := step
    obtain rfl : call = _ := same
    rw [runCalls_concat]
    exact ((ih isolated.of_append).publish readsBack input given process order
      (isolated.calm _ (List.mem_append_right _ (List.mem_singleton_self _)))).1

/-- Of two items, each the first to satisfy a test that the other one satisfies too, neither comes
before the other. -/
theorem eq_of_find? {items : List ViewHeadV1} {first second : ViewHeadV1 → Bool}
    {found other : ViewHeadV1} (isFirst : items.find? first = some found)
    (isSecond : items.find? second = some other) (left : second found = true)
    (right : first other = true) : found = other := by
  induction items with
  | nil => cases isFirst
  | cons item rest ih =>
    rw [List.find?_cons] at isFirst isSecond
    split at isFirst
    · obtain rfl := Option.some.inj isFirst
      rw [left] at isSecond
      exact Option.some.inj isSecond
    · next refused =>
      split at isSecond
      · obtain rfl := Option.some.inj isSecond
        rw [right] at refused
        cases refused
      · exact ih isFirst isSecond

/-- The last head that was committed for an endpoint has that endpoint. -/
theorem endpoint_of_latestFor (last : files.latestFor expected = some head) :
    head.validation.effectiveEndpoint = expected := by
  have held : decide (head.validation.effectiveEndpoint = expected) = true :=
    @List.find?_some _ (fun found : ViewHeadV1 =>
      decide (found.validation.effectiveEndpoint = expected)) head files.committed last
  exact of_decide_eq_true held

/-- Over isolated calls, a view that is read and matches the expected endpoint was published for it. -/
theorem endpoint_of_readView (readsBack : store.headJson.ReadsBack)
    (isolated : Isolated store expected calls) {viewKey : String} {view : View}
    (read : readViewOptionalLocked store (runCalls store calls) viewKey = .ok (some view))
    (held : viewEndpointMatches view.1.validation.effectiveEndpoint expected = true) :
    view.1.validation.effectiveEndpoint = expected := by
  have published := published_runCalls readsBack isolated
  have last := (published.of_readView readsBack read).1
  obtain ⟨step, member, publishes⟩ := published.published _ (List.mem_of_find?_eq_some last)
  refine (isolated.apart step member _ _ publishes).resolve_right ?_
  rw [held]
  exact Bool.true_eq_false_eq_False

/-- Over isolated calls, the last view that was published for the expected endpoint is found. -/
theorem readViewForEndpoint_of_latest (readsBack : store.headJson.ReadsBack)
    (isolated : Isolated store expected calls) {view : View}
    (last : (runCalls store calls).latestFor expected = some view.1)
    (displays : (runCalls store calls).Displays store view)
    (held : viewEndpointMatches view.1.validation.effectiveEndpoint expected = true)
    (order : Enumeration) :
    readViewForEndpoint store order (runCalls store calls) expected = .ok (some view) := by
  have published := published_runCalls readsBack isolated
  refine latestOf_eq_of_highest (mem_readViews_for.mpr ⟨⟨_, displays.1⟩, held⟩) fun other member => ?_
  obtain ⟨⟨viewKey, readOther⟩, heldOther⟩ := mem_readViews_for.mp member
  have displaysOther := (published.of_readView readsBack readOther).2
  have named := endpoint_of_readView readsBack isolated readOther heldOther
  refine (published.highest view.1 last other displaysOther named).imp_left fun equal => ?_
  have key := viewKey_of_readView readOther
  rw [equal] at key
  subst key
  exact Option.some.inj (Except.ok.inj (readOther.symm.trans displays.1))

/-- Over isolated calls, what is found where there is only the view under the key of the last head of
the expected endpoint is the view of that head. -/
theorem latest_of_only (readsBack : store.headJson.ReadsBack)
    (isolated : Isolated store expected calls) {order : Enumeration}
    (last : (runCalls store calls).latestFor expected = some head) {view : View}
    (alone : readViewForEndpoint store order ((runCalls store calls).only head.viewKey) expected =
      .ok (some view)) :
    view.1 = head ∧ (runCalls store calls).Displays store view ∧
      viewEndpointMatches view.1.validation.effectiveEndpoint expected = true := by
  obtain ⟨read, held⟩ := readView_of_only alone
  obtain ⟨under, displays⟩ := (published_runCalls readsBack isolated).of_readView readsBack read
  have named := endpoint_of_readView readsBack isolated read held
  exact ⟨eq_of_find? under last (decide_eq_true named) (decide_eq_true rfl), displays, held⟩

/-- A publish for another endpoint keeps the last head of an endpoint and its view. -/
theorem latestFor_publish (readsBack : store.headJson.ReadsBack) {before : List (StoreCall × Fates)}
    {step : StoreCall × Fates} (isolated : Isolated store expected (before ++ [step]))
    (other : ∀ viewKey, ¬ step.1.PublishesFor store viewKey expected)
    (last : (runCalls store before).latestFor expected = some head) {view : View}
    (displays : (runCalls store before).Displays store view) (same : view.1 = head) :
    (runCalls store (before ++ [step])).latestFor expected = some head ∧
      (runCalls store (before ++ [step])).Displays store view := by
  obtain ⟨input, given, process, order, call_eq⟩ := isolated.publishes step (by simp)
  obtain ⟨call, fates⟩ := step
  obtain rfl : call = _ := call_eq
  have published := published_runCalls readsBack isolated.of_append
  rw [runCalls_concat]
  obtain ⟨-, keeps | ⟨kind, placed, places, publishes⟩⟩ := published.publish readsBack input given
    process order (isolated.calm _ (List.mem_append_right _ (List.mem_singleton_self _)))
  · refine ⟨?_, displays.keeps keeps⟩
    rw [StoreFiles.latestFor, keeps.committed]
    exact last
  · obtain ⟨text, -, views⟩ := places.views
    have apart : placed.validation.effectiveEndpoint ≠ expected := fun named =>
      other placed.viewKey (named ▸ publishes)
    -- The view has another key, because it was published for the expected endpoint.
    have differs : view.1.viewKey ≠ placed.viewKey := by
      intro equal
      have member := List.mem_of_find?_eq_some last
      obtain ⟨earlier, inside, publishedFor⟩ := published.published head member
      have named := endpoint_of_latestFor last
      rw [← same, equal] at publishedFor
      exact apart ((isolated.keyed _ (List.mem_append_right _ (List.mem_singleton_self _)) earlier
        (List.mem_append_left _ inside) _ _ _ publishes publishedFor).trans (same ▸ named))
    refine ⟨?_, displays.endures ?_ places.generations⟩
    · rw [StoreFiles.latestFor, places.committed, List.find?_cons_of_neg (by simpa using apart)]
      exact last
    · rw [views, OrderedMap.get?_insert, if_neg differs]

/-- Publishes for other endpoints keep the last head of an endpoint and its view. -/
theorem latestFor_publishes (readsBack : store.headJson.ReadsBack)
    {before later : List (StoreCall × Fates)} (isolated : Isolated store expected (before ++ later))
    (others : ∀ step ∈ later, ∀ viewKey, ¬ step.1.PublishesFor store viewKey expected)
    (last : (runCalls store before).latestFor expected = some head) {view : View}
    (displays : (runCalls store before).Displays store view) (same : view.1 = head) :
    (runCalls store (before ++ later)).latestFor expected = some head ∧
      (runCalls store (before ++ later)).Displays store view := by
  induction later using List.reverseRecOn with
  | nil =>
    rw [List.append_nil]
    exact ⟨last, displays⟩
  | append_singleton between step ih =>
    rw [← List.append_assoc] at isolated ⊢
    obtain ⟨lastThere, displaysThere⟩ := ih isolated.of_append fun step member =>
      others step (List.mem_append_left _ member)
    exact latestFor_publish readsBack isolated
      (others step (List.mem_append_right _ (List.mem_singleton_self _))) lastThere displaysThere same

/-- Over isolated calls the view that is found for the expected endpoint was published for it. -/
theorem endpoint_of_readViewForEndpoint (readsBack : store.headJson.ReadsBack)
    (isolated : Isolated store expected calls) {order : Enumeration} {view : View}
    (found : readViewForEndpoint store order (runCalls store calls) expected = .ok (some view)) :
    view.1.validation.effectiveEndpoint = expected := by
  obtain ⟨read, held⟩ := readView_of_readViewForEndpoint found
  exact endpoint_of_readView readsBack isolated read held

/-- Over isolated calls, the view that is found when the last one that was published for the expected
endpoint is alone is found after any publishes for other endpoints. -/
theorem readViewForEndpoint_of_only (readsBack : store.headJson.ReadsBack)
    {before later : List (StoreCall × Fates)} (isolated : Isolated store expected (before ++ later))
    (others : ∀ step ∈ later, ∀ viewKey, ¬ step.1.PublishesFor store viewKey expected)
    (last : (runCalls store before).latestFor expected = some head) {order : Enumeration} {view : View}
    (alone : readViewForEndpoint store order ((runCalls store before).only head.viewKey) expected =
      .ok (some view)) (orders : Enumeration) :
    readViewForEndpoint store orders (runCalls store (before ++ later)) expected =
      .ok (some view) := by
  obtain ⟨same, displays, held⟩ := latest_of_only readsBack isolated.of_append last alone
  obtain ⟨lastThere, displaysThere⟩ :=
    latestFor_publishes readsBack isolated others last displays same
  exact readViewForEndpoint_of_latest readsBack isolated (same ▸ lastThere) displaysThere held orders

end Publishing

end Rsolve
