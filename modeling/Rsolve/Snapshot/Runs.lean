import Mathlib.Algebra.GroupWithZero.Nat
import Rsolve.Snapshot.Retention
import Rsolve.Snapshot.Working

/-!
# Runs of a store

Calls on a store follow each other, and each of them returns, fails or stops after any of its
operations. Where no lookup fails, the files stay sound, so every view can be read and the latest view
is that of the last committed head. Where a lookup fails, a cleanup removes generations that heads
refer to.
-/
open Checked Framing Ordered Faults

namespace Rsolve

/-- Every read of some files has the result that it has of others. -/
structure SameReads (store : SnapshotStore) (files reached : StoreFiles) : Prop where
  view : ∀ viewKey, readViewOptionalLocked store reached viewKey =
    readViewOptionalLocked store files viewKey
  latest : ∀ order, readLatestViewHead store order reached = readLatestViewHead store order files
  endpoint : ∀ order endpoint, readViewForEndpoint store order reached endpoint =
    readViewForEndpoint store order files endpoint

/-- A call with the endpoints it needs, in which no lookup fails. -/
def StoreCall.Admitted (step : StoreCall × Fates) : Prop :=
  step.2.Calm ∧ match step.1 with
    | .publish input endpoint _ _ => input.Admissible endpoint
    | .cleanup _ _ => True

/-- Every head is readable and denotes a valid generation. -/
def StoreFiles.Readable (store : SnapshotStore) (files : StoreFiles) : Prop :=
  ∀ viewKey content, files.views.get? viewKey = some content →
    ∃ head loader file, readViewOptionalLocked store files viewKey = .ok (some (head, loader)) ∧
      files.generations.get? head.generation = some file ∧
      validateGeneration store.basis file store.registryId = .ok loader.header ∧
      loader.header.generation = head.generation

/-- The latest view is that of the last committed head, in whatever order the heads are
enumerated. -/
def StoreFiles.Latest (store : SnapshotStore) (files : StoreFiles) : Prop :=
  (files.committed = [] → ∀ order, readLatestViewOptional store order files = .ok none) ∧
    ∀ head ∈ files.committed.head?, ∃ loader : GenerationLoader,
      loader.header.generation = head.generation ∧
      ∀ order, readLatestViewOptional store order files = .ok (some loader)

section Reads

variable {store : SnapshotStore} {files reached : StoreFiles}

/-- Reads have the same results when the heads are the same and their generations are. -/
theorem sameReads_of (readsBack : store.headJson.ReadsBack) (sound : files.Sound store)
    (later : reached.Sound store) (views : reached.views = files.views)
    (generations : ∀ generation, files.Refers store generation →
      reached.generations.get? generation = files.generations.get? generation) :
    SameReads store files reached := by
  have view : ∀ viewKey, readViewOptionalLocked store reached viewKey =
      readViewOptionalLocked store files viewKey := by
    intro viewKey
    cases present : files.views.get? viewKey with
    | none => simp only [readViewOptionalLocked, views, present]
    | some content =>
      obtain ⟨head, -, keyed, stored, loader, -, read, opened, -⟩ :=
        sound.readView readsBack present
      obtain ⟨head', -, -, stored', loader', -, read', opened', -⟩ :=
        later.readView readsBack (views ▸ present)
      obtain rfl := stored.unique readsBack stored'
      have same : openGenerationLocked store reached head.generation =
          openGenerationLocked store files head.generation := by
        unfold openGenerationLocked
        rw [generations _ ⟨viewKey, content, head, present, stored, keyed, rfl⟩]
      obtain rfl := Except.ok.inj (opened'.symm.trans (same.trans opened))
      rw [read, read']
  have enumerated : ∀ order : Enumeration,
      (order.list reached.views.keys).map (readViewOptionalLocked store reached) =
        (order.list files.views.keys).map (readViewOptionalLocked store files) := by
    intro order
    rw [views]
    exact List.map_congr_left fun viewKey _ => view viewKey
  refine ⟨view, fun order => ?_, fun order endpoint => ?_⟩
  · rw [readLatestViewHead, enumerated, readLatestViewHead]
  · rw [readViewForEndpoint, enumerated, readViewForEndpoint]

/-- In sound files every head is readable. -/
theorem StoreFiles.Sound.readable (readsBack : store.headJson.ReadsBack)
    (sound : files.Sound store) : files.Readable store := by
  intro viewKey content present
  obtain ⟨head, -, -, -, loader, file, read, -, named, there, valid⟩ :=
    sound.readView readsBack present
  exact ⟨head, loader, file, read, there, valid, named⟩

/-- In sound files the latest view is that of the last committed head. -/
theorem StoreFiles.Sound.isLatest (readsBack : store.headJson.ReadsBack)
    (sound : files.Sound store) : files.Latest store := by
  refine ⟨fun fresh order => ?_, fun head first => ?_⟩
  · rw [readLatestViewOptional, (sound.latestView readsBack order).1 fresh]
    rfl
  · obtain ⟨content, present, stored⟩ := sound.latest head first
    obtain ⟨head', -, -, stored', loader, -, -, opened, named, -⟩ :=
      sound.readView readsBack present
    obtain rfl := stored.unique readsBack stored'
    refine ⟨loader, named, fun order => ?_⟩
    obtain ⟨found, read, openedFound⟩ := (sound.latestView readsBack order).2 head first
    obtain rfl := Except.ok.inj (openedFound.symm.trans opened)
    rw [readLatestViewOptional, read]
    rfl

end Reads

section Calls

variable {store : SnapshotStore} {files : StoreFiles}

/-- A publish keeps the files sound, and it changes no read or commits the head of its input. -/
theorem StoreFiles.Sound.publish (readsBack : store.headJson.ReadsBack) (sound : files.Sound store)
    {input : SnapshotBuildInput} {endpoint : Option String} (admissible : input.Admissible endpoint)
    (process : ProcessEnvironment) (order : Enumeration) {fates : Fates} (calm : fates.Calm) :
    let reached := (buildAndPublish store input endpoint process order files fates).2.1
    reached.Sound store ∧
      ((reached.committed = files.committed ∧ SameReads store files reached) ∨
        ∃ head, head.IsOf store input ∧ reached.committed = head :: files.committed) := by
  have traced : Traces (StoreFiles.Sound store) (fun _ => True)
      (buildAndPublish store input endpoint process order) (Publishes (ViewHeadV1.IsOf store input))
      (fun _ _ => True) := traces_buildAndPublish readsBack admissible process order
  obtain ⟨⟨-, later, publishes⟩, -⟩ := traced files fates calm sound trivial
  refine ⟨later, ?_⟩
  rcases publishes with grows | ⟨head, isOf, commits⟩
  · refine .inl ⟨grows.committed, sameReads_of readsBack sound later grows.views ?_⟩
    rintro generation ⟨viewKey, content, head, present, stored, -, rfl⟩
    obtain ⟨head', -, -, stored', -, file, -, -, -, there, -⟩ := sound.readView readsBack present
    obtain rfl := stored.unique readsBack stored'
    rw [there, grows.generations _ _ there]
  · exact .inr ⟨head, isOf, commits.committed⟩

/-- A cleanup keeps the files sound, changes no read and keeps what the heads refer to. -/
theorem StoreFiles.Sound.cleanup (readsBack : store.headJson.ReadsBack) (sound : files.Sound store)
    (retain : List String) (orders : CleanupOrders) {fates : Fates} (calm : fates.Calm) :
    let reached := (Rsolve.cleanup store retain orders files fates).2.1
    reached.Sound store ∧ reached.committed = files.committed ∧ SameReads store files reached ∧
      ∀ generation, files.Refers store generation →
        reached.generations.get? generation = files.generations.get? generation := by
  have traced : Traces (StoreFiles.Sound store) (fun _ => True)
      (Rsolve.cleanup store retain orders) (Retains store) (fun _ _ => True) :=
    traces_cleanup readsBack retain orders
  obtain ⟨⟨-, later, retains⟩, -⟩ := traced files fates calm sound trivial
  exact ⟨later, retains.committed,
    sameReads_of readsBack sound later retains.views retains.referred, retains.referred⟩

/-- The files stay sound over calls in which no lookup fails. -/
theorem sound_runCalls (readsBack : store.headJson.ReadsBack) {calls : List (StoreCall × Fates)}
    (admitted : ∀ step ∈ calls, StoreCall.Admitted step) : (runCalls store calls).Sound store := by
  have steps : ∀ (calls : List (StoreCall × Fates)) (files : StoreFiles), files.Sound store →
      (∀ step ∈ calls, StoreCall.Admitted step) →
      (calls.foldl (StoreCall.after store) files).Sound store := by
    intro calls
    induction calls with
    | nil => exact fun _ sound _ => sound
    | cons step rest ih =>
      intro files sound admitted
      refine ih _ ?_ fun later member => admitted later (List.mem_cons_of_mem _ member)
      obtain ⟨calm, endpoints⟩ := admitted step List.mem_cons_self
      obtain ⟨call, fates⟩ := step
      cases call with
      | publish input endpoint process order =>
        exact (sound.publish readsBack endpoints process order calm).1
      | cleanup retain orders => exact (sound.cleanup readsBack retain orders calm).1
  exact steps calls .empty .empty admitted

end Calls

/-- Over calls in which no lookup fails, every head is readable and denotes a valid generation, the
latest view is that of the last committed head, and the sequence numbers of the committed heads
increase. A publish changes no read unless it commits the head of its input, and a cleanup changes no
read and removes no generation that a head refers to. -/
theorem runCalls_integrity (store : SnapshotStore) (readsBack : store.headJson.ReadsBack)
    (calls : List (StoreCall × Fates)) (admitted : ∀ step ∈ calls, StoreCall.Admitted step) :
    (runCalls store calls).Readable store ∧ (runCalls store calls).Latest store ∧
    ((runCalls store calls).committed.Pairwise fun later earlier =>
      earlier.validation.refreshSequence < later.validation.refreshSequence) ∧
    (∀ (input : SnapshotBuildInput) (endpoint : Option String) (process : ProcessEnvironment)
      (order : Enumeration) (fates : Fates), input.Admissible endpoint → fates.Calm →
      let reached := StoreCall.after store (runCalls store calls)
        (.publish input endpoint process order, fates)
      (reached.committed = (runCalls store calls).committed ∧
          SameReads store (runCalls store calls) reached) ∨
        ∃ head, head.IsOf store input ∧
          reached.committed = head :: (runCalls store calls).committed) ∧
    ∀ (retain : List String) (orders : CleanupOrders) (fates : Fates), fates.Calm →
      let reached := StoreCall.after store (runCalls store calls) (.cleanup retain orders, fates)
      reached.committed = (runCalls store calls).committed ∧
        SameReads store (runCalls store calls) reached ∧
        ∀ generation, (runCalls store calls).Refers store generation →
          reached.generations.get? generation =
            (runCalls store calls).generations.get? generation := by
  have sound := sound_runCalls readsBack admitted
  refine ⟨sound.readable readsBack, sound.isLatest readsBack, sound.sequences, ?_, ?_⟩
  · intro input endpoint process order fates admissible calm
    exact (sound.publish readsBack admissible process order calm).2
  · intro retain orders fates calm
    exact (sound.cleanup readsBack retain orders calm).2

/-- A cleanup that cannot enumerate the heads returns, and no head and no latest view is read any
more. -/
theorem StoreFiles.Sound.unread_of_missed_views {store : SnapshotStore} {files : StoreFiles}
    (sound : files.Sound store) (readsBack : store.headJson.ReadsBack) (orders : CleanupOrders)
    {head : ViewHeadV1} (first : files.committed.head? = some head) :
    let outcome := Rsolve.cleanup store [] orders files ⟨[], [.fails]⟩
    outcome.1 = .returned () ∧ files.Refers store head.generation ∧
      outcome.2.1.generations.get? head.generation = none ∧
      (∀ order, (readLatestView store order files).isOk = true ∧
        readLatestView store order outcome.2.1 =
          .error (storeCandidateError "all snapshot view heads are invalid")) ∧
      ¬ outcome.2.1.Readable store ∧ ¬ outcome.2.1.Latest store := by
  obtain ⟨content, present, stored⟩ := sound.latest head first
  obtain ⟨head', -, -, stored', stands⟩ := sound.heads _ _ present
  obtain rfl := stored.unique readsBack stored'
  obtain ⟨returned, views, committed, removed⟩ := @cleanup_of_missed_views store [] orders files
  obtain ⟨unread, latest⟩ := cleanup_of_missed_views_unread readsBack sound orders present
  refine ⟨returned, ⟨_, content, head, present, stored, rfl, rfl⟩, removed _
    ((Bool.and_eq_true_iff.mp stands.canonical.generation).2) List.not_mem_nil,
    fun order => ⟨?_, latest order⟩, fun readable => ?_, fun last => ?_⟩
  · obtain ⟨loader, read, -⟩ := (sound.latestView readsBack order).2 head first
    rw [readLatestView, readLatestViewOptional, read]
    rfl
  · obtain ⟨_, _, _, read, -⟩ := readable head.viewKey content (views ▸ present)
    rw [unread] at read
    cases read
  · obtain ⟨loader, -, read⟩ := last.2 head (committed ▸ first)
    have failed := latest ⟨id, fun _ => .refl _⟩
    rw [readLatestView, read ⟨id, fun _ => .refl _⟩] at failed
    cases failed

namespace Small

/-- A text as JSON, where nothing in it needs an escape. -/
def quoted (text : String) : List UInt8 := 34 :: textBytes text ++ [34]

/-- A number as JSON. -/
def number (value : Nat) : List UInt8 := textBytes (toString value)

/-- A member of a JSON object. -/
def member (name : String) (value : List UInt8) : List UInt8 := quoted name ++ 58 :: value

/-- A JSON object. -/
def object (members : List (List UInt8)) : List UInt8 := 123 :: [44].intercalate members ++ [125]

/-- A JSON array. -/
def array (items : List (List UInt8)) : List UInt8 := 91 :: [44].intercalate items ++ [93]

/-- A source as `serde_json` writes it. -/
def sourceText (source : SourceObservationV1) : List UInt8 :=
  object [member "id" (quoted source.id), member "kind" (quoted source.kind),
    member "representation" (quoted source.representation),
    member "content_sha256" (quoted source.contentSha256),
    member "etag" ((source.etag.map quoted).getD (textBytes "null")),
    member "last_modified" ((source.lastModified.map quoted).getD (textBytes "null")),
    member "observed_at" (quoted source.observedAt), member "endpoint" (quoted source.endpoint)]

/-- A header as `serde_json` writes it. -/
def headerText (header : SnapshotHeaderV1) : List UInt8 :=
  object [member "format" (quoted header.format),
    member "version" (number header.version.toNat),
    member "history_encoding" (number header.historyEncoding.toNat),
    member "normalization_policy" (number header.normalizationPolicy.toNat),
    member "compatibility_profile" (number header.compatibilityProfile.toNat),
    member "parser_schema" (number header.parserSchema.toNat),
    member "registry_id" (quoted header.registryId), member "generation" (quoted header.generation),
    member "created_at" (quoted header.createdAt), member "producer" (quoted header.producer),
    member "coverage" (object [member "state" (quoted header.coverage.state),
      member "scope" (quoted header.coverage.scope),
      member "freshness" (quoted header.coverage.freshness),
      member "source_ids" (array (header.coverage.sourceIds.map quoted)),
      member "missing_evidence" (array (header.coverage.missingEvidence.map quoted))]),
    member "sources" (array (header.sources.map sourceText)),
    member "package_count" (number header.packageCount.toNat),
    member "observation_count" (number header.observationCount.toNat),
    member "eligible_release_count" (number header.eligibleReleaseCount.toNat),
    member "incomplete_package_count" (number header.incompletePackageCount.toNat),
    member "history_manifest_sha256" (quoted header.historyManifestSha256)]

/-- A head as `serde_json` writes it. -/
def headText (head : ViewHeadV1) : List UInt8 :=
  object [member "format" (quoted head.format), member "version" (number head.version.toNat),
    member "registry_id" (quoted head.registryId), member "view_key" (quoted head.viewKey),
    member "coverage" (object [member "state" (quoted head.coverage.state),
      member "scope" (quoted head.coverage.scope),
      member "freshness" (quoted head.coverage.freshness)]),
    member "generation" (quoted head.generation),
    member "header_sha256" (quoted head.headerSha256),
    member "validation" (object [
      member "compatibility_profile" (number head.validation.compatibilityProfile.toNat),
      member "parser_schema" (number head.validation.parserSchema.toNat),
      member "normalization_policy" (number head.validation.normalizationPolicy.toNat),
      member "validated_at" (quoted head.validation.validatedAt),
      member "refresh_sequence" (number head.validation.refreshSequence),
      member "effective_endpoint" (quoted head.validation.effectiveEndpoint),
      member "sources" (array (head.validation.sources.map fun source =>
        object [member "id" (quoted source.id),
          member "content_sha256" (quoted source.contentSha256),
          member "endpoint" (quoted source.endpoint)]))])]

/-- The length of a quoted text. -/
theorem quoted_length (text : String) : (quoted text).length = text.utf8ByteSize + 2 := by
  rw [quoted, List.length_append, List.length_cons, textBytes_eq]
  rfl

/-- The length of a number. -/
theorem number_length (value : Nat) : (number value).length = (toString value).utf8ByteSize := by
  rw [number, textBytes_eq]
  rfl

/-- The length of a member. -/
theorem member_length (name : String) (value : List UInt8) :
    (member name value).length = name.utf8ByteSize + value.length + 3 := by
  rw [member, List.length_append, quoted_length, List.length_cons]
  omega

/-- The length of a list with commas. -/
theorem intercalate_length (items : List (List UInt8)) :
    ([44].intercalate items).length = (items.map List.length).sum + (items.length - 1) := by
  induction items with
  | nil => rfl
  | cons head rest ih =>
    cases rest with
    | nil => simp [List.intercalate]
    | cons next others =>
      have step : [44].intercalate (head :: next :: others) =
          head ++ 44 :: [44].intercalate (next :: others) := by
        simp [List.intercalate]
      rw [step, List.length_append, List.length_cons, ih]
      simp only [List.map_cons, List.sum_cons, List.length_cons]
      omega

/-- The length of an object. -/
theorem object_length (members : List (List UInt8)) :
    (object members).length = (members.map List.length).sum + (members.length - 1) + 2 := by
  rw [object, List.length_append, List.length_cons, intercalate_length]
  rfl

/-- The length of an array. -/
theorem array_length (items : List (List UInt8)) :
    (array items).length = (items.map List.length).sum + (items.length - 1) + 2 := by
  rw [array, List.length_append, List.length_cons, intercalate_length]
  rfl

/-- A library that writes some values and reads them. -/
def formatOf {α : Type} [DecidableEq α] (known : List (α × List UInt8)) : JsonFormat α where
  toVec value := match known.find? fun entry => entry.1 = value with
    | some entry => .ok entry.2
    | none => .error "key must be a string"
  fromSlice bytes := match known.find? fun entry => entry.2 = bytes with
    | some entry => .ok entry.1
    | none => .error "expected value"

/-- That library reads what it writes, when it writes no two values as one text. -/
theorem formatOf_readsBack {α : Type} [DecidableEq α] {known : List (α × List UInt8)}
    (distinct : (known.map Prod.snd).Nodup) : (formatOf known).ReadsBack := by
  intro value bytes written
  simp only [formatOf] at written ⊢
  split at written
  · next entry found =>
    obtain rfl := Except.ok.inj written
    have named : decide (entry.1 = value) = true :=
      @List.find?_some _ (fun entry => decide (entry.1 = value)) entry known found
    have there : (known.find? fun other => other.2 = entry.2).isSome = true :=
      List.find?_isSome.mpr ⟨entry, List.mem_of_find?_eq_some found, decide_eq_true rfl⟩
    obtain ⟨other, read⟩ := Option.isSome_iff_exists.mp there
    have matched : decide (other.2 = entry.2) = true :=
      @List.find?_some _ (fun other => decide (other.2 = entry.2)) other known read
    have same : other = entry := List.inj_on_of_nodup_map distinct (List.mem_of_find?_eq_some read)
      (List.mem_of_find?_eq_some found) (of_decide_eq_true matched)
    rw [read, same]
    exact congrArg Except.ok (of_decide_eq_true named)
  · cases written

/-- That library writes the first of its values. -/
theorem formatOf_toVec {α : Type} [DecidableEq α] (value : α) (bytes : List UInt8)
    (rest : List (α × List UInt8)) : (formatOf ((value, bytes) :: rest)).toVec value = .ok bytes := by
  simp only [formatOf, List.find?_cons, decide_true]

/-- That library reads the first of its texts. -/
theorem formatOf_fromSlice {α : Type} [DecidableEq α] (value : α) (bytes : List UInt8)
    (rest : List (α × List UInt8)) :
    (formatOf ((value, bytes) :: rest)).fromSlice bytes = .ok value := by
  simp only [formatOf, List.find?_cons, decide_true]

/-- That library writes and reads the second of its values, when the first is another one. -/
theorem formatOf_second {α : Type} [DecidableEq α] {first second : α} {bytes other : List UInt8}
    (values : first ≠ second) (texts : bytes ≠ other) (rest : List (α × List UInt8)) :
    (formatOf ((first, bytes) :: (second, other) :: rest)).toVec second = .ok other ∧
      (formatOf ((first, bytes) :: (second, other) :: rest)).fromSlice other = .ok second := by
  constructor
  · simp only [formatOf, List.find?_cons, values, decide_false, decide_true]
  · simp only [formatOf, List.find?_cons, texts, decide_false, decide_true]

/-- The digest that a text stands for. -/
def digestOf (text : String) : Vector UInt8 32 :=
  Vector.ofFn fun position => (bytesOfHex text.toList).getD position 0

/-- The digest of the content of the source. -/
def contentDigest : String := "0707070707070707070707070707070707070707070707070707070707070707"

/-- The id of the source. -/
def sourceDigest : String := "08bdb83fcb0afaf31bacbdc369f1c5df0b9c4e511c23a4e24a9741b37db12b4c"

/-- The digest of no histories. -/
def manifestDigest : String := "80c9c09bcf3715cbff2d34bcdae3e52ef0fe2bd38a1acbd76d9b6a524296201e"

/-- The name of the generation. -/
def generationDigest : String := "5aa952a6faea7752639d569c71faf9dc2d510533b714342607b6c827121ae229"

/-- The digest of the header of the first publish. -/
def headerDigest : String := "f11de8ecd21f201d540f26a2d1c955cba66ddd82856553223f43585d1a9da840"

/-- The digest of the header of a later publish. -/
def laterHeaderDigest : String := "a27bd9cbca07ae0756706e54e000bb49ea268bac5f782f6650517437cfeed226"

/-- The key of the view. -/
def viewDigest : String := "eb40134e4b2b732d15797de82e63a87d71c924f0f99eee0bb05a44e6be7d5a79"

/-- The time of the first publish. -/
def publishTime : String := "2026-08-23T00:00:00Z"

/-- The time of a later publish. -/
def laterTime : String := "2026-08-24T00:00:00Z"

/-- The endpoint of the source. -/
def indexEndpoint : String := "https://cran.r-project.org/src/contrib/PACKAGES.gz"

/-- A snapshot of the registry with one source and no histories, from some time. -/
def snapshotInput (createdAt : String) : SnapshotBuildInput where
  registryId := registry
  compatibilityProfile := 1
  parserSchema := 1
  normalizationPolicy := 2
  createdAt := createdAt
  producer := "rsolve-provider/cran"
  coverage := ⟨"partial", "requested-packages", "current", [sourceDigest], []⟩
  sources := [⟨"current-packages", "gzip-dcf", digestOf contentDigest, none, none, publishTime,
    indexEndpoint⟩]
  histories := []

/-- The header of that snapshot. -/
def snapshotHeader (createdAt : String) : SnapshotHeaderV1 where
  format := "rsolve-metadata-snapshot"
  version := 1
  historyEncoding := 4
  normalizationPolicy := 2
  compatibilityProfile := 1
  parserSchema := 1
  registryId := "cran"
  generation := generationDigest
  createdAt := createdAt
  producer := "rsolve-provider/cran"
  coverage := ⟨"partial", "requested-packages", "current", [sourceDigest], []⟩
  sources := [⟨sourceDigest, "current-packages", "gzip-dcf", contentDigest, none, none, publishTime,
    indexEndpoint⟩]
  packageCount := 0
  observationCount := 0
  eligibleReleaseCount := 0
  incompletePackageCount := 0
  historyManifestSha256 := manifestDigest

/-- The head of the first publish of that snapshot. -/
def snapshotHead : ViewHeadV1 where
  format := "rsolve-metadata-view"
  version := 1
  registryId := "cran"
  viewKey := viewDigest
  coverage := ⟨"partial", "requested-packages", "current"⟩
  generation := generationDigest
  headerSha256 := headerDigest
  validation := ⟨1, 1, 2, publishTime, 1, indexEndpoint,
    [⟨sourceDigest, contentDigest, indexEndpoint⟩]⟩

/-- A function with the digests of what these publishes write. -/
def snapshotDigest (bytes : List UInt8) : Vector UInt8 32 :=
  if bytes = appendParts [textBytes "rsolve.metadata-source-id\x00v1",
      textBytes "current-packages", textBytes "gzip-dcf", textBytes contentDigest] then
    digestOf sourceDigest
  else if bytes = appendParts [textBytes "rsolve.metadata-history-manifest\x00v1",
      textBytes "0"] then digestOf manifestDigest
  else if bytes = appendParts [textBytes "rsolve.metadata-generation\x00v1", textBytes "cran",
      textBytes "1", textBytes "4", textBytes "2", textBytes "1", textBytes "1",
      textBytes "partial", textBytes "requested-packages", textBytes "current",
      textBytes sourceDigest, textBytes manifestDigest] then digestOf generationDigest
  else if bytes = headerText (snapshotHeader publishTime) then digestOf headerDigest
  else if bytes = headerText (snapshotHeader laterTime) then digestOf laterHeaderDigest
  else if bytes = appendParts [textBytes "rsolve.metadata-view-key\x00v1", textBytes "cran",
      textBytes "partial", textBytes "requested-packages", textBytes "current",
      textBytes indexEndpoint] then digestOf viewDigest
  else Vector.replicate 32 0

/-- A store of the registry. -/
def snapshotStore : SnapshotStore where
  basis :=
    { sha256 := snapshotDigest
      isTimestamp := fun text => text == publishTime || text == laterTime
      postcard := observedFormat
      headerJson := formatOf [(snapshotHeader publishTime, headerText (snapshotHeader publishTime)),
        (snapshotHeader laterTime, headerText (snapshotHeader laterTime))]
      validateHistory := fun _ _ => .ok () }
  headJson := formatOf [(snapshotHead, headText snapshotHead)]
  registryId := registry

/-- A process with a working clock. -/
def process : ProcessEnvironment := ⟨4242, some 1, some 2, some 3, 0, 0⟩

/-- The entries of a directory in the order of their names. -/
def byName : Enumeration := ⟨id, fun _ => .refl _⟩

/-- A publish of the first snapshot. -/
def snapshotPublish : StoreCall := .publish (snapshotInput publishTime) none process byName

/-- A cleanup that retains nothing of its own accord. -/
def snapshotCleanup : StoreCall := .cleanup [] ⟨byName, byName, byName⟩

/-- The publish of a snapshot is told of its endpoints. -/
theorem snapshotInput_admissible (createdAt : String) : (snapshotInput createdAt).Admissible none where
  sources := List.cons_ne_nil _ _
  endpoints source member := by
    rw [List.mem_singleton.mp member]
    decide
  given text member := nomatch member

/-- The text of a digest, from the digest. -/
theorem hexDigest_of {basis : SnapshotBasis} {bytes : List UInt8} {digest : Vector UInt8 32}
    {text : String} (hashed : basis.sha256 bytes = digest) (spelled : hex digest.toList = text) :
    basis.hexDigest bytes = text := by
  rw [SnapshotBasis.hexDigest, hashed, spelled]

/-- The head of a header, from the key and the digest. -/
theorem viewHead_of {store : SnapshotStore} {header : SnapshotHeaderV1} {bytes : List UInt8}
    {endpoint viewKey digest : String} {sequence : Nat}
    (keyed : viewKeyForParts store header.coverage.state header.coverage.scope
      header.coverage.freshness endpoint = viewKey)
    (digested : store.basis.hexDigest bytes = digest) :
    viewHead store header bytes endpoint sequence =
      { format := "rsolve-metadata-view"
        version := 1
        registryId := store.registryId.text
        viewKey
        coverage := ⟨header.coverage.state, header.coverage.scope, header.coverage.freshness⟩
        generation := header.generation
        headerSha256 := digest
        validation :=
          { compatibilityProfile := header.compatibilityProfile
            parserSchema := header.parserSchema
            normalizationPolicy := header.normalizationPolicy
            validatedAt := header.createdAt
            refreshSequence := sequence
            effectiveEndpoint := endpoint
            sources := header.sources.map fun source =>
              ⟨source.id, source.contentSha256, source.endpoint⟩ } } := by
  rw [viewHead, keyed, digested]

/-- The text of a header is no row of parts whose first part has another length than the first byte
of the text says. -/
theorem headerText_ne_parts (header : SnapshotHeaderV1) {first : List UInt8}
    {rest : List (List UInt8)} (other : first.length % 256 ≠ 123) :
    headerText header ≠ appendParts (first :: rest) := by
  intro equal
  have heads : (123 : UInt8) = UInt8.ofNat (first.length % 256) :=
    (List.cons.inj (equal : 123 :: _ = UInt8.ofNat (first.length % 256) :: _)).1
  have numbers := congrArg UInt8.toNat heads
  rw [UInt8.toNat_ofNat_of_lt' (Nat.mod_lt _ (by decide))] at numbers
  exact other numbers.symm

/-- The digest of the header of the first publish. -/
theorem snapshotDigest_header :
    snapshotDigest (headerText (snapshotHeader publishTime)) = digestOf headerDigest := by
  rw [snapshotDigest, if_neg (headerText_ne_parts _ (by decide)),
    if_neg (headerText_ne_parts _ (by decide)),
    if_neg (headerText_ne_parts _ (by decide)), if_pos rfl]

/-- The text of that header is short. -/
theorem headerText_snapshot_short : (headerText (snapshotHeader publishTime)).length ≤ headerLimit := by
  simp only [headerText, snapshotHeader, sourceText, object_length, array_length, member_length,
    quoted_length, number_length, List.map_cons, List.map_nil]
  decide

/-- The name of the generation of the snapshot, from any time. -/
theorem generationId_snapshot (createdAt : String) :
    generationId snapshotStore.basis "cran" (snapshotHeader createdAt) = generationDigest := by
  change generationId snapshotStore.basis "cran" (snapshotHeader publishTime) = generationDigest
  have digest : snapshotStore.basis.sha256 = snapshotDigest := rfl
  simp only [generationId, SnapshotBasis.hexDigest, digest, snapshotDigest, textBytes_eq]
  decide +kernel

/-- The digest of no histories. -/
theorem historyManifest_snapshot :
    historyManifest snapshotStore.basis .empty = manifestDigest := by
  have digest : snapshotStore.basis.sha256 = snapshotDigest := rfl
  simp only [historyManifest, SnapshotBasis.hexDigest, digest, snapshotDigest, textBytes_eq]
  decide

/-- The id of the source. -/
theorem sourceId_snapshot :
    sourceId snapshotStore.basis "current-packages" "gzip-dcf" contentDigest = sourceDigest := by
  have digest : snapshotStore.basis.sha256 = snapshotDigest := rfl
  simp only [sourceId, SnapshotBasis.hexDigest, digest, snapshotDigest, textBytes_eq]
  decide

/-- The digest of the content is the text of its bytes. -/
theorem hex_contentDigest : hex (bytesOfHex contentDigest.toList) = contentDigest := by
  decide

/-- A text of 32 bytes is read as a digest. -/
theorem parseHex32_digestOf {text : String} (spelled : hex (digestOf text).toList = text) :
    parseHex32 text = .ok (bytesOfHex text.toList) := by
  have read := parseHex32_hex (Vector.length_toList : (digestOf text).toList.length = 32)
  rwa [spelled] at read

/-- The digests are the texts of their bytes. -/
theorem digests_spelled : hex (digestOf contentDigest).toList = contentDigest ∧
    hex (digestOf generationDigest).toList = generationDigest ∧
    hex (digestOf manifestDigest).toList = manifestDigest := by
  decide

/-- The observation of a source with that content. -/
theorem sourceObservation_content {basis : SnapshotBasis} {endpoint : String}
    (identified : sourceId basis "current-packages" "gzip-dcf" contentDigest = sourceDigest) :
    sourceObservation basis ⟨"current-packages", "gzip-dcf", digestOf contentDigest, none, none,
        publishTime, endpoint⟩ =
      ⟨sourceDigest, "current-packages", "gzip-dcf", contentDigest, none, none, publishTime,
        endpoint⟩ := by
  simp only [sourceObservation, digests_spelled.1, identified]

/-- What is prepared of the snapshot, from any time. -/
theorem prepare_snapshot (createdAt : String) :
    prepare snapshotStore.basis (snapshotInput createdAt) =
      .ok ({ snapshotHeader createdAt with generation := "" }, .empty) := by
  have observed := @sourceObservation_content _ indexEndpoint sourceId_snapshot
  have filled : registry.text ≠ "" := by decide
  have prepared := @prepare_of_source snapshotStore.basis (snapshotInput createdAt) _ filled
    rfl rfl (by rw [observed]; rfl)
  rw [observed, historyManifest_snapshot] at prepared
  exact prepared

/-- What is made of the first snapshot. -/
theorem prepared_snapshot : prepared snapshotStore.basis (snapshotInput publishTime) =
    .ok (snapshotHeader publishTime, headerText (snapshotHeader publishTime), .empty) := by
  refine prepared_of_parts ?_ (generationId_snapshot publishTime) (formatOf_toVec _ _ _)
    headerText_snapshot_short
  rw [prepare_snapshot]
  rfl

/-- The texts of the header are neither empty nor too long. -/
theorem texts_valid :
    [sourceDigest, "current-packages", "gzip-dcf", contentDigest, publishTime].forM
        (validateString · true "source string") = .ok () ∧
      ["cran", generationDigest, publishTime, "rsolve-provider/cran", "requested-packages",
        "current"].forM (validateString · true "required header string") = .ok () ∧
      [sourceDigest].forM (validateString · true "coverage source id") = .ok () := by
  decide

/-- The source is valid where its id is the expected digest. -/
theorem validate_source {basis : SnapshotBasis} {endpoint : String}
    (identified : sourceId basis "current-packages" "gzip-dcf" contentDigest = sourceDigest)
    (timed : isRfc3339Seconds basis publishTime = true)
    (filled : validateString endpoint true "source string" = .ok ()) :
    SourceObservationV1.validate basis ⟨sourceDigest, "current-packages", "gzip-dcf", contentDigest,
      none, none, publishTime, endpoint⟩ = .ok () := by
  have texts := texts_valid
  simp only [SourceObservationV1.validate, bind_eq_ok, ensure_eq_ok, forM_eq_ok,
    List.forall_mem_cons] at texts ⊢
  obtain ⟨⟨id, kind, representation, content, observedAt, -⟩, -⟩ := texts
  exact ⟨(), ⟨id, kind, representation, content, observedAt, filled, List.forall_mem_nil _⟩, (),
    ⟨by simp, by simp⟩, (), timed, _, parseHex32_digestOf digests_spelled.1,
    (congrArg _ hex_contentDigest).trans identified⟩

/-- A header with one source is valid where its parts have the expected digests. -/
theorem validateHeader_of_digests {basis : SnapshotBasis} {endpoint : String}
    (identified : sourceId basis "current-packages" "gzip-dcf" contentDigest = sourceDigest)
    (named : generationId basis "cran" (snapshotHeader publishTime) = generationDigest)
    (timed : isRfc3339Seconds basis publishTime = true)
    (filled : validateString endpoint true "source string" = .ok ()) :
    validateHeader basis { snapshotHeader publishTime with
      sources := [⟨sourceDigest, "current-packages", "gzip-dcf", contentDigest, none, none,
        publishTime, endpoint⟩] } = .ok () := by
  have spelled := digests_spelled
  have texts := texts_valid
  have observed := validate_source identified timed filled
  simp only [validateHeader, bind_eq_ok, ensure_eq_ok, pure, Except.pure]
  exact ⟨(), ⟨rfl, rfl, rfl, rfl, rfl, .inl rfl⟩, (), .inr rfl, (), texts.2.1, registry, rfl, _,
    parseHex32_digestOf spelled.2.1, (), named.symm, (), timed, (), Nat.le_of_ble_eq_true rfl, (),
    forM_eq_ok.mpr (List.forall_mem_singleton.mpr observed), (), List.isChain_singleton _, (),
    ⟨List.isChain_singleton _, List.isChain_nil⟩, (), rfl, (), texts.2.2, (), rfl, (),
    fun _ listed => listed, _, parseHex32_digestOf spelled.2.2, trivial⟩

/-- The time of the first publish is one. -/
theorem timed_snapshot : isRfc3339Seconds snapshotStore.basis publishTime = true := by
  decide

/-- The endpoint of the source is neither empty nor too long. -/
theorem filled_snapshot : validateString indexEndpoint true "source string" = .ok () := by
  decide

/-- The header of the first snapshot is valid. -/
theorem validateHeader_snapshot :
    validateHeader snapshotStore.basis (snapshotHeader publishTime) = .ok () :=
  validateHeader_of_digests sourceId_snapshot (generationId_snapshot publishTime)
    timed_snapshot filled_snapshot

/-- The library of the store reads the header of the first publish. -/
theorem headerJson_snapshot : snapshotStore.basis.headerJson.fromSlice
    (headerText (snapshotHeader publishTime)) = .ok (snapshotHeader publishTime) := by
  simp only [snapshotStore]
  exact formatOf_fromSlice _ _ _

/-- The generation of the first snapshot is valid. -/
theorem validateGeneration_snapshot : validateGeneration snapshotStore.basis
    (some ⟨some (headerText (snapshotHeader publishTime)), .empty⟩) snapshotStore.registryId =
      .ok (snapshotHeader publishTime) :=
  validateGeneration_of
    (decodeHeader_of headerJson_snapshot (formatOf_toVec _ _ _) headerText_snapshot_short
      validateHeader_snapshot)
    rfl ⟨rfl, rfl, rfl, rfl⟩ historyManifest_snapshot.symm (generationId_snapshot publishTime).symm

/-- The files after the first publish. -/
def snapshotFiles : StoreFiles :=
  StoreFiles.empty.published process 1 2 3 snapshotHead (headText snapshotHead)
    (some ⟨some (headerText (snapshotHeader publishTime)), .empty⟩)

/-- The head of the first publish. -/
theorem viewHead_snapshot : viewHead snapshotStore (snapshotHeader publishTime)
    (headerText (snapshotHeader publishTime))
    ((none : Option String).getD (effectiveEndpoint (snapshotInput publishTime))) 1 =
      snapshotHead := by
  have endpoint : (none : Option String).getD (effectiveEndpoint (snapshotInput publishTime)) =
      indexEndpoint := by
    decide
  have keyed : viewKeyForParts snapshotStore (snapshotHeader publishTime).coverage.state
      (snapshotHeader publishTime).coverage.scope (snapshotHeader publishTime).coverage.freshness
      indexEndpoint = viewDigest := by
    decide +kernel
  have spelled : hex (digestOf headerDigest).toList = headerDigest := by
    decide
  have hashed : snapshotStore.basis.sha256 (headerText (snapshotHeader publishTime)) =
      digestOf headerDigest := by
    simp only [snapshotStore, snapshotDigest_header]
  have digest := hexDigest_of hashed spelled
  rw [endpoint]
  exact @viewHead_of snapshotStore (snapshotHeader publishTime) _ _ _ _ 1 keyed digest

/-- The text of that head is short. -/
theorem headText_snapshot_short : (headText snapshotHead).length ≤ viewHeadLimit := by
  simp only [headText, snapshotHead, object_length, array_length, member_length, quoted_length,
    number_length, List.map_cons, List.map_nil]
  decide

/-- The first publish works. -/
theorem works_snapshotPublish :
    Works (buildAndPublish snapshotStore (snapshotInput publishTime) none process byName) .empty []
      ⟨⟨some (headerText (snapshotHeader publishTime)), .empty⟩, snapshotHeader publishTime⟩
      snapshotFiles [] := by
  have head := viewHead_snapshot
  have serves : process.Serves .empty 1 2 3 := ⟨rfl, rfl, rfl, rfl, rfl, rfl⟩
  have works := @works_buildAndPublish snapshotStore .empty (snapshotInput publishTime) none process
    byName (snapshotHeader publishTime) (headerText (snapshotHeader publishTime))
    (headText snapshotHead) .empty 1 2 3 1 none prepared_snapshot validateGeneration_snapshot serves
    (.inl rfl) (fun _ => rfl) rfl (by rw [head]; exact formatOf_toVec _ _ _)
    headText_snapshot_short
  rw [head] at works
  exact works

/-- The library for heads reads what it writes. -/
theorem snapshotStore_readsBack : snapshotStore.headJson.ReadsBack :=
  formatOf_readsBack (List.nodup_singleton _)

/-- The files after the first publish are those of a run. -/
theorem runCalls_snapshotPublish :
    runCalls snapshotStore [(snapshotPublish, ⟨[], []⟩)] = snapshotFiles :=
  runCalls_of_works works_snapshotPublish

/-- The files after the first publish are sound. -/
theorem snapshotFiles_sound : snapshotFiles.Sound snapshotStore := by
  rw [← runCalls_snapshotPublish]
  refine sound_runCalls snapshotStore_readsBack fun step member => ?_
  rw [List.mem_singleton.mp member]
  exact ⟨by decide, snapshotInput_admissible publishTime⟩

/-- The first publish stored its head. -/
theorem snapshotHead_stored : snapshotFiles.views.get? viewDigest = some (headText snapshotHead) ∧
    snapshotHead.Stored snapshotStore (headText snapshotHead) := by
  refine ⟨?_, formatOf_toVec _ _ _, headText_snapshot_short⟩
  exact (OrderedMap.get?_insert .empty viewDigest viewDigest (headText snapshotHead)).trans
    (if_pos rfl)

end Small

/-- After a first publish the published head is committed and its view is the latest one, and a cleanup
changes no read. -/
theorem runCalls_published :
    let files := runCalls Small.snapshotStore [(Small.snapshotPublish, ⟨[], []⟩)]
    files.committed = [Small.snapshotHead] ∧ files.Readable Small.snapshotStore ∧
      files.Latest Small.snapshotStore ∧
      SameReads Small.snapshotStore files
        (StoreCall.after Small.snapshotStore files (Small.snapshotCleanup, ⟨[], []⟩)) := by
  have admitted : ∀ step ∈ [(Small.snapshotPublish, (⟨[], []⟩ : Fates))],
      StoreCall.Admitted step := by
    intro step member
    rw [List.mem_singleton.mp member]
    exact ⟨by decide, Small.snapshotInput_admissible _⟩
  have integrity := runCalls_integrity Small.snapshotStore Small.snapshotStore_readsBack
    [(Small.snapshotPublish, ⟨[], []⟩)] admitted
  have cleaned := integrity.2.2.2.2 [] ⟨Small.byName, Small.byName, Small.byName⟩ ⟨[], []⟩
    (by decide)
  refine ⟨?_, integrity.1, integrity.2.1, cleaned.2.1⟩
  rw [Small.runCalls_snapshotPublish]
  rfl

/-- A cleanup that cannot enumerate the heads removes the generation that the only head refers to: the
head is not readable, and no view is the latest one any more. -/
theorem cleanup_removes_referenced :
    let files := runCalls Small.snapshotStore [(Small.snapshotPublish, ⟨[], []⟩)]
    let outcome := cleanup Small.snapshotStore [] ⟨Small.byName, Small.byName, Small.byName⟩ files
      ⟨[], [.fails]⟩
    (Small.snapshotInput Small.publishTime).Admissible none ∧ outcome.1 = .returned () ∧
      files.Refers Small.snapshotStore Small.generationDigest ∧
      outcome.2.1.generations.get? Small.generationDigest = none ∧
      (∀ order, (readLatestView Small.snapshotStore order files).isOk = true ∧
        readLatestView Small.snapshotStore order outcome.2.1 =
          .error (storeCandidateError "all snapshot view heads are invalid")) ∧
      ¬ outcome.2.1.Readable Small.snapshotStore ∧ ¬ outcome.2.1.Latest Small.snapshotStore := by
  have sound := Small.snapshotFiles_sound
  rw [← Small.runCalls_snapshotPublish] at sound
  have first : (runCalls Small.snapshotStore [(Small.snapshotPublish, ⟨[], []⟩)]).committed.head? =
      some Small.snapshotHead := by
    rw [Small.runCalls_snapshotPublish]
    rfl
  exact ⟨Small.snapshotInput_admissible _,
    sound.unread_of_missed_views Small.snapshotStore_readsBack _ first⟩

end Rsolve
