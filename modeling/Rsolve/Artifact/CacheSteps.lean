import Mathlib.Data.Set.Function
import Rsolve.Artifact.Cache

/-!
# What the steps of the cache keep

Every record of the cache is that of some bytes that were checked for its descriptor. A call keeps the
valid objects and the records, and it may put bytes in the place of an object only when they have its
digest. That bytes with one digest are the same bytes is assumed of those that occur.
-/
open Checked Framing Keyed Ordered Streams Faults

namespace Rsolve

/-- The digest tells the byte strings that occur apart, and they fit into memory. -/
structure ArtifactCache.Distinguishes (cache : ArtifactCache) (occurring : Set (List UInt8)) :
    Prop where
  injective : Set.InjOn cache.sha256 occurring
  fits : ∀ bytes ∈ occurring, bytes.length < lengthBound

/-- The stored records are texts that are read back. -/
structure ArtifactCache.Stores (cache : ArtifactCache) : Prop where
  readsBack : cache.metadataJson.ReadsBack
  texts : ∀ file bytes, cache.metadataJson.toVec file = .ok bytes →
    (Utf8.fromUtf8 bytes).isSome = true

/-- An archive holds what is expected. -/
def ArtifactCache.Validates (cache : ArtifactCache)
    (expectation : Option ArtifactValidationExpectation) (bytes : List UInt8) : Prop :=
  ∃ path, validateSourceArchive cache.ip cache.utf8Error path expectation
    (.ok (cache.archive bytes)) = .ok ()

/-- Bytes of a size are what an artifact declares and what is expected of it. -/
structure ArtifactCache.Accepts (cache : ArtifactCache) (artifact : SourceArtifact)
    (checksums : Checksums) (expectation : Option ArtifactValidationExpectation) (size : UInt64)
    (bytes : List UInt8) : Prop where
  sized : bytes.length = size.toNat
  declared : artifact.size.all (· = size) = true
  sha256 : matchSha256 cache checksums bytes = .ok ()
  md5 : matchMd5 cache checksums bytes = .ok ()
  validates : cache.Validates expectation bytes

/-- A text is the record of bytes that were checked for the descriptor of a key. -/
structure ArtifactCache.Records (cache : ArtifactCache) (occurring : Set (List UInt8)) (key : String)
    (artifact : SourceArtifact) (checksums : Checksums)
    (expectation : Option ArtifactValidationExpectation) (size : UInt64) (bytes text : List UInt8) :
    Prop where
  valid : validateChecksums artifact.upstreamChecksums = .ok checksums
  hashed : descriptorPreimage artifact checksums expectation ∈ occurring
  keyed : key = cache.key artifact checksums expectation
  stored : cache.metadataJson.toVec (metadataOf cache key checksums size bytes).file = .ok text
  accepts : cache.Accepts artifact checksums expectation size bytes
  occurs : bytes ∈ occurring

/-- Every record is that of some bytes, and every object occurs. Where the objects are untouched, they
have their digests, and those of the records are there. -/
structure ArtifactFiles.Sound (cache : ArtifactCache) (occurring : Set (List UInt8))
    (untouched : Prop) (files : ArtifactFiles) : Prop where
  records : ∀ key text, files.metadata.get? key = some text →
    ∃ artifact checksums expectation size bytes,
      cache.Records occurring key artifact checksums expectation size bytes text ∧
        (untouched → files.objects.get? (cache.digest bytes).text = some bytes)
  occurs : ∀ digest bytes, files.objects.get? digest = some bytes → bytes ∈ occurring
  intact : untouched → ∀ digest bytes, files.objects.get? digest = some bytes →
    (cache.digest bytes).text = digest

/-- The valid objects are still there, and the records are the same. -/
structure Leaves (cache : ArtifactCache) (files reached : ArtifactFiles) : Prop where
  objects : ∀ bytes, files.objects.get? (cache.digest bytes).text = some bytes →
    reached.objects.get? (cache.digest bytes).text = some bytes
  metadata : reached.metadata = files.metadata

/-- The valid objects and the records are still there. -/
structure Preserves (cache : ArtifactCache) (files reached : ArtifactFiles) : Prop where
  objects : ∀ bytes, files.objects.get? (cache.digest bytes).text = some bytes →
    reached.objects.get? (cache.digest bytes).text = some bytes
  metadata : ∀ key text, files.metadata.get? key = some text →
    reached.metadata.get? key = some text

section Relations

variable {cache : ArtifactCache} {occurring : Set (List UInt8)} {untouched : Prop}
  {files reached : ArtifactFiles}

instance : Std.Refl (Leaves cache) := ⟨fun _ => ⟨fun _ present => present, rfl⟩⟩

instance : IsTrans ArtifactFiles (Leaves cache) where
  trans _ _ _ first second := ⟨fun bytes present => second.objects bytes (first.objects bytes present),
    second.metadata.trans first.metadata⟩

instance : Std.Refl (Preserves cache) := ⟨fun _ => ⟨fun _ present => present, fun _ _ => id⟩⟩

instance : IsTrans ArtifactFiles (Preserves cache) where
  trans _ _ _ first second := ⟨fun bytes present => second.objects bytes (first.objects bytes present),
    fun key text present => second.metadata key text (first.metadata key text present)⟩

/-- Where the records are the same, they are still there. -/
theorem Leaves.preserves (leaves : Leaves cache files reached) : Preserves cache files reached where
  objects := leaves.objects
  metadata := fun _ _ present => leaves.metadata ▸ present

/-- Bytes that occur are determined by their digest. -/
theorem ArtifactCache.Distinguishes.eq_of_digest (distinct : cache.Distinguishes occurring)
    {left right : List UInt8} (leftOccurs : left ∈ occurring) (rightOccurs : right ∈ occurring)
    (equal : (cache.digest left).text = (cache.digest right).text) : left = right := by
  have vectors : cache.sha256 left = cache.sha256 right :=
    Vector.toList_inj.mp (hex_injective equal)
  exact distinct.injective leftOccurs rightOccurs vectors

/-- No files are sound. -/
theorem ArtifactFiles.Sound.empty : ArtifactFiles.empty.Sound cache occurring untouched where
  records := fun _ _ present => nomatch present
  occurs := fun _ _ present => nomatch present
  intact := fun _ _ _ present => nomatch present

/-- Files beside the objects and records do not matter. -/
theorem ArtifactFiles.Sound.aside (sound : files.Sound cache occurring untouched)
    (asides : OrderedMap String (List UInt8)) :
    ({ files with asides := asides } : ArtifactFiles).Sound cache occurring untouched :=
  ⟨sound.records, sound.occurs, sound.intact⟩

/-- Bytes may be put in the place of the object with their digest. -/
theorem ArtifactFiles.Sound.putObject (distinct : cache.Distinguishes occurring)
    (sound : files.Sound cache occurring untouched) {bytes : List UInt8} (occurs : bytes ∈ occurring) :
    (files.putObject (cache.digest bytes) bytes).Sound cache occurring untouched ∧
      Leaves cache files (files.putObject (cache.digest bytes) bytes) := by
  have kept : ∀ other, files.objects.get? (cache.digest other).text = some other →
      (files.objects.insert (cache.digest bytes).text bytes).get? (cache.digest other).text =
        some other := by
    intro other present
    rw [OrderedMap.get?_insert]
    by_cases same : (cache.digest other).text = (cache.digest bytes).text
    · have equal := distinct.eq_of_digest occurs (sound.occurs _ _ present) same.symm
      rw [if_pos same, equal]
    · rw [if_neg same]
      exact present
  have placed : ∀ digest other,
      (files.objects.insert (cache.digest bytes).text bytes).get? digest = some other →
      ((cache.digest bytes).text = digest ∧ bytes = other) ∨
        files.objects.get? digest = some other := by
    intro digest other present
    rw [OrderedMap.get?_insert] at present
    by_cases same : digest = (cache.digest bytes).text
    · rw [if_pos same] at present
      exact .inl ⟨same.symm, Option.some.inj present⟩
    · rw [if_neg same] at present
      exact .inr present
  refine ⟨⟨fun key text present => ?_, fun digest other present => ?_, ?_⟩, kept, rfl⟩
  · obtain ⟨artifact, checksums, expectation, size, found, records, there⟩ :=
      sound.records key text present
    exact ⟨artifact, checksums, expectation, size, found, records, fun free => kept _ (there free)⟩
  · rcases placed digest other present with ⟨-, rfl⟩ | before
    · exact occurs
    · exact sound.occurs digest other before
  · intro free digest other present
    rcases placed digest other present with ⟨same, rfl⟩ | before
    · exact same
    · exact sound.intact free digest other before

/-- An object that is not valid may be set aside, where the objects were touched. -/
theorem ArtifactFiles.Sound.eraseObject (distinct : cache.Distinguishes occurring)
    (sound : files.Sound cache occurring untouched) {bytes : List UInt8} (occurs : bytes ∈ occurring)
    (touched : ¬ untouched)
    (damaged : files.objects.get? (cache.digest bytes).text ≠ some bytes)
    (asides : OrderedMap String (List UInt8)) :
    (⟨files.objects.erase (cache.digest bytes).text, files.metadata, asides⟩ :
      ArtifactFiles).Sound cache occurring untouched ∧
      Leaves cache files ⟨files.objects.erase (cache.digest bytes).text, files.metadata, asides⟩ := by
  refine ⟨⟨fun key text present => ?_, fun digest other present => ?_, fun free => ?_⟩,
    fun other present => ?_, rfl⟩
  · obtain ⟨artifact, checksums, expectation, size, found, records, -⟩ :=
      sound.records key text present
    exact ⟨artifact, checksums, expectation, size, found, records, fun free => absurd free touched⟩
  · rw [OrderedMap.get?_erase] at present
    split at present
    · cases present
    · exact sound.occurs digest other present
  · exact absurd free touched
  · rw [OrderedMap.get?_erase]
    split
    · next same =>
      have equal := distinct.eq_of_digest occurs (sound.occurs _ _ present) same.symm
      rw [equal] at damaged
      exact absurd present damaged
    · exact present

/-- An object that was set aside may be put back into its place. -/
theorem ArtifactFiles.Sound.restoreObject (sound : files.Sound cache occurring untouched)
    {digest : Sha256Digest} {bytes : List UInt8} (occurs : bytes ∈ occurring) (touched : ¬ untouched)
    (free : files.objects.get? digest.text = none) :
    (files.putObject digest bytes).Sound cache occurring untouched ∧
      Leaves cache files (files.putObject digest bytes) := by
  refine ⟨⟨fun key text present => ?_, fun name other present => ?_, fun free => ?_⟩,
    fun other present => ?_, rfl⟩
  · obtain ⟨artifact, checksums, expectation, size, found, records, -⟩ :=
      sound.records key text present
    exact ⟨artifact, checksums, expectation, size, found, records, fun free => absurd free touched⟩
  · simp only [ArtifactFiles.putObject, OrderedMap.get?_insert] at present
    split at present
    · rw [← Option.some.inj present]
      exact occurs
    · exact sound.occurs name other present
  · exact absurd free touched
  · simp only [ArtifactFiles.putObject, OrderedMap.get?_insert]
    split
    · next same =>
      rw [same, free] at present
      cases present
    · exact present

/-- The record of bytes whose object is there may be put in the place of a record that is not there. -/
theorem ArtifactFiles.Sound.putMetadata (sound : files.Sound cache occurring untouched)
    {key : String} {artifact : SourceArtifact} {checksums : Checksums}
    {expectation : Option ArtifactValidationExpectation} {size : UInt64} {bytes text : List UInt8}
    (absent : files.metadata.get? key = none)
    (records : cache.Records occurring key artifact checksums expectation size bytes text)
    (there : files.objects.get? (cache.digest bytes).text = some bytes) :
    (files.putMetadata key text).Sound cache occurring untouched ∧
      Preserves cache files (files.putMetadata key text) := by
  refine ⟨⟨fun name other present => ?_, sound.occurs, sound.intact⟩, fun _ present => present,
    fun name other present => ?_⟩
  · simp only [ArtifactFiles.putMetadata, OrderedMap.get?_insert] at present
    split at present
    · next same =>
      rw [same, ← Option.some.inj present]
      exact ⟨artifact, checksums, expectation, size, bytes, records, fun _ => there⟩
    · exact sound.records name other present
  · simp only [ArtifactFiles.putMetadata, OrderedMap.get?_insert]
    split
    · next same =>
      rw [same, absent] at present
      cases present
    · exact present

end Relations

section Steps

variable {cache : ArtifactCache} {occurring : Set (List UInt8)} {untouched : Prop}
  {pre : ArtifactFiles → Prop}

/-- An operation that changes nothing keeps what holds. -/
theorem traces_handle {inv : ArtifactFiles → Prop} {related : ArtifactFiles → ArtifactFiles → Prop}
    [Std.Refl related] {operation path : String} :
    Traces inv pre (handle operation path) related (fun _ => pre) := by
  apply Traces.operate
  intro files value reached kept held worked
  obtain ⟨-, rfl⟩ := Prod.mk.inj (Except.ok.inj worked)
  exact ⟨kept, Std.Refl.refl files, held⟩

/-- What is read is there. -/
theorem traces_contentOf {inv : ArtifactFiles → Prop}
    {related : ArtifactFiles → ArtifactFiles → Prop} [Std.Refl related] {operation path : String}
    {find : ArtifactFiles → Option (List UInt8)} :
    Traces inv pre (contentOf operation path find) related
      (fun bytes files => find files = some bytes ∧ pre files) := by
  apply Traces.operate
  intro files value reached kept held worked
  split at worked
  · cases worked
  · next bytes present =>
    obtain ⟨rfl, rfl⟩ := Prod.mk.inj (Except.ok.inj worked)
    exact ⟨kept, Std.Refl.refl files, present, held⟩

/-- A check that a condition holds. -/
theorem traces_check_ensure {inv : ArtifactFiles → Prop}
    {related : ArtifactFiles → ArtifactFiles → Prop} [Std.Refl related] {condition : Prop}
    [Decidable condition] {cause : ArtifactCacheError} :
    Traces inv pre (Faulty.check (ensure condition cause)) related
      (fun _ files => condition ∧ pre files) := by
  apply (Traces.check _).weaken (fun _ _ held => held)
  intro value files kept held
  exact ⟨ensure_eq_ok.mp held.1, held.2⟩

/-- A program that ends with an error is not left. -/
theorem traces_check_error {α : Type} {inv : ArtifactFiles → Prop}
    {related : ArtifactFiles → ArtifactFiles → Prop} [Std.Refl related]
    {cause : ArtifactCacheError} {post : α → ArtifactFiles → Prop} :
    Traces inv pre (Faulty.check (.error cause) : CacheProgram α) related post := by
  apply (Traces.check _).weaken (fun _ _ held => held)
  intro value files kept held
  exact nomatch held.1

/-- Files beside the objects and records may go without notice. -/
theorem traces_discardAside (path : String) {fact : ArtifactFiles → Prop}
    (keeps : ∀ files, pre files → fact files ∧
      fact { files with asides := files.asides.erase path }) :
    Traces (ArtifactFiles.Sound cache occurring untouched) pre (discardAside path) (Leaves cache)
      (fun _ => fact) := by
  apply Traces.endeavor
  · intro files sound held
    exact (keeps files held).1
  · intro files sound held
    exact ⟨sound.aside _, ⟨fun _ present => present, rfl⟩, (keeps files held).2⟩

/-- A file beside the objects and records may be removed. -/
theorem traces_removeAside (operation path : String) {fact : ArtifactFiles → Prop}
    (keeps : ∀ files, pre files → fact { files with asides := files.asides.erase path }) :
    Traces (ArtifactFiles.Sound cache occurring untouched) pre (removeAside operation path)
      (Leaves cache) (fun _ => fact) := by
  apply Traces.operate
  intro files value reached sound held worked
  split at worked
  · obtain ⟨-, rfl⟩ := Prod.mk.inj (Except.ok.inj worked)
    exact ⟨sound.aside _, ⟨fun _ present => present, rfl⟩, keeps files held⟩
  · cases worked

/-- A file beside the objects and records may be created. -/
theorem traces_createAside (operation path : String) {fact : ArtifactFiles → Prop}
    (keeps : ∀ files, pre files → fact { files with asides := files.asides.insert path [] }) :
    Traces (ArtifactFiles.Sound cache occurring untouched) pre (createAside operation path)
      (Leaves cache) (fun _ => fact) := by
  apply Traces.operate
  intro files value reached sound held worked
  split at worked
  · cases worked
  · obtain ⟨-, rfl⟩ := Prod.mk.inj (Except.ok.inj worked)
    exact ⟨sound.aside _, ⟨fun _ present => present, rfl⟩, keeps files held⟩

/-- A file beside the objects and records may be written. -/
theorem traces_writeAside (operation path : String) (bytes : List UInt8)
    {fact : ArtifactFiles → Prop}
    (keeps : ∀ files, pre files → fact { files with asides := files.asides.insert path bytes }) :
    Traces (ArtifactFiles.Sound cache occurring untouched) pre (writeAside operation path bytes)
      (Leaves cache) (fun _ => fact) := by
  apply Traces.operate
  intro files value reached sound held worked
  obtain ⟨-, rfl⟩ := Prod.mk.inj (Except.ok.inj worked)
  exact ⟨sound.aside _, ⟨fun _ present => present, rfl⟩, keeps files held⟩

/-- An object that is there may be made read-only. -/
theorem traces_makeReadOnly (path : String) (digest : Sha256Digest) :
    Traces (ArtifactFiles.Sound cache occurring untouched) pre (makeReadOnly path digest)
      (Leaves cache) (fun _ => pre) := by
  unfold makeReadOnly
  have inspected : Traces (ArtifactFiles.Sound cache occurring untouched) pre
      (Faulty.operate (cacheIo "inspect published object" path deviceFailure) fun files =>
        if (files.objects.get? digest.text).isSome then .ok ((), files)
        else .error (cacheIo "inspect published object" path missingFile) :
        CacheProgram Unit) (Leaves cache) (fun _ => pre) := by
    apply Traces.operate
    intro files value reached sound held worked
    split at worked
    · obtain ⟨-, rfl⟩ := Prod.mk.inj (Except.ok.inj worked)
      exact ⟨sound, Std.Refl.refl files, held⟩
    · cases worked
  exact inspected.bind fun _ => traces_handle

/-- A file beside the objects is put in the place of an object, or nothing changes. -/
theorem traces_tryPublish (operation object path : String) (digest : Sha256Digest)
    {post : Except ArtifactCacheError Unit → ArtifactFiles → Prop}
    (idle : ∀ files cause, files.Sound cache occurring untouched → pre files →
      post (.error cause) files)
    (works : ∀ files bytes, files.Sound cache occurring untouched → pre files →
      files.asides.get? path = some bytes →
      let reached := ({ files with asides := files.asides.erase path } : ArtifactFiles).putObject
        digest bytes
      (reached.Sound cache occurring untouched ∧ Leaves cache files reached) ∧
        post (.ok ()) reached) :
    Traces (ArtifactFiles.Sound cache occurring untouched) pre
      (tryPublish operation object path digest) (Leaves cache) post := by
  apply Traces.trial idle
  intro files value reached sound held worked
  unfold renameAside at worked
  split at worked
  · cases worked
  · next bytes present =>
    obtain ⟨-, rfl⟩ := Prod.mk.inj (Except.ok.inj worked)
    obtain ⟨⟨kept, leaves⟩, established⟩ := works files bytes sound held present
    exact ⟨kept, leaves, established⟩

/-- An object that occurs is valid as a publish looks it up exactly when it has the published bytes. -/
theorem isValid_iff (distinct : cache.Distinguishes occurring) {files : ArtifactFiles}
    (sound : files.Sound cache occurring untouched) {bytes : List UInt8} (occurs : bytes ∈ occurring)
    {object : String} {size : UInt64} (sized : sizeOf64 bytes = size) :
    ((files.objects.get? (cache.digest bytes).text).any fun found =>
        (validateObject cache object (cache.digest bytes) size found).isOk) = true ↔
      files.objects.get? (cache.digest bytes).text = some bytes := by
  constructor
  · intro valid
    obtain ⟨found, present, checked⟩ := (Option.any_eq_true _ _).mp valid
    obtain ⟨value, accepted⟩ := exists_of_isOk checked
    have same : sizeOf64 found = size ∧ (cache.digest found).text = (cache.digest bytes).text :=
      ensure_eq_ok.mp accepted
    have equal := distinct.eq_of_digest (sound.occurs _ _ present) occurs same.2
    rw [← equal] at present ⊢
    exact present
  · intro present
    have accepted : validateObject cache object (cache.digest bytes) size bytes = .ok () :=
      ensure_of ⟨sized, rfl⟩
    rw [present, Option.any_some, accepted]
    rfl

/-- The partial file may be put in the place of the object. -/
theorem published (distinct : cache.Distinguishes occurring) {bytes found : List UInt8}
    (occurs : bytes ∈ occurring) {partialPath : String} {files : ArtifactFiles}
    (sound : files.Sound cache occurring untouched)
    (held : files.asides.get? partialPath = some bytes)
    (present : files.asides.get? partialPath = some found) :
    let reached := ({ files with asides := files.asides.erase partialPath } :
      ArtifactFiles).putObject (cache.digest bytes) found
    (reached.Sound cache occurring untouched ∧ Leaves cache files reached) ∧
      reached.objects.get? (cache.digest bytes).text = some bytes := by
  obtain rfl := Option.some.inj (held.symm.trans present)
  obtain ⟨kept, leaves⟩ := (sound.aside (files.asides.erase partialPath)).putObject distinct occurs
  refine ⟨⟨kept, ⟨leaves.objects, leaves.metadata⟩⟩, ?_⟩
  simp only [ArtifactFiles.putObject, OrderedMap.get?_insert, if_true]

/-- An object that is damaged was touched. -/
theorem touched_of_invalid (distinct : cache.Distinguishes occurring) {bytes : List UInt8}
    (occurs : bytes ∈ occurring) {object : String} {size : UInt64} (sized : sizeOf64 bytes = size)
    {files : ArtifactFiles} (sound : files.Sound cache occurring untouched)
    (invalid : false = (files.objects.get? (cache.digest bytes).text).any fun found =>
      (validateObject cache object (cache.digest bytes) size found).isOk)
    (present : true = (files.objects.get? (cache.digest bytes).text).isSome) :
    ¬ untouched ∧ files.objects.get? (cache.digest bytes).text ≠ some bytes := by
  have differs : files.objects.get? (cache.digest bytes).text ≠ some bytes := by
    intro same
    rw [(isValid_iff distinct sound occurs sized).mpr same] at invalid
    cases invalid
  have touched : ¬ untouched := by
    intro free
    obtain ⟨found, there⟩ := Option.isSome_iff_exists.mp present.symm
    have equal := distinct.eq_of_digest (sound.occurs _ _ there) occurs
      (sound.intact free _ _ there)
    exact differs (equal ▸ there)
  exact ⟨touched, differs⟩

/-- The objects were touched, and what was set aside occurs. -/
def SetAside (occurring : Set (List UInt8)) (untouched : Prop) (corrupt : String)
    (files : ArtifactFiles) : Prop :=
  ¬ untouched ∧ ∀ found, files.asides.get? corrupt = some found → found ∈ occurring

/-- Restoring an object ends with an error, and harms no other. -/
theorem traces_restoreObject {object corrupt : String} {expected : Sha256Digest}
    {replacement : ArtifactCacheError} {post : Unit → ArtifactFiles → Prop} :
    Traces (ArtifactFiles.Sound cache occurring untouched) (SetAside occurring untouched corrupt)
      (restoreObject object corrupt expected replacement) (Leaves cache) post := by
  unfold restoreObject
  refine Traces.look.bind fun taken => ?_
  cases taken with
  | true => exact traces_check_error
  | false =>
    simp only [Bool.false_eq_true, if_false]
    have restored : Traces (ArtifactFiles.Sound cache occurring untouched)
        (fun files => false = (files.objects.get? expected.text).isSome ∧
          SetAside occurring untouched corrupt files)
        (tryPublish "restore" object corrupt expected) (Leaves cache) (fun _ _ => True) := by
      apply traces_tryPublish
      · exact fun _ _ _ _ => trivial
      · intro files found sound held present
        have free : files.objects.get? expected.text = none := by
          have none := held.1.symm
          rwa [Option.isSome_eq_false_iff, Option.isNone_iff_eq_none] at none
        obtain ⟨kept, leaves⟩ := (sound.aside (files.asides.erase corrupt)).restoreObject
          (held.2.2 found present) held.2.1 free
        exact ⟨⟨kept, ⟨leaves.objects, leaves.metadata⟩⟩, trivial⟩
    refine restored.bind fun result => ?_
    cases result with
    | error restore => exact traces_check_error
    | ok done => exact traces_check_error

/-- A damaged object is replaced. -/
theorem traces_replaceObject (distinct : cache.Distinguishes occurring) {bytes : List UInt8}
    (occurs : bytes ∈ occurring) {partialPath object corrupt : String}
    (apart : partialPath ≠ corrupt) :
    Traces (ArtifactFiles.Sound cache occurring untouched)
      (fun files => (¬ untouched ∧ files.objects.get? (cache.digest bytes).text ≠ some bytes) ∧
        files.asides.get? partialPath = some bytes)
      (replaceObject partialPath object corrupt (cache.digest bytes)) (Leaves cache)
      (fun _ files => files.objects.get? (cache.digest bytes).text = some bytes) := by
  unfold replaceObject
  have quarantined : Traces (ArtifactFiles.Sound cache occurring untouched)
      (fun files => (¬ untouched ∧ files.objects.get? (cache.digest bytes).text ≠ some bytes) ∧
        files.asides.get? partialPath = some bytes)
      (Faulty.trial (cacheIo "quarantine corrupt artifact object" object deviceFailure)
        (quarantineObject (cacheIo "quarantine corrupt artifact object" object missingFile)
          (cache.digest bytes) corrupt)) (Leaves cache)
      (fun result files => result = .ok () → SetAside occurring untouched corrupt files ∧
        files.asides.get? partialPath = some bytes) := by
    apply Traces.trial
    · intro files cause sound held failed
      cases failed
    · intro files value reached sound held worked
      unfold quarantineObject at worked
      split at worked
      · cases worked
      · next found present =>
        obtain ⟨-, rfl⟩ := Prod.mk.inj (Except.ok.inj worked)
        obtain ⟨kept, leaves⟩ := sound.eraseObject distinct occurs held.1.1 held.1.2
          (files.asides.insert corrupt found)
        refine ⟨kept, leaves, fun _ => ⟨⟨held.1.1, fun other aside => ?_⟩, ?_⟩⟩
        · rw [OrderedMap.get?_insert, if_pos rfl] at aside
          rw [← Option.some.inj aside]
          exact sound.occurs _ _ present
        · rw [OrderedMap.get?_insert, if_neg apart]
          exact held.2
  refine quarantined.bind fun result => ?_
  cases result with
  | error cause =>
    dsimp only
    exact (traces_discardAside _ fun files _ => ⟨trivial, trivial⟩).bind fun _ => traces_check_error
  | ok done =>
    dsimp only
    have replaced : Traces (ArtifactFiles.Sound cache occurring untouched)
        (fun files => SetAside occurring untouched corrupt files ∧
          files.asides.get? partialPath = some bytes)
        (tryPublish "publish replacement artifact object" object partialPath (cache.digest bytes))
        (Leaves cache)
        (fun result files =>
          (result = .ok () → files.objects.get? (cache.digest bytes).text = some bytes) ∧
            ((∃ cause, result = .error cause) → SetAside occurring untouched corrupt files)) := by
      apply traces_tryPublish
      · intro files cause sound held
        exact ⟨fun failed => (nomatch failed), fun _ => held.1⟩
      · intro files found sound held present
        obtain ⟨step, there⟩ := published distinct occurs sound held.2 present
        exact ⟨step, fun _ => there, fun ⟨_, failed⟩ => nomatch failed⟩
    refine (replaced.bind fun result => ?_).weaken (fun _ _ held => held rfl) fun _ _ _ held => held
    cases result with
    | ok done =>
      dsimp only
      have removed : Traces (ArtifactFiles.Sound cache occurring untouched)
          (fun files => files.objects.get? (cache.digest bytes).text = some bytes)
          (removeAside "remove quarantined corrupt artifact object" corrupt) (Leaves cache)
          (fun _ files => files.objects.get? (cache.digest bytes).text = some bytes) :=
        traces_removeAside _ _ fun _ held => held
      exact (removed.bind fun _ => traces_makeReadOnly _ _).weaken (fun _ _ held => held.1 rfl)
        fun _ _ _ held => held
    | error replacement =>
      dsimp only
      have dropped : Traces (ArtifactFiles.Sound cache occurring untouched)
          (SetAside occurring untouched corrupt) (discardAside partialPath) (Leaves cache)
          (fun _ => SetAside occurring untouched corrupt) := by
        apply traces_discardAside
        intro files held
        refine ⟨held, held.1, fun found aside => ?_⟩
        rw [OrderedMap.get?_erase, if_neg (Ne.symm apart)] at aside
        exact held.2 found aside
      exact (dropped.bind fun _ => traces_restoreObject).weaken (fun _ _ held => held.2 ⟨_, rfl⟩)
        fun _ _ _ held => held

/-- After a publish the object is there with the published bytes. -/
theorem traces_publishObjectWithFs (distinct : cache.Distinguishes occurring) {bytes : List UInt8}
    (occurs : bytes ∈ occurring) {partialPath object corrupt : String}
    (apart : partialPath ≠ corrupt) {size : UInt64} (sized : sizeOf64 bytes = size) :
    Traces (ArtifactFiles.Sound cache occurring untouched)
      (fun files => files.asides.get? partialPath = some bytes)
      (publishObjectWithFs cache partialPath object corrupt (cache.digest bytes) size)
      (Leaves cache)
      (fun _ files => files.objects.get? (cache.digest bytes).text = some bytes) := by
  unfold publishObjectWithFs
  refine Traces.look.bind fun present => ?_
  cases present with
  | false =>
    simp only [Bool.false_eq_true, if_false]
    have tried : Traces (ArtifactFiles.Sound cache occurring untouched)
        (fun files => false = (files.objects.get? (cache.digest bytes).text).isSome ∧
          files.asides.get? partialPath = some bytes)
        (tryPublish "publish artifact object" object partialPath (cache.digest bytes)) (Leaves cache)
        (fun result files => result = .ok () →
          files.objects.get? (cache.digest bytes).text = some bytes) := by
      apply traces_tryPublish
      · intro files cause sound held failed
        cases failed
      · intro files found sound held present
        obtain ⟨step, there⟩ := published distinct occurs sound held.2 present
        exact ⟨step, fun _ => there⟩
    refine tried.bind fun result => ?_
    cases result with
    | error cause =>
      dsimp only
      exact (traces_discardAside _ fun files _ => ⟨trivial, trivial⟩).bind fun _ => traces_check_error
    | ok done =>
      dsimp only
      exact (traces_makeReadOnly _ _).weaken (fun _ _ held => held rfl) fun _ _ _ held => held
  | true =>
    simp only [if_true]
    refine Traces.look.bind fun valid => ?_
    cases valid with
    | true =>
      simp only [if_true]
      have lost : Traces (ArtifactFiles.Sound cache occurring untouched)
          (fun files => files.objects.get? (cache.digest bytes).text = some bytes)
          (removeAside "remove losing partial" partialPath) (Leaves cache)
          (fun _ files => files.objects.get? (cache.digest bytes).text = some bytes) :=
        traces_removeAside _ _ fun _ held => held
      apply (lost.bind fun _ => traces_makeReadOnly _ _).weaken _ fun _ _ _ held => held
      intro files sound held
      exact (isValid_iff distinct sound occurs sized).mp held.1.symm
    | false =>
      simp only [Bool.false_eq_true, if_false]
      apply (traces_replaceObject distinct occurs apart).weaken _ fun _ _ _ held => held
      intro files sound held
      exact ⟨touched_of_invalid distinct occurs sized sound held.1 held.2.1, held.2.2⟩

end Steps

end Rsolve
