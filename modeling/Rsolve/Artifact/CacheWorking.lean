import Rsolve.Artifact.CacheHits

/-!
# Calls on the cache in which the operations work

Where a record and its object are there, a lookup finds them. Where there is no record, a commit whose
stream is what is declared and expected puts the object in its place, whatever was there before, and
records it.
-/
open Checked Framing Keyed Ordered Streams Faults

namespace Rsolve

variable {cache : ArtifactCache} {occurring : Set (List UInt8)} {untouched : Prop}
  {files : ArtifactFiles} {artifact : SourceArtifact} {checksums : Checksums}
  {expectation : Option ArtifactValidationExpectation} {size : UInt64} {bytes : List UInt8}
  {lookups : List Fate}

/-- A file operation that changes nothing works. -/
theorem works_handle {operation path : String} :
    Works (handle operation path) files lookups () files lookups :=
  .operate rfl

/-- What is there is read. -/
theorem works_contentOf {operation path : String} {find : ArtifactFiles → Option (List UInt8)}
    (present : find files = some bytes) :
    Works (contentOf operation path find) files lookups bytes files lookups := by
  apply Works.operate
  simp only [present]

/-- A check of a condition that holds passes. -/
theorem works_check_ensure {condition : Prop} [Decidable condition] {cause : ArtifactCacheError}
    (holds : condition) :
    Works (Faulty.check (ensure condition cause) : CacheProgram Unit) files lookups () files
      lookups :=
  .check (ensure_of holds)

/-- The size of bytes within 64 bits. -/
theorem sizeOf64_eq (sized : bytes.length = size.toNat) : sizeOf64 bytes = size := by
  apply UInt64.toNat_inj.mp
  have bound := size.toNat_lt
  rw [sizeOf64, toNat_saturatingAdd, UInt64.toNat_zero]
  omega

/-- An object that is there can be made read-only. -/
theorem works_makeReadOnly {path : String} {digest : Sha256Digest}
    (present : (files.objects.get? digest.text).isSome = true) :
    Works (makeReadOnly path digest) files lookups () files lookups := by
  have inspected : Works (Faulty.operate (cacheIo "inspect published object" path deviceFailure)
      fun files : ArtifactFiles =>
        if (files.objects.get? digest.text).isSome then .ok ((), files)
        else .error (cacheIo "inspect published object" path missingFile)) files lookups () files
      lookups :=
    Works.operate (if_pos present)
  exact inspected.bind works_handle

section Hits

/-- A record that is there is read. -/
theorem works_readMetadata (stores : cache.Stores)
    (filed : files.Files cache occurring artifact checksums expectation size bytes) (path : String) :
    Works (readMetadata cache path (cache.key artifact checksums expectation)) files lookups
      (metadataOf cache (cache.key artifact checksums expectation) checksums size bytes) files
      lookups := by
  obtain ⟨owner, claimed, text, present, records, -⟩ := filed
  unfold readMetadata
  exact (works_contentOf present).bind ((works_check_ensure (stores.texts _ _ records.stored)).bind
    (.check (parseMetadata_of_records stores records path)))

/-- What is recorded and there is found. -/
theorem works_loadHit (stores : cache.Stores)
    (filed : files.Files cache occurring artifact checksums expectation size bytes)
    (there : files.objects.get? (cache.digest bytes).text = some bytes) :
    Works (loadHit cache (CachePaths.new cache.root (cache.key artifact checksums expectation))
      (cache.key artifact checksums expectation) artifact checksums) files []
      (some (cachedArtifact (CachePaths.new cache.root (cache.key artifact checksums expectation))
        (metadataOf cache (cache.key artifact checksums expectation) checksums size bytes)))
      files [] := by
  have whole := filed
  obtain ⟨owner, claimed, text, present, records, accepts⟩ := filed
  have recorded : (files.metadata.get? (cache.key artifact checksums expectation)).isSome = true := by
    rw [present]
    rfl
  have declared : artifact.size.all (size = ·) = true ∧ artifact.size.getD size = size := by
    have agrees := accepts.declared
    cases same : artifact.size with
    | none => exact ⟨rfl, rfl⟩
    | some other =>
      rw [same, Option.all_some, decide_eq_true_eq] at agrees
      exact ⟨decide_eq_true agrees.symm, agrees⟩
  have checked : validateObjectFull cache ((CachePaths.new cache.root
      (cache.key artifact checksums expectation)).object (cache.digest bytes)) (cache.digest bytes)
      checksums (artifact.size.getD size) bytes = .ok () := by
    have sized : sizeOf64 bytes = artifact.size.getD size :=
      (sizeOf64_eq accepts.sized).trans declared.2.symm
    simp only [validateObjectFull, bind_eq_ok, ensure_eq_ok]
    exact ⟨(), sized, (), trivial, (), accepts.sha256, accepts.md5⟩
  have object : (files.objects.get? (cache.digest bytes).text).isSome = true := by
    rw [there]
    rfl
  unfold loadHit
  refine Works.bind Works.look ?_
  rw [if_pos recorded]
  refine Works.bind (works_readMetadata stores whole _) ?_
  refine Works.bind (works_check_ensure ⟨rfl, rfl, rfl⟩) ?_
  refine Works.bind (works_check_ensure declared.1) ?_
  refine (works_contentOf there).bind ?_
  refine works_handle.bind ((Works.check checked).bind ?_)
  exact (works_makeReadOnly object).bind .pure

/-- The files of a descriptor can be locked. -/
theorem works_lock {α : Type} {key : String} {paths : CachePaths} {program : CacheProgram α}
    {value : α} {reached : ArtifactFiles} (works : Works program files [] value reached []) :
    Works (do
      createCacheDirectories cache.root key paths
      lockArtifact paths
      program) files [] value reached [] := by
  have prepared : Works (createCacheDirectories cache.root key paths) files [] () files [] :=
    works_handle.bind (works_handle.bind works_handle)
  have locked : Works (lockArtifact paths) files [] () files [] := works_handle.bind works_handle
  exact prepared.bind (locked.bind works)

end Hits

section Commits

/-- A file beside the objects and records is created. -/
theorem works_createAside {operation path : String} (absent : files.asides.get? path = none) :
    Works (createAside operation path) files lookups ()
      { files with asides := files.asides.insert path [] } lookups := by
  apply Works.operate
  rw [absent]
  rfl

/-- A file beside the objects and records is removed. -/
theorem works_removeAside {operation path : String} {found : List UInt8}
    (present : files.asides.get? path = some found) :
    Works (removeAside operation path) files lookups ()
      { files with asides := files.asides.erase path } lookups := by
  apply Works.operate
  rw [present]
  rfl

/-- A file beside the objects and records is renamed. -/
theorem renameAside_eq_ok {broken : ArtifactCacheError} {path : String} {found : List UInt8}
    {put : ArtifactFiles → List UInt8 → ArtifactFiles}
    (present : files.asides.get? path = some found) :
    renameAside broken path put files =
      .ok ((), put { files with asides := files.asides.erase path } found) := by
  rw [renameAside, present]

/-- A file beside the objects is put in the place of an object. -/
theorem works_tryPublish {operation object path : String} {digest : Sha256Digest}
    {found : List UInt8} (present : files.asides.get? path = some found) :
    Works (tryPublish operation object path digest) files lookups (.ok ())
      (({ files with asides := files.asides.erase path } : ArtifactFiles).putObject digest found)
      lookups :=
  .trial (renameAside_eq_ok present)

/-- An object that was put in its place is there. -/
theorem isSome_insert (objects : OrderedMap String (List UInt8)) (digest : String)
    (found : List UInt8) : ((objects.insert digest found).get? digest).isSome = true := by
  rw [OrderedMap.get?_insert, if_pos rfl]
  rfl

/-- What is erased, and what was not there, is not there. -/
theorem erased_eq_none {asides : OrderedMap String (List UInt8)} {erased path : String}
    (absent : asides.get? path = none ∨ path = erased) :
    (asides.erase erased).get? path = none := by
  rw [OrderedMap.get?_erase]
  by_cases same : path = erased
  · rw [if_pos same]
  · rw [if_neg same]
    exact absent.resolve_right same

/-- A damaged object is replaced by a partial file. -/
theorem works_replaceObject {partialPath object corrupt : String} (apart : partialPath ≠ corrupt)
    {digest : Sha256Digest} {found : List UInt8}
    (held : files.asides.get? partialPath = some bytes)
    (present : files.objects.get? digest.text = some found) :
    Works (replaceObject partialPath object corrupt digest) files lookups ()
      ⟨(files.objects.erase digest.text).insert digest.text bytes, files.metadata,
        ((files.asides.insert corrupt found).erase partialPath).erase corrupt⟩ lookups := by
  have quarantined : Works (Faulty.trial
      (cacheIo "quarantine corrupt artifact object" object deviceFailure)
      (quarantineObject (cacheIo "quarantine corrupt artifact object" object missingFile) digest
        corrupt)) files lookups (.ok ())
      ⟨files.objects.erase digest.text, files.metadata, files.asides.insert corrupt found⟩
      lookups := by
    apply Works.trial
    rw [quarantineObject, present]
  have still : (files.asides.insert corrupt found).get? partialPath = some bytes := by
    rw [OrderedMap.get?_insert, if_neg apart]
    exact held
  have aside : ((files.asides.insert corrupt found).erase partialPath).get? corrupt = some found := by
    rw [OrderedMap.get?_erase, if_neg (Ne.symm apart), OrderedMap.get?_insert, if_pos rfl]
  have replaced : Works (tryPublish "publish replacement artifact object" object partialPath digest)
      (⟨files.objects.erase digest.text, files.metadata, files.asides.insert corrupt found⟩ :
        ArtifactFiles) lookups (.ok ())
      ⟨(files.objects.erase digest.text).insert digest.text bytes, files.metadata,
        (files.asides.insert corrupt found).erase partialPath⟩ lookups := works_tryPublish still
  have removed : Works (removeAside "remove quarantined corrupt artifact object" corrupt)
      (⟨(files.objects.erase digest.text).insert digest.text bytes, files.metadata,
        (files.asides.insert corrupt found).erase partialPath⟩ : ArtifactFiles) lookups ()
      ⟨(files.objects.erase digest.text).insert digest.text bytes, files.metadata,
        ((files.asides.insert corrupt found).erase partialPath).erase corrupt⟩ lookups :=
    works_removeAside aside
  exact quarantined.bind (replaced.bind (removed.bind (works_makeReadOnly (isSome_insert _ _ _))))

/-- A partial file is put in the place of its object, whatever was there. -/
theorem works_publishObjectWithFs {partialPath object corrupt : String}
    (apart : partialPath ≠ corrupt) {digest : Sha256Digest}
    (held : files.asides.get? partialPath = some bytes) :
    ∃ reached, Works (publishObjectWithFs cache partialPath object corrupt digest size)
        files [] () reached [] ∧ reached.metadata = files.metadata ∧
      ∀ path, files.asides.get? path = none ∨ path = partialPath →
        reached.asides.get? path = none := by
  unfold publishObjectWithFs
  cases present : files.objects.get? digest.text with
  | none =>
    refine ⟨({ files with asides := files.asides.erase partialPath } : ArtifactFiles).putObject digest
      bytes, ?_, rfl, fun path absent => erased_eq_none absent⟩
    apply Works.bind Works.look
    rw [present]
    simp only [Option.isSome_none, Bool.false_eq_true, if_false]
    exact (works_tryPublish held).bind (works_makeReadOnly (isSome_insert _ _ _))
  | some found =>
    by_cases valid : (validateObject cache object digest size found).isOk = true
    · refine ⟨{ files with asides := files.asides.erase partialPath }, ?_, rfl,
        fun path absent => erased_eq_none absent⟩
      apply Works.bind Works.look
      rw [present, Option.isSome_some, if_pos rfl]
      apply Works.bind Works.look
      rw [present, Option.any_some, if_pos valid]
      have there : (files.objects.get? digest.text).isSome = true := by
        rw [present]
        rfl
      exact (works_removeAside held).bind (works_makeReadOnly there)
    · refine ⟨⟨(files.objects.erase digest.text).insert digest.text bytes, files.metadata,
        ((files.asides.insert corrupt found).erase partialPath).erase corrupt⟩, ?_, rfl,
        fun path absent => ?_⟩
      · apply Works.bind Works.look
        rw [present, Option.isSome_some, if_pos rfl]
        apply Works.bind Works.look
        rw [present, Option.any_some, if_neg valid]
        exact works_replaceObject apart held present
      · by_cases same : path = corrupt
        · exact erased_eq_none (.inr same)
        · refine erased_eq_none (.inl (erased_eq_none ?_))
          rw [OrderedMap.get?_insert, if_neg same]
          exact absent

/-- A partial file is installed. -/
theorem works_installPartial {paths : CachePaths} {partialPath : String}
    {environment : CommitEnvironment} {digest : Sha256Digest}
    (held : files.asides.get? partialPath = some bytes) :
    ∃ reached, Works (installPartial cache paths partialPath environment digest size) files [] ()
        reached [] ∧ reached.metadata = files.metadata ∧
      ∀ path, files.asides.get? path = none ∨ path = partialPath →
        reached.asides.get? path = none := by
  let finalPartial := paths.objectShard digest ++ "/.partial." ++ environment.finalNonce
  have moved : Works (Faulty.operate
      (cacheIo "move partial into object shard" finalPartial deviceFailure)
      (renameAside (cacheIo "move partial into object shard" finalPartial missingFile) partialPath
        (.putAside finalPartial))) files [] ()
      (({ files with asides := files.asides.erase partialPath } : ArtifactFiles).putAside finalPartial
        bytes) [] :=
    .operate (renameAside_eq_ok held)
  have placed : (({ files with asides := files.asides.erase partialPath } : ArtifactFiles).putAside
      finalPartial bytes).asides.get? finalPartial = some bytes := by
    simp only [ArtifactFiles.putAside, OrderedMap.get?_insert, if_true]
  obtain ⟨reached, published, metadata, asides⟩ := @works_publishObjectWithFs cache _ size bytes
    finalPartial (paths.object digest) _ (partial_ne_corrupt (paths.objectShard digest) digest.text
      environment.finalNonce environment.corruptNonce) digest placed
  refine ⟨reached, ?_, metadata, fun path absent => asides path ?_⟩
  · unfold installPartial
    refine works_handle.bind (works_handle.bind (works_handle.bind (works_handle.bind ?_)))
    exact moved.bind ((Works.recovering (works_handle.bind published)).bind works_handle)
  · by_cases same : path = finalPartial
    · exact .inr same
    · refine .inl ?_
      simp only [ArtifactFiles.putAside, OrderedMap.get?_insert, if_neg same]
      exact erased_eq_none absent

/-- A record is put in its place. -/
theorem works_commitMetadata {path key nonce : String} {metadata : Metadata} {encoded : List UInt8}
    (encodes : cache.metadataJson.toVec metadata.file = .ok encoded)
    (absent : files.asides.get? (path ++ ".tmp." ++ nonce) = none) :
    ∃ reached, Works (commitMetadata cache path key nonce metadata) files lookups () reached
      lookups := by
  let temp := path ++ ".tmp." ++ nonce
  let asides := (files.asides.insert temp []).insert temp encoded
  have written : asides.get? temp = some encoded := by
    rw [OrderedMap.get?_insert, if_pos rfl]
  have renamed : Works (Faulty.operate (cacheIo "commit artifact metadata" path deviceFailure)
      (renameAside (cacheIo "commit artifact metadata" path missingFile) temp (.putMetadata key)))
      ({ files with asides := asides } : ArtifactFiles) lookups ()
      (({ files with asides := asides.erase temp } : ArtifactFiles).putMetadata key encoded)
      lookups :=
    .operate (renameAside_eq_ok written)
  have encoding : (cache.metadataJson.toVec metadata.file).mapError
      (ArtifactCacheError.invalidMetadata temp) = .ok encoded := by
    rw [encodes, mapError_ok]
  exact ⟨_, (works_createAside absent).bind ((Works.check encoding).bind (Works.recovering
    ((Works.operate rfl).bind (works_handle.bind (renamed.bind works_handle)))))⟩

/-- An archive holds what is expected under any path. -/
theorem ArtifactCache.Validates.path (validates : cache.Validates expectation bytes)
    (path : String) : validateSourceArchive cache.ip cache.utf8Error path expectation
      (.ok (cache.archive bytes)) = .ok () := by
  obtain ⟨other, accepted⟩ := validates
  simp only [validateSourceArchive, mapError_ok, ok_bind] at accepted ⊢
  exact accepted

/-- A stream that is what is declared and expected is copied. -/
theorem works_copyPartial {partialPath : String} {environment : CommitEnvironment}
    (copies : (copyStream artifact environment partialPath).1 = .ok size)
    (copied : (copyStream artifact environment partialPath).2.sha256 = bytes)
    (accepts : cache.Accepts artifact checksums expectation size bytes)
    (absent : files.asides.get? partialPath = none) :
    Works (copyPartial cache artifact checksums partialPath environment expectation) files lookups
      (bytes, size)
      { files with asides := (files.asides.insert partialPath []).insert partialPath bytes }
      lookups := by
  have faithful := (faithful_of_copyStream copies).1
  unfold copyPartial
  refine (works_createAside absent).bind ?_
  rcases outcome : copyStream artifact environment partialPath with ⟨result, copy⟩
  rw [outcome] at copies copied faithful
  subst copied
  dsimp only at copies faithful ⊢
  rw [copies, faithful.written]
  have present : ((files.asides.insert partialPath []).insert partialPath copy.sha256).get?
      partialPath = some copy.sha256 := by
    rw [OrderedMap.get?_insert, if_pos rfl]
  have sanity : (validateSourceArchive cache.ip cache.utf8Error partialPath expectation
      (.ok (cache.archive copy.sha256))).mapError ArtifactCacheError.artifact = .ok () := by
    rw [accepts.validates.path, mapError_ok]
  have md5 : matchMd5 cache checksums copy.md5 = .ok () := by
    rw [faithful.hashed]
    exact accepts.md5
  refine Works.bind (Works.operate rfl) ?_
  refine Works.bind (Works.check (mapError_ok _ _)) (works_handle.bind ?_)
  refine Works.bind (works_check_ensure accepts.declared) ?_
  refine Works.bind (Works.check accepts.sha256) (Works.bind (Works.check md5) ?_)
  exact (works_contentOf present).bind ((Works.check sanity).bind .pure)

/-- A commit of a descriptor that has no record puts a matching stream in the place of its object and
records it. -/
theorem works_commitMiss {partialPath : String} {environment : CommitEnvironment}
    {encoded : List UInt8}
    (copies : (copyStream artifact environment partialPath).1 = .ok size)
    (copied : (copyStream artifact environment partialPath).2.sha256 = bytes)
    (accepts : cache.Accepts artifact checksums expectation size bytes)
    (encodes : cache.metadataJson.toVec (metadataOf cache (cache.key artifact checksums expectation)
      checksums size bytes).file = .ok encoded)
    (absent : files.asides.get? partialPath = none)
    (fresh : files.asides.get? ((CachePaths.new cache.root
      (cache.key artifact checksums expectation)).metadata ++ ".tmp." ++ environment.metadataNonce) =
        none) :
    ∃ reached, Works (commitMiss cache (CachePaths.new cache.root
        (cache.key artifact checksums expectation)) artifact checksums
        (cache.key artifact checksums expectation) partialPath environment expectation) files []
      (cachedArtifact (CachePaths.new cache.root (cache.key artifact checksums expectation))
        (metadataOf cache (cache.key artifact checksums expectation) checksums size bytes))
      reached [] := by
  have present : ((files.asides.insert partialPath []).insert partialPath bytes).get? partialPath =
      some bytes := by
    rw [OrderedMap.get?_insert, if_pos rfl]
  obtain ⟨installed, installs, -, asides⟩ := @works_installPartial cache
    { files with asides := (files.asides.insert partialPath []).insert partialPath bytes } size bytes
    (CachePaths.new cache.root (cache.key artifact checksums expectation)) partialPath environment
    (cache.digest bytes) present
  have free : installed.asides.get? ((CachePaths.new cache.root
      (cache.key artifact checksums expectation)).metadata ++ ".tmp." ++ environment.metadataNonce) =
        none := by
    apply asides
    by_cases same : (CachePaths.new cache.root (cache.key artifact checksums expectation)).metadata ++
        ".tmp." ++ environment.metadataNonce = partialPath
    · exact .inr same
    · refine .inl ?_
      rw [OrderedMap.get?_insert, if_neg same, OrderedMap.get?_insert, if_neg same]
      exact fresh
  obtain ⟨reached, recorded⟩ := @works_commitMetadata cache installed [] (CachePaths.new cache.root
    (cache.key artifact checksums expectation)).metadata (cache.key artifact checksums expectation)
    environment.metadataNonce _ encoded encodes free
  exact ⟨reached, (works_copyPartial copies copied accepts absent).bind
    (installs.bind (recorded.bind .pure))⟩

/-- Where there is no record, nothing is found. -/
theorem works_loadHit_absent {paths : CachePaths} {key : String}
    (absent : files.metadata.get? key = none) :
    Works (loadHit cache paths key artifact checksums) files [] none files [] := by
  unfold loadHit
  apply Works.bind Works.look
  rw [absent]
  exact .pure

/-- A commit of a descriptor that has no record commits a stream that is what is declared and
expected. -/
theorem works_commit (valid : validateChecksums artifact.upstreamChecksums = .ok checksums)
    (missing : files.metadata.get? (cache.key artifact checksums expectation) = none)
    {environment : CommitEnvironment} {encoded : List UInt8}
    (copies : (copyStream artifact environment (partialPathOf (CachePaths.new cache.root
      (cache.key artifact checksums expectation)) environment)).1 = .ok size)
    (copied : (copyStream artifact environment (partialPathOf (CachePaths.new cache.root
      (cache.key artifact checksums expectation)) environment)).2.sha256 = bytes)
    (accepts : cache.Accepts artifact checksums expectation size bytes)
    (encodes : cache.metadataJson.toVec (metadataOf cache (cache.key artifact checksums expectation)
      checksums size bytes).file = .ok encoded)
    (unused : files.asides.get? (partialPathOf (CachePaths.new cache.root
      (cache.key artifact checksums expectation)) environment) = none)
    (fresh : files.asides.get? ((CachePaths.new cache.root
      (cache.key artifact checksums expectation)).metadata ++ ".tmp." ++ environment.metadataNonce) =
        none) :
    ∃ reached, Works (commitArtifactWithFsAndExpectation cache artifact expectation environment) files
      [] (cachedArtifact (CachePaths.new cache.root (cache.key artifact checksums expectation))
        (metadataOf cache (cache.key artifact checksums expectation) checksums size bytes))
      reached [] := by
  obtain ⟨reached, missed⟩ := works_commitMiss copies copied accepts encodes unused fresh
  exact ⟨reached, (Works.check valid).bind
    (works_lock ((works_loadHit_absent missing).bind (.recovering missed)))⟩

end Commits

end Rsolve
