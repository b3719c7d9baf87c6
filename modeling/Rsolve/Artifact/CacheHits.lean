import Rsolve.Artifact.CacheSteps

/-!
# What a hit of the cache says

A call that returns a cached artifact names an object that is there with bytes of the returned digest
and size. They match what the artifact declares, and they are an archive of what is expected of it.
-/
open Checked Framing Keyed Ordered Streams Faults

namespace Rsolve

section Copying

variable {reader : Reader String Nat} {writer : Streams.Writer String (List UInt8)}
  {expected : Option UInt64} {hardLimit total : UInt64} {path : String}

/-- What was written was hashed by both digests, and it has the size. -/
structure CopyState.Faithful (size : UInt64) (state : CopyState Nat (List UInt8)) : Prop where
  written : state.output = state.sha256
  hashed : state.md5 = state.sha256
  sized : state.sha256.length = size.toNat

/-- A copy that succeeds has written and hashed the same bytes, however the reads and writes go. -/
theorem faithful_of_copyLoop (appends : Appends writer) {size : UInt64}
    {state : CopyState Nat (List UInt8)} (within : size ≤ expected.getD hardLimit)
    (faithful : state.Faithful size)
    (succeeded : (copyLoop reader writer expected hardLimit path size state).1 = .ok total) :
    (copyLoop reader writer expected hardLimit path size state).2.Faithful total ∧
      expected.all (· = total) = true := by
  -- Every piece below the limit brings the copy closer to it.
  induction distance : (expected.getD hardLimit).toNat - size.toNat using Nat.strongRecOn
    generalizing size state with
  | ind distance ih =>
    obtain ⟨-, -, below⟩ := copyCapacity_spec (expected.getD hardLimit) size
    rw [copyLoop] at succeeded ⊢
    rcases read : reader.read state.input (copyCapacity (expected.getD hardLimit) size).toNat with
      ⟨outcome, input⟩
    cases outcome with
    | error source =>
      simp only [read] at succeeded
      cases succeeded
    | ok bytes =>
      have bounded := reader.bounded read
      simp only [read] at succeeded ⊢
      by_cases nothing : bytes.length = 0
      · simp only [nothing, if_true] at succeeded ⊢
        cases expected with
        | none =>
          obtain rfl := Except.ok.inj succeeded
          exact ⟨⟨faithful.written, faithful.hashed, faithful.sized⟩, rfl⟩
        | some declared =>
          simp only [copyEnd] at succeeded
          split at succeeded
          · cases succeeded
          · next same =>
            obtain rfl := Except.ok.inj succeeded
            have equal : size = declared := Decidable.not_not.mp same
            refine ⟨⟨faithful.written, faithful.hashed, faithful.sized⟩, ?_⟩
            rw [Option.all_some, decide_eq_true_eq, equal]
      · simp only [nothing, if_false] at succeeded ⊢
        rcases wrote : writer.writeAll state.output bytes with ⟨outcome, output⟩
        cases outcome with
        | error source =>
          simp only [wrote] at succeeded
          cases succeeded
        | ok done =>
          simp only [wrote] at succeeded ⊢
          by_cases reached : expected.getD hardLimit ≤ size
          · simp only [reached, if_true] at succeeded
            cases succeeded
          · simp only [reached, if_false] at succeeded ⊢
            have fits := below reached
            have grows := lt_saturatingAdd reached nothing
            have bound := (expected.getD hardLimit).toNat_lt
            have grown : (saturatingAdd size bytes.length).toNat = size.toNat + bytes.length := by
              rw [toNat_saturatingAdd]
              omega
            rw [UInt64.le_iff_toNat_le] at reached
            refine ih _ (by omega) ?_ ⟨?_, ?_, ?_⟩ succeeded rfl
            · rw [UInt64.le_iff_toNat_le]
              omega
            · exact (appends _ _ _ wrote).trans (congrArg (· ++ bytes) faithful.written)
            · exact congrArg (· ++ bytes) faithful.hashed
            · rw [List.length_append, faithful.sized, grown]

/-- The copy of a stream that succeeds has written and hashed the same bytes. -/
theorem faithful_of_copyStream {artifact : SourceArtifact} {environment : CommitEnvironment}
    (succeeded : (copyStream artifact environment path).1 = .ok total) :
    (copyStream artifact environment path).2.Faithful total ∧
      artifact.size.all (· = total) = true :=
  faithful_of_copyLoop environment.appends (UInt64.le_iff_toNat_le.mpr (Nat.zero_le _))
    ⟨rfl, rfl, rfl⟩ succeeded

end Copying

section Expectations

variable {cache : ArtifactCache} {left right : ArtifactValidationExpectation}

/-- The entries of an archive are checked by the expected package only. -/
theorem validateEntries_congr {utf8Error : List UInt8 → String} (packages : left.package = right.package)
    (state : ArchiveState) (index : Nat) (entries : List (Except String TarEntry)) :
    validateEntries utf8Error (some left) state index entries =
      validateEntries utf8Error (some right) state index entries := by
  induction entries generalizing state index with
  | nil => rfl
  | cons entry rest ih =>
    have first : validateEntry utf8Error (some left) state index entry =
        validateEntry utf8Error (some right) state index entry := by
      simp only [validateEntry, readEntry, Option.any_some, packages]
    simp only [validateEntries, first, ih]

/-- Fields that match an expectation match the same expectation. -/
theorem DescriptionFields.Match.congr {ip : IpAddrs} {fields : DescriptionFields}
    (same : Same left right) (matched : fields.Match ip left) : fields.Match ip right := by
  obtain ⟨packages, versions, provenances⟩ := ArtifactValidationExpectation.same_iff.mp same
  obtain ⟨version, parsed, compared⟩ := matched.version
  have equal : version.cmp right.version = .eq :=
    RPackageVersion.cmp_eq_iff_same.mpr ((RPackageVersion.cmp_eq_iff_same.mp compared).trans versions)
  exact ⟨packages ▸ matched.package, ⟨version, parsed, equal⟩,
    fun git provenance => matched.git git (provenances.trans provenance),
    fun provenance => matched.registry (provenances.trans provenance)⟩

/-- An archive of what is expected is one of the same expectation. -/
theorem ArtifactCache.Validates.congr {leftExpectation rightExpectation :
    Option ArtifactValidationExpectation} {bytes : List UInt8}
    (same : Same leftExpectation rightExpectation)
    (validates : cache.Validates leftExpectation bytes) : cache.Validates rightExpectation bytes := by
  obtain ⟨path, accepted⟩ := validates
  cases leftExpectation with
  | none =>
    cases rightExpectation with
    | none => exact ⟨path, accepted⟩
    | some expectation => exact nomatch same
  | some expectation =>
    cases rightExpectation with
    | none => exact nomatch same
    | some other =>
      have expectations := same_some.mp same
      have packages := (ArtifactValidationExpectation.same_iff.mp expectations).1
      refine ⟨path, ?_⟩
      simp only [validateSourceArchive, bind_eq_ok, validateEntries_congr packages] at accepted ⊢
      obtain ⟨archive, opened, entries, listed, state, looped, done, counted, fields, found,
        matched⟩ := accepted
      have again := (validateDescription_eq_ok.mp matched).congr expectations
      exact ⟨archive, opened, entries, listed, state, looped, done, counted, fields, found,
        validateDescription_eq_ok.mpr again⟩

end Expectations

section Recording

variable {cache : ArtifactCache} {occurring : Set (List UInt8)} {untouched : Prop}
  {artifact other : SourceArtifact} {checksums otherChecksums : Checksums}
  {expectation otherExpectation : Option ArtifactValidationExpectation} {key : String}
  {size : UInt64} {bytes text : List UInt8}

/-- What was recorded for a descriptor is what every descriptor with its key asks for. -/
theorem ArtifactCache.Records.accepted (distinct : cache.Distinguishes occurring)
    (records : cache.Records occurring key artifact checksums expectation size bytes text)
    (valid : validateChecksums other.upstreamChecksums = .ok otherChecksums)
    (hashed : descriptorPreimage other otherChecksums otherExpectation ∈ occurring)
    (keyed : key = cache.key other otherChecksums otherExpectation) :
    checksums = otherChecksums ∧ cache.Accepts other otherChecksums otherExpectation size bytes := by
  have vectors : cache.sha256 (descriptorPreimage artifact checksums expectation) =
      cache.sha256 (descriptorPreimage other otherChecksums otherExpectation) :=
    Vector.toList_inj.mp (hex_injective (records.keyed.symm.trans keyed))
  have preimages := distinct.injective records.hashed hashed vectors
  obtain ⟨⟨-, digests, sizes⟩, expectations⟩ := descriptorPreimage_inj records.valid valid
    (distinct.fits _ records.hashed) (distinct.fits _ hashed) preimages
  obtain ⟨sized, declared, sha256, md5, validates⟩ := records.accepts
  subst digests
  exact ⟨rfl, sized, sizes ▸ declared, sha256, md5, validates.congr expectations⟩

/-- A digest that was read is stored as itself. -/
theorem md5_stored {values : List UpstreamChecksum}
    (valid : validateChecksums values = .ok checksums) {md5 : String}
    (present : checksums.md5 = some md5) :
    validateMd5 md5 = .ok () ∧ toAsciiLowercase md5 = md5 := by
  obtain ⟨agree, declared, -⟩ := validateChecksums_eq_ok.mp valid
  rw [present] at declared
  have found : ∃ text, UpstreamChecksum.md5 text ∈ values := by simpa using declared
  obtain ⟨text, member⟩ := found
  obtain ⟨checked, same⟩ := agree _ member
  have shape : byteLength text = 32 ∧ text.toList.all isHexDigit = true := by
    simpa only [validateMd5, ensure_eq_ok] using checked
  obtain rfl : md5 = toAsciiLowercase text := Option.some.inj (present.symm.trans same)
  refine ⟨ensure_of ⟨?_, all_isHexDigit_toAsciiLowercase shape.2⟩, toAsciiLowercase_idem shape.2⟩
  rw [byteLength_toAsciiLowercase shape.2]
  exact shape.1

/-- Renaming errors keeps a value. -/
theorem mapError_ok {ε δ α : Type} (rename : ε → δ) (value : α) :
    (Except.ok value : Except ε α).mapError rename = .ok value := rfl

/-- The record of an artifact is read back. -/
theorem parseMetadata_of_records (stores : cache.Stores)
    (records : cache.Records occurring key artifact checksums expectation size bytes text)
    (path : String) :
    parseMetadata cache path text = .ok (metadataOf cache key checksums size bytes) := by
  have stored := stores.readsBack _ _ records.stored
  have upstream : checksums.md5.forM validateMd5 = .ok () := by
    cases present : checksums.md5 with
    | none => rfl
    | some md5 => exact (md5_stored records.valid present).1
  have lower : checksums.md5.map toAsciiLowercase = checksums.md5 := by
    cases present : checksums.md5 with
    | none => rfl
    | some md5 => exact congrArg some (md5_stored records.valid present).2
  have digests : (checksums.sha256.map Sha256Digest.text).mapM (fun value =>
      (Sha256Digest.new value).mapError fun _ =>
        ArtifactCacheError.invalidMetadata path "invalid upstream SHA-256") =
      .ok checksums.sha256 := by
    cases checksums.sha256 with
    | none => rfl
    | some digest =>
      simp only [Option.map_some, Option.mapM_some, Sha256Digest.new_text]
      rfl
  simp only [parseMetadata, stored, Metadata.file, metadataOf, Sha256Digest.new_text, upstream, lower,
    digests, mapError_ok, ok_bind, ensure_of]
  rfl

/-- The record under a key is of bytes that a descriptor asks for. -/
def ArtifactFiles.Files (cache : ArtifactCache) (occurring : Set (List UInt8))
    (artifact : SourceArtifact) (checksums : Checksums)
    (expectation : Option ArtifactValidationExpectation) (size : UInt64) (bytes : List UInt8)
    (files : ArtifactFiles) : Prop :=
  ∃ owner claimed text,
    files.metadata.get? (cache.key artifact checksums expectation) = some text ∧
      cache.Records occurring (cache.key artifact checksums expectation) owner checksums claimed size
        bytes text ∧ cache.Accepts artifact checksums expectation size bytes

/-- What is found for a descriptor: the object that its record names. -/
def CacheHit.Found (cache : ArtifactCache) (occurring : Set (List UInt8))
    (artifact : SourceArtifact) (checksums : Checksums)
    (expectation : Option ArtifactValidationExpectation) (hit : CacheHit)
    (files : ArtifactFiles) : Prop :=
  ∃ size bytes, files.Files cache occurring artifact checksums expectation size bytes ∧
    files.objects.get? (cache.digest bytes).text = some bytes ∧
    hit = cachedArtifact (CachePaths.new cache.root (cache.key artifact checksums expectation))
      (metadataOf cache (cache.key artifact checksums expectation) checksums size bytes)

variable {pre : ArtifactFiles → Prop}

/-- What is read of a record is the record of bytes that the descriptor asks for. -/
theorem traces_readMetadata (stores : cache.Stores) (distinct : cache.Distinguishes occurring)
    (valid : validateChecksums artifact.upstreamChecksums = .ok checksums)
    (hashed : descriptorPreimage artifact checksums expectation ∈ occurring) (path : String) :
    Traces (ArtifactFiles.Sound cache occurring untouched) pre
      (readMetadata cache path (cache.key artifact checksums expectation)) (Leaves cache)
      (fun metadata files => ∃ size bytes,
        files.Files cache occurring artifact checksums expectation size bytes ∧
          metadata = metadataOf cache (cache.key artifact checksums expectation) checksums size
            bytes) := by
  unfold readMetadata
  refine traces_contentOf.bind fun text => traces_check_ensure.bind fun _ => ?_
  apply (Traces.check _).weaken (fun _ _ held => held)
  intro metadata files sound held
  obtain ⟨parsed, -, present, -⟩ := held
  obtain ⟨owner, declared, claimed, size, bytes, records, -⟩ := sound.records _ _ present
  obtain ⟨rfl, accepts⟩ := records.accepted distinct valid hashed rfl
  have read := parseMetadata_of_records stores records path
  exact ⟨size, bytes, ⟨owner, claimed, text, present, records, accepts⟩,
    Except.ok.inj (parsed.symm.trans read)⟩

/-- A lookup finds what the record names, or there is no record. -/
theorem traces_loadHit (stores : cache.Stores) (distinct : cache.Distinguishes occurring)
    (valid : validateChecksums artifact.upstreamChecksums = .ok checksums)
    (hashed : descriptorPreimage artifact checksums expectation ∈ occurring) :
    Traces (ArtifactFiles.Sound cache occurring untouched) (fun _ => True)
      (loadHit cache (CachePaths.new cache.root (cache.key artifact checksums expectation))
        (cache.key artifact checksums expectation) artifact checksums) (Leaves cache)
      (fun hit files =>
        (∀ found, hit = some found →
          found.Found cache occurring artifact checksums expectation files) ∧
        (hit = none → files.metadata.get? (cache.key artifact checksums expectation) = none)) := by
  unfold loadHit
  refine Traces.look.bind fun present => ?_
  cases present with
  | false =>
    simp only [Bool.false_eq_true, if_false]
    apply (Traces.pure _).weaken (fun _ _ held => held)
    intro hit files sound held
    refine ⟨fun found some => ?_, fun _ => ?_⟩
    · rw [held.1] at some
      cases some
    · have absent := held.2.1.symm
      rwa [Option.isSome_eq_false_iff, Option.isNone_iff_eq_none] at absent
  | true =>
    simp only [if_true]
    refine (traces_readMetadata stores distinct valid hashed _).bind fun metadata => ?_
    refine traces_check_ensure.bind fun _ => traces_check_ensure.bind fun _ => ?_
    refine (traces_contentOf.bind fun found => ?_).weaken (fun _ _ held => held.2.2)
      fun _ _ _ held => held
    refine traces_handle.bind fun _ => ?_
    have checked : Traces (ArtifactFiles.Sound cache occurring untouched)
        (fun files => files.objects.get? metadata.objectSha256.text = some found ∧
          ∃ size bytes, files.Files cache occurring artifact checksums expectation size bytes ∧
            metadata = metadataOf cache (cache.key artifact checksums expectation) checksums size
              bytes)
        (Faulty.check (validateObjectFull cache ((CachePaths.new cache.root
          (cache.key artifact checksums expectation)).object metadata.objectSha256)
          metadata.objectSha256 checksums (artifact.size.getD metadata.size) found)) (Leaves cache)
        (fun _ files => (cachedArtifact (CachePaths.new cache.root
          (cache.key artifact checksums expectation)) metadata).Found cache occurring artifact
            checksums expectation files) := by
      apply (Traces.check _).weaken (fun _ _ held => held)
      rintro _ files sound ⟨accepted, present, size, bytes, filed, rfl⟩
      simp only [validateObjectFull, bind_eq_ok, ensure_eq_ok] at accepted
      obtain ⟨_, -, _, digests, -⟩ := accepted
      have occurs : bytes ∈ occurring := by
        obtain ⟨_, _, _, -, records, -⟩ := filed
        exact records.occurs
      have same := distinct.eq_of_digest (sound.occurs _ _ present) occurs digests
      exact ⟨size, bytes, filed, same ▸ present, rfl⟩
    refine checked.bind fun _ => ?_
    refine (traces_makeReadOnly _ _).bind fun _ => ?_
    apply (Traces.pure _).weaken (fun _ _ held => held)
    rintro _ files sound ⟨rfl, found⟩
    exact ⟨fun hit some => Option.some.inj some ▸ found, fun none => nomatch none⟩

/-- What was copied is in the partial file, and it is what the descriptor asks for. -/
theorem traces_copyPartial {partialPath : String} {environment : CommitEnvironment} :
    Traces (ArtifactFiles.Sound cache occurring untouched) pre
      (copyPartial cache artifact checksums partialPath environment expectation) (Leaves cache)
      (fun copied files => files.asides.get? partialPath = some copied.1 ∧
        copied.1 = (copyStream artifact environment partialPath).2.sha256 ∧
          cache.Accepts artifact checksums expectation copied.2 copied.1) := by
  unfold copyPartial
  have created : Traces (ArtifactFiles.Sound cache occurring untouched) pre
      (createAside "create partial artifact" partialPath) (Leaves cache) (fun _ _ => True) :=
    traces_createAside _ _ fun _ _ => trivial
  refine created.bind fun _ => ?_
  rcases copied : copyStream artifact environment partialPath with ⟨result, copy⟩
  dsimp only
  have written : Traces (ArtifactFiles.Sound cache occurring untouched) (fun _ => True)
      (writeAside "write partial artifact" partialPath copy.output) (Leaves cache)
      (fun _ files => files.asides.get? partialPath = some copy.output) := by
    apply traces_writeAside
    intro files held
    rw [OrderedMap.get?_insert, if_pos rfl]
  refine written.bind fun _ => (Traces.check _).bind fun size => ?_
  refine traces_handle.bind fun _ => traces_check_ensure.bind fun _ => ?_
  refine (Traces.check _).bind fun _ => (Traces.check _).bind fun _ => ?_
  -- All that was checked so far.
  have established : ∀ files : ArtifactFiles, (matchMd5 cache checksums copy.md5 = .ok () ∧
      matchSha256 cache checksums copy.sha256 = .ok () ∧
      artifact.size.all (· = size) = true ∧ result.mapError ArtifactCacheError.artifact = .ok size ∧
      files.asides.get? partialPath = some copy.output) →
      files.asides.get? partialPath = some copy.sha256 ∧ (cache.Validates expectation copy.sha256 →
        cache.Accepts artifact checksums expectation size copy.sha256) := by
    rintro files ⟨md5, sha256, declared, succeeded, present⟩
    have faithful : copy.Faithful size := by
      have copies : (copyStream artifact environment partialPath).1 = .ok size := by
        rw [copied]
        exact mapError_eq_ok.mp succeeded
      have whole := (faithful_of_copyStream copies).1
      rwa [copied] at whole
    rw [faithful.written] at present
    rw [faithful.hashed] at md5
    exact ⟨present, fun validates => ⟨faithful.sized, declared, sha256, md5, validates⟩⟩
  refine (traces_contentOf.bind fun bytes => ?_).weaken (fun files _ held => established files held)
    fun _ _ _ held => held
  refine (Traces.check _).bind fun _ => ?_
  apply (Traces.pure _).weaken (fun _ _ held => held)
  rintro _ files sound ⟨rfl, accepted, found, present, accepts⟩
  obtain rfl : bytes = copy.sha256 := Option.some.inj (found.symm.trans present)
  exact ⟨present, rfl, accepts ⟨partialPath, mapError_eq_ok.mp accepted⟩⟩

/-- The names of partial files and of objects that were set aside differ. -/
theorem partial_ne_corrupt (shard digest finalNonce corruptNonce : String) :
    shard ++ "/.partial." ++ finalNonce ≠ shard ++ "/.corrupt." ++ digest ++ "-" ++ corruptNonce := by
  intro equal
  have characters := congrArg String.toList equal
  simp only [String.toList_append, List.append_assoc, List.append_cancel_left_eq] at characters
  exact absurd (congrArg (fun text => text[2]?) characters) (by simp)

/-- The partial file is put in the place of its object. -/
theorem traces_installPartial (distinct : cache.Distinguishes occurring) (occurs : bytes ∈ occurring)
    (sized : bytes.length = size.toNat) {paths : CachePaths} {partialPath : String}
    {environment : CommitEnvironment} :
    Traces (ArtifactFiles.Sound cache occurring untouched)
      (fun files => files.asides.get? partialPath = some bytes)
      (installPartial cache paths partialPath environment (cache.digest bytes) size) (Leaves cache)
      (fun _ files => files.objects.get? (cache.digest bytes).text = some bytes) := by
  have saturated : sizeOf64 bytes = size := by
    apply UInt64.toNat_inj.mp
    have bound := size.toNat_lt
    rw [sizeOf64, toNat_saturatingAdd, UInt64.toNat_zero]
    omega
  unfold installPartial
  refine traces_handle.bind fun _ => traces_handle.bind fun _ => ?_
  refine traces_handle.bind fun _ => traces_handle.bind fun _ => ?_
  have moved : Traces (ArtifactFiles.Sound cache occurring untouched)
      (fun files => files.asides.get? partialPath = some bytes)
      (Faulty.operate (cacheIo "move partial into object shard"
        (paths.objectShard (cache.digest bytes) ++ "/.partial." ++ environment.finalNonce)
          deviceFailure)
        (renameAside (cacheIo "move partial into object shard"
          (paths.objectShard (cache.digest bytes) ++ "/.partial." ++ environment.finalNonce)
            missingFile) partialPath
          (.putAside (paths.objectShard (cache.digest bytes) ++ "/.partial." ++
            environment.finalNonce)))) (Leaves cache)
      (fun _ files => files.asides.get? (paths.objectShard (cache.digest bytes) ++ "/.partial." ++
        environment.finalNonce) = some bytes) := by
    apply Traces.operate
    intro files value reached sound held worked
    unfold renameAside at worked
    split at worked
    · cases worked
    · next found present =>
      obtain ⟨-, rfl⟩ := Prod.mk.inj (Except.ok.inj worked)
      obtain rfl := Option.some.inj (held.symm.trans present)
      refine ⟨sound.aside _, ⟨fun _ there => there, rfl⟩, ?_⟩
      simp only [ArtifactFiles.putAside, OrderedMap.get?_insert, if_true]
  refine moved.bind fun _ => ?_
  have apart := partial_ne_corrupt (paths.objectShard (cache.digest bytes))
    (cache.digest bytes).text environment.finalNonce environment.corruptNonce
  refine Traces.bind (Traces.recovering (traces_handle.bind fun _ =>
    traces_publishObjectWithFs distinct occurs apart saturated) ?_) fun _ => traces_handle
  exact traces_discardAside _ fun _ _ => ⟨trivial, trivial⟩

/-- Steps that leave the records preserve them. -/
theorem traces_preserves {α : Type} {program : CacheProgram α} {post : α → ArtifactFiles → Prop}
    (traces : Traces (ArtifactFiles.Sound cache occurring untouched) pre program (Leaves cache) post) :
    Traces (ArtifactFiles.Sound cache occurring untouched) pre program (Preserves cache) post :=
  traces.relate fun _ _ _ _ leaves => leaves.preserves

/-- A record is put in its place once the object is there. -/
theorem traces_commitMetadata (valid : validateChecksums artifact.upstreamChecksums = .ok checksums)
    (hashed : descriptorPreimage artifact checksums expectation ∈ occurring)
    (accepts : cache.Accepts artifact checksums expectation size bytes) (occurs : bytes ∈ occurring)
    (path nonce : String) :
    Traces (ArtifactFiles.Sound cache occurring untouched)
      (fun files => files.metadata.get? (cache.key artifact checksums expectation) = none ∧
        files.objects.get? (cache.digest bytes).text = some bytes)
      (commitMetadata cache path (cache.key artifact checksums expectation) nonce
        (metadataOf cache (cache.key artifact checksums expectation) checksums size bytes))
      (Preserves cache)
      (fun _ files => files.Files cache occurring artifact checksums expectation size bytes ∧
        files.objects.get? (cache.digest bytes).text = some bytes) := by
  unfold commitMetadata
  have created : Traces (ArtifactFiles.Sound cache occurring untouched)
      (fun files => files.metadata.get? (cache.key artifact checksums expectation) = none ∧
        files.objects.get? (cache.digest bytes).text = some bytes)
      (createAside "create metadata temporary" (path ++ ".tmp." ++ nonce)) (Leaves cache)
      (fun _ files => files.metadata.get? (cache.key artifact checksums expectation) = none ∧
        files.objects.get? (cache.digest bytes).text = some bytes) :=
    traces_createAside _ _ fun _ held => held
  refine (traces_preserves created).bind fun _ => (Traces.check _).bind fun encoded => ?_
  apply Traces.assuming
  intro encodes
  have stored := mapError_eq_ok.mp encodes
  have written : Traces (ArtifactFiles.Sound cache occurring untouched)
      (fun files => files.metadata.get? (cache.key artifact checksums expectation) = none ∧
        files.objects.get? (cache.digest bytes).text = some bytes)
      (writeAside "write metadata temporary" (path ++ ".tmp." ++ nonce) encoded) (Leaves cache)
      (fun _ files => (files.metadata.get? (cache.key artifact checksums expectation) = none ∧
        files.objects.get? (cache.digest bytes).text = some bytes) ∧
          files.asides.get? (path ++ ".tmp." ++ nonce) = some encoded) := by
    apply traces_writeAside
    intro files held
    refine ⟨held, ?_⟩
    rw [OrderedMap.get?_insert, if_pos rfl]
  have records : cache.Records occurring (cache.key artifact checksums expectation) artifact checksums
      expectation size bytes encoded := ⟨valid, hashed, rfl, stored, accepts, occurs⟩
  have renamed : Traces (ArtifactFiles.Sound cache occurring untouched)
      (fun files => (files.metadata.get? (cache.key artifact checksums expectation) = none ∧
        files.objects.get? (cache.digest bytes).text = some bytes) ∧
          files.asides.get? (path ++ ".tmp." ++ nonce) = some encoded)
      (Faulty.operate (cacheIo "commit artifact metadata" path deviceFailure)
        (renameAside (cacheIo "commit artifact metadata" path missingFile) (path ++ ".tmp." ++ nonce)
          (.putMetadata (cache.key artifact checksums expectation)))) (Preserves cache)
      (fun _ files => files.Files cache occurring artifact checksums expectation size bytes ∧
        files.objects.get? (cache.digest bytes).text = some bytes) := by
    apply Traces.operate
    intro files value reached sound held worked
    unfold renameAside at worked
    split at worked
    · cases worked
    · next found present =>
      obtain ⟨-, rfl⟩ := Prod.mk.inj (Except.ok.inj worked)
      obtain rfl := Option.some.inj (held.2.symm.trans present)
      obtain ⟨kept, preserves⟩ := (sound.aside (files.asides.erase
        (path ++ ".tmp." ++ nonce))).putMetadata held.1.1 records held.1.2
      refine ⟨kept, ⟨preserves.objects, preserves.metadata⟩, ⟨artifact, expectation, encoded, ?_,
        records, accepts⟩, held.1.2⟩
      simp only [ArtifactFiles.putMetadata, OrderedMap.get?_insert, if_true]
  refine Traces.recovering ((traces_preserves written).bind fun _ => traces_handle.bind fun _ =>
    renamed.bind fun _ => traces_handle) (traces_preserves ?_)
  exact traces_discardAside _ fun _ _ => ⟨trivial, trivial⟩

/-- A commit of a descriptor that has no record ends with what it recorded. -/
theorem traces_commitMiss (distinct : cache.Distinguishes occurring)
    (valid : validateChecksums artifact.upstreamChecksums = .ok checksums)
    (hashed : descriptorPreimage artifact checksums expectation ∈ occurring)
    {partialPath : String} {environment : CommitEnvironment}
    (occurs : (copyStream artifact environment partialPath).2.sha256 ∈ occurring) :
    Traces (ArtifactFiles.Sound cache occurring untouched)
      (fun files => files.metadata.get? (cache.key artifact checksums expectation) = none)
      (commitMiss cache (CachePaths.new cache.root (cache.key artifact checksums expectation)) artifact
        checksums (cache.key artifact checksums expectation) partialPath environment expectation)
      (Preserves cache)
      (fun hit files => hit.Found cache occurring artifact checksums expectation files) := by
  have stays : ∀ files reached : ArtifactFiles, Leaves cache files reached →
      files.metadata.get? (cache.key artifact checksums expectation) = none →
      reached.metadata.get? (cache.key artifact checksums expectation) = none :=
    fun _ _ leaves absent => leaves.metadata ▸ absent
  unfold commitMiss
  have copied : Traces (ArtifactFiles.Sound cache occurring untouched)
      (fun files => True ∧ files.metadata.get? (cache.key artifact checksums expectation) = none)
      (copyPartial cache artifact checksums partialPath environment expectation) (Leaves cache)
      (fun copied files => (files.asides.get? partialPath = some copied.1 ∧
        copied.1 = (copyStream artifact environment partialPath).2.sha256 ∧
          cache.Accepts artifact checksums expectation copied.2 copied.1) ∧
        files.metadata.get? (cache.key artifact checksums expectation) = none) :=
    traces_copyPartial.carry stays
  refine ((traces_preserves copied).bind fun copied => ?_).weaken (fun _ _ held => ⟨trivial, held⟩)
    fun _ _ _ held => held
  obtain ⟨bytes, size⟩ := copied
  dsimp only
  intro files fates calm sound held
  obtain ⟨⟨present, same, accepts⟩, absent⟩ := held
  have member : bytes ∈ occurring := same ▸ occurs
  have installed : Traces (ArtifactFiles.Sound cache occurring untouched)
      (fun files => files.asides.get? partialPath = some bytes ∧
        files.metadata.get? (cache.key artifact checksums expectation) = none)
      (installPartial cache (CachePaths.new cache.root (cache.key artifact checksums expectation))
        partialPath environment (cache.digest bytes) size) (Leaves cache)
      (fun _ files => files.objects.get? (cache.digest bytes).text = some bytes ∧
        files.metadata.get? (cache.key artifact checksums expectation) = none) :=
    (traces_installPartial distinct member accepts.sized).carry stays
  refine ((traces_preserves installed).bind fun _ => ?_) files fates calm sound ⟨present, absent⟩
  refine ((traces_commitMetadata valid hashed accepts member _ _).bind fun _ => ?_).weaken
    (fun _ _ held => ⟨held.2, held.1⟩) fun _ _ _ held => held
  apply (Traces.pure _).weaken (fun _ _ held => held)
  rintro _ files sound ⟨rfl, filed, there⟩
  exact ⟨size, bytes, filed, there, rfl⟩

/-- The files of a descriptor are locked. -/
theorem traces_lock {related : ArtifactFiles → ArtifactFiles → Prop} [Std.Refl related]
    [IsTrans ArtifactFiles related] {α : Type} {paths : CachePaths} {program : CacheProgram α}
    {post : α → ArtifactFiles → Prop}
    (traces : Traces (ArtifactFiles.Sound cache occurring untouched) (fun _ => True) program related
      post) :
    Traces (ArtifactFiles.Sound cache occurring untouched) (fun _ => True)
      (do
        createCacheDirectories cache.root key paths
        lockArtifact paths
        program) related post := by
  have prepared : Traces (ArtifactFiles.Sound cache occurring untouched) (fun _ => True)
      (createCacheDirectories cache.root key paths) related (fun _ _ => True) :=
    traces_handle.bind fun _ => traces_handle.bind fun _ => traces_handle
  have locked : Traces (ArtifactFiles.Sound cache occurring untouched) (fun _ => True)
      (lockArtifact paths) related (fun _ _ => True) :=
    traces_handle.bind fun _ => traces_handle
  exact prepared.bind fun _ => locked.bind fun _ => traces

/-- A commit ends with what is found for its descriptor afterwards. -/
theorem traces_commitArtifact (stores : cache.Stores) (distinct : cache.Distinguishes occurring)
    (hashed : ∀ checksums, validateChecksums artifact.upstreamChecksums = .ok checksums →
      descriptorPreimage artifact checksums expectation ∈ occurring)
    {environment : CommitEnvironment}
    (occurs : ∀ checksums, validateChecksums artifact.upstreamChecksums = .ok checksums →
      (copyStream artifact environment (partialPathOf (CachePaths.new cache.root
        (cache.key artifact checksums expectation)) environment)).2.sha256 ∈ occurring) :
    Traces (ArtifactFiles.Sound cache occurring untouched) (fun _ => True)
      (commitArtifactWithFsAndExpectation cache artifact expectation environment) (Preserves cache)
      (fun hit files => ∃ checksums, validateChecksums artifact.upstreamChecksums = .ok checksums ∧
        hit.Found cache occurring artifact checksums expectation files) := by
  unfold commitArtifactWithFsAndExpectation
  refine (Traces.check _).bind fun checksums => ?_
  apply Traces.assuming
  intro valid
  apply traces_lock
  refine (traces_preserves (traces_loadHit stores distinct valid (hashed checksums valid))).bind
    fun hit => ?_
  cases hit with
  | some hit =>
    dsimp only
    apply (Traces.pure _).weaken (fun _ _ held => held)
    rintro _ files sound ⟨rfl, found, -⟩
    exact ⟨checksums, valid, found _ rfl⟩
  | none =>
    dsimp only
    apply Traces.recovering
    · apply (traces_commitMiss distinct valid (hashed checksums valid) (occurs checksums valid)).weaken
      · exact fun _ _ held => held.2 rfl
      · exact fun _ _ _ found => ⟨checksums, valid, found⟩
    · exact traces_preserves (traces_discardAside _ fun _ _ => ⟨trivial, trivial⟩)

/-- A probe ends with what is found for its descriptor, or there is no record. -/
theorem traces_probeArtifact (stores : cache.Stores) (distinct : cache.Distinguishes occurring)
    {expected : ArtifactValidationExpectation}
    (hashed : ∀ checksums, validateChecksums artifact.upstreamChecksums = .ok checksums →
      descriptorPreimage artifact checksums (some expected) ∈ occurring) :
    Traces (ArtifactFiles.Sound cache occurring untouched) (fun _ => True)
      (probeArtifact cache artifact expected) (Preserves cache)
      (fun hit files => ∀ found, hit = some found → ∃ checksums,
        validateChecksums artifact.upstreamChecksums = .ok checksums ∧
          found.Found cache occurring artifact checksums (some expected) files) := by
  unfold probeArtifact
  refine (Traces.check _).bind fun checksums => ?_
  apply Traces.assuming
  intro valid
  apply traces_lock
  apply (traces_preserves (traces_loadHit stores distinct valid (hashed checksums valid))).weaken
    (fun _ _ held => held)
  exact fun hit files sound held found same => ⟨checksums, valid, held.1 found same⟩

end Recording

end Rsolve
