import Rsolve.Artifact.CacheWorking

/-!
# Runs of the artifact cache

Calls on a cache follow each other, and each of them returns, fails or stops after any of its
operations. Between them anything may become of the objects. A hit is genuine all the same, and what
was committed is found again as long as its own object is left alone.
-/
open Checked Framing Keyed Ordered Streams Faults

namespace Rsolve

/-- A call on the cache, or an object that is overwritten or removed by others. -/
inductive ArtifactCall
  | commit (artifact : SourceArtifact) (expectation : Option ArtifactValidationExpectation)
      (environment : CommitEnvironment)
  | probe (artifact : SourceArtifact) (expectation : ArtifactValidationExpectation)
  | tamper (digest : String) (content : Option (List UInt8))

/-- What becomes of an object that others overwrite or remove. -/
def ArtifactFiles.tampered (files : ArtifactFiles) (digest : String) :
    Option (List UInt8) → ArtifactFiles
  | some bytes => { files with objects := files.objects.insert digest bytes }
  | none => { files with objects := files.objects.erase digest }

/-- What a call does. -/
def ArtifactCall.program (cache : ArtifactCache) :
    ArtifactCall → CacheProgram (Option CacheHit)
  | .commit artifact expectation environment => do
    let hit ← commitArtifactWithFsAndExpectation cache artifact expectation environment
    return some hit
  | .probe artifact expectation => probeArtifact cache artifact expectation
  | .tamper digest content => fun files fates =>
    (.returned none, files.tampered digest content, fates)

/-- The files after a call. -/
def ArtifactCall.after (cache : ArtifactCache) (files : ArtifactFiles)
    (step : ArtifactCall × Fates) : ArtifactFiles :=
  (step.1.program cache files step.2).2.1

/-- The files after some calls. -/
def runArtifactCalls (cache : ArtifactCache) (calls : List (ArtifactCall × Fates)) :
    ArtifactFiles :=
  calls.foldl (ArtifactCall.after cache) .empty

/-- What a call asks for. -/
def ArtifactCall.descriptor :
    ArtifactCall → Option (SourceArtifact × Option ArtifactValidationExpectation)
  | .commit artifact expectation _ => some (artifact, expectation)
  | .probe artifact expectation => some (artifact, some expectation)
  | .tamper _ _ => none

/-- The bytes that a call hashes or that get into an object. -/
def ArtifactCall.strings (cache : ArtifactCache) : ArtifactCall → List (List UInt8)
  | .commit artifact expectation environment =>
    match validateChecksums artifact.upstreamChecksums with
    | .error _ => []
    | .ok checksums => [descriptorPreimage artifact checksums expectation,
        (copyStream artifact environment (partialPathOf (CachePaths.new cache.root
          (cache.key artifact checksums expectation)) environment)).2.sha256]
  | .probe artifact expectation =>
    match validateChecksums artifact.upstreamChecksums with
    | .error _ => []
    | .ok checksums => [descriptorPreimage artifact checksums (some expectation)]
  | .tamper _ content => content.toList

/-- The bytes that occur in some calls. -/
def occurringIn (cache : ArtifactCache) (calls : List (ArtifactCall × Fates)) : Set (List UInt8) :=
  {bytes | ∃ step ∈ calls, bytes ∈ step.1.strings cache}

/-- A call of the program, not of others. -/
def ArtifactCall.IsOwn : ArtifactCall → Prop
  | .tamper _ _ => False
  | _ => True

/-- A call leaves the object of a digest alone. -/
def ArtifactCall.Spares (digest : Sha256Digest) : ArtifactCall → Prop
  | .tamper other _ => other ≠ digest.text
  | _ => True

/-- Bytes have a declared checksum. -/
def UpstreamChecksum.Holds (cache : ArtifactCache) (bytes : List UInt8) : UpstreamChecksum → Prop
  | .md5 value => toAsciiLowercase value = hex (cache.md5 bytes).toList
  | .sha256 value => value = cache.digest bytes
  | .other _ _ => False

/-- A hit names an object that is there: its bytes have the digest and the size of the hit, the declared
size and the declared checksums, and they are an archive of what is expected. -/
structure CacheHit.Genuine (cache : ArtifactCache) (artifact : SourceArtifact)
    (expectation : Option ArtifactValidationExpectation) (files : ArtifactFiles)
    (hit : CacheHit) (bytes : List UInt8) : Prop where
  present : files.objects.get? hit.sha256.text = some bytes
  digest : cache.digest bytes = hit.sha256
  sized : bytes.length = hit.size.toNat
  declared : ∀ size, artifact.size = some size → hit.size = size
  checksums : ∀ checksum ∈ artifact.upstreamChecksums, checksum.Holds cache bytes
  validates : cache.Validates expectation bytes

section Steps

variable {cache : ArtifactCache} {occurring : Set (List UInt8)} {untouched : Prop}
  {files : ArtifactFiles} {artifact : SourceArtifact} {checksums : Checksums}
  {expectation : Option ArtifactValidationExpectation} {hit : CacheHit}

/-- What is found for a descriptor is genuine. -/
theorem CacheHit.Found.genuine
    (valid : validateChecksums artifact.upstreamChecksums = .ok checksums)
    (found : hit.Found cache occurring artifact checksums expectation files) :
    ∃ bytes ∈ occurring, hit.Genuine cache artifact expectation files bytes := by
  obtain ⟨size, bytes, ⟨owner, claimed, text, -, records, accepts⟩, there, rfl⟩ := found
  refine ⟨bytes, records.occurs, there, rfl, accepts.sized, fun declared same => ?_,
    fun checksum member => ?_, accepts.validates⟩
  · have agrees := accepts.declared
    rw [same, Option.all_some, decide_eq_true_eq] at agrees
    exact agrees.symm
  · have agrees := (validateChecksums_eq_ok.mp valid).1 checksum member
    cases checksum with
    | md5 value =>
      have matched := accepts.md5
      rw [matchMd5, agrees.2] at matched
      have equal : toAsciiLowercase value = hex (cache.md5 bytes).toList := ensure_eq_ok.mp matched
      exact equal
    | sha256 value =>
      have matched := accepts.sha256
      have same : checksums.sha256 = some value := agrees
      rw [matchSha256, same] at matched
      have equal : value.text = (cache.digest bytes).text := ensure_eq_ok.mp matched
      exact Sha256Digest.ext equal
    | other algorithm value => exact agrees

/-- Overwriting or removing an object keeps the files sound where objects may be touched. -/
theorem ArtifactFiles.Sound.tampered (sound : files.Sound cache occurring untouched)
    (touched : ¬ untouched) {digest : String} {content : Option (List UInt8)}
    (occurs : ∀ bytes ∈ content, bytes ∈ occurring) :
    (files.tampered digest content).Sound cache occurring untouched := by
  have records : ∀ objects : OrderedMap String (List UInt8), ∀ key text,
      files.metadata.get? key = some text → ∃ artifact checksums expectation size bytes,
        cache.Records occurring key artifact checksums expectation size bytes text ∧
          (untouched → objects.get? (cache.digest bytes).text = some bytes) := by
    intro objects key text present
    obtain ⟨artifact, checksums, expectation, size, bytes, records, -⟩ :=
      sound.records key text present
    exact ⟨artifact, checksums, expectation, size, bytes, records, fun free => absurd free touched⟩
  cases content with
  | none =>
    refine ⟨records _, fun name bytes present => ?_, fun free => absurd free touched⟩
    simp only [ArtifactFiles.tampered, OrderedMap.get?_erase] at present
    split at present
    · cases present
    · exact sound.occurs name bytes present
  | some content =>
    refine ⟨records _, fun name bytes present => ?_, fun free => absurd free touched⟩
    simp only [ArtifactFiles.tampered, OrderedMap.get?_insert] at present
    split at present
    · rw [← Option.some.inj present]
      exact occurs content rfl
    · exact sound.occurs name bytes present

/-- What others do to an object leaves the other objects and the records alone. -/
theorem ArtifactFiles.get?_tampered {digest other : String} (differs : other ≠ digest)
    (content : Option (List UInt8)) :
    (files.tampered digest content).objects.get? other = files.objects.get? other := by
  cases content with
  | none => simp only [ArtifactFiles.tampered, OrderedMap.get?_erase, if_neg differs]
  | some bytes => simp only [ArtifactFiles.tampered, OrderedMap.get?_insert, if_neg differs]

/-- Every step keeps the files sound, and what it returns is found. -/
theorem ArtifactFiles.Sound.step (stores : cache.Stores) (distinct : cache.Distinguishes occurring)
    (sound : files.Sound cache occurring untouched) {step : ArtifactCall × Fates}
    (calm : step.2.Calm) (strings : ∀ bytes ∈ step.1.strings cache, bytes ∈ occurring)
    (own : untouched → step.1.IsOwn) :
    (ArtifactCall.after cache files step).Sound cache occurring untouched ∧
      (step.1.IsOwn → Preserves cache files (ArtifactCall.after cache files step)) ∧
      ∀ artifact expectation hit, step.1.descriptor = some (artifact, expectation) →
        (step.1.program cache files step.2).1 = .returned (some hit) →
        ∃ checksums, validateChecksums artifact.upstreamChecksums = .ok checksums ∧
          hit.Found cache occurring artifact checksums expectation
            (ArtifactCall.after cache files step) := by
  obtain ⟨call, fates⟩ := step
  cases call with
  | tamper digest content =>
    have touched : ¬ untouched := fun free => own free
    have occurs : ∀ bytes ∈ content, bytes ∈ occurring := fun bytes member =>
      strings bytes (Option.mem_toList.mpr member)
    exact ⟨sound.tampered touched occurs, False.elim, fun _ _ _ none => nomatch none⟩
  | commit artifact expectation environment =>
    have hashed : ∀ checksums, validateChecksums artifact.upstreamChecksums = .ok checksums →
        descriptorPreimage artifact checksums expectation ∈ occurring ∧
          (copyStream artifact environment (partialPathOf (CachePaths.new cache.root
            (cache.key artifact checksums expectation)) environment)).2.sha256 ∈ occurring := by
      intro checksums valid
      simp only [ArtifactCall.strings, valid] at strings
      exact ⟨strings _ List.mem_cons_self, strings _ (List.mem_cons_of_mem _ List.mem_cons_self)⟩
    have committed : Traces (ArtifactFiles.Sound cache occurring untouched) (fun _ => True)
        (ArtifactCall.program cache (.commit artifact expectation environment)) (Preserves cache)
        (fun hit files => ∀ found, hit = some found → ∃ checksums,
          validateChecksums artifact.upstreamChecksums = .ok checksums ∧
            found.Found cache occurring artifact checksums expectation files) := by
      refine (traces_commitArtifact stores distinct (fun checksums valid => (hashed checksums valid).1)
        fun checksums valid => (hashed checksums valid).2).bind fun hit => ?_
      apply (Traces.pure _).weaken (fun _ _ held => held)
      rintro _ files kept ⟨rfl, found⟩ other same
      exact Option.some.inj same ▸ found
    obtain ⟨⟨-, kept, preserves⟩, found⟩ := committed files fates calm sound trivial
    refine ⟨kept, fun _ => preserves, ?_⟩
    rintro _ _ hit ⟨rfl, rfl⟩ returned
    exact found _ returned hit rfl
  | probe artifact expectation =>
    have hashed : ∀ checksums, validateChecksums artifact.upstreamChecksums = .ok checksums →
        descriptorPreimage artifact checksums (some expectation) ∈ occurring := by
      intro checksums valid
      simp only [ArtifactCall.strings, valid] at strings
      exact strings _ List.mem_cons_self
    obtain ⟨⟨-, kept, preserves⟩, found⟩ :=
      traces_probeArtifact stores distinct hashed files fates calm sound trivial
    refine ⟨kept, fun _ => preserves, ?_⟩
    rintro _ _ hit ⟨rfl, rfl⟩ returned
    exact found _ returned hit rfl

/-- The files stay sound over calls. -/
theorem ArtifactFiles.Sound.run (stores : cache.Stores) (distinct : cache.Distinguishes occurring)
    (sound : files.Sound cache occurring untouched) {calls : List (ArtifactCall × Fates)}
    (calm : ∀ step ∈ calls, step.2.Calm)
    (strings : ∀ step ∈ calls, ∀ bytes ∈ step.1.strings cache, bytes ∈ occurring)
    (own : untouched → ∀ step ∈ calls, step.1.IsOwn) :
    (calls.foldl (ArtifactCall.after cache) files).Sound cache occurring untouched := by
  induction calls generalizing files with
  | nil => exact sound
  | cons step rest ih =>
    have first := (sound.step stores distinct (calm _ List.mem_cons_self)
      (strings _ List.mem_cons_self) fun free => own free _ List.mem_cons_self).1
    exact ih first (fun later member => calm later (List.mem_cons_of_mem _ member))
      (fun later member => strings later (List.mem_cons_of_mem _ member))
      fun free later member => own free later (List.mem_cons_of_mem _ member)

/-- What is recorded stays recorded, and an object stays as long as it is spared. -/
theorem ArtifactFiles.Sound.kept (stores : cache.Stores) (distinct : cache.Distinguishes occurring)
    (sound : files.Sound cache occurring untouched) {calls : List (ArtifactCall × Fates)}
    (calm : ∀ step ∈ calls, step.2.Calm)
    (strings : ∀ step ∈ calls, ∀ bytes ∈ step.1.strings cache, bytes ∈ occurring)
    (own : untouched → ∀ step ∈ calls, step.1.IsOwn) {bytes : List UInt8}
    (spares : ∀ step ∈ calls, step.1.Spares (cache.digest bytes))
    (present : files.objects.get? (cache.digest bytes).text = some bytes) :
    (calls.foldl (ArtifactCall.after cache) files).objects.get? (cache.digest bytes).text =
        some bytes ∧
      ∀ key text, files.metadata.get? key = some text →
        (calls.foldl (ArtifactCall.after cache) files).metadata.get? key = some text := by
  induction calls generalizing files with
  | nil => exact ⟨present, fun _ _ recorded => recorded⟩
  | cons step rest ih =>
    obtain ⟨kept, preserves, -⟩ := sound.step stores distinct (calm _ List.mem_cons_self)
      (strings _ List.mem_cons_self) fun free => own free _ List.mem_cons_self
    have stays : (ArtifactCall.after cache files step).objects.get? (cache.digest bytes).text =
          some bytes ∧
        ∀ key text, files.metadata.get? key = some text →
          (ArtifactCall.after cache files step).metadata.get? key = some text := by
      have spared := spares _ List.mem_cons_self
      obtain ⟨call, fates⟩ := step
      cases call with
      | tamper digest content =>
        refine ⟨(ArtifactFiles.get?_tampered (Ne.symm spared) content).trans present, ?_⟩
        intro key text recorded
        cases content <;> exact recorded
      | commit artifact expectation environment =>
        have whole := preserves trivial
        exact ⟨whole.objects bytes present, whole.metadata⟩
      | probe artifact expectation =>
        have whole := preserves trivial
        exact ⟨whole.objects bytes present, whole.metadata⟩
    obtain ⟨object, records⟩ := ih kept
      (fun later member => calm later (List.mem_cons_of_mem _ member))
      (fun later member => strings later (List.mem_cons_of_mem _ member))
      (fun free later member => own free later (List.mem_cons_of_mem _ member))
      (fun later member => spares later (List.mem_cons_of_mem _ member)) stays.1
    exact ⟨object, fun key text recorded => records key text (stays.2 key text recorded)⟩

end Steps

namespace Small

/-- The bytes of an archive of a release. -/
def releaseBytes : List UInt8 :=
  [31, 139, 8, 0, 0, 0, 0, 0, 2, 255, 75, 41, 200, 169, 44, 210, 103, 160, 41, 48, 0, 2, 115, 83,
   83, 48, 13, 4, 232, 52, 22, 182, 185, 129, 185, 57, 131, 130, 41, 3, 29, 64, 105, 113, 73, 98,
   17, 208, 74, 134, 145, 9, 82, 192, 241, 239, 226, 26, 236, 28, 228, 25, 16, 226, 233, 239, 71,
   163, 248, 55, 51, 49, 193, 29, 255, 198, 102, 168, 241, 111, 104, 96, 102, 96, 194, 160, 96, 48,
   26, 255, 52, 7, 1, 137, 201, 217, 137, 233, 169, 86, 10, 224, 132, 192, 21, 150, 90, 84, 156,
   153, 159, 103, 165, 96, 168, 103, 160, 103, 192, 197, 48, 10, 70, 193, 40, 24, 5, 163, 96, 152,
   2, 0, 221, 163, 235, 116, 0, 10, 0, 0]

/-- The release as it is declared. -/
def releaseArtifact : SourceArtifact :=
  { declaredArtifact "a892e5333644059f2d0b67cfaa394c13" with size := some 140 }

/-- Its declared checksums. -/
def releaseChecksums : Checksums := ⟨some "a892e5333644059f2d0b67cfaa394c13", none⟩

/-- Its record. -/
def releaseRecord : MetadataFile where
  version := 1
  descriptorKey := "cc2fc7eae79a18dc34d03473cc44d5e87bcd3d5660a54083df10e1d24ec4da11"
  objectSha256 := "fba5f113c458f9ad2126a09f216e5f6bf48a0e001abc30d5c64291ed1968c329"
  size := 140
  upstreamMd5 := some "a892e5333644059f2d0b67cfaa394c13"
  upstreamSha256 := none
  verificationStrength := "upstream-md5"

/-- Its record as it is stored. -/
def releaseText : String :=
  "\x7b\n  \"version\": 1,\n  \"descriptor_key\": " ++
  "\"cc2fc7eae79a18dc34d03473cc44d5e87bcd3d5660a54083df10e1d24ec4da11\",\n  \"object_sha256\": " ++
  "\"fba5f113c458f9ad2126a09f216e5f6bf48a0e001abc30d5c64291ed1968c329\",\n  \"size\": 140,\n" ++
  "  \"upstream_md5\": \"a892e5333644059f2d0b67cfaa394c13\",\n  \"upstream_sha256\": null,\n" ++
  "  \"verification_strength\": \"upstream-md5\"\n\x7d"

/-- A cache with the digests of the archive and of its descriptor, which writes and reads the record of
the release. -/
def releaseCache : ArtifactCache where
  root := "/cache"
  sha256 bytes :=
    if bytes = releaseBytes then
      #v[251, 165, 241, 19, 196, 88, 249, 173, 33, 38, 160, 159, 33, 110, 95, 107, 244, 138, 14, 0,
        26, 188, 48, 213, 198, 66, 145, 237, 25, 104, 195, 41]
    else
      #v[204, 47, 199, 234, 231, 154, 24, 220, 52, 208, 52, 115, 204, 68, 213, 232, 123, 205, 61,
        86, 96, 165, 64, 131, 223, 16, 225, 210, 78, 196, 218, 17]
  md5 bytes :=
    if bytes = releaseBytes then
      #v[168, 146, 229, 51, 54, 68, 5, 159, 45, 11, 103, 207, 170, 57, 76, 19]
    else .replicate 16 0
  metadataJson :=
    { toVec := fun file =>
        if file = releaseRecord then .ok (textBytes releaseText) else .error "unsupported record"
      fromSlice := fun bytes =>
        if bytes = textBytes releaseText then .ok releaseRecord else .error "expected value" }
  ip := IpAddrs.quads
  utf8Error _ := ""
  archive bytes :=
    if bytes = releaseBytes then
      .ok ([⟨textBytes "dplyr/", .directory, [], none⟩, releaseDescription].map .ok)
    else .error "invalid gzip header"

/-- A reader of some bytes, from an offset on. -/
def offsets (stream : List UInt8) : Reader String Nat where
  read offset capacity :=
    (.ok ((stream.drop offset).take capacity), offset + ((stream.drop offset).take capacity).length)
  bounded {offset capacity bytes next} read := by
    simp only [Prod.mk.injEq, Except.ok.injEq] at read
    rw [← read.1, List.length_take]
    omega

/-- What is left behind an offset is delivered. -/
theorem offsets_delivers (stream : List UInt8) :
    (offsets stream).Delivers fun offset => stream.drop offset := by
  intro offset capacity positive
  refine ⟨_, _, rfl, ?_, fun nothing => ?_⟩
  · change stream.drop offset = (stream.drop offset).take capacity ++
      stream.drop (offset + ((stream.drop offset).take capacity).length)
    rw [← List.drop_drop]
    have split := (List.take_append_drop ((stream.drop offset).take capacity).length
      (stream.drop offset)).symm
    rwa [List.length_take, ← List.take_eq_take_min, ← List.length_take] at split
  · rcases List.take_eq_nil_iff.mp nothing with none | empty
    · omega
    · exact empty

/-- The stream of the release, and names of temporary files. -/
def releaseEnvironment : CommitEnvironment where
  reader := offsets releaseBytes
  writer := buffer
  appends _ _ _ wrote := (Prod.mk.inj wrote).2.symm
  partialNonce := "1-1"
  finalNonce := "1-2"
  corruptNonce := "1-3"
  metadataNonce := "1-4"

/-- The digests of the release are read. -/
theorem releaseArtifact_valid :
    validateChecksums releaseArtifact.upstreamChecksums = .ok releaseChecksums := by
  have folded : toAsciiLowercase "a892e5333644059f2d0b67cfaa394c13" =
      "a892e5333644059f2d0b67cfaa394c13" := by
    apply String.toList_injective
    rw [toAsciiLowercase, String.toList_map]
    decide
  refine validateChecksums_eq_ok.mpr
    ⟨fun checksum member => ?_, .inr ⟨_, List.mem_cons_self⟩, .inl rfl⟩
  obtain rfl := List.mem_singleton.mp member
  exact ⟨by decide, congrArg some folded.symm⟩

/-- The stream of the release is copied. -/
theorem copyStream_release (path : String) :
    (copyStream releaseArtifact releaseEnvironment path).1 = .ok 140 ∧
      (copyStream releaseArtifact releaseEnvironment path).2.sha256 = releaseBytes := by
  have ends := copyCompressedInput_ends (offsets releaseBytes) buffer _ id
    (offsets_delivers releaseBytes) buffer_records (some 140) maxCompressedInputBytes path
    ⟨0, [], [], []⟩
  have sized : releaseBytes.length = (140 : UInt64).toNat := rfl
  have outcome : (copyStream releaseArtifact releaseEnvironment path).1 = .ok 140 :=
    ends.outcome.trans (copyOutcome_eq_ok.mpr ⟨sized, .inl rfl⟩)
  have succeeded : (copyStream releaseArtifact releaseEnvironment path).1.isOk = true := by
    rw [outcome]
    rfl
  exact ⟨outcome, (ends.copied succeeded).2.1⟩

/-- The cache tells the release and its descriptor apart. -/
theorem releaseCache_distinguishes {occurring : Set (List UInt8)}
    (occurs : ∀ bytes ∈ occurring, bytes = releaseBytes ∨
      bytes = descriptorPreimage releaseArtifact releaseChecksums (some releaseExpectation)) :
    releaseCache.Distinguishes occurring := by
  have apart : descriptorPreimage releaseArtifact releaseChecksums (some releaseExpectation) ≠
      releaseBytes := by
    decide
  have digests : releaseCache.sha256 releaseBytes ≠ releaseCache.sha256
      (descriptorPreimage releaseArtifact releaseChecksums (some releaseExpectation)) := by
    simp only [releaseCache, apart, if_true, if_false]
    decide
  constructor
  · intro left leftOccurs right rightOccurs equal
    rcases occurs left leftOccurs with rfl | rfl <;> rcases occurs right rightOccurs with rfl | rfl
    · rfl
    · exact absurd equal digests
    · exact absurd equal.symm digests
    · rfl
  · intro bytes member
    have sized : releaseBytes.length = 140 := rfl
    rcases occurs bytes member with rfl | rfl
    · rw [sized]
      decide
    · decide +kernel

/-- The cache reads its record. -/
theorem releaseCache_stores : releaseCache.Stores where
  readsBack := by
    intro file bytes encoded
    simp only [releaseCache] at encoded ⊢
    split at encoded
    · next same => rw [← Except.ok.inj encoded, if_pos rfl, same]
    · cases encoded
  texts := by
    intro file bytes encoded
    simp only [releaseCache] at encoded
    split at encoded
    · rw [← Except.ok.inj encoded, Utf8.fromUtf8_textBytes]
      rfl
    · cases encoded

/-- The release is what is declared and expected. -/
theorem releaseCache_accepts : releaseCache.Accepts releaseArtifact releaseChecksums
    (some releaseExpectation) 140 releaseBytes where
  sized := rfl
  declared := rfl
  sha256 := rfl
  md5 := by
    simp only [matchMd5, releaseChecksums, releaseCache, if_true]
    decide +kernel
  validates := by
    refine ⟨"dplyr_1.0.0.tar.gz", ?_⟩
    simp only [releaseCache, if_true]
    exact validateSourceArchive_release

/-- The commit of the release. -/
def commitRelease : ArtifactCall :=
  .commit releaseArtifact (some releaseExpectation) releaseEnvironment

/-- Commits of the release and removals of objects make the release and its descriptor occur only. -/
theorem commitRelease_distinguishes {calls : List (ArtifactCall × Fates)}
    (simple : ∀ step ∈ calls, step.1 = commitRelease ∨ ∃ digest, step.1 = .tamper digest none) :
    releaseCache.Distinguishes (occurringIn releaseCache calls) := by
  apply releaseCache_distinguishes
  rintro bytes ⟨step, member, inside⟩
  rcases simple step member with same | ⟨digest, same⟩
  · rw [same, commitRelease, ArtifactCall.strings, releaseArtifact_valid] at inside
    dsimp only at inside
    rw [(copyStream_release _).2, List.mem_cons, List.mem_singleton] at inside
    exact inside.symm
  · rw [same] at inside
    cases inside

/-- The record of the release is stored. -/
theorem encodes_release : releaseCache.metadataJson.toVec (metadataOf releaseCache
    (releaseCache.key releaseArtifact releaseChecksums (some releaseExpectation)) releaseChecksums 140
      releaseBytes).file = .ok (textBytes releaseText) := by
  have same : (metadataOf releaseCache (releaseCache.key releaseArtifact releaseChecksums
      (some releaseExpectation)) releaseChecksums 140 releaseBytes).file = releaseRecord := by
    decide +kernel
  rw [same]
  simp only [releaseCache, if_true]

/-- A commit of the release to an empty cache returns a hit with its digest. -/
theorem commitRelease_returns : ∃ hit : CacheHit,
    hit.sha256 = releaseCache.digest releaseBytes ∧
      (commitRelease.program releaseCache (runArtifactCalls releaseCache []) ⟨[], []⟩).1 =
        .returned (some hit) := by
  obtain ⟨reached, works⟩ := works_commit releaseArtifact_valid
    (rfl : (runArtifactCalls releaseCache []).metadata.get? _ = none) (copyStream_release _).1
    (copyStream_release _).2 releaseCache_accepts encodes_release rfl rfl
  have program : Works (commitRelease.program releaseCache) (runArtifactCalls releaseCache []) [] _
      reached [] := works.bind .pure
  exact ⟨_, rfl, congrArg Prod.fst program⟩

end Small

section Runs

variable {cache : ArtifactCache} {calls before between later : List (ArtifactCall × Fates)}
  {call : ArtifactCall} {fates : Fates} {artifact : SourceArtifact}
  {expectation : Option ArtifactValidationExpectation} {hit : CacheHit}

/-- A run goes on with its last calls. -/
theorem runArtifactCalls_append (first second : List (ArtifactCall × Fates)) :
    runArtifactCalls cache (first ++ second) =
      second.foldl (ArtifactCall.after cache) (runArtifactCalls cache first) :=
  List.foldl_append

/-- The bytes of the calls of a run occur in it. -/
theorem strings_occur {step : ArtifactCall × Fates} (member : step ∈ calls) :
    ∀ bytes ∈ step.1.strings cache, bytes ∈ occurringIn cache calls :=
  fun _ inside => ⟨step, member, inside⟩

/-- What is found for a descriptor is found for every descriptor that asks for the same. -/
theorem CacheHit.Found.again (stores : cache.Stores) {occurring : Set (List UInt8)}
    {files : ArtifactFiles} {checksums : Checksums} {other : SourceArtifact}
    {again : Option ArtifactValidationExpectation}
    (found : hit.Found cache occurring artifact checksums expectation files)
    (locators : other.locator = artifact.locator) (sizes : other.size = artifact.size)
    (same : Same again expectation) :
    Works (loadHit cache (CachePaths.new cache.root (cache.key other checksums again))
      (cache.key other checksums again) other checksums) files [] (some hit) files [] := by
  obtain ⟨size, bytes, ⟨owner, claimed, text, present, records, accepts⟩, there, rfl⟩ := found
  have keys : cache.key artifact checksums expectation = cache.key other checksums again := by
    simp only [ArtifactCache.key, descriptorKeyWithExpectation,
      descriptorPreimage_congr locators rfl sizes same]
  rw [keys] at present records ⊢
  obtain ⟨sized, declared, sha256, md5, validates⟩ := accepts
  have accepts : cache.Accepts other checksums again size bytes :=
    ⟨sized, sizes ▸ declared, sha256, md5, validates.congr same.symm⟩
  exact works_loadHit stores ⟨owner, claimed, text, present, records, accepts⟩ there

end Runs

end Rsolve
