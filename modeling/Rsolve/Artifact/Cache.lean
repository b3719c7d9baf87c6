import Rsolve.Artifact.Archive
import Rsolve.Artifact.Checksums
import Rsolve.Lib.Faults
import Rsolve.Lib.Utf8
import Rsolve.Snapshot.Header

/-!
# The artifact cache

The cache holds source archives under the digests of their bytes, and for every descriptor a record of
the archive that was committed for it. A commit looks the descriptor up first; otherwise it copies a
stream into a partial file, checks it against what is declared and expected, puts it in the place of
its object and records it. An object that is there is kept when it is valid, and set aside otherwise
until the replacement is there.

A lock is held for the descriptor and another for the object, so calls do not interleave. Each file
operation may fail, or be the last one before the process stops; the lookups are the questions
whether a file exists and whether an object is valid.
-/
open Checked Framing Ordered Streams Faults

namespace Rsolve

/-- `MAX_COMPRESSED_INPUT_BYTES`. -/
def maxCompressedInputBytes : UInt64 := 1073741824

/-- `MetadataFile` — the record of a descriptor as it is stored. -/
structure MetadataFile where
  version : UInt32
  descriptorKey : String
  objectSha256 : String
  size : UInt64
  upstreamMd5 : Option String
  upstreamSha256 : Option String
  verificationStrength : String
deriving DecidableEq

/-- `Metadata` — the record of a descriptor. -/
structure Metadata where
  version : UInt32
  descriptorKey : String
  objectSha256 : Sha256Digest
  size : UInt64
  upstreamMd5 : Option String
  upstreamSha256 : Option Sha256Digest
  verificationStrength : String
deriving DecidableEq

/-- `VerificationStrength` — the declared checksums that were verified. -/
inductive VerificationStrength
  | none
  | upstreamMd5
  | upstreamSha256
  | upstreamMd5AndSha256
deriving DecidableEq, Repr

/-- `CachedArtifact`, with the paths of its files. -/
structure CacheHit where
  objectPath : String
  metadataPath : String
  sha256 : Sha256Digest
  size : UInt64
  verification : VerificationStrength
deriving DecidableEq

/-- What the cache rests on: its root, the two digests, the library that writes and reads the stored
records, the readers of addresses and texts, and the entries of bytes that are unpacked as an
archive. -/
structure ArtifactCache where
  root : String
  /-- `Sha256::digest`. -/
  sha256 : List UInt8 → Vector UInt8 32
  /-- `Md5::digest`. -/
  md5 : List UInt8 → Vector UInt8 16
  metadataJson : JsonFormat MetadataFile
  ip : IpAddrs
  utf8Error : List UInt8 → String
  archive : List UInt8 → Except String (List (Except String TarEntry))

/-- The files of a cache. -/
structure ArtifactFiles where
  /-- `objects/sources/sha256/{shard}/{digest}`, by digest. -/
  objects : OrderedMap String (List UInt8)
  /-- `artifacts/sources/sha256/{shard}/{key}.json`, by key. -/
  metadata : OrderedMap String (List UInt8)
  /-- Partial files, objects that were set aside, and temporary records, by path. -/
  asides : OrderedMap String (List UInt8)

/-- No files. -/
def ArtifactFiles.empty : ArtifactFiles := ⟨.empty, .empty, .empty⟩

/-- A program of a cache. -/
abbrev CacheProgram (α : Type) : Type := Faulty ArtifactFiles ArtifactCacheError α

/-- `CacheError::Io`. -/
def cacheIo (operation path source : String) : ArtifactCacheError :=
  .artifact (.io operation path source)

/-- The text of an error of the device. -/
def deviceFailure : String := "Input/output error (os error 5)"

/-- The text of the error about a file that is not there. -/
def missingFile : String := "No such file or directory (os error 2)"

/-- The text of the error about a file that is there. -/
def existingFile : String := "File exists (os error 17)"

/-- The error of a device below an error of the cache. -/
def ArtifactCacheError.source : ArtifactCacheError → String
  | .artifact (.io _ _ source) => source
  | _ => ""

/-- A file operation that changes nothing the cache reads. -/
def handle (operation path : String) : CacheProgram Unit :=
  Faulty.operate (cacheIo operation path deviceFailure) fun files => .ok ((), files)

/-- `File::open` and reading the file to its end. -/
def contentOf (operation path : String) (find : ArtifactFiles → Option (List UInt8)) :
    CacheProgram (List UInt8) :=
  Faulty.operate (cacheIo operation path deviceFailure) fun files =>
    match find files with
    | none => .error (cacheIo operation path missingFile)
    | some bytes => .ok (bytes, files)

/-- The first two characters of a digest. -/
def shardOf (digest : String) : String := String.ofList (digest.toList.take 2)

/-- `CachePaths`. -/
structure CachePaths where
  lock : String
  objectDir : String
  metadata : String
  lockDir : String

/-- The directory of a record. -/
def metadataParent (root descriptorKey : String) : String :=
  root ++ "/artifacts/sources/sha256/" ++ shardOf descriptorKey

/-- `CachePaths::new`. -/
def CachePaths.new (root descriptorKey : String) : CachePaths :=
  let lockDir := root ++ "/locks/objects/sha256/" ++ shardOf descriptorKey
  ⟨lockDir ++ "/" ++ descriptorKey ++ ".lock", root ++ "/objects/sources/sha256",
    metadataParent root descriptorKey ++ "/" ++ descriptorKey ++ ".json", lockDir⟩

/-- The directory of an object. -/
def CachePaths.objectShard (paths : CachePaths) (digest : Sha256Digest) : String :=
  paths.objectDir ++ "/" ++ shardOf digest.text

/-- `CachePaths::object`. -/
def CachePaths.object (paths : CachePaths) (digest : Sha256Digest) : String :=
  paths.objectShard digest ++ "/" ++ digest.text

/-- The directory of the lock of an object. -/
def objectLockParent (root : String) (digest : Sha256Digest) : String :=
  root ++ "/locks/objects/sha256/" ++ shardOf digest.text

/-- `CachePaths::object_lock`. -/
def objectLock (root : String) (digest : Sha256Digest) : String :=
  objectLockParent root digest ++ "/" ++ digest.text ++ ".object.lock"

/-- `create_cache_directories`. -/
def createCacheDirectories (root descriptorKey : String) (paths : CachePaths) :
    CacheProgram Unit := do
  handle "create cache directory" paths.lockDir
  handle "create cache directory" paths.objectDir
  handle "create cache directory" (metadataParent root descriptorKey)

/-- Hold the lock of a descriptor. -/
def lockArtifact (paths : CachePaths) : CacheProgram Unit := do
  handle "create artifact lock" paths.lock
  handle "lock artifact" paths.lock

/-- `verification_strength`. -/
def verificationStrength (checksums : Checksums) : String :=
  match checksums.md5.isSome, checksums.sha256.isSome with
  | false, false => "none"
  | true, false => "upstream-md5"
  | false, true => "upstream-sha256"
  | true, true => "upstream-md5-and-sha256"

/-- `cached_artifact`. -/
def cachedArtifact (paths : CachePaths) (metadata : Metadata) : CacheHit where
  objectPath := paths.object metadata.objectSha256
  metadataPath := paths.metadata
  sha256 := metadata.objectSha256
  size := metadata.size
  verification :=
    match metadata.upstreamMd5.isSome, metadata.upstreamSha256.isSome with
    | false, false => .none
    | true, false => .upstreamMd5
    | false, true => .upstreamSha256
    | true, true => .upstreamMd5AndSha256

/-- The digest of bytes reads as a digest. -/
theorem Sha256Digest.read_hex (bytes : Vector UInt8 32) :
    Sha256Digest.read (hex bytes.toList) = .ok (hex bytes.toList) := by
  obtain ⟨digest, made⟩ := Sha256Digest.exists_new_hex bytes.length_toList
  unfold Sha256Digest.new at made
  split at made
  · cases made
  · next text accepted =>
    have shape := accepted
    unfold Sha256Digest.read at shape
    split at shape
    · cases shape
    · split at shape
      · cases shape
      · have same := Except.ok.inj shape
        rw [toAsciiLowercase_hex] at same
        rw [accepted, same]

/-- The digest of bytes. -/
def ArtifactCache.digest (cache : ArtifactCache) (bytes : List UInt8) : Sha256Digest :=
  ⟨hex (cache.sha256 bytes).toList, Sha256Digest.read_hex _⟩

/-- The size of bytes that are read to their end, which saturates. -/
def sizeOf64 (bytes : List UInt8) : UInt64 := saturatingAdd 0 bytes.length

/-- `read_metadata`, of a text. -/
def parseMetadata (cache : ArtifactCache) (path : String) (bytes : List UInt8) :
    Except ArtifactCacheError Metadata := do
  let file ← (cache.metadataJson.fromSlice bytes).mapError (.invalidMetadata path)
  ensure (file.version = 1) (.invalidMetadata path "unknown metadata version")
  let objectSha256 ← (Sha256Digest.new file.objectSha256).mapError fun _ =>
    .invalidMetadata path "invalid object digest"
  file.upstreamMd5.forM validateMd5
  let upstreamMd5 := file.upstreamMd5.map toAsciiLowercase
  let upstreamSha256 ← file.upstreamSha256.mapM fun value =>
    (Sha256Digest.new value).mapError fun _ => .invalidMetadata path "invalid upstream SHA-256"
  ensure (file.verificationStrength = verificationStrength ⟨upstreamMd5, upstreamSha256⟩)
    (.invalidMetadata path "verification strength does not match checksum fields")
  return ⟨file.version, file.descriptorKey, objectSha256, file.size, upstreamMd5, upstreamSha256,
    file.verificationStrength⟩

/-- `read_metadata`. -/
def readMetadata (cache : ArtifactCache) (path key : String) : CacheProgram Metadata := do
  let bytes ← contentOf "read artifact metadata" path (·.metadata.get? key)
  Faulty.check (ensure ((Utf8.fromUtf8 bytes).isSome = true)
    (cacheIo "read artifact metadata" path "stream did not contain valid UTF-8"))
  Faulty.check (parseMetadata cache path bytes)

/-- The stored form of a record. -/
def Metadata.file (metadata : Metadata) : MetadataFile where
  version := metadata.version
  descriptorKey := metadata.descriptorKey
  objectSha256 := metadata.objectSha256.text
  size := metadata.size
  upstreamMd5 := metadata.upstreamMd5
  upstreamSha256 := metadata.upstreamSha256.map Sha256Digest.text
  verificationStrength := metadata.verificationStrength

/-- Bytes match a declared SHA-256 digest. -/
def matchSha256 (cache : ArtifactCache) (checksums : Checksums) (bytes : List UInt8) :
    Except ArtifactCacheError Unit :=
  checksums.sha256.forM fun expected =>
    ensure (expected.text = (cache.digest bytes).text)
      (.checksumMismatch "sha256" expected.text (cache.digest bytes).text)

/-- Bytes match a declared MD5 digest. -/
def matchMd5 (cache : ArtifactCache) (checksums : Checksums) (bytes : List UInt8) :
    Except ArtifactCacheError Unit :=
  checksums.md5.forM fun expected =>
    ensure (expected = hex (cache.md5 bytes).toList)
      (.checksumMismatch "md5" expected (hex (cache.md5 bytes).toList))

/-- `validate_object`, of the bytes of an object. -/
def validateObject (cache : ArtifactCache) (path : String) (expected : Sha256Digest)
    (expectedSize : UInt64) (bytes : List UInt8) : Except ArtifactCacheError Unit :=
  ensure (sizeOf64 bytes = expectedSize ∧ (cache.digest bytes).text = expected.text)
    (.corruptObject path expected.text (cache.digest bytes).text)

/-- `validate_object_full`, of the bytes of an object. -/
def validateObjectFull (cache : ArtifactCache) (path : String) (expected : Sha256Digest)
    (checksums : Checksums) (expectedSize : UInt64) (bytes : List UInt8) :
    Except ArtifactCacheError Unit := do
  ensure (sizeOf64 bytes = expectedSize) (.artifact (.sizeMismatch expectedSize (sizeOf64 bytes)))
  ensure ((cache.digest bytes).text = expected.text)
    (.corruptObject path expected.text (cache.digest bytes).text)
  matchSha256 cache checksums bytes
  matchMd5 cache checksums bytes

/-- `make_read_only`. -/
def makeReadOnly (path : String) (digest : Sha256Digest) : CacheProgram Unit := do
  Faulty.operate (cacheIo "inspect published object" path deviceFailure) fun files =>
    if (files.objects.get? digest.text).isSome then .ok ((), files)
    else .error (cacheIo "inspect published object" path missingFile)
  handle "make published object read-only" path

/-- `load_hit`. -/
def loadHit (cache : ArtifactCache) (paths : CachePaths) (descriptorKey : String)
    (artifact : SourceArtifact) (checksums : Checksums) :
    CacheProgram (Option CacheHit) := do
  let present ← Faulty.look false fun files => (files.metadata.get? descriptorKey).isSome
  if present then
    let metadata ← readMetadata cache paths.metadata descriptorKey
    Faulty.check (ensure (metadata.descriptorKey = descriptorKey ∧
        metadata.upstreamMd5 = checksums.md5 ∧ metadata.upstreamSha256 = checksums.sha256)
      (.invalidMetadata paths.metadata "descriptor does not match the requested artifact"))
    Faulty.check (ensure (artifact.size.all (metadata.size = ·) = true)
      (.invalidMetadata paths.metadata "metadata size does not match the requested artifact"))
    let object := paths.object metadata.objectSha256
    let bytes ← contentOf "open cache object" object (·.objects.get? metadata.objectSha256.text)
    handle "validate cache object checksums" object
    Faulty.check (validateObjectFull cache object metadata.objectSha256 checksums
      (artifact.size.getD metadata.size) bytes)
    makeReadOnly object metadata.objectSha256
    return some (cachedArtifact paths metadata)
  else return none

/-- `OpenOptions::create_new` of a file beside the objects and records. -/
def createAside (operation path : String) : CacheProgram Unit :=
  Faulty.operate (cacheIo operation path deviceFailure) fun files =>
    if (files.asides.get? path).isSome then .error (cacheIo operation path existingFile)
    else .ok ((), { files with asides := files.asides.insert path [] })

/-- `Write::write_all` to a file beside the objects and records. -/
def writeAside (operation path : String) (bytes : List UInt8) : CacheProgram Unit :=
  Faulty.operate (cacheIo operation path deviceFailure) fun files =>
    .ok ((), { files with asides := files.asides.insert path bytes })

/-- `fs::remove_file` of a file beside the objects and records, without regard to its result. -/
def discardAside (path : String) : CacheProgram Unit :=
  Faulty.endeavor fun files => { files with asides := files.asides.erase path }

/-- `fs::remove_file` of a file beside the objects and records. -/
def removeAside (operation path : String) : CacheProgram Unit :=
  Faulty.operate (cacheIo operation path deviceFailure) fun files =>
    if (files.asides.get? path).isSome then
      .ok ((), { files with asides := files.asides.erase path })
    else .error (cacheIo operation path missingFile)

/-- `fs::rename` of a file beside the objects and records, to a place where it is put. -/
def renameAside (broken : ArtifactCacheError) (path : String)
    (put : ArtifactFiles → List UInt8 → ArtifactFiles) (files : ArtifactFiles) :
    Except ArtifactCacheError (Unit × ArtifactFiles) :=
  match files.asides.get? path with
  | none => .error broken
  | some bytes => .ok ((), put { files with asides := files.asides.erase path } bytes)

/-- Put bytes in the place of an object. -/
def ArtifactFiles.putObject (digest : Sha256Digest) (files : ArtifactFiles) (bytes : List UInt8) :
    ArtifactFiles :=
  { files with objects := files.objects.insert digest.text bytes }

/-- Put bytes in the place of a record. -/
def ArtifactFiles.putMetadata (key : String) (files : ArtifactFiles) (bytes : List UInt8) :
    ArtifactFiles :=
  { files with metadata := files.metadata.insert key bytes }

/-- Put bytes beside the objects and records. -/
def ArtifactFiles.putAside (path : String) (files : ArtifactFiles) (bytes : List UInt8) :
    ArtifactFiles :=
  { files with asides := files.asides.insert path bytes }

/-- `PublishFs::rename` of an object to a file beside it. -/
def quarantineObject (broken : ArtifactCacheError) (digest : Sha256Digest) (path : String)
    (files : ArtifactFiles) : Except ArtifactCacheError (Unit × ArtifactFiles) :=
  match files.objects.get? digest.text with
  | none => .error broken
  | some bytes => .ok ((), { files with
      objects := files.objects.erase digest.text, asides := files.asides.insert path bytes })

/-- `PublishFs::rename` of a file to the place of an object, tried. -/
def tryPublish (operation object path : String) (digest : Sha256Digest) :
    CacheProgram (Except ArtifactCacheError Unit) :=
  Faulty.trial (cacheIo operation object deviceFailure)
    (renameAside (cacheIo operation object missingFile) path (.putObject digest))

/-- The end of `publish_object_with_fs` where the replacement could not be published: the old bytes,
which are set aside, go back unless the place was taken meanwhile. -/
def restoreObject (object corrupt : String) (expected : Sha256Digest)
    (replacement : ArtifactCacheError) : CacheProgram Unit := do
  let taken ← Faulty.look false fun files => (files.objects.get? expected.text).isSome
  if taken then Faulty.check (.error replacement)
  else
    match ← tryPublish "restore" object corrupt expected with
    | .error restore =>
      Faulty.check (.error (.replacementRecovery object corrupt replacement.source restore.source))
    | .ok () => Faulty.check (.error replacement)

/-- The part of `publish_object_with_fs` where the object is corrupt. -/
def replaceObject (partialPath object corrupt : String) (expected : Sha256Digest) :
    CacheProgram Unit := do
  match ← Faulty.trial (cacheIo "quarantine corrupt artifact object" object deviceFailure)
    (quarantineObject (cacheIo "quarantine corrupt artifact object" object missingFile) expected
      corrupt) with
  | .error cause =>
    discardAside partialPath
    Faulty.check (.error cause)
  | .ok () =>
    match ← tryPublish "publish replacement artifact object" object partialPath expected with
    | .error replacement =>
      discardAside partialPath
      restoreObject object corrupt expected replacement
    | .ok () =>
      removeAside "remove quarantined corrupt artifact object" corrupt
      makeReadOnly object expected

/-- `publish_object_with_fs`. -/
def publishObjectWithFs (cache : ArtifactCache) (partialPath object corrupt : String)
    (expected : Sha256Digest) (expectedSize : UInt64) : CacheProgram Unit := do
  let present ← Faulty.look false fun files => (files.objects.get? expected.text).isSome
  if present then
    let valid ← Faulty.look false fun files =>
      (files.objects.get? expected.text).any fun bytes =>
        (validateObject cache object expected expectedSize bytes).isOk
    if valid then
      removeAside "remove losing partial" partialPath
      makeReadOnly object expected
    else replaceObject partialPath object corrupt expected
  else
    match ← tryPublish "publish artifact object" object partialPath expected with
    | .error cause =>
      discardAside partialPath
      Faulty.check (.error cause)
    | .ok () => makeReadOnly object expected

/-- `commit_metadata`. -/
def commitMetadata (cache : ArtifactCache) (path key nonce : String) (metadata : Metadata) :
    CacheProgram Unit := do
  let temp := path ++ ".tmp." ++ nonce
  createAside "create metadata temporary" temp
  let encoded ← Faulty.check ((cache.metadataJson.toVec metadata.file).mapError
    (.invalidMetadata temp))
  Faulty.recovering
    (do
      writeAside "write metadata temporary" temp encoded
      handle "sync metadata temporary" temp
      Faulty.operate (cacheIo "commit artifact metadata" path deviceFailure)
        (renameAside (cacheIo "commit artifact metadata" path missingFile) temp (.putMetadata key))
      handle "sync cache directory" (metadataParent cache.root key))
    (discardAside temp)

/-- A file that is written piece by piece: what was written is what it held before and the piece. -/
def Appends (writer : Streams.Writer String (List UInt8)) : Prop :=
  ∀ output bytes next, writer.writeAll output bytes = (.ok (), next) → next = output ++ bytes

/-- What a commit takes from its environment: what each read of the stream gives, by its number, what
the writes to the partial file do, and the parts of the temporary names. -/
structure CommitEnvironment where
  reader : Reader String Nat
  writer : Streams.Writer String (List UInt8)
  appends : Appends writer
  partialNonce : String
  finalNonce : String
  corruptNonce : String
  metadataNonce : String

/-- The path of the partial file of a commit. -/
def partialPathOf (paths : CachePaths) (environment : CommitEnvironment) : String :=
  paths.objectDir ++ "/.partial." ++ environment.partialNonce

/-- The copy of the stream of a commit. -/
def copyStream (artifact : SourceArtifact) (environment : CommitEnvironment) (path : String) :
    Except CacheError UInt64 × CopyState Nat (List UInt8) :=
  copyCompressedInput environment.reader environment.writer artifact.size maxCompressedInputBytes path
    ⟨0, [], [], []⟩

/-- The record of a committed artifact. -/
def metadataOf (cache : ArtifactCache) (descriptorKey : String) (checksums : Checksums)
    (size : UInt64) (bytes : List UInt8) : Metadata where
  version := 1
  descriptorKey := descriptorKey
  objectSha256 := cache.digest bytes
  size := size
  upstreamMd5 := checksums.md5
  upstreamSha256 := checksums.sha256
  verificationStrength := verificationStrength checksums

/-- The part of `commit_miss` before the bytes have their digest: they are copied and checked. -/
def copyPartial (cache : ArtifactCache) (artifact : SourceArtifact) (checksums : Checksums)
    (partialPath : String) (environment : CommitEnvironment)
    (expectation : Option ArtifactValidationExpectation) :
    CacheProgram (List UInt8 × UInt64) := do
  createAside "create partial artifact" partialPath
  let (result, copy) := copyStream artifact environment partialPath
  -- What was written before an error stays in the file.
  writeAside "write partial artifact" partialPath copy.output
  let size ← Faulty.check (result.mapError .artifact)
  handle "sync partial artifact" partialPath
  Faulty.check (ensure (artifact.size.all (· = size) = true)
    (.artifact (.sizeMismatch (artifact.size.getD 0) size)))
  Faulty.check (matchSha256 cache checksums copy.sha256)
  Faulty.check (matchMd5 cache checksums copy.md5)
  let bytes ← contentOf "open source archive for sanity check" partialPath
    (·.asides.get? partialPath)
  Faulty.check ((validateSourceArchive cache.ip cache.utf8Error partialPath expectation
    (.ok (cache.archive bytes))).mapError .artifact)
  return (copy.sha256, size)

/-- The part of `commit_miss` that puts the partial file in the place of its object. -/
def installPartial (cache : ArtifactCache) (paths : CachePaths) (partialPath : String)
    (environment : CommitEnvironment) (digest : Sha256Digest) (size : UInt64) :
    CacheProgram Unit := do
  let object := paths.object digest
  handle "create object shard directory" object
  handle "create object lock directory" (objectLockParent cache.root digest)
  handle "create object lock" (objectLock cache.root digest)
  handle "lock object" (objectLock cache.root digest)
  let finalPartial := paths.objectShard digest ++ "/.partial." ++ environment.finalNonce
  Faulty.operate (cacheIo "move partial into object shard" finalPartial deviceFailure)
    (renameAside (cacheIo "move partial into object shard" finalPartial missingFile) partialPath
      (.putAside finalPartial))
  Faulty.recovering
    (do
      handle "sync cache directory" (paths.objectShard digest)
      publishObjectWithFs cache finalPartial object
        (paths.objectShard digest ++ "/.corrupt." ++ digest.text ++ "-" ++ environment.corruptNonce)
        digest size)
    (discardAside finalPartial)
  handle "sync cache directory" (paths.objectShard digest)

/-- `commit_miss`. -/
def commitMiss (cache : ArtifactCache) (paths : CachePaths) (artifact : SourceArtifact)
    (checksums : Checksums) (descriptorKey : String) (partialPath : String)
    (environment : CommitEnvironment) (expectation : Option ArtifactValidationExpectation) :
    CacheProgram CacheHit := do
  let (bytes, size) ← copyPartial cache artifact checksums partialPath environment expectation
  installPartial cache paths partialPath environment (cache.digest bytes) size
  let metadata := metadataOf cache descriptorKey checksums size bytes
  commitMetadata cache paths.metadata descriptorKey environment.metadataNonce metadata
  return cachedArtifact paths metadata

/-- The key of a descriptor in a cache. -/
def ArtifactCache.key (cache : ArtifactCache) (artifact : SourceArtifact) (checksums : Checksums)
    (expectation : Option ArtifactValidationExpectation) : String :=
  descriptorKeyWithExpectation cache.sha256 artifact checksums expectation

/-- `commit_artifact_with_fs_and_expectation`. -/
def commitArtifactWithFsAndExpectation (cache : ArtifactCache) (artifact : SourceArtifact)
    (expectation : Option ArtifactValidationExpectation) (environment : CommitEnvironment) :
    CacheProgram CacheHit := do
  let checksums ← Faulty.check (validateChecksums artifact.upstreamChecksums)
  let descriptorKey := cache.key artifact checksums expectation
  let paths := CachePaths.new cache.root descriptorKey
  createCacheDirectories cache.root descriptorKey paths
  lockArtifact paths
  match ← loadHit cache paths descriptorKey artifact checksums with
  | some hit => return hit
  | none =>
    let partialPath := partialPathOf paths environment
    Faulty.recovering
      (commitMiss cache paths artifact checksums descriptorKey partialPath environment expectation)
      (discardAside partialPath)

/-- `probe_artifact`. -/
def probeArtifact (cache : ArtifactCache) (artifact : SourceArtifact)
    (expectation : ArtifactValidationExpectation) : CacheProgram (Option CacheHit) := do
  let checksums ← Faulty.check (validateChecksums artifact.upstreamChecksums)
  let descriptorKey := cache.key artifact checksums (some expectation)
  let paths := CachePaths.new cache.root descriptorKey
  createCacheDirectories cache.root descriptorKey paths
  lockArtifact paths
  loadHit cache paths descriptorKey artifact checksums

end Rsolve
