import Rsolve.Repository.Files

/-!
# Materializing a repository

A repository is built in a staging directory, recorded in a state temporary, bound to both by a
marker and only then published: the staging directory becomes the repository, the state temporary
the committed state, and the marker is removed. A later run first recovers what an interrupted one
left, and refuses what was left for another selection.
-/
open Keyed Checked Ordered Journal
open Program (perform look)

namespace Rsolve

/-- `unique_nonce`. -/
structure Nonce where
  /-- The process id. -/
  process : Nat
  /-- The time in nanoseconds. -/
  time : Nat
deriving DecidableEq

/-- The text of a nonce. -/
def Nonce.text (nonce : Nonce) : String :=
  toString nonce.process ++ "-" ++ toString nonce.time

/-- The name of a staging directory. -/
def stagingName (nonce : Nonce) : String := stagingStart ++ nonce.text

/-- The name of a state temporary. -/
def stateTempName (nonce : Nonce) : String := stateTempStart ++ nonce.text

/-- The name of a marker temporary. -/
def markerTempName (nonce : Nonce) : String := markerTempStart ++ nonce.text

/-- What one run takes from its surroundings. -/
structure Surroundings where
  /-- The nonce of the staging directory. -/
  staging : Nonce
  /-- The nonce of the state temporary. -/
  stateTemp : Nonce
  /-- The nonce of the marker temporary. -/
  markerTemp : Nonce
  /-- Whether the archive of an artifact can be cloned. -/
  clones : MaterializationArtifact → Bool

/-- A program on a project. -/
abbrev Materialize := Program Project Operation MaterializationError

/-- `valid_filename_component`. -/
def validFilenameComponent (value : String) : Bool :=
  !value.isEmpty && value != "." && value != ".." && value.toList.all (fun character =>
    character.isAlphanum || character == '.' || character == '-' || character == '_')

/-- The body of the loop of `validate_inputs`. -/
def validateInput (destinations packages : List String) (selected : MaterializationArtifact) :
    Except MaterializationError Unit := do
  let package := selected.package.text
  ensure (validFilenameComponent package = true ∧ validFilenameComponent selected.version.raw = true)
    (.invalidInput ("package or version is not a safe filename component: " ++ package ++ "_" ++
      selected.version.raw))
  match selected.identity.provenance.fixedVersion with
  | none => pure ()
  | some version =>
    ensure (Same version selected.version)
      (.provenanceVersionMismatch package selected.version.raw version.raw)
  ensure (destinationName selected ∉ destinations) (.duplicateDestination [destinationName selected])
  ensure (package ∉ packages) (.duplicatePackage package)
  ensure (selected.artifact.size ≠ 0)
    (.invalidInput ("cached artifact for " ++ package ++ " is empty"))

/-- The loop of `validate_inputs`, from the artifacts that were seen on. -/
def validateInputsFrom : List String → List String → List MaterializationArtifact →
    Except MaterializationError Unit
  | _, _, [] => .ok ()
  | destinations, packages, selected :: rest => do
    validateInput destinations packages selected
    validateInputsFrom (destinationName selected :: destinations)
      (selected.package.text :: packages) rest

/-- `validate_inputs`. -/
def validateInputs (artifacts : List MaterializationArtifact) : Except MaterializationError Unit :=
  validateInputsFrom [] [] artifacts

section Materializing

variable (format : StateFormat) (sha256 : List UInt8 → Sha256Digest)

/-- `read_state`. -/
def readState (project : Project) (name : String) :
    Except MaterializationError MaterializationState :=
  match project.get? name with
  | some (.file bytes) => (format.readState bytes).mapError (.invalidState [name])
  | _ => .error (.io "read materialization state" [name] "not a file")

/-- `read_transaction`. -/
def readTransaction (project : Project) (name : String) :
    Except MaterializationError MaterializationTransaction :=
  match project.get? name with
  | some (.file bytes) => (format.readTransaction bytes).mapError (.invalidState [name])
  | _ => .error (.io "read materialization transaction" [name] "not a file")

/-- The text of a state, for a file. -/
def encodeState (name : String) (state : MaterializationState) :
    Except MaterializationError (List UInt8) :=
  (format.writeState state).mapError (.invalidState [name])

/-- The text of a transaction, for a file. -/
def encodeTransaction (name : String) (transaction : MaterializationTransaction) :
    Except MaterializationError (List UInt8) :=
  (format.writeTransaction transaction).mapError (.invalidState [name])

/-- The index of a request. -/
def requestedPackages (requested : List MaterializationArtifact) :
    Except MaterializationError (List UInt8) :=
  (writePackages requested).mapError .packages

/-- The digest of the index of a request. -/
def requestedIndexSha256 (requested : List MaterializationArtifact) :
    Except MaterializationError String :=
  (requestedPackages requested).map (fun packages => (sha256 packages).text)

/-- `validate_index_digest`. -/
def validateIndexDigest (indexSha256 : String) (requested : List MaterializationArtifact) :
    Except MaterializationError Unit := do
  let digest ← requestedIndexSha256 sha256 requested
  ensure (digest = indexSha256) (.transactionConflict ["materialization transaction"]
    "PACKAGES digest does not match requested metadata and dependencies")

/-- `state_matches`. -/
def stateMatches (state : MaterializationState) (transaction : MaterializationTransaction)
    (requested : List MaterializationArtifact) : Bool :=
  state.schemaVersion == 2 && state.indexSha256 == transaction.indexSha256 &&
    state.records == transaction.records && recordsMatchRequested state.records requested

/-- The check of a directory that is validated or published. -/
def validateDirectory (project : Project) (name reason : String)
    (records : List MaterializationRecord) (indexSha256 : String) :
    Except MaterializationError Unit :=
  match project.get? name with
  | some (.directory entries) =>
    validateRepositoryContents sha256 [name] (.directory entries) records indexSha256
  | _ => .error (.transactionConflict [name] reason)

/-- The state temporary of a transaction, unless the state is committed already. -/
def inspectState (project : Project) (states : List String)
    (transaction : MaterializationTransaction) (requested : List MaterializationArtifact) :
    Except MaterializationError (Option MaterializationState) :=
  if (project.get? stateName).isSome ∧ states = [] then do
    let state ← readState format project stateName
    ensure (stateMatches state transaction requested = true)
      (.transactionConflict [stateName] "committed state differs from transaction")
    return none
  else do
    ensure (states = [transaction.stateTemp] ∧
        (project.get? transaction.stateTemp).any Node.isFile = true)
      (.transactionConflict [transactionName] "state temporary does not match marker")
    let state ← (readState format project transaction.stateTemp).mapError (fun cause =>
      .transactionConflict [transaction.stateTemp] ("invalid state temporary: " ++ cause.message))
    ensure (stateMatches state transaction requested = true)
      (.transactionConflict [transaction.stateTemp] "state temporary does not match transaction")
    if (project.get? stateName).isSome then
      let committed ← readState format project stateName
      ensure (committed = state)
        (.transactionConflict [stateName] "committed state differs from temporary state")
    return some state

/-- A marked transaction whose inputs were validated. -/
structure FoundTransaction where
  /-- The transaction. -/
  transaction : MaterializationTransaction
  /-- Whether the repository is published. -/
  published : Bool
  /-- The state temporary, unless the state is committed. -/
  temporaryState : Option MaterializationState

/-- The checks of `recover`, all before a change. -/
def inspectTransaction (project : Project) (requested : List MaterializationArtifact) :
    Except MaterializationError FoundTransaction := do
  let states := partialPaths project stateTempStart
  let markers := partialPaths project markerTempStart
  let stagings := partialPaths project stagingStart
  ensure ((project.get? transactionName).any Node.isFile = true)
    (.transactionConflict [transactionName] "transaction marker is not a regular file")
  ensure (markers = []) (.transactionConflict [transactionName]
    "transaction marker has an ambiguous temporary sibling")
  let transaction ← readTransaction format project transactionName
  ensure (transaction.schemaVersion = 2 ∧
      recordsMatchRequested transaction.records requested = true)
    (.transactionConflict [transactionName] "transaction records or schema do not match the request")
  validateIndexDigest sha256 transaction.indexSha256 requested
  ensure (safeTempName transaction.stateTemp stateTempStart = true)
    (.transactionConflict [transactionName] "invalid state temporary path")
  ensure (safeTempName transaction.stagingDir stagingStart = true)
    (.transactionConflict [transactionName] "invalid staging directory path")
  ensure (stagings = [] ∨ stagings = [transaction.stagingDir])
    (.transactionConflict [transactionName] "staging does not match transaction marker")
  let published := (project.get? repositoryName).isSome
  ensure (published ≠ (project.get? transaction.stagingDir).isSome)
    (.transactionConflict [transaction.stagingDir]
      "repository and staging must have exactly one existing path")
  ensure ((project.get? stateName).all Node.isFile = true)
    (.transactionConflict [stateName] "committed state is not a regular file")
  let temporaryState ← inspectState format project states transaction requested
  if published then
    validateDirectory sha256 project repositoryName "published repository is not a directory"
      transaction.records transaction.indexSha256
  else
    validateDirectory sha256 project transaction.stagingDir "staging path is not a directory"
      transaction.records transaction.indexSha256
  return ⟨transaction, published, temporaryState⟩

/-- `recover` with a marker. -/
def recoverMarked (requested : List MaterializationArtifact) : Materialize Unit := do
  let project ← look
  let found ← inspectTransaction format sha256 project requested
  unless found.published do
    perform (.rename found.transaction.stagingDir repositoryName)
  if found.temporaryState.isSome then
    if (project.get? stateName).isSome then perform (.remove found.transaction.stateTemp)
    else perform (.rename found.transaction.stateTemp stateName)
  perform (.remove transactionName)

/-- The transaction that binds a state temporary and a staging directory, which a marker temporary
has to agree with. -/
def orphanTransaction (project : Project) (state : MaterializationState)
    (stateTemp staging : String) (marker : Option String) :
    Except MaterializationError MaterializationTransaction :=
  let bound : MaterializationTransaction :=
    ⟨2, state.indexSha256, stateTemp, staging, state.records⟩
  match marker with
  | some marker => do
    ensure ((project.get? marker).any Node.isFile = true)
      (.transactionConflict [marker] "orphan marker is not regular")
    let transaction ← readTransaction format project marker
    ensure (transaction = bound)
      (.transactionConflict [marker] "orphan marker does not bind state and staging")
    return transaction
  | none => .ok bound

/-- The transaction of orphaned temporaries, with the name of its marker temporary if there is
one. -/
def inspectOrphans (project : Project) (states markers stagings : List String)
    (requested : List MaterializationArtifact) :
    Except MaterializationError (MaterializationTransaction × Option String) :=
  match states, stagings, markers with
  | [stateTemp], [staging], markers => do
    ensure (markers.length ≤ 1)
      (.transactionConflict [] "orphaned transaction temporaries are ambiguous")
    ensure ((project.get? stateTemp).any Node.isFile = true ∧
        (project.get? staging).any Node.isDirectory = true)
      (.transactionConflict [] "orphaned transaction has an unsafe filesystem type")
    let state ← (readState format project stateTemp).mapError (fun cause =>
      .transactionConflict [stateTemp] ("invalid orphan state: " ++ cause.message))
    ensure (state.schemaVersion = 2 ∧ recordsMatchRequested state.records requested = true)
      (.transactionConflict [stateTemp] "orphan state does not match request")
    let transaction ← orphanTransaction format project state stateTemp staging markers.head?
    validateIndexDigest sha256 transaction.indexSha256 requested
    validateDirectory sha256 project staging "orphaned transaction has an unsafe filesystem type"
      transaction.records transaction.indexSha256
    return (transaction, markers.head?)
  | _, _, _ => .error (.transactionConflict [] "orphaned transaction temporaries are ambiguous")

/-- `write_temp` — a new file. -/
def writeTemp (name : String) (bytes : List UInt8) : Materialize Unit := do
  let project ← look
  if (project.get? name).isSome then
    throw (.io "create materialization temporary" [name] "file exists")
  perform (.put name [] (.file bytes))

/-- `reconstruct` — publish the marker of orphaned temporaries. -/
def reconstruct (surroundings : Surroundings) (requested : List MaterializationArtifact) :
    Materialize Bool := do
  let project ← look
  let states := partialPaths project stateTempStart
  let markers := partialPaths project markerTempStart
  let stagings := partialPaths project stagingStart
  if states = [] ∧ markers = [] ∧ stagings = [] then return false
  let (transaction, marker) ← inspectOrphans format sha256 project states markers stagings requested
  match marker with
  | some marker => perform (.rename marker transactionName)
  | none =>
    let bytes ← encodeTransaction format (markerTempName surroundings.markerTemp) transaction
    writeTemp (markerTempName surroundings.markerTemp) bytes
    perform (.rename (markerTempName surroundings.markerTemp) transactionName)
  return true

/-- `recover`. After `reconstruct` there is a marker, so the recursive call takes the branch of a
marker. -/
def recover (surroundings : Surroundings) (requested : List MaterializationArtifact) :
    Materialize Unit := do
  let project ← look
  if (project.get? transactionName).isNone then
    if ← reconstruct format sha256 surroundings requested then
      recoverMarked format sha256 requested
  else recoverMarked format sha256 requested

/-- `verify_cache_object`. -/
def verifyCacheObject (cached : CachedArtifact) : Except MaterializationError Unit :=
  match cached.content with
  | none => .error (.invalidCacheObject cached.objectPath "cache object is not a regular file")
  | some bytes => ensure (bytes.length = cached.size ∧ (sha256 bytes).text = cached.sha256.text)
      (.invalidCacheObject cached.objectPath ("expected " ++ toString cached.size ++
        " bytes with SHA-256 " ++ cached.sha256.text ++ ", got " ++ toString bytes.length ++
        " bytes with " ++ (sha256 bytes).text))

/-- The path of an artifact in a repository. -/
def artifactPath (selected : MaterializationArtifact) : List String :=
  ["src", "contrib", destinationName selected]

/-- The body of the loop of `validate_existing_state`. -/
def validateExistingArtifact (project : Project) (state : MaterializationState)
    (selected : MaterializationArtifact) : Except MaterializationError Unit := do
  let conflict : MaterializationError :=
    .existingConflict (repositoryName :: artifactPath selected)
  match state.records.find? (fun record =>
      record.identity == Materialization.identityKey selected.identity &&
        record.artifactSha256 == selected.artifact.sha256.text) with
  | none => .error conflict
  | some record =>
    ensure (record.destination = destinationStart ++ destinationName selected ∧
      record.package = selected.package.text ∧ record.version = selected.version.raw ∧
      record.size = selected.artifact.size) conflict
    verifyCacheObject sha256 selected.artifact
    match (project.get? repositoryName).bind (Node.at? (artifactPath selected)) with
    | some (.file bytes) => ensure ((sha256 bytes).text = selected.artifact.sha256.text) conflict
    | _ => .error conflict

/-- `validate_existing_state`. -/
def validateExistingState (project : Project) (state : MaterializationState)
    (artifacts : List MaterializationArtifact) : Except MaterializationError Unit := do
  ensure (state.schemaVersion = 2 ∧ state.records.length = artifacts.length)
    (.invalidState [repositoryName] "state does not describe the requested artifact set")
  artifacts.forM (validateExistingArtifact sha256 project state)

/-- The branch of `materialize` with a committed state: a validated no-op. -/
def existingState (project : Project) (artifacts : List MaterializationArtifact) :
    Except MaterializationError MaterializationState := do
  ensure ((project.get? stateName).any Node.isFile = true)
    (.invalidState [stateName] "state path is not a regular file")
  let state ← readState format project stateName
  validateExistingState sha256 project state artifacts
  let digest ← requestedIndexSha256 sha256 artifacts
  ensure (digest = state.indexSha256)
    (.existingConflict [repositoryName, "src", "contrib", "PACKAGES"])
  validateDirectory sha256 project repositoryName "repository layout is not src/contrib"
    state.records state.indexSha256
  return state

/-- `ensure_gitignore`. -/
def ensureGitignore : Materialize Unit := do
  let project ← look
  match project.get? gitignoreName with
  | some (.file bytes) =>
    unless bytes = Framing.textBytes "*\n" do
      throw (.invalidInput (displayPath [gitignoreName] ++ " must contain exactly `*\\n`"))
  | some (.directory _) =>
    throw (.invalidInput (displayPath [gitignoreName] ++ " is not a regular file"))
  | none => perform (.put gitignoreName [] (.file (Framing.textBytes "*\n")))

/-- The lock file is created when it is not there. -/
def openLock : Materialize Unit := do
  let project ← look
  if (project.get? lockName).isNone then perform (.put lockName [] (.file []))

/-- `ensure_directory` below an entry of the project. -/
def ensureDirectory (name : String) (path : List String) : Materialize Unit := do
  let project ← look
  match (project.get? name).bind (Node.at? path) with
  | some (.directory _) => pure ()
  | some (.file _) => throw (.invalidInput (displayPath (name :: path) ++ " is not a directory"))
  | none => perform (.put name path (.directory []))

/-- The body of the loop of `materialize_files`: clone or copy one verified archive. -/
def materializeFile (surroundings : Surroundings) (staging : String)
    (selected : MaterializationArtifact) : Materialize MaterializationMethod := do
  verifyCacheObject sha256 selected.artifact
  let project ← look
  if ((project.get? staging).bind (Node.at? (artifactPath selected))).isSome then
    throw (.duplicateDestination (staging :: artifactPath selected))
  match selected.artifact.content with
  | none => throw (.io "clone cache object" (staging :: artifactPath selected) "not found")
  | some bytes => perform (.put staging (artifactPath selected) (.file bytes))
  return if surroundings.clones selected then .clone else .copy

/-- The loop of `materialize_files`. -/
def materializeEach (surroundings : Surroundings) (staging : String) :
    List MaterializationArtifact → Materialize (List MaterializationMethod)
  | [] => pure []
  | selected :: rest => do
    let method ← materializeFile sha256 surroundings staging selected
    return method :: (← materializeEach surroundings staging rest)

/-- `materialize_files`. -/
def materializeFiles (surroundings : Surroundings) (staging : String)
    (artifacts : List MaterializationArtifact) : Materialize (List MaterializationMethod) := do
  ensureDirectory staging ["src", "contrib"]
  materializeEach sha256 surroundings staging artifacts

/-- The state temporary of `materialize`; a failure removes the staging directory. -/
def writeStateTemp (surroundings : Surroundings) (state : MaterializationState) :
    Materialize Unit :=
  tryCatch (do
    let bytes ← encodeState format (stateTempName surroundings.stateTemp) state
    writeTemp (stateTempName surroundings.stateTemp) bytes) (fun cause => do
      perform (.remove (stagingName surroundings.staging))
      throw cause)

/-- The marker temporary of `materialize`; a failure removes what was prepared. -/
def writeTransactionTemp (surroundings : Surroundings) (transaction : MaterializationTransaction) :
    Materialize Unit :=
  tryCatch (do
    let bytes ← encodeTransaction format (markerTempName surroundings.markerTemp) transaction
    writeTemp (markerTempName surroundings.markerTemp) bytes) (fun cause => do
      perform (.remove (stateTempName surroundings.stateTemp))
      perform (.remove (stagingName surroundings.staging))
      throw cause)

/-- The part of `materialize` that builds the staging directory; a failure removes it. -/
def buildStaging (surroundings : Surroundings) (artifacts : List MaterializationArtifact)
    (packages : List UInt8) : Materialize (List MaterializationMethod) := do
  let staging := stagingName surroundings.staging
  ensureDirectory staging []
  let methods ← tryCatch (materializeFiles sha256 surroundings staging artifacts) (fun cause => do
    perform (.remove staging)
    throw cause)
  perform (.put staging ["src", "contrib", "PACKAGES"] (.file packages))
  return methods

/-- The part of `materialize` that publishes what was built. -/
def publish (surroundings : Surroundings) (state : MaterializationState) : Materialize Unit := do
  let staging := stagingName surroundings.staging
  let stateTemp := stateTempName surroundings.stateTemp
  writeStateTemp format surroundings state
  writeTransactionTemp format surroundings
    ⟨2, state.indexSha256, stateTemp, staging, state.records⟩
  perform (.rename (markerTempName surroundings.markerTemp) transactionName)
  perform (.rename staging repositoryName)
  perform (.rename stateTemp stateName)
  perform (.remove transactionName)

/-- The part of `materialize` without a committed state. -/
def materializeNew (surroundings : Surroundings) (requested : List MaterializationArtifact) :
    Materialize MaterializationState := do
  let artifacts := canonicalArtifacts requested
  let packages ← requestedPackages artifacts
  let methods ← buildStaging sha256 surroundings artifacts packages
  let state : MaterializationState :=
    ⟨2, (sha256 packages).text, List.zipWith recordFor artifacts methods⟩
  publish format surroundings state
  return state

/-- The part of `materialize` after the recovery. -/
def afterRecovery (surroundings : Surroundings) (requested : List MaterializationArtifact) :
    Materialize MaterializationState := do
  let project ← look
  if (project.get? stateName).isSome then
    let state ← existingState format sha256 project requested
    return state
  if (project.get? repositoryName).isSome then throw (.existingConflict [repositoryName])
  materializeNew format sha256 surroundings requested

/-- `materialize`. -/
def materialize (surroundings : Surroundings) (requested : List MaterializationArtifact) :
    Materialize MaterializationState := do
  ensureGitignore
  openLock
  validateInputs requested
  recover format sha256 surroundings requested
  afterRecovery format sha256 surroundings requested

end Materializing

end Rsolve
