import Rsolve.Repository.Contents
import Rsolve.Repository.Layout

/-!
# The phases of a transaction

A prepared transaction is a valid directory, a state and a marker that binds both. Publishing takes
it through six phases; a run for its artifacts takes it from any of them to the last, and a run for
other artifacts leaves it where it is.
-/
open Keyed Checked Ordered Journal

namespace Rsolve

/-- The format reads back what it writes, and a transaction is written whenever its state is: they
hold the same records. -/
structure StateFormat.Lawful (format : StateFormat) : Prop where
  /-- A written state is read back. -/
  readState : ∀ state bytes, format.writeState state = .ok bytes →
    format.readState bytes = .ok state
  /-- A written transaction is read back. -/
  readTransaction : ∀ transaction bytes, format.writeTransaction transaction = .ok bytes →
    format.readTransaction bytes = .ok transaction
  /-- A transaction can be written when its state can. -/
  together : ∀ (state : MaterializationState) bytes (stateTemp staging : Nonce),
    format.writeState state = .ok bytes → ∃ marker, format.writeTransaction
      ⟨2, state.indexSha256, stateTempName stateTemp, stagingName staging, state.records⟩ =
        .ok marker

/-- A prepared transaction. -/
structure Prepared where
  /-- The state to be committed. -/
  state : MaterializationState
  /-- The nonce of the staging directory. -/
  staging : Nonce
  /-- The nonce of the state temporary. -/
  stateTemp : Nonce
  /-- The directory to be published. -/
  tree : Node
  /-- The bytes of the state. -/
  stateBytes : List UInt8
  /-- The bytes of the marker. -/
  markerBytes : List UInt8

namespace Prepared

/-- The transaction of the marker. -/
def transaction (prepared : Prepared) : MaterializationTransaction :=
  ⟨2, prepared.state.indexSha256, stateTempName prepared.stateTemp, stagingName prepared.staging,
    prepared.state.records⟩

/-- The files of a prepared transaction are what they should be. -/
structure Sound (format : StateFormat) (sha256 : List UInt8 → Sha256Digest) (prepared : Prepared) :
    Prop where
  /-- The schema is the current one. -/
  schema : prepared.state.schemaVersion = 2
  /-- The state is read from its bytes. -/
  state : format.readState prepared.stateBytes = .ok prepared.state
  /-- The marker is read from its bytes. -/
  marker : format.readTransaction prepared.markerBytes = .ok prepared.transaction
  /-- The bytes of the marker are what is written for it. -/
  written : format.writeTransaction prepared.transaction = .ok prepared.markerBytes
  /-- The directory passes its validation. -/
  tree : ∃ entries files, prepared.tree = .directory entries ∧
    ValidRepository sha256 prepared.tree prepared.state.records prepared.state.indexSha256 files

/-- A request is recorded as a prepared transaction. -/
structure Records (sha256 : List UInt8 → Sha256Digest) (prepared : Prepared)
    (requested : List MaterializationArtifact) : Prop where
  /-- The records are those of the request. -/
  records : recordsMatchRequested prepared.state.records requested = true
  /-- The index is that of the request. -/
  index : requestedIndexSha256 sha256 requested = .ok prepared.state.indexSha256

end Prepared

/-- The phases of a transaction. -/
inductive Phase
  | prepared
  | noted (nonce : Nonce)
  | marked
  | published
  | committed
  | finished

/-- The layout of a transaction in a phase. -/
def Prepared.layout (prepared : Prepared) : Phase → Layout
  | .prepared => ⟨none, none, none, some (prepared.staging, prepared.tree),
      some (prepared.stateTemp, .file prepared.stateBytes), none⟩
  | .noted nonce => ⟨none, none, none, some (prepared.staging, prepared.tree),
      some (prepared.stateTemp, .file prepared.stateBytes),
      some (nonce, .file prepared.markerBytes)⟩
  | .marked => ⟨none, none, some (.file prepared.markerBytes),
      some (prepared.staging, prepared.tree),
      some (prepared.stateTemp, .file prepared.stateBytes), none⟩
  | .published => ⟨some prepared.tree, none, some (.file prepared.markerBytes), none,
      some (prepared.stateTemp, .file prepared.stateBytes), none⟩
  | .committed => ⟨some prepared.tree, some (.file prepared.stateBytes),
      some (.file prepared.markerBytes), none, none, none⟩
  | .finished => ⟨some prepared.tree, some (.file prepared.stateBytes), none, none, none, none⟩

/-- A project carries a prepared transaction in one of its phases. -/
def Prepared.Carried (prepared : Prepared) (project : Project) : Prop :=
  ∃ phase, Shows project (prepared.layout phase)

/-- A directory is published only when it passes the validation against the records and the index of
the request. -/
def Justified (sha256 : List UInt8 → Sha256Digest) (requested : List MaterializationArtifact)
    (project : Project) (operation : Operation) : Prop :=
  ∀ source, operation = .rename source repositoryName → ∃ tree records indexSha256,
    project.get? source = some tree ∧ recordsMatchRequested records requested = true ∧
      requestedIndexSha256 sha256 requested = .ok indexSha256 ∧
      validateRepositoryContents sha256 [source] tree records indexSha256 = .ok ()

/-- An operation that writes a state temporary. -/
def Operation.WritesState : Operation → Prop
  | .put name _ _ => startsWith stateTempStart name = true
  | .rename _ _ => False
  | .remove _ => False

section Recovery

variable {format : StateFormat} {sha256 : List UInt8 → Sha256Digest} {prepared : Prepared}
  {project : Project} {requested : List MaterializationArtifact}

/-- The directory of a prepared transaction passes under each of its names. -/
theorem Prepared.Sound.validateDirectory (sound : prepared.Sound format sha256) {name reason : String}
    (found : project.get? name = some prepared.tree) :
    validateDirectory sha256 project name reason prepared.state.records
      prepared.state.indexSha256 = .ok () := by
  obtain ⟨entries, files, isDirectory, valid⟩ := sound.tree
  rw [Rsolve.validateDirectory, found, isDirectory]
  exact validateRepositoryContents_eq_ok.mpr ⟨files, isDirectory ▸ valid⟩

/-- The state of a prepared transaction is read under each of its names. -/
theorem Prepared.Sound.readState (sound : prepared.Sound format sha256) {name : String}
    (found : project.get? name = some (.file prepared.stateBytes)) :
    readState format project name = .ok prepared.state := by
  rw [Rsolve.readState, found]
  simp only [sound.state]
  rfl

/-- The transaction is read under each name of the marker. -/
theorem Prepared.Sound.readTransaction (sound : prepared.Sound format sha256) {name : String}
    (found : project.get? name = some (.file prepared.markerBytes)) :
    readTransaction format project name = .ok prepared.transaction := by
  rw [Rsolve.readTransaction, found]
  simp only [sound.marker]
  rfl

/-- The index of the request passes. -/
theorem Prepared.Records.validateIndexDigest (records : prepared.Records sha256 requested) :
    validateIndexDigest sha256 prepared.state.indexSha256 requested = .ok () := by
  rw [Rsolve.validateIndexDigest, records.index, ok_bind]
  exact ensure_of rfl

/-- The state of the transaction matches. -/
theorem Prepared.Records.stateMatches (records : prepared.Records sha256 requested)
    (sound : prepared.Sound format sha256) :
    stateMatches prepared.state prepared.transaction requested = true := by
  simp [Rsolve.stateMatches, sound.schema, Prepared.transaction, records.records]

/-- The characters of a nonce are digits and hyphens. -/
theorem Nonce.mem_text (nonce : Nonce) {character : Char} (member : character ∈ nonce.text.toList) :
    character.isDigit = true ∨ character = '-' := by
  have digits : ∀ number : Nat, character ∈ (toString number).toList → character.isDigit = true := by
    intro number inside
    have digit : character ∈ Nat.toDigits 10 number := by
      simpa [toString, Nat.repr] using inside
    exact Nat.isDigit_of_mem_toDigits (by decide) (by decide) digit
  simp only [Nonce.text, String.toList_append, List.mem_append] at member
  rcases member with (first | hyphen) | second
  · exact .inl (digits _ first)
  · exact .inr (by simpa using hyphen)
  · exact .inl (digits _ second)

/-- Nonces are no path separators. -/
theorem Nonce.text_safe (nonce : Nonce) {character : Char} (member : character ∈ nonce.text.toList) :
    character ≠ '/' ∧ character ≠ '\\' := by
  have cases := nonce.mem_text member
  constructor
  all_goals
    rintro rfl
    exact absurd cases (by decide)

/-- The names that a run makes are safe. -/
theorem safeTempName_append {start : String} (nonce : Nonce)
    (plain : start.toList.contains '/' = false ∧ start.toList.contains '\\' = false ∧
      2 < start.toList.length) : safeTempName (start ++ nonce.text) start = true := by
  obtain ⟨slash, backslash, long⟩ := plain
  have length : 2 < (start ++ nonce.text).toList.length := by
    rw [String.toList_append, List.length_append]
    omega
  have other : ∀ text : String, text.toList.length ≤ 2 → start ++ nonce.text ≠ text := by
    rintro text short rfl
    omega
  have bare : ∀ separator : Char, start.toList.contains separator = false →
      separator = '/' ∨ separator = '\\' →
      (start ++ nonce.text).toList.contains separator = false := by
    intro separator outside kind
    rw [String.toList_append, List.contains_eq_mem, decide_eq_false_iff_not, List.mem_append,
      not_or]
    rw [List.contains_eq_mem, decide_eq_false_iff_not] at outside
    refine ⟨outside, fun inside => ?_⟩
    have safe := nonce.text_safe inside
    rcases kind with rfl | rfl
    · exact safe.1 rfl
    · exact safe.2 rfl
  have nonempty : (start ++ nonce.text).isEmpty = false := by
    rw [Bool.eq_false_iff, ne_eq, String.isEmpty_iff]
    exact other "" (by decide)
  rw [safeTempName, nonempty, bare '/' slash (.inl rfl), bare '\\' backslash (.inr rfl),
    startsWith_append, bne_iff_ne.mpr (other "." (by decide)), bne_iff_ne.mpr (other ".." (by decide))]
  rfl

/-- The names of a prepared transaction are safe. -/
theorem safeTempName_names (nonce : Nonce) :
    safeTempName (stateTempName nonce) stateTempStart = true ∧
      safeTempName (stagingName nonce) stagingStart = true :=
  ⟨safeTempName_append nonce (by decide), safeTempName_append nonce (by decide)⟩

/-- A request whose index passes has the index. -/
theorem index_of_validateIndexDigest {indexSha256 : String}
    (accepted : validateIndexDigest sha256 indexSha256 requested = .ok ()) :
    requestedIndexSha256 sha256 requested = .ok indexSha256 := by
  rw [validateIndexDigest, bind_eq_ok] at accepted
  obtain ⟨digest, found, equal⟩ := accepted
  rw [found, ensure_eq_ok.mp equal]

/-- A marked transaction that passes the checks records the request. -/
theorem records_of_inspectTransaction (sound : prepared.Sound format sha256)
    (marker : project.get? transactionName = some (.file prepared.markerBytes))
    {found : FoundTransaction}
    (inspected : inspectTransaction format sha256 project requested = .ok found) :
    prepared.Records sha256 requested := by
  simp only [inspectTransaction, bind_eq_ok, ensure_eq_ok] at inspected
  obtain ⟨_, -, _, -, transaction, read, _, ⟨-, records⟩, _, index, -⟩ := inspected
  rw [sound.readTransaction marker] at read
  cases read
  exact ⟨records, index_of_validateIndexDigest index⟩

/-- The state temporary is found as the state of the transaction. -/
theorem inspectState_temporary (sound : prepared.Sound format sha256)
    (records : prepared.Records sha256 requested) (uncommitted : project.get? stateName = none)
    (stateTemp : project.get? (stateTempName prepared.stateTemp) =
      some (.file prepared.stateBytes)) :
    inspectState format project [stateTempName prepared.stateTemp] prepared.transaction requested =
      .ok (some prepared.state) := by
  rw [inspectState, if_neg (by simp [uncommitted]), ensure_of ⟨rfl, by
    change (project.get? (stateTempName prepared.stateTemp)).any Node.isFile = true
    rw [stateTemp]
    rfl⟩, ok_bind]
  have read : readState format project prepared.transaction.stateTemp = .ok prepared.state :=
    sound.readState stateTemp
  rw [read]
  simp only [Except.mapError, ok_bind, ensure_of (records.stateMatches sound), uncommitted,
    Option.isSome_none, Bool.false_eq_true, if_false]
  rfl

/-- The committed state is found as the state of the transaction. -/
theorem inspectState_committed (sound : prepared.Sound format sha256)
    (records : prepared.Records sha256 requested)
    (committed : project.get? stateName = some (.file prepared.stateBytes)) :
    inspectState format project [] prepared.transaction requested = .ok none := by
  rw [inspectState, if_pos (by simp [committed]), sound.readState committed, ok_bind,
    ensure_of (records.stateMatches sound)]
  rfl

/-- What the checks find in a marked transaction that records the request. -/
theorem inspectTransaction_of_records (sound : prepared.Sound format sha256)
    (records : prepared.Records sha256 requested)
    (marker : project.get? transactionName = some (.file prepared.markerBytes))
    (markers : partialPaths project markerTempStart = [])
    (stagings : partialPaths project stagingStart = [] ∨
      partialPaths project stagingStart = [stagingName prepared.staging])
    (place : if (project.get? repositoryName).isSome = true then
        project.get? repositoryName = some prepared.tree ∧
          project.get? (stagingName prepared.staging) = none
      else project.get? (stagingName prepared.staging) = some prepared.tree)
    (committed : (project.get? stateName).all Node.isFile = true)
    {temporaryState : Option MaterializationState}
    (state : inspectState format project (partialPaths project stateTempStart) prepared.transaction
      requested = .ok temporaryState) :
    inspectTransaction format sha256 project requested =
      .ok ⟨prepared.transaction, (project.get? repositoryName).isSome, temporaryState⟩ := by
  have read : readTransaction format project transactionName = .ok prepared.transaction :=
    sound.readTransaction marker
  have matching : prepared.transaction.schemaVersion = 2 ∧
      recordsMatchRequested prepared.transaction.records requested = true := ⟨rfl, records.records⟩
  have index : validateIndexDigest sha256 prepared.transaction.indexSha256 requested = .ok () :=
    records.validateIndexDigest
  have apart : (project.get? repositoryName).isSome ≠
      (project.get? prepared.transaction.stagingDir).isSome := by
    change (project.get? repositoryName).isSome ≠
      (project.get? (stagingName prepared.staging)).isSome
    split at place
    · next published => rw [published, place.2]; simp
    · next unpublished => rw [Bool.not_eq_true] at unpublished; rw [unpublished, place]; simp
  have safeState : safeTempName prepared.transaction.stateTemp stateTempStart = true :=
    (safeTempName_names prepared.stateTemp).1
  have safeStaging : safeTempName prepared.transaction.stagingDir stagingStart = true :=
    (safeTempName_names prepared.staging).2
  have named : partialPaths project stagingStart = [] ∨
      partialPaths project stagingStart = [prepared.transaction.stagingDir] := stagings
  unfold inspectTransaction
  rw [marker, markers]
  simp only [Option.any_some, Node.isFile, ensure_of, ok_bind, read]
  rw [ensure_of matching, ok_bind, index, ok_bind,
    ensure_of safeState, ok_bind, ensure_of safeStaging, ok_bind, ensure_of named, ok_bind,
    ensure_of apart, ok_bind, ensure_of committed, ok_bind, state, ok_bind]
  split at place
  · next published =>
    have valid : validateDirectory sha256 project repositoryName
        "published repository is not a directory" prepared.transaction.records
        prepared.transaction.indexSha256 = .ok () := sound.validateDirectory place.1
    rw [if_pos published, valid]
    rfl
  · next unpublished =>
    have valid : validateDirectory sha256 project prepared.transaction.stagingDir
        "staging path is not a directory" prepared.transaction.records
        prepared.transaction.indexSha256 = .ok () := sound.validateDirectory place
    rw [if_neg unpublished, valid]
    rfl

end Recovery

section Finishing

variable {format : StateFormat} {sha256 : List UInt8 → Sha256Digest} {prepared : Prepared}
  {project : Project} {requested : List MaterializationArtifact}

/-- An operation is justified for a request, writes no state temporary and spares what is not
tracked. -/
def Recovers (sha256 : List UInt8 → Sha256Digest) (requested : List MaterializationArtifact)
    (project : Project) (operation : Operation) : Prop :=
  Justified sha256 requested project operation ∧ ¬ operation.WritesState ∧ operation.Spares

/-- Operations that take a transaction to its last phase, through its phases only. -/
def Finishes (sha256 : List UInt8 → Sha256Digest) (prepared : Prepared)
    (requested : List MaterializationArtifact) (operations : List Operation) (project : Project) :
    Prop :=
  Guarded prepared.Carried (Recovers sha256 requested) operations project ∧
    Shows (replay operations project) (prepared.layout .finished)

/-- An operation in a phase, before others that finish. -/
theorem Finishes.step {phase : Phase} {operation : Operation} {operations : List Operation}
    (shown : Shows project (prepared.layout phase))
    (recovers : Recovers sha256 requested project operation)
    (finishes : Finishes sha256 prepared requested operations (apply operation project)) :
    Finishes sha256 prepared requested (operation :: operations) project :=
  ⟨⟨⟨phase, shown⟩, recovers, finishes.1⟩, finishes.2⟩

/-- An operation that publishes no repository is justified. -/
theorem justified_of_other {operation : Operation}
    (other : ∀ source, operation ≠ .rename source repositoryName) :
    Justified sha256 requested project operation :=
  fun source equal => absurd equal (other source)

/-- A finished transaction needs nothing. -/
theorem finishes_finished (shown : Shows project (prepared.layout .finished)) :
    Finishes sha256 prepared requested [] project :=
  ⟨⟨.finished, shown⟩, shown⟩

/-- A committed transaction is finished by removing its marker. -/
theorem finishes_committed (shown : Shows project (prepared.layout .committed)) :
    Finishes sha256 prepared requested [.remove transactionName] project := by
  have taken : Shows (apply (Operation.remove transactionName) project)
      (prepared.layout .finished) := shown.remove_marker
  exact .step shown ⟨justified_of_other (by simp), id, .inr (.inr (.inl rfl))⟩
    (finishes_finished taken)

/-- A published transaction is finished by committing its state. -/
theorem finishes_published (shown : Shows project (prepared.layout .published)) :
    Finishes sha256 prepared requested
      [.rename (stateTempName prepared.stateTemp) stateName, .remove transactionName] project := by
  have taken : Shows (apply (Operation.rename (stateTempName prepared.stateTemp) stateName) project)
      (prepared.layout .committed) := shown.rename_stateTemp rfl
  refine .step shown ⟨justified_of_other fun source equal => ?_, id, tracked_stateTempName _⟩
    (finishes_committed taken)
  exact absurd (Operation.rename.inj equal).2 (by decide)

/-- A marked transaction is finished by publishing its directory. -/
theorem finishes_marked (sound : prepared.Sound format sha256)
    (records : prepared.Records sha256 requested)
    (shown : Shows project (prepared.layout .marked)) :
    Finishes sha256 prepared requested
      [.rename (stagingName prepared.staging) repositoryName,
        .rename (stateTempName prepared.stateTemp) stateName, .remove transactionName] project := by
  have taken : Shows
      (apply (Operation.rename (stagingName prepared.staging) repositoryName) project)
      (prepared.layout .published) := shown.rename_staging rfl
  refine .step shown ⟨fun source equal => ?_, id, tracked_stagingName _⟩ (finishes_published taken)
  obtain ⟨rfl, -⟩ := Operation.rename.inj equal
  obtain ⟨entries, files, -, valid⟩ := sound.tree
  exact ⟨prepared.tree, prepared.state.records, prepared.state.indexSha256,
    shown.get?_staging rfl, records.records, records.index,
    validateRepositoryContents_eq_ok.mpr ⟨files, valid⟩⟩

/-- A transaction whose marker temporary is written is finished by renaming it first. -/
theorem finishes_noted (sound : prepared.Sound format sha256)
    (records : prepared.Records sha256 requested) {nonce : Nonce}
    (shown : Shows project (prepared.layout (.noted nonce))) :
    Finishes sha256 prepared requested
      [.rename (markerTempName nonce) transactionName,
        .rename (stagingName prepared.staging) repositoryName,
        .rename (stateTempName prepared.stateTemp) stateName, .remove transactionName] project := by
  have taken : Shows (apply (Operation.rename (markerTempName nonce) transactionName) project)
      (prepared.layout .marked) := shown.rename_markerTemp rfl
  refine .step shown ⟨justified_of_other fun source equal => ?_, id, tracked_markerTempName _⟩
    (finishes_marked sound records taken)
  exact absurd (Operation.rename.inj equal).2 (by decide)

/-- A prepared transaction is finished by writing a marker temporary first. -/
theorem finishes_prepared (sound : prepared.Sound format sha256)
    (records : prepared.Records sha256 requested) (nonce : Nonce)
    (shown : Shows project (prepared.layout .prepared)) :
    Finishes sha256 prepared requested
      [.put (markerTempName nonce) [] (.file prepared.markerBytes),
        .rename (markerTempName nonce) transactionName,
        .rename (stagingName prepared.staging) repositoryName,
        .rename (stateTempName prepared.stateTemp) stateName, .remove transactionName] project := by
  have taken : Shows
      (apply (Operation.put (markerTempName nonce) [] (.file prepared.markerBytes)) project)
      (prepared.layout (.noted nonce)) := shown.put_markerTemp nonce _ rfl
  refine .step shown ⟨justified_of_other (by simp), ?_, trivial⟩
    (finishes_noted sound records taken)
  simp [Operation.WritesState]

/-- Recovery with a marker finishes a transaction that records the request. -/
theorem recoverMarked_marked (sound : prepared.Sound format sha256)
    (records : prepared.Records sha256 requested)
    (shown : Shows project (prepared.layout .marked)) :
    (recoverMarked format sha256 requested).run project =
      ([.rename (stagingName prepared.staging) repositoryName,
        .rename (stateTempName prepared.stateTemp) stateName, .remove transactionName], .ok ()) := by
  have repository : project.get? repositoryName = none := shown.repository
  have uncommitted : project.get? stateName = none := shown.state
  have staging : project.get? (stagingName prepared.staging) = some prepared.tree :=
    shown.get?_staging rfl
  have states : partialPaths project stateTempStart = [stateTempName prepared.stateTemp] :=
    shown.states
  have inspected := inspectTransaction_of_records sound records shown.marker shown.markers
    (.inr shown.stagings) (by rw [repository]; exact staging) (by rw [uncommitted]; rfl)
    (states ▸ inspectState_temporary sound records uncommitted (shown.get?_stateTemp rfl))
  unfold recoverMarked
  rw [Program.run_look_bind, Program.run_lift_bind_ok _ _ inspected]
  simp [repository, uncommitted, Program.run_perform_bind, Prepared.transaction]

/-- Recovery of a published transaction. -/
theorem recoverMarked_published (sound : prepared.Sound format sha256)
    (records : prepared.Records sha256 requested)
    (shown : Shows project (prepared.layout .published)) :
    (recoverMarked format sha256 requested).run project =
      ([.rename (stateTempName prepared.stateTemp) stateName, .remove transactionName],
        .ok ()) := by
  have repository : project.get? repositoryName = some prepared.tree := shown.repository
  have uncommitted : project.get? stateName = none := shown.state
  have unstaged : project.get? (stagingName prepared.staging) = none :=
    shown.staging _ (stagingStart_stagingName prepared.staging)
  have states : partialPaths project stateTempStart = [stateTempName prepared.stateTemp] :=
    shown.states
  have inspected := inspectTransaction_of_records sound records shown.marker shown.markers
    (.inl shown.stagings) (by rw [repository]; exact ⟨rfl, unstaged⟩) (by rw [uncommitted]; rfl)
    (states ▸ inspectState_temporary sound records uncommitted (shown.get?_stateTemp rfl))
  unfold recoverMarked
  rw [Program.run_look_bind, Program.run_lift_bind_ok _ _ inspected]
  simp [repository, uncommitted, Program.run_perform_bind, Prepared.transaction]

/-- Recovery of a committed transaction. -/
theorem recoverMarked_committed (sound : prepared.Sound format sha256)
    (records : prepared.Records sha256 requested)
    (shown : Shows project (prepared.layout .committed)) :
    (recoverMarked format sha256 requested).run project =
      ([.remove transactionName], .ok ()) := by
  have repository : project.get? repositoryName = some prepared.tree := shown.repository
  have committed : project.get? stateName = some (.file prepared.stateBytes) := shown.state
  have unstaged : project.get? (stagingName prepared.staging) = none :=
    shown.staging _ (stagingStart_stagingName prepared.staging)
  have states : partialPaths project stateTempStart = [] := shown.states
  have inspected := inspectTransaction_of_records sound records shown.marker shown.markers
    (.inl shown.stagings) (by rw [repository]; exact ⟨rfl, unstaged⟩) (by rw [committed]; rfl)
    (states ▸ inspectState_committed sound records committed)
  unfold recoverMarked
  rw [Program.run_look_bind, Program.run_lift_bind_ok _ _ inspected]
  simp [repository]

/-- Recovery refuses a marked transaction that does not record the request. -/
theorem recoverMarked_foreign (sound : prepared.Sound format sha256)
    (foreign : ¬ prepared.Records sha256 requested)
    (marker : project.get? transactionName = some (.file prepared.markerBytes)) :
    ∃ cause, (recoverMarked format sha256 requested).run project = ([], .error cause) := by
  unfold recoverMarked
  rw [Program.run_look_bind]
  cases inspected : inspectTransaction format sha256 project requested with
  | ok found => exact absurd (records_of_inspectTransaction sound marker inspected) foreign
  | error cause => exact ⟨cause, Program.run_lift_bind_error _ _ rfl⟩

/-- A temporary is written when its name is new. -/
theorem writeTemp_run {name : String} (bytes : List UInt8) (absent : project.get? name = none) :
    (writeTemp name bytes).run project = ([.put name [] (.file bytes)], .ok ()) := by
  unfold writeTemp
  rw [Program.run_look_bind, absent]
  rfl

/-- The transaction of orphaned temporaries binds them. -/
theorem eq_of_orphanTransaction {state : MaterializationState} {stateTemp staging : String}
    {marker : Option String} {transaction : MaterializationTransaction}
    (bound : orphanTransaction format project state stateTemp staging marker = .ok transaction) :
    transaction = ⟨2, state.indexSha256, stateTemp, staging, state.records⟩ := by
  cases marker with
  | none =>
    cases bound
    rfl
  | some name =>
    simp only [orphanTransaction, bind_eq_ok, ensure_eq_ok] at bound
    obtain ⟨_, -, read, -, _, equal, final⟩ := bound
    cases final
    exact equal

/-- Orphaned temporaries that pass the checks record the request. -/
theorem records_of_inspectOrphans (sound : prepared.Sound format sha256)
    (shown : Shows project (prepared.layout .prepared) ∨
      ∃ nonce, Shows project (prepared.layout (.noted nonce))) {markers : List String}
    {found : MaterializationTransaction × Option String}
    (inspected : inspectOrphans format sha256 project [stateTempName prepared.stateTemp] markers
      [stagingName prepared.staging] requested = .ok found) :
    prepared.Records sha256 requested := by
  have stateTemp : project.get? (stateTempName prepared.stateTemp) =
      some (.file prepared.stateBytes) := by
    rcases shown with shown | ⟨nonce, shown⟩ <;> exact shown.get?_stateTemp rfl
  simp only [inspectOrphans, bind_eq_ok, ensure_eq_ok, mapError_eq_ok] at inspected
  obtain ⟨_, -, _, -, state, read, _, ⟨-, records⟩, transaction, bound, _, index, -⟩ := inspected
  rw [sound.readState stateTemp] at read
  cases read
  refine ⟨records, ?_⟩
  have index := index_of_validateIndexDigest index
  rwa [eq_of_orphanTransaction bound] at index

/-- What the checks find in orphaned temporaries that record the request. -/
theorem inspectOrphans_of_records (sound : prepared.Sound format sha256)
    (records : prepared.Records sha256 requested) {markers : List String}
    (stateTemp : project.get? (stateTempName prepared.stateTemp) =
      some (.file prepared.stateBytes))
    (staging : project.get? (stagingName prepared.staging) = some prepared.tree)
    (few : markers.length ≤ 1)
    (marker : ∀ name ∈ markers.head?,
      project.get? name = some (.file prepared.markerBytes)) :
    inspectOrphans format sha256 project [stateTempName prepared.stateTemp] markers
      [stagingName prepared.staging] requested = .ok (prepared.transaction, markers.head?) := by
  obtain ⟨entries, files, isDirectory, -⟩ := sound.tree
  have kinds : (project.get? (stateTempName prepared.stateTemp)).any Node.isFile = true ∧
      (project.get? (stagingName prepared.staging)).any Node.isDirectory = true := by
    rw [stateTemp, staging, isDirectory]
    exact ⟨rfl, rfl⟩
  have valid : validateDirectory sha256 project (stagingName prepared.staging)
      "orphaned transaction has an unsafe filesystem type" prepared.transaction.records
      prepared.transaction.indexSha256 = .ok () := sound.validateDirectory staging
  have index : validateIndexDigest sha256 prepared.transaction.indexSha256 requested = .ok () :=
    records.validateIndexDigest
  have bound : orphanTransaction format project prepared.state (stateTempName prepared.stateTemp)
      (stagingName prepared.staging) markers.head? = .ok prepared.transaction := by
    cases found : markers.head? with
    | none => rfl
    | some name =>
      have present := marker name found
      have isFile : (project.get? name).any Node.isFile = true := by
        rw [present]
        rfl
      have equal : prepared.transaction = ⟨2, prepared.state.indexSha256,
        stateTempName prepared.stateTemp, stagingName prepared.staging, prepared.state.records⟩ := rfl
      simp only [orphanTransaction]
      rw [ensure_of isFile, ok_bind, sound.readTransaction present, ok_bind, ensure_of equal]
      rfl
  simp only [inspectOrphans, sound.readState stateTemp, Except.mapError]
  rw [ensure_of few, ok_bind, ensure_of kinds, ok_bind, ok_bind,
    ensure_of ⟨sound.schema, records.records⟩, ok_bind, bound, ok_bind, index, ok_bind, valid]
  rfl

/-- Orphaned temporaries without a marker temporary get a marker. -/
theorem reconstruct_prepared (sound : prepared.Sound format sha256)
    (records : prepared.Records sha256 requested) (surroundings : Surroundings)
    (shown : Shows project (prepared.layout .prepared)) :
    (reconstruct format sha256 surroundings requested).run project =
      ([.put (markerTempName surroundings.markerTemp) [] (.file prepared.markerBytes),
        .rename (markerTempName surroundings.markerTemp) transactionName], .ok true) := by
  have states : partialPaths project stateTempStart = [stateTempName prepared.stateTemp] :=
    shown.states
  have markers : partialPaths project markerTempStart = [] := shown.markers
  have stagings : partialPaths project stagingStart = [stagingName prepared.staging] :=
    shown.stagings
  have absent : project.get? (markerTempName surroundings.markerTemp) = none :=
    shown.markerTemp _ (markerTempStart_markerTempName _)
  have inspected : inspectOrphans format sha256 project [stateTempName prepared.stateTemp] []
      [stagingName prepared.staging] requested = .ok (prepared.transaction, none) :=
    inspectOrphans_of_records sound records (shown.get?_stateTemp rfl) (shown.get?_staging rfl)
      (by simp) (by simp)
  have encoded : encodeTransaction format (markerTempName surroundings.markerTemp)
      prepared.transaction = .ok prepared.markerBytes := by
    rw [encodeTransaction, sound.written]
    rfl
  have written := writeTemp_run prepared.markerBytes absent
  unfold reconstruct
  rw [Program.run_look_bind]
  simp only [states, markers, stagings]
  rw [if_neg (by simp), Program.run_lift_bind_ok _ _ inspected]
  change (liftM (encodeTransaction _ _ _) >>= fun bytes => _ : Materialize _).run project = _
  rw [Program.run_lift_bind_ok _ _ encoded]
  rw [Program.run_bind_ok written, Program.run_perform_bind]
  rfl

/-- Orphaned temporaries with a marker temporary get it as their marker. -/
theorem reconstruct_noted (sound : prepared.Sound format sha256)
    (records : prepared.Records sha256 requested) (surroundings : Surroundings) {nonce : Nonce}
    (shown : Shows project (prepared.layout (.noted nonce))) :
    (reconstruct format sha256 surroundings requested).run project =
      ([.rename (markerTempName nonce) transactionName], .ok true) := by
  have states : partialPaths project stateTempStart = [stateTempName prepared.stateTemp] :=
    shown.states
  have markers : partialPaths project markerTempStart = [markerTempName nonce] := shown.markers
  have stagings : partialPaths project stagingStart = [stagingName prepared.staging] :=
    shown.stagings
  have inspected : inspectOrphans format sha256 project [stateTempName prepared.stateTemp]
      [markerTempName nonce] [stagingName prepared.staging] requested =
        .ok (prepared.transaction, some (markerTempName nonce)) :=
    inspectOrphans_of_records sound records (shown.get?_stateTemp rfl) (shown.get?_staging rfl)
      (by simp) (by simpa using shown.get?_markerTemp rfl)
  unfold reconstruct
  rw [Program.run_look_bind]
  simp only [states, markers, stagings]
  rw [if_neg (by simp), Program.run_lift_bind_ok _ _ inspected]
  rfl

/-- Recovery with a marker goes on with it. -/
theorem recover_marker (surroundings : Surroundings) {marker : Node}
    (present : project.get? transactionName = some marker) :
    (recover format sha256 surroundings requested).run project =
      (recoverMarked format sha256 requested).run project := by
  unfold recover
  rw [Program.run_look_bind, present]
  rfl

/-- Recovery without a marker goes on when a marker was reconstructed. -/
theorem recover_reconstructed (surroundings : Surroundings) {operations : List Operation}
    (absent : project.get? transactionName = none)
    (rebuilt : (reconstruct format sha256 surroundings requested).run project =
      (operations, .ok true)) :
    (recover format sha256 surroundings requested).run project =
      (operations ++
          ((recoverMarked format sha256 requested).run (replay operations project)).1,
        ((recoverMarked format sha256 requested).run (replay operations project)).2) := by
  unfold recover
  rw [Program.run_look_bind, absent]
  exact Program.run_bind_ok rebuilt

/-- Recovery without a marker has nothing to do when there was nothing to reconstruct. -/
theorem recover_nothing (surroundings : Surroundings)
    (absent : project.get? transactionName = none)
    (nothing : partialPaths project stateTempStart = [] ∧
      partialPaths project markerTempStart = [] ∧ partialPaths project stagingStart = []) :
    (recover format sha256 surroundings requested).run project = ([], .ok ()) := by
  have rebuilt : (reconstruct format sha256 surroundings requested).run project =
      ([], .ok false) := by
    unfold reconstruct
    rw [Program.run_look_bind]
    simp only [if_pos nothing]
    rfl
  unfold recover
  rw [Program.run_look_bind, absent]
  exact Program.run_bind_ok rebuilt

/-- Recovery finishes a transaction that records the request. -/
theorem recover_records (sound : prepared.Sound format sha256)
    (records : prepared.Records sha256 requested) (surroundings : Surroundings) {phase : Phase}
    (shown : Shows project (prepared.layout phase)) :
    ∃ operations,
      (recover format sha256 surroundings requested).run project = (operations, .ok ()) ∧
        Finishes sha256 prepared requested operations project := by
  cases phase with
  | prepared =>
    have noted : Shows (apply (Operation.put (markerTempName surroundings.markerTemp) []
        (.file prepared.markerBytes)) project)
          (prepared.layout (.noted surroundings.markerTemp)) := shown.put_markerTemp _ _ rfl
    have marked : Shows (replay [Operation.put (markerTempName surroundings.markerTemp) []
        (.file prepared.markerBytes),
          Operation.rename (markerTempName surroundings.markerTemp) transactionName] project)
            (prepared.layout .marked) := noted.rename_markerTemp rfl
    have ran := recover_reconstructed surroundings shown.marker
      (reconstruct_prepared sound records surroundings shown)
    rw [recoverMarked_marked sound records marked] at ran
    exact ⟨_, ran, finishes_prepared sound records surroundings.markerTemp shown⟩
  | noted nonce =>
    have marked : Shows (replay [Operation.rename (markerTempName nonce) transactionName] project)
        (prepared.layout .marked) := shown.rename_markerTemp rfl
    have ran := recover_reconstructed surroundings shown.marker
      (reconstruct_noted sound records surroundings shown)
    rw [recoverMarked_marked sound records marked] at ran
    exact ⟨_, ran, finishes_noted sound records shown⟩
  | marked =>
    exact ⟨_, (recover_marker surroundings shown.marker).trans
      (recoverMarked_marked sound records shown), finishes_marked sound records shown⟩
  | published =>
    exact ⟨_, (recover_marker surroundings shown.marker).trans
      (recoverMarked_published sound records shown), finishes_published shown⟩
  | committed =>
    exact ⟨_, (recover_marker surroundings shown.marker).trans
      (recoverMarked_committed sound records shown), finishes_committed shown⟩
  | finished =>
    exact ⟨[], recover_nothing surroundings shown.marker
      ⟨shown.states, shown.markers, shown.stagings⟩, finishes_finished shown⟩

/-- Recovery refuses a transaction that does not record the request, and changes nothing. -/
theorem recover_foreign (sound : prepared.Sound format sha256)
    (foreign : ¬ prepared.Records sha256 requested) (surroundings : Surroundings) {phase : Phase}
    (running : phase ≠ .finished) (shown : Shows project (prepared.layout phase)) :
    ∃ cause, (recover format sha256 surroundings requested).run project = ([], .error cause) := by
  have marked : project.get? transactionName = some (.file prepared.markerBytes) →
      ∃ cause, (recover format sha256 surroundings requested).run project = ([], .error cause) := by
    intro marker
    rw [recover_marker surroundings marker]
    exact recoverMarked_foreign sound foreign marker
  have orphaned : ∀ markers, partialPaths project markerTempStart = markers →
      (Shows project (prepared.layout .prepared) ∨
        ∃ nonce, Shows project (prepared.layout (.noted nonce))) →
      ∃ cause, (recover format sha256 surroundings requested).run project = ([], .error cause) := by
    intro markers named early
    have states : partialPaths project stateTempStart = [stateTempName prepared.stateTemp] := by
      rcases early with shown | ⟨nonce, shown⟩ <;> exact shown.states
    have stagings : partialPaths project stagingStart = [stagingName prepared.staging] := by
      rcases early with shown | ⟨nonce, shown⟩ <;> exact shown.stagings
    have absent : project.get? transactionName = none := by
      rcases early with shown | ⟨nonce, shown⟩ <;> exact shown.marker
    cases inspected : inspectOrphans format sha256 project [stateTempName prepared.stateTemp]
        markers [stagingName prepared.staging] requested with
    | ok found => exact absurd (records_of_inspectOrphans sound early inspected) foreign
    | error cause =>
      refine ⟨cause, ?_⟩
      unfold recover reconstruct
      rw [Program.run_look_bind, absent]
      refine Program.run_bind_error ?_
      rw [Program.run_look_bind]
      simp only [states, named, stagings]
      rw [if_neg (by simp), Program.run_lift_bind_error _ _ inspected]
  cases phase with
  | prepared => exact orphaned _ rfl (.inl shown)
  | noted nonce => exact orphaned _ rfl (.inr ⟨nonce, shown⟩)
  | marked => exact marked shown.marker
  | published => exact marked shown.marker
  | committed => exact marked shown.marker
  | finished => exact absurd rfl running

/-- Recovery refuses a staging directory without a state temporary, and changes nothing. -/
theorem recover_building (surroundings : Surroundings) {staging : Nonce × Node}
    (shown : Shows project ⟨none, none, none, some staging, none, none⟩) :
    (recover format sha256 surroundings requested).run project =
      ([], .error (.transactionConflict [] "orphaned transaction temporaries are ambiguous")) := by
  have states : partialPaths project stateTempStart = [] := shown.states
  have markers : partialPaths project markerTempStart = [] := shown.markers
  have stagings : partialPaths project stagingStart = [stagingName staging.1] := shown.stagings
  have absent : project.get? transactionName = none := shown.marker
  unfold recover reconstruct
  rw [Program.run_look_bind, absent]
  refine Program.run_bind_error ?_
  rw [Program.run_look_bind]
  simp only [states, markers, stagings]
  rw [if_neg (by simp)]
  rfl

end Finishing

end Rsolve
