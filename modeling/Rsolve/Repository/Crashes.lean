import Rsolve.Repository.Publishing
import Rsolve.Repository.Texts

/-!
# Runs that stop

A project starts empty and is changed by runs, each of which may stop after any of its operations.
What a stopped run left is either nothing, a staging directory that every later run refuses, or a
transaction that the runs for its request finish and all others refuse.
-/
open Keyed Checked Ordered Journal
open Framing (textBytes)

namespace Rsolve

section Runs

variable {format : StateFormat} {sha256 : List UInt8 → Sha256Digest} {project : Project}
  {prepared : Prepared} {requested owner : List MaterializationArtifact}

/-- Two requests that are recorded as one transaction are recorded alike. -/
theorem Prepared.Records.same (left : prepared.Records sha256 owner)
    (right : prepared.Records sha256 requested) : SameRequest sha256 owner requested where
  records := (recordsMatchRequested_iff.mp left.records).symm.trans
    (recordsMatchRequested_iff.mp right.records)
  index := left.index.trans right.index.symm

/-- A request that is recorded like another one is recorded in its transaction. -/
theorem Prepared.Records.of_same (records : prepared.Records sha256 owner)
    (same : SameRequest sha256 owner requested) : prepared.Records sha256 requested where
  records := recordsMatchRequested_iff.mpr
    ((recordsMatchRequested_iff.mp records.records).trans same.records)
  index := same.index.symm.trans records.index

/-- A request that passes against the committed state of a transaction is recorded in it. -/
theorem records_of_existingState (sound : prepared.Sound format sha256) (ownerValid : ValidInputs owner)
    (ownerRecords : prepared.Records sha256 owner) (valid : ValidInputs requested)
    (committed : project.get? stateName = some (.file prepared.stateBytes))
    {state : MaterializationState}
    (accepted : existingState format sha256 project requested = .ok state) :
    prepared.Records sha256 requested := by
  simp only [existingState, bind_eq_ok, ensure_eq_ok] at accepted
  obtain ⟨_, -, found, read, _, existing, digest, index, _, equal, -⟩ := accepted
  rw [sound.readState committed] at read
  cases read
  refine ⟨recordsMatchRequested_iff.mpr (records_of_existing ownerValid valid
    (recordsMatchRequested_iff.mp ownerRecords.records) existing), ?_⟩
  rw [index, equal]

/-- A request that passes against the committed state of a transaction gets that state. -/
theorem state_of_existingState (sound : prepared.Sound format sha256)
    (committed : project.get? stateName = some (.file prepared.stateBytes))
    {state : MaterializationState}
    (accepted : existingState format sha256 project requested = .ok state) :
    state = prepared.state := by
  simp only [existingState, bind_eq_ok, ensure_eq_ok] at accepted
  obtain ⟨_, -, found, read, _, -, _, -, _, -, _, -, final⟩ := accepted
  rw [sound.readState committed] at read
  cases read
  exact (Except.ok.inj final).symm

/-- A request passes against the committed state that records it, in any order. -/
theorem existingState_of_records (sound : prepared.Sound format sha256) (valid : ValidInputs requested)
    (records : prepared.Records sha256 requested)
    (shown : Shows project (prepared.layout .finished)) {again : List MaterializationArtifact}
    (order : again.Perm requested)
    (cached : ∀ selected ∈ again, verifyCacheObject sha256 selected.artifact = .ok ()) :
    existingState format sha256 project again = .ok prepared.state := by
  have committed : project.get? stateName = some (.file prepared.stateBytes) := shown.state
  have published : project.get? repositoryName = some prepared.tree := shown.repository
  obtain ⟨entries, files, isDirectory, holds⟩ := sound.tree
  have existing := validateExistingState_of_records valid order sound.schema
    (recordsMatchRequested_iff.mp records.records) published holds cached
  have index : requestedIndexSha256 sha256 again = .ok prepared.state.indexSha256 :=
    (records.of_same (.of_perm sha256 valid order.symm)).index
  have isFile : (project.get? stateName).any Node.isFile = true := by
    rw [committed]
    rfl
  rw [existingState, ensure_of isFile, ok_bind, sound.readState committed, ok_bind, existing,
    ok_bind, index, ok_bind, ensure_of rfl, ok_bind, sound.validateDirectory published]
  rfl

/-- The operations that leave a layout alone touch nothing. -/
theorem Idle.not_touches {layout : Layout} {operations : List Operation}
    (idle : Idle layout operations project) {operation : Operation}
    (member : operation ∈ operations) : ¬ operation.Touches :=
  (Guarded.of_mem idle member).elim fun _ allowed => allowed.1

/-- What touches nothing writes no state temporary. -/
theorem silent_of_not_touches {operation : Operation} (untouched : ¬ operation.Touches) :
    ¬ operation.WritesState := by
  cases operation with
  | put name path node =>
    exact fun writes => untouched (.inr (.inr (.inr (.inr (.inl writes)))))
  | rename source target => exact id
  | remove name => exact id

/-- What changes a staging directory writes no state temporary. -/
theorem Operation.Builds.silent {operation : Operation} {nonce : Nonce}
    (builds : operation.Builds nonce) : ¬ operation.WritesState := by
  cases operation with
  | put name path node =>
    obtain rfl : name = stagingName nonce := builds
    simp [Operation.WritesState]
  | rename source target => exact id
  | remove name => exact id

/-- What changes a staging directory spares what is not tracked. -/
theorem Operation.Builds.spares {operation : Operation} {nonce : Nonce}
    (builds : operation.Builds nonce) : operation.Spares := by
  cases operation with
  | put name path node => exact trivial
  | rename source target => exact absurd builds id
  | remove name =>
    obtain rfl : name = stagingName nonce := builds
    exact tracked_stagingName nonce

/-- What touches nothing publishes nothing and writes no state temporary. -/
theorem recovers_of_not_touches {operation : Operation} (untouched : ¬ operation.Touches)
    (spares : operation.Spares) : Recovers sha256 requested project operation := by
  refine ⟨?_, silent_of_not_touches untouched, spares⟩
  rintro source rfl
  exact absurd (.inr (.inl rfl)) untouched

/-- What changes a staging directory publishes nothing and writes no state temporary. -/
theorem Operation.Builds.recovers {operation : Operation} {nonce : Nonce}
    (builds : operation.Builds nonce) : Recovers sha256 requested project operation := by
  refine ⟨?_, builds.silent, builds.spares⟩
  rintro source rfl
  exact absurd builds id

/-- A run starts with changes that leave the layout alone, and ends there when its inputs do not
pass. -/
theorem materialize_invalid (surroundings : Surroundings) {layout : Layout}
    (shown : Shows project layout) (invalid : ¬ ValidInputs requested) :
    ∃ operations cause, (materialize format sha256 surroundings requested).run project =
      (operations, .error cause) ∧ Idle layout operations project := by
  cases checked : validateInputs requested with
  | ok => exact absurd (validateInputs_eq_ok.mp checked) invalid
  | error cause =>
    unfold materialize
    obtain ⟨operations, idle, -, ran⟩ := setup_run shown _
    refine ⟨operations, cause, ran.trans ?_, idle⟩
    rw [Program.run_lift_bind_error _ _ checked, List.append_nil]

/-- A run whose inputs pass goes on with the recovery. -/
theorem materialize_valid (surroundings : Surroundings) {layout : Layout}
    (shown : Shows project layout) (valid : ValidInputs requested) :
    ∃ setup, Idle layout setup project ∧ Equipped (replay setup project) ∧
      (materialize format sha256 surroundings requested).run project =
        (setup ++ ((recover format sha256 surroundings requested >>= fun _ =>
            afterRecovery format sha256 surroundings requested).run (replay setup project)).1,
          ((recover format sha256 surroundings requested >>= fun _ =>
            afterRecovery format sha256 surroundings requested).run (replay setup project)).2) := by
  unfold materialize
  obtain ⟨setup, idle, equipped, ran⟩ := setup_run shown _
  refine ⟨setup, idle, equipped, ran.trans ?_⟩
  rw [Program.run_lift_bind_ok _ _ (validateInputs_eq_ok.mpr valid)]

/-- A run whose recovery refuses ends with changes that leave the layout alone. -/
theorem materialize_refused (surroundings : Surroundings) {layout : Layout}
    (shown : Shows project layout)
    (refuses : ∀ project, Shows project layout → ∃ cause,
      (recover format sha256 surroundings requested).run project = ([], .error cause)) :
    ∃ operations cause, (materialize format sha256 surroundings requested).run project =
      (operations, .error cause) ∧ Idle layout operations project := by
  by_cases valid : ValidInputs requested
  · obtain ⟨setup, idle, equipped, ran⟩ := @materialize_valid format sha256 _ _ surroundings _ shown valid
    obtain ⟨cause, refused⟩ := refuses _ (idle.stop (List.prefix_refl setup))
    rw [Program.run_bind_error refused, List.append_nil] at ran
    exact ⟨setup, cause, ran, idle⟩
  · exact materialize_invalid surroundings shown valid

/-- With a committed state a run is a validated no-op. -/
theorem afterRecovery_committed (surroundings : Surroundings) {state : Node}
    (committed : project.get? stateName = some state) :
    (afterRecovery format sha256 surroundings requested).run project =
      ([], existingState format sha256 project requested) := by
  unfold afterRecovery
  rw [Program.run_look_bind, committed]
  rfl

/-- With nothing a run builds its repository. -/
theorem afterRecovery_clean (surroundings : Surroundings) (shown : Shows project .clean) :
    (afterRecovery format sha256 surroundings requested).run project =
      (materializeNew format sha256 surroundings requested).run project := by
  have uncommitted : project.get? stateName = none := shown.state
  have unpublished : project.get? repositoryName = none := shown.repository
  unfold afterRecovery
  rw [Program.run_look_bind, uncommitted, unpublished]
  rfl

/-- A staging directory without a state temporary stops every run. -/
theorem materialize_building (surroundings : Surroundings) {nonce : Nonce} {node : Node}
    (shown : Shows project (.building nonce node)) :
    ∃ operations cause, (materialize format sha256 surroundings requested).run project =
      (operations, .error cause) ∧ Idle (.building nonce node) operations project :=
  materialize_refused surroundings shown fun _ shown => ⟨_, recover_building surroundings shown⟩

/-- A transaction stops every run that it does not record. -/
theorem materialize_foreign (sound : prepared.Sound format sha256) (ownerValid : ValidInputs owner)
    (ownerRecords : prepared.Records sha256 owner)
    (foreign : ¬ (ValidInputs requested ∧ prepared.Records sha256 requested))
    (surroundings : Surroundings) {phase : Phase} (shown : Shows project (prepared.layout phase)) :
    ∃ operations cause, (materialize format sha256 surroundings requested).run project =
      (operations, .error cause) ∧ Idle (prepared.layout phase) operations project := by
  by_cases valid : ValidInputs requested
  · have different : ¬ prepared.Records sha256 requested := fun records => foreign ⟨valid, records⟩
    by_cases running : phase = .finished
    · subst running
      obtain ⟨setup, idle, equipped, ran⟩ := @materialize_valid format sha256 _ _ surroundings _ shown valid
      have later : Shows (replay setup project) (prepared.layout .finished) :=
        idle.stop (List.prefix_refl setup)
      have committed : (replay setup project).get? stateName = some (.file prepared.stateBytes) :=
        later.state
      have nothing := @recover_nothing format sha256 _ requested surroundings later.marker
        ⟨later.states, later.markers, later.stagings⟩
      rw [Program.run_bind_ok nothing, List.nil_append, replay_nil,
        afterRecovery_committed surroundings committed] at ran
      cases accepted : existingState format sha256 (replay setup project) requested with
      | ok state =>
        exact absurd (records_of_existingState sound ownerValid ownerRecords valid committed accepted)
          different
      | error cause =>
        rw [accepted, List.append_nil] at ran
        exact ⟨setup, cause, ran, idle⟩
    · exact materialize_refused surroundings shown fun _ shown =>
        recover_foreign sound different surroundings running shown
  · exact materialize_invalid surroundings shown valid

/-- A run that a transaction records finishes it, and is a validated no-op then. -/
theorem materialize_recovers (sound : prepared.Sound format sha256) (valid : ValidInputs requested)
    (records : prepared.Records sha256 requested) (surroundings : Surroundings) {phase : Phase}
    (shown : Shows project (prepared.layout phase)) :
    ∃ setup operations, Idle (prepared.layout phase) setup project ∧
      Finishes sha256 prepared requested operations (replay setup project) ∧
      (materialize format sha256 surroundings requested).run project = (setup ++ operations,
        existingState format sha256 (replay (setup ++ operations) project) requested) := by
  obtain ⟨setup, idle, equipped, ran⟩ := @materialize_valid format sha256 _ _ surroundings _ shown valid
  obtain ⟨operations, recovered, finishes⟩ := recover_records sound records surroundings
    (idle.stop (List.prefix_refl setup))
  have committed : (replay operations (replay setup project)).get? stateName =
      some (.file prepared.stateBytes) := finishes.2.state
  refine ⟨setup, operations, idle, finishes, ran.trans ?_⟩
  rw [Program.run_bind_ok recovered, afterRecovery_committed surroundings committed,
    List.append_nil, replay_append]

/-- A run from nothing fails or publishes. -/
theorem materialize_clean (lawful : format.Lawful) (surroundings : Surroundings)
    (shown : Shows project .clean) :
    (∃ operations cause, (materialize format sha256 surroundings requested).run project =
      (operations, .error cause) ∧ Idle .clean operations project) ∨
    ∃ setup operations result, ValidInputs requested ∧ Idle .clean setup project ∧
      Equipped (replay setup project) ∧ Materialized format sha256 surroundings requested (replay setup project)
        (operations, result) ∧
      (materialize format sha256 surroundings requested).run project =
        (setup ++ operations, result) := by
  by_cases valid : ValidInputs requested
  · obtain ⟨setup, idle, equipped, ran⟩ := @materialize_valid format sha256 _ _ surroundings _ shown valid
    have later : Shows (replay setup project) .clean := idle.stop (List.prefix_refl setup)
    have nothing := @recover_nothing format sha256 _ requested surroundings later.marker
      ⟨later.states, later.markers, later.stagings⟩
    rw [Program.run_bind_ok nothing, List.nil_append, replay_nil,
      afterRecovery_clean surroundings later] at ran
    exact .inr ⟨setup, _, _, valid, idle, equipped,
      materializeNew_run lawful surroundings valid later, ran⟩
  · exact .inl (materialize_invalid surroundings shown valid)

/-- Changes that leave a layout alone are allowed in every run. -/
theorem Idle.recovers {layout : Layout} {operations : List Operation}
    (idle : Idle layout operations project) :
    Guarded (fun project => Shows project layout) (Recovers sha256 requested) operations project :=
  Guarded.imp idle (fun _ shown => shown) fun _ _ allowed =>
    recovers_of_not_touches allowed.1 allowed.2

end Runs

/-- The operations of a run that is not interrupted. -/
def operationsOf (format : StateFormat) (sha256 : List UInt8 → Sha256Digest)
    (surroundings : Surroundings) (requested : List MaterializationArtifact) (project : Project) :
    List Operation :=
  ((materialize format sha256 surroundings requested).run project).1

/-- The projects that runs lead to, each of which may have stopped after any operation. -/
inductive Continues (format : StateFormat) (sha256 : List UInt8 → Sha256Digest) (start : Project) :
    Project → Prop
  /-- No run. -/
  | start : Continues format sha256 start start
  /-- One more run. -/
  | run {project : Project} {performed : List Operation}
      (before : Continues format sha256 start project) (surroundings : Surroundings)
      (requested : List MaterializationArtifact)
      (stopped : performed <+: operationsOf format sha256 surroundings requested project) :
      Continues format sha256 start (replay performed project)

/-- What a stopped run has left for its request: a staging directory that no run takes up, or a
transaction that records the request. -/
inductive Bound (format : StateFormat) (sha256 : List UInt8 → Sha256Digest)
    (requested : List MaterializationArtifact) (project : Project) : Prop
  /-- There is a staging directory only. -/
  | building (nonce : Nonce) (node : Node) (shown : Shows project (.building nonce node))
  /-- There is a transaction. -/
  | carried (prepared : Prepared) (sound : prepared.Sound format sha256)
      (valid : ValidInputs requested) (records : prepared.Records sha256 requested)
      (carried : prepared.Carried project)

/-- What runs lead to from an empty project. -/
def Standing (format : StateFormat) (sha256 : List UInt8 → Sha256Digest) (project : Project) :
    Prop :=
  Shows project .clean ∨ ∃ requested, Bound format sha256 requested project

section Invariants

variable {format : StateFormat} {sha256 : List UInt8 → Sha256Digest} {project : Project}
  {prepared : Prepared} {requested owner : List MaterializationArtifact}

/-- Every run keeps a transaction. -/
theorem guarded_carried (sound : prepared.Sound format sha256) (ownerValid : ValidInputs owner)
    (ownerRecords : prepared.Records sha256 owner) (surroundings : Surroundings)
    (carried : prepared.Carried project) :
    Guarded prepared.Carried (Recovers sha256 requested)
      (operationsOf format sha256 surroundings requested project) project := by
  obtain ⟨phase, shown⟩ := carried
  have carries : ∀ project, Shows project (prepared.layout phase) → prepared.Carried project :=
    fun _ shown => ⟨phase, shown⟩
  unfold operationsOf
  by_cases own : ValidInputs requested ∧ prepared.Records sha256 requested
  · obtain ⟨setup, operations, idle, finishes, ran⟩ :=
      materialize_recovers sound own.1 own.2 surroundings shown
    rw [ran]
    exact ((idle.recovers).imp carries fun _ _ recovers => recovers).append finishes.1
  · obtain ⟨operations, cause, ran, idle⟩ :=
      materialize_foreign sound ownerValid ownerRecords own surroundings shown
    rw [ran]
    exact (idle.recovers).imp carries fun _ _ recovers => recovers

/-- Every run keeps what was left for a request. -/
theorem guarded_bound (surroundings : Surroundings) (bound : Bound format sha256 owner project) :
    Guarded (Bound format sha256 owner) (Recovers sha256 requested)
      (operationsOf format sha256 surroundings requested project) project := by
  cases bound with
  | building nonce node shown =>
    obtain ⟨operations, cause, ran, idle⟩ := @materialize_building format sha256 _ requested
      surroundings _ _ shown
    rw [operationsOf, ran]
    exact (idle.recovers).imp (fun _ shown => .building nonce node shown) fun _ _ recovers => recovers
  | carried prepared sound valid records carried =>
    exact (guarded_carried sound valid records surroundings carried).imp
      (fun _ carried => .carried prepared sound valid records carried) fun _ _ recovers => recovers

/-- A run from nothing leaves nothing or what is bound to its request. -/
theorem guarded_clean (lawful : format.Lawful) (surroundings : Surroundings)
    (shown : Shows project .clean) :
    Guarded (fun project => Shows project .clean ∨ Bound format sha256 requested project)
      (Justified sha256 requested) (operationsOf format sha256 surroundings requested project)
      project := by
  have setup : ∀ operations project, Idle .clean operations project →
      Guarded (fun project => Shows project .clean ∨ Bound format sha256 requested project)
        (Justified sha256 requested) operations project := fun _ _ idle =>
    (idle.recovers).imp (fun _ shown => .inl shown) fun _ _ recovers => recovers.1
  have builds : ∀ operations project, Builds surroundings.staging operations project →
      Guarded (fun project => Shows project .clean ∨ Bound format sha256 requested project)
        (Justified sha256 requested) operations project := by
    refine fun _ _ builds => Guarded.imp builds (fun _ unprepared => ?_) fun _ _ builds =>
      builds.recovers.1
    exact unprepared.imp_right fun ⟨nonce, node, shown⟩ => .building nonce node shown
  unfold operationsOf
  rcases @materialize_clean format sha256 _ requested lawful surroundings shown with
    ⟨operations, cause, ran, idle⟩ | ⟨before, operations, result, valid, idle, -, materialized, ran⟩
  · rw [ran]
    exact setup _ _ idle
  · rw [ran]
    refine (setup _ _ idle).append ?_
    cases materialized with
    | failed building left => exact builds _ _ building
    | @published first later prepared sound records cached start fills finishes =>
      have building := builds _ _ (builds_of_fills start fills)
      refine building.append ⟨?_, ?_, ?_⟩
      · exact building.stop (List.prefix_refl _)
      · exact justified_of_other (by simp)
      · exact finishes.1.imp (fun _ carried => .inr (.carried prepared sound valid records carried))
          fun _ _ recovers => recovers.1

/-- Every run keeps what runs lead to. -/
theorem guarded_standing (lawful : format.Lawful) (surroundings : Surroundings)
    (standing : Standing format sha256 project) :
    Guarded (Standing format sha256) (Justified sha256 requested)
      (operationsOf format sha256 surroundings requested project) project := by
  rcases standing with shown | ⟨owner, bound⟩
  · exact (guarded_clean lawful surroundings shown).imp
      (fun _ left => left.imp_right fun bound => ⟨requested, bound⟩) fun _ _ justified => justified
  · exact (guarded_bound surroundings bound).imp (fun _ bound => .inr ⟨owner, bound⟩)
      fun _ _ recovers => recovers.1

/-- Runs keep what each run keeps. -/
theorem Continues.induct {invariant : Project → Prop}
    (keeps : ∀ project surroundings requested, invariant project →
      ∀ performed, performed <+: operationsOf format sha256 surroundings requested project →
        invariant (replay performed project)) {start left : Project}
    (continues : Continues format sha256 start left) (holds : invariant start) : invariant left := by
  induction continues with
  | start => exact holds
  | run before surroundings requested stopped ih => exact keeps _ surroundings requested ih _ stopped

/-- Runs from an empty project stand. -/
theorem standing_of_continues (lawful : format.Lawful)
    (continues : Continues format sha256 OrderedMap.empty project) :
    Standing format sha256 project :=
  continues.induct (fun _ surroundings requested standing _ stopped =>
    (@guarded_standing format sha256 _ requested lawful surroundings standing).stop stopped)
    (.inl shows_empty)

/-- Runs keep what was left for a request. -/
theorem bound_of_continues {left : Project} (bound : Bound format sha256 owner project)
    (continues : Continues format sha256 project left) : Bound format sha256 owner left :=
  continues.induct (fun _ surroundings requested bound _ stopped =>
    (@guarded_bound format sha256 _ requested _ surroundings bound).stop stopped) bound

/-- Runs keep a transaction. -/
theorem carried_of_continues {left : Project} (sound : prepared.Sound format sha256)
    (ownerValid : ValidInputs owner) (ownerRecords : prepared.Records sha256 owner)
    (carried : prepared.Carried project) (continues : Continues format sha256 project left) :
    prepared.Carried left :=
  continues.induct (fun _ surroundings requested carried _ stopped =>
    (@guarded_carried format sha256 _ _ requested _ sound ownerValid ownerRecords surroundings
      carried).stop stopped) carried

end Invariants

/-- A repository and a committed state agree: the state can be read, and the repository has exactly
its files, with their lengths and digests, and its index. -/
def Agree (format : StateFormat) (sha256 : List UInt8 → Sha256Digest) (repository state : Node) :
    Prop :=
  ∃ bytes found, state = .file bytes ∧ format.readState bytes = .ok found ∧
    validateRepositoryContents sha256 [repositoryName] repository found.records found.indexSha256 =
      .ok ()

/-- A run ends with an error and touches no tracked entry. -/
def Refuses (format : StateFormat) (sha256 : List UInt8 → Sha256Digest) (surroundings : Surroundings)
    (requested : List MaterializationArtifact) (project : Project) : Prop :=
  ∃ operations cause,
    (materialize format sha256 surroundings requested).run project = (operations, .error cause) ∧
      ∀ operation ∈ operations, ¬ operation.Touches

/-- A run returns a state and leaves only the repository and the committed state. -/
def Settles (format : StateFormat) (sha256 : List UInt8 → Sha256Digest) (surroundings : Surroundings)
    (requested : List MaterializationArtifact) (project : Project) (state : MaterializationState) :
    Prop :=
  ∃ operations,
    (materialize format sha256 surroundings requested).run project = (operations, .ok state) ∧
      readState format (replay operations project) stateName = .ok state ∧
      ((replay operations project).get? repositoryName).isSome ∧
      ∀ name, Tracked name → (replay operations project).get? name ≠ none →
        name = repositoryName ∨ name = stateName

section Crashes

variable {format : StateFormat} {sha256 : List UInt8 → Sha256Digest} {project : Project}
  {prepared : Prepared} {requested : List MaterializationArtifact}

/-- The entries of a layout are its entries. -/
theorem Shows.of_tracked {layout : Layout} (shown : Shows project layout) {name : String}
    (tracked : Tracked name) (present : project.get? name ≠ none)
    (bare : layout.marker = none ∧ layout.staging = none ∧ layout.stateTemp = none ∧
      layout.markerTemp = none) : name = repositoryName ∨ name = stateName := by
  obtain ⟨marker, staging, stateTemp, markerTemp⟩ := bare
  rcases tracked with rfl | rfl | rfl | starts | starts | starts
  · exact .inl rfl
  · exact .inr rfl
  · exact absurd (shown.marker.trans marker) present
  · exact absurd ((shown.staging name starts).trans (by rw [staging]; rfl)) present
  · exact absurd ((shown.stateTemp name starts).trans (by rw [stateTemp]; rfl)) present
  · exact absurd ((shown.markerTemp name starts).trans (by rw [markerTemp]; rfl)) present

/-- The repository and the committed state of a transaction agree. -/
theorem Prepared.Carried.agree (sound : prepared.Sound format sha256)
    (carried : prepared.Carried project) {repository state : Node}
    (published : project.get? repositoryName = some repository)
    (committed : project.get? stateName = some state) : Agree format sha256 repository state := by
  obtain ⟨phase, shown⟩ := carried
  obtain ⟨entries, files, -, holds⟩ := sound.tree
  have both : repository = prepared.tree ∧ state = .file prepared.stateBytes := by
    rw [shown.repository] at published
    rw [shown.state] at committed
    cases phase with
    | committed | finished =>
      exact ⟨(Option.some.inj published).symm, (Option.some.inj committed).symm⟩
    | prepared | noted _ | marked | published => cases committed
  rw [both.1, both.2]
  exact ⟨_, _, rfl, sound.state, validateRepositoryContents_eq_ok.mpr ⟨files, holds⟩⟩

/-- What runs lead to agrees. -/
theorem Standing.agree (standing : Standing format sha256 project) {repository state : Node}
    (published : project.get? repositoryName = some repository)
    (committed : project.get? stateName = some state) : Agree format sha256 repository state := by
  rcases standing with shown | ⟨owner, ⟨nonce, node, shown⟩ | ⟨prepared, sound, -, -, carried⟩⟩
  · exact absurd (committed.symm.trans shown.state) (by simp [Layout.clean])
  · exact absurd (committed.symm.trans shown.state) (by simp [Layout.building])
  · exact carried.agree sound published committed

/-- What was left for a request refuses every other request. -/
theorem Bound.refuses (bound : Bound format sha256 requested project)
    {other : List MaterializationArtifact} (different : ¬ SameRequest sha256 requested other)
    (surroundings : Surroundings) : Refuses format sha256 surroundings other project := by
  cases bound with
  | building nonce node shown =>
    obtain ⟨operations, cause, ran, idle⟩ := @materialize_building format sha256 _ other
      surroundings _ _ shown
    exact ⟨operations, cause, ran, fun _ member => idle.not_touches member⟩
  | carried prepared sound valid records carried =>
    obtain ⟨phase, shown⟩ := carried
    obtain ⟨operations, cause, ran, idle⟩ := materialize_foreign sound valid records
      (fun own => different (records.same own.2)) surroundings shown
    exact ⟨operations, cause, ran, fun _ member => idle.not_touches member⟩

/-- A stopped run that touched something has left it for its request, unless nothing is left. -/
theorem bound_of_touches (lawful : format.Lawful) (surroundings : Surroundings)
    (standing : Standing format sha256 project) {performed : List Operation}
    (stopped : performed <+: operationsOf format sha256 surroundings requested project)
    (touches : ∃ operation ∈ performed, operation.Touches)
    (left : ∃ name, Tracked name ∧ (replay performed project).get? name ≠ none) :
    Bound format sha256 requested (replay performed project) := by
  obtain ⟨operation, member, touching⟩ := touches
  have idle_absurd : ∀ {layout : Layout} {operations : List Operation},
      operationsOf format sha256 surroundings requested project = operations →
      ¬ Idle layout operations project := by
    rintro layout operations rfl idle
    exact idle.not_touches (stopped.subset member) touching
  rcases standing with shown | ⟨owner, ⟨nonce, node, shown⟩ |
    ⟨prepared, sound, ownerValid, ownerRecords, carried⟩⟩
  · rcases (guarded_clean lawful surroundings shown).stop stopped with clean | bound
    · obtain ⟨name, tracked, present⟩ := left
      rcases clean.of_tracked tracked present ⟨rfl, rfl, rfl, rfl⟩ with rfl | rfl
      · exact absurd clean.repository present
      · exact absurd clean.state present
    · exact bound
  · obtain ⟨operations, cause, ran, idle⟩ := @materialize_building format sha256 _ requested
      surroundings _ _ shown
    exact absurd idle (idle_absurd (congrArg Prod.fst ran))
  · by_cases own : ValidInputs requested ∧ prepared.Records sha256 requested
    · exact .carried prepared sound own.1 own.2
        ((guarded_carried sound ownerValid ownerRecords surroundings carried).stop stopped)
    · obtain ⟨phase, shown⟩ := carried
      obtain ⟨operations, cause, ran, idle⟩ :=
        materialize_foreign sound ownerValid ownerRecords own surroundings shown
      exact absurd idle (idle_absurd (congrArg Prod.fst ran))

/-- The operations that build a directory write no state temporary. -/
theorem Builds.silent {nonce : Nonce} {operations : List Operation}
    (builds : Builds nonce operations project) {operation : Operation}
    (member : operation ∈ operations) : ¬ operation.WritesState := by
  obtain ⟨_, building⟩ := Guarded.of_mem builds member
  exact building.silent

/-- The operations that leave a layout alone write no state temporary. -/
theorem Idle.silent {layout : Layout} {operations : List Operation}
    (idle : Idle layout operations project) {operation : Operation}
    (member : operation ∈ operations) : ¬ operation.WritesState :=
  silent_of_not_touches (idle.not_touches member)

/-- A run writes its state temporary only when it prepares a transaction, which its project carries
from then on. -/
theorem prepared_of_writesState (lawful : format.Lawful) (surroundings : Surroundings)
    (standing : Standing format sha256 project) {performed : List Operation}
    (stopped : performed <+: operationsOf format sha256 surroundings requested project)
    (writes : ∃ operation ∈ performed, operation.WritesState) :
    ∃ prepared : Prepared, prepared.Sound format sha256 ∧ ValidInputs requested ∧
      prepared.Records sha256 requested ∧
      (∀ selected ∈ requested, verifyCacheObject sha256 selected.artifact = .ok ()) ∧
      prepared.Carried (replay performed project) ∧
      ((materialize format sha256 surroundings requested).run project).2 = .ok prepared.state := by
  have silent_absurd : ∀ {invariant : Project → Prop},
      ¬ Guarded invariant (Recovers sha256 requested)
        (operationsOf format sha256 surroundings requested project) project := by
    intro invariant guarded
    obtain ⟨operation, member, writing⟩ := writes
    obtain ⟨_, recovers⟩ := guarded.of_mem (stopped.subset member)
    exact recovers.2.1 writing
  rcases standing with shown | ⟨owner, bound⟩
  · rcases @materialize_clean format sha256 _ requested lawful surroundings shown with
      ⟨operations, cause, ran, idle⟩ | ⟨setup, operations, result, valid, idle, -, materialized, ran⟩
    · refine absurd ?_ (@silent_absurd fun project => Shows project .clean)
      rw [operationsOf, ran]
      exact idle.recovers
    · obtain ⟨operation, member, writing⟩ := writes
      rw [operationsOf, ran] at stopped
      cases materialized with
      | failed building left =>
        rcases List.mem_append.mp (stopped.subset member) with inside | inside
        · exact absurd writing (idle.silent inside)
        · exact absurd writing (building.silent inside)
      | @published first later prepared sound records cached start fills finishes =>
        have building := builds_of_fills start fills
        rw [← List.append_assoc] at stopped
        obtain ⟨more, rfl, begins, other, reached, -⟩ := exists_of_prefix_append stopped
          (fun operation inside => (List.mem_append.mp inside).elim idle.silent building.silent)
          ⟨operation, member, writing⟩
        refine ⟨prepared, sound, valid, records, cached, ?_, by rw [ran]⟩
        rcases List.prefix_cons_iff.mp begins with rfl | ⟨rest, rfl, past⟩
        · cases reached
        · rw [replay_append, replay_append, replay_cons]
          exact finishes.1.stop past
  · exact absurd (guarded_bound surroundings bound) silent_absurd

end Crashes

/-- Runs that stop leave the repository and the committed state in agreement, and publish only what
passes; what a stopped run has left for its request, every other request refuses; and after its state
temporary was written, every run for its request, in any order, returns its state and leaves only
the repository and the committed state. -/
theorem materialize_survives {format : StateFormat} (lawful : format.Lawful)
    (sha256 : List UInt8 → Sha256Digest) {project : Project}
    (reached : Continues format sha256 OrderedMap.empty project) :
    (∀ repository state, project.get? repositoryName = some repository →
      project.get? stateName = some state → Agree format sha256 repository state) ∧
    ∀ surroundings requested performed,
      performed <+: operationsOf format sha256 surroundings requested project →
      (∀ source, performed ++ [.rename source repositoryName] <+:
          operationsOf format sha256 surroundings requested project →
        Justified sha256 requested (replay performed project) (.rename source repositoryName)) ∧
      ((∃ operation ∈ performed, operation.Touches) →
        (∃ name, Tracked name ∧ (replay performed project).get? name ≠ none) →
        ∀ later, Continues format sha256 (replay performed project) later →
          ∀ surroundings' other, ¬ SameRequest sha256 requested other →
            Refuses format sha256 surroundings' other later) ∧
      ((∃ operation ∈ performed, operation.WritesState) →
        ∃ state, ((materialize format sha256 surroundings requested).run project).2 = .ok state ∧
          ∀ later, Continues format sha256 (replay performed project) later →
            ∀ surroundings' again, again.Perm requested →
              Settles format sha256 surroundings' again later state) := by
  have standing := standing_of_continues lawful reached
  refine ⟨fun repository state published committed => standing.agree published committed,
    fun surroundings requested performed stopped => ⟨fun source next => ?_,
      fun touches left later continues surroundings' other different => ?_, fun writes => ?_⟩⟩
  · exact (guarded_standing lawful surroundings standing).allowedAt next
  · have bound := bound_of_touches lawful surroundings standing stopped touches left
    exact (bound_of_continues bound continues).refuses different surroundings'
  · obtain ⟨prepared, sound, valid, records, cached, carried, returned⟩ :=
      prepared_of_writesState lawful surroundings standing stopped writes
    refine ⟨prepared.state, returned, fun later continues surroundings' again order => ?_⟩
    obtain ⟨phase, shown⟩ := carried_of_continues sound valid records carried continues
    have again_records := records.of_same (.of_perm sha256 valid order.symm)
    obtain ⟨setup, operations, idle, finishes, ran⟩ :=
      materialize_recovers sound (valid.perm order.symm) again_records surroundings' shown
    have finished : Shows (replay (setup ++ operations) later) (prepared.layout .finished) := by
      rw [replay_append]
      exact finishes.2
    have accepted := existingState_of_records sound valid records finished order
      fun selected member => cached selected (order.mem_iff.mp member)
    rw [accepted] at ran
    have published : (replay (setup ++ operations) later).get? repositoryName =
        some prepared.tree := finished.repository
    exact ⟨_, ran, sound.readState finished.state, by rw [published]; rfl,
      fun name tracked present => finished.of_tracked tracked present ⟨rfl, rfl, rfl, rfl⟩⟩

/-- A run without artifacts that stops after its state temporary was written: a later run returns its
state. -/
theorem materialize_survives_without_artifacts :
    Settles textFormat Small.indexSha256 (Small.surroundings 2) []
      (replay ((operationsOf textFormat Small.indexSha256 (Small.surroundings 1) []
        OrderedMap.empty).take 6) OrderedMap.empty) Small.emptyState := by
  have survives := (materialize_survives textFormat_lawful Small.indexSha256 .start).2
    (Small.surroundings 1) [] _ (List.take_prefix 6 _)
  obtain ⟨state, returned, settles⟩ := survives.2.2 ⟨.put (stateTempName ⟨1, 2⟩) [] (.file
    (textBytes (stateText Small.emptyState.indexSha256))),
      List.mem_of_getElem? (i := 5) rfl, stateTempStart_stateTempName _⟩
  have equal : ((materialize textFormat Small.indexSha256 (Small.surroundings 1) []).run
      OrderedMap.empty).2 = .ok Small.emptyState := rfl
  obtain rfl : Small.emptyState = state := Except.ok.inj (equal.symm.trans returned)
  exact settles _ .start (Small.surroundings 2) [] (.refl _)

/-- A stopped run that has left nothing yet does not stop a run for other artifacts. -/
theorem materialize_after_nothing :
    [.put gitignoreName [] (.file (textBytes "*\n"))] <+:
        operationsOf textFormat Small.indexSha256 (Small.surroundings 1)
          [Small.archive Small.alpha Small.newer] OrderedMap.empty ∧
      ¬ SameRequest Small.indexSha256 [Small.archive Small.alpha Small.newer] [] ∧
      ((materialize textFormat Small.indexSha256 (Small.surroundings 2) []).run
        (replay [Operation.put gitignoreName [] (.file (textBytes "*\n"))] OrderedMap.empty)).2 =
          .ok Small.emptyState :=
  ⟨⟨_, rfl⟩, fun same => absurd (congrArg List.length same.records) (by decide), rfl⟩

section Window

variable {format : StateFormat} {sha256 : List UInt8 → Sha256Digest} {project : Project}
  {requested : List MaterializationArtifact}

/-- Runs keep a staging directory without a state temporary. -/
theorem building_of_continues {nonce : Nonce} {node : Node} {left : Project}
    (shown : Shows project (.building nonce node))
    (continues : Continues format sha256 project left) : Shows left (.building nonce node) := by
  have keeps : ∀ project surroundings requested, Shows project (.building nonce node) →
      ∀ performed, performed <+: operationsOf format sha256 surroundings requested project →
        Shows (replay performed project) (.building nonce node) := by
    intro project surroundings requested shown performed stopped
    obtain ⟨operations, cause, ran, idle⟩ := @materialize_building format sha256 _ requested
      surroundings _ _ shown
    rw [operationsOf, ran] at stopped
    exact idle.stop stopped
  exact continues.induct keeps shown

/-- A run that stops between the creation of its staging directory and the writing of its state
temporary leaves the staging directory alone. -/
theorem building_of_window (lawful : format.Lawful) (surroundings : Surroundings)
    (standing : Standing format sha256 project) {performed : List Operation}
    (stopped : performed <+: operationsOf format sha256 surroundings requested project)
    (created : creation surroundings.staging ∈ performed)
    (unwritten : ∀ operation ∈ performed, ¬ operation.WritesState)
    (writes : ∃ operation ∈ operationsOf format sha256 surroundings requested project,
      operation.WritesState) :
    ∃ node, Shows (replay performed project) (.building surroundings.staging node) := by
  obtain ⟨operation, member, writing⟩ := writes
  have touches : (creation surroundings.staging).Touches := tracked_stagingName _
  rcases standing with shown | ⟨owner, bound⟩
  · rcases @materialize_clean format sha256 _ requested lawful surroundings shown with
      ⟨operations, cause, ran, idle⟩ | ⟨setup, operations, result, valid, idle, -, materialized, ran⟩
    · rw [operationsOf, ran] at member
      exact absurd writing (idle.silent member)
    · rw [operationsOf, ran] at member stopped
      cases materialized with
      | failed building left =>
        rcases List.mem_append.mp member with inside | inside
        · exact absurd writing (idle.silent inside)
        · exact absurd writing (building.silent inside)
      | @published first later prepared sound records cached start fills finishes =>
        obtain ⟨more, rfl, begins, _, reached, -⟩ := exists_of_prefix_append stopped
          (fun _ inside => idle.not_touches inside) ⟨_, created, touches⟩
        rcases List.prefix_cons_iff.mp begins with rfl | ⟨rest, rfl, past⟩
        · cases reached
        rw [replay_append, replay_cons]
        rcases List.prefix_or_prefix_of_prefix past (List.prefix_append ..) with early | late
        · exact fills.stop early
        · obtain ⟨behind, rfl⟩ := late
          have ahead := (List.prefix_append_right_inj first).mp past
          rcases List.prefix_cons_iff.mp ahead with rfl | ⟨last, rfl, -⟩
          · rw [List.append_nil]
            exact fills.stop (List.prefix_refl first)
          · refine absurd (stateTempStart_stateTempName surroundings.stateTemp)
              (unwritten (.put (stateTempName surroundings.stateTemp) []
                (.file prepared.stateBytes)) ?_)
            simp
  · obtain ⟨_, recovers⟩ := (guarded_bound surroundings bound).of_mem member
    exact absurd writing recovers.2.1

end Window

/-- A run that stops between the creation of its staging directory and the writing of its state
temporary stops every later run: each ends with an error and touches nothing. -/
theorem materialize_wedges {format : StateFormat} (lawful : format.Lawful)
    (sha256 : List UInt8 → Sha256Digest) {project : Project}
    (reached : Continues format sha256 OrderedMap.empty project) (surroundings : Surroundings)
    (requested : List MaterializationArtifact) {performed : List Operation}
    (stopped : performed <+: operationsOf format sha256 surroundings requested project)
    (created : creation surroundings.staging ∈ performed)
    (unwritten : ∀ operation ∈ performed, ¬ operation.WritesState)
    (writes : ∃ operation ∈ operationsOf format sha256 surroundings requested project,
      operation.WritesState) :
    ∀ later, Continues format sha256 (replay performed project) later →
      ∀ surroundings' again, Refuses format sha256 surroundings' again later := by
  intro later continues surroundings' again
  obtain ⟨node, shown⟩ := building_of_window lawful surroundings
    (standing_of_continues lawful reached) stopped created unwritten writes
  obtain ⟨operations, cause, ran, idle⟩ := @materialize_building format sha256 _ again
    surroundings' _ _ (building_of_continues shown continues)
  exact ⟨operations, cause, ran, fun _ member => idle.not_touches member⟩

/-- The request without artifacts is stopped by its own staging directory. -/
theorem materialize_wedges_without_artifacts :
    Refuses textFormat Small.indexSha256 (Small.surroundings 2) []
      (replay ((operationsOf textFormat Small.indexSha256 (Small.surroundings 1) []
        OrderedMap.empty).take 3) OrderedMap.empty) := by
  refine materialize_wedges textFormat_lawful Small.indexSha256 .start (Small.surroundings 1) []
    (List.take_prefix 3 _) (List.mem_of_getElem? (i := 2) rfl) ?_ ⟨.put (stateTempName ⟨1, 2⟩) []
      (.file (textBytes (stateText Small.emptyState.indexSha256))),
      List.mem_of_getElem? (i := 5) rfl, stateTempStart_stateTempName _⟩ _ .start _ []
  have performed : (operationsOf textFormat Small.indexSha256 (Small.surroundings 1) []
      OrderedMap.empty).take 3 = [.put gitignoreName [] (.file (textBytes "*\n")),
        .put lockName [] (.file []), creation ⟨1, 1⟩] := rfl
  rw [performed]
  simp only [List.mem_cons, List.not_mem_nil, or_false, forall_eq_or_imp, forall_eq]
  have others : startsWith stateTempStart gitignoreName = false ∧
      startsWith stateTempStart lockName = false ∧
        startsWith stateTempStart (stagingName ⟨1, 1⟩) = false := by decide
  exact ⟨Bool.eq_false_iff.mp others.1, Bool.eq_false_iff.mp others.2.1,
    Bool.eq_false_iff.mp others.2.2⟩

/-- An uninterrupted run without artifacts succeeds, but not after a run for them that stopped once
its staging directory was there. -/
theorem materialize_stopped_early :
    ((materialize textFormat Small.indexSha256 (Small.surroundings 2) []).run
        OrderedMap.empty).2 = .ok Small.emptyState ∧
      ((materialize textFormat Small.indexSha256 (Small.surroundings 2) []).run
        (replay ((operationsOf textFormat Small.indexSha256 (Small.surroundings 1) []
          OrderedMap.empty).take 3) OrderedMap.empty)).2 =
        .error (.transactionConflict [] "orphaned transaction temporaries are ambiguous") :=
  ⟨rfl, rfl⟩

end Rsolve
