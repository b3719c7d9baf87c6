import Rsolve.Repository.Phases

/-!
# Building and publishing a repository

A run without anything to recover builds the directory of its request, writes the state temporary
and goes through the phases of the transaction it prepared. A run that fails leaves nothing.
-/
open Keyed Checked Ordered Journal
open Program (perform)

namespace Rsolve

/-- A layout without anything. -/
def Layout.clean : Layout := ⟨none, none, none, none, none, none⟩

/-- A layout with a staging directory only. -/
def Layout.building (nonce : Nonce) (node : Node) : Layout :=
  ⟨none, none, none, some (nonce, node), none, none⟩

/-- A project without a transaction: there is nothing, or a staging directory only. -/
def Unprepared (project : Project) : Prop :=
  Shows project .clean ∨ ∃ nonce node, Shows project (.building nonce node)

/-- A change of one staging directory. -/
def Operation.Builds (nonce : Nonce) : Operation → Prop
  | .put name _ _ => name = stagingName nonce
  | .remove name => name = stagingName nonce
  | .rename _ _ => False

/-- Changes of one staging directory, before a transaction is prepared. -/
def Builds (nonce : Nonce) (operations : List Operation) (project : Project) : Prop :=
  Guarded Unprepared (fun _ operation => operation.Builds nonce) operations project

/-- Changes of one staging directory that keep it. -/
def Fills (nonce : Nonce) (operations : List Operation) (project : Project) : Prop :=
  Guarded (fun project => ∃ node, Shows project (.building nonce node))
    (fun _ operation => operation.Builds nonce) operations project

/-- Changes that keep a staging directory prepare nothing. -/
theorem Fills.builds {nonce : Nonce} {operations : List Operation} {project : Project}
    (fills : Fills nonce operations project) : Builds nonce operations project :=
  Guarded.imp fills (fun _ ⟨node, shown⟩ => .inr ⟨nonce, node, shown⟩) fun _ _ building => building

section Building

variable {sha256 : List UInt8 → Sha256Digest} {project : Project} {nonce : Nonce} {node : Node}

/-- A node is put into the staging directory. -/
theorem fills_put (shown : Shows project (.building nonce node)) (path : List String) (new : Node) :
    Fills nonce [.put (stagingName nonce) path new] project ∧
      Shows (replay [Operation.put (stagingName nonce) path new] project)
        (.building nonce (new.put path node)) := by
  have put : Shows (apply (Operation.put (stagingName nonce) path new) project)
      (.building nonce (new.put path node)) := shown.put_staging path new (by
    rintro entry found
    exact (Option.some.inj found) ▸ rfl)
  exact ⟨⟨⟨node, shown⟩, rfl, ⟨_, put⟩⟩, put⟩

/-- The creation of a staging directory. -/
def creation (nonce : Nonce) : Operation := .put (stagingName nonce) [] (.directory [])

/-- The staging directory is created. -/
theorem builds_new (shown : Shows project .clean) :
    Shows (apply (creation nonce) project) (.building nonce (.directory [])) :=
  shown.put_staging [] (.directory []) (by
    rintro entry found
    cases found)

/-- The staging directory is removed. -/
theorem builds_remove (shown : Shows project (.building nonce node)) :
    Builds nonce [.remove (stagingName nonce)] project ∧
      Shows (replay [Operation.remove (stagingName nonce)] project) .clean := by
  have removed : Shows (apply (Operation.remove (stagingName nonce)) project) .clean :=
    shown.remove_staging rfl
  exact ⟨⟨.inr ⟨nonce, node, shown⟩, rfl, .inl removed⟩, removed⟩

/-- A cache object that passes has its length and digest. -/
theorem verifyCacheObject_eq_ok {cached : CachedArtifact} :
    verifyCacheObject sha256 cached = .ok () ↔ ∃ bytes, cached.content = some bytes ∧
      bytes.length = cached.size ∧ (sha256 bytes).text = cached.sha256.text := by
  unfold verifyCacheObject
  cases cached.content with
  | none => simp
  | some bytes => simp

/-- One archive is put into the staging directory, or nothing happens. -/
theorem materializeFile_run (surroundings : Surroundings) (selected : MaterializationArtifact)
    {archives : List (String × Node)}
    (shown : Shows project (.building nonce (contribTree archives)))
    (fresh : destinationName selected ∉ archives.map Prod.fst) :
    (∃ cause, (materializeFile sha256 surroundings (stagingName nonce) selected).run project =
      ([], .error cause)) ∨
    ∃ operations method archive,
      (materializeFile sha256 surroundings (stagingName nonce) selected).run project =
        (operations, .ok method) ∧
      Fills nonce operations project ∧ Archived sha256 selected archive ∧
      verifyCacheObject sha256 selected.artifact = .ok () ∧
      Shows (replay operations project) (.building nonce (contribTree (archives ++ [archive]))) := by
  unfold materializeFile
  cases verified : verifyCacheObject sha256 selected.artifact with
  | error cause => exact .inl ⟨cause, Program.run_lift_bind_error _ _ rfl⟩
  | ok =>
    obtain ⟨bytes, content, length, digest⟩ := verifyCacheObject_eq_ok.mp verified
    have staging : project.get? (stagingName nonce) = some (contribTree archives) :=
      shown.get?_staging rfl
    have absent : (contribTree archives).at? (artifactPath selected) = none := by
      rw [artifactPath, at?_contribTree, lookup_eq_none_iff]
      exact fresh
    have put := fills_put shown (artifactPath selected) (.file bytes)
    rw [artifactPath, put_contribTree _ fresh] at put
    refine .inr ⟨_, if surroundings.clones selected then .clone else .copy, _, ?_, put.1,
      ⟨bytes, length, digest, rfl⟩, rfl, put.2⟩
    rw [Program.run_lift_bind_ok _ _ rfl, Program.run_look_bind, staging, Option.bind_some, absent]
    simp only [content]
    rfl

/-- What the part of a run that puts archives leaves: it failed, or it put the archives of its
artifacts after those that were there. -/
inductive Built (sha256 : List UInt8 → Sha256Digest) (nonce : Nonce)
    (artifacts : List MaterializationArtifact) (archives : List (String × Node))
    (project : Project) :
    List Operation × Except MaterializationError (List MaterializationMethod) → Prop
  /-- The part failed, and a staging directory is left. -/
  | failed {operations : List Operation} {cause : MaterializationError} (node : Node)
      (fills : Fills nonce operations project)
      (shown : Shows (replay operations project) (.building nonce node)) :
      Built sha256 nonce artifacts archives project (operations, .error cause)
  /-- The archives are there. -/
  | done {operations : List Operation} {methods : List MaterializationMethod}
      (more : List (String × Node)) (fills : Fills nonce operations project)
      (archived : List.Forall₂ (Archived sha256) artifacts more)
      (cached : ∀ selected ∈ artifacts, verifyCacheObject sha256 selected.artifact = .ok ())
      (lengths : methods.length = artifacts.length)
      (shown : Shows (replay operations project)
        (.building nonce (contribTree (archives ++ more)))) :
      Built sha256 nonce artifacts archives project (operations, .ok methods)

/-- The archives are put one after the other. -/
theorem materializeEach_run (surroundings : Surroundings) {artifacts : List MaterializationArtifact}
    {archives : List (String × Node)}
    (shown : Shows project (.building nonce (contribTree archives)))
    (fresh : ∀ selected ∈ artifacts, destinationName selected ∉ archives.map Prod.fst)
    (distinct : (artifacts.map destinationName).Nodup) :
    Built sha256 nonce artifacts archives project
      ((materializeEach sha256 surroundings (stagingName nonce) artifacts).run project) := by
  induction artifacts generalizing project archives with
  | nil =>
    refine .done [] (⟨_, shown⟩) .nil (by simp) rfl ?_
    rw [List.append_nil]
    exact shown
  | cons selected rest ih =>
    obtain ⟨freshHead, freshRest⟩ := List.forall_mem_cons.mp fresh
    obtain ⟨apart, distinctRest⟩ := List.nodup_cons.mp distinct
    unfold materializeEach
    rcases @materializeFile_run sha256 _ _ surroundings selected _ shown freshHead with
      ⟨cause, failed⟩ | ⟨operations, method, archive, ran, fills, archived, verified, put⟩
    · rw [Program.run_bind_error failed]
      exact .failed _ (⟨_, shown⟩) shown
    have freshAfter : ∀ other ∈ rest,
        destinationName other ∉ (archives ++ [archive]).map Prod.fst := by
      intro other member inside
      rw [List.map_append, List.mem_append] at inside
      rcases inside with inside | inside
      · exact freshRest other member inside
      · obtain ⟨bytes, -, -, rfl⟩ := archived
        have equal : destinationName other = destinationName selected := List.mem_singleton.mp inside
        exact apart (equal ▸ List.mem_map_of_mem member)
    rw [Program.run_bind_ok ran]
    have later := ih put freshAfter distinctRest
    generalize ranRest : (materializeEach sha256 surroundings (stagingName nonce) rest).run
      (replay operations project) = outcome at later
    cases later with
    | failed node fillsRest shownRest =>
      rw [Program.run_bind_error ranRest]
      exact .failed node (fills.append fillsRest) (by rw [replay_append]; exact shownRest)
    | done more fillsRest archivedRest cachedRest lengths shownRest =>
      rw [Program.run_bind_ok ranRest]
      refine .done (archive :: more) ?_ (.cons archived archivedRest)
        (List.forall_mem_cons.mpr ⟨verified, cachedRest⟩) (congrArg Nat.succ lengths) ?_
      · simp only [Program.run_pure, List.append_nil]
        exact fills.append fillsRest
      · simp only [Program.run_pure, List.append_nil]
        rw [replay_append]
        simpa using shownRest

/-- The directory of the archives is made first. -/
theorem materializeFiles_run (surroundings : Surroundings)
    {artifacts : List MaterializationArtifact}
    (shown : Shows project (.building nonce (.directory [])))
    (distinct : (artifacts.map destinationName).Nodup) :
    Built sha256 nonce artifacts [] project
      ((materializeFiles sha256 surroundings (stagingName nonce) artifacts).run project) := by
  have staging : project.get? (stagingName nonce) = some (.directory []) := shown.get?_staging rfl
  obtain ⟨fills, put⟩ := fills_put shown ["src", "contrib"] (.directory [])
  have ensured : (ensureDirectory (stagingName nonce) ["src", "contrib"]).run project =
      ([.put (stagingName nonce) ["src", "contrib"] (.directory [])], .ok ()) := by
    unfold ensureDirectory
    rw [Program.run_look_bind, staging]
    rfl
  have later := @materializeEach_run sha256 _ _ surroundings artifacts [] put (by simp) distinct
  unfold materializeFiles
  rw [Program.run_bind_ok ensured]
  generalize (materializeEach sha256 surroundings (stagingName nonce) artifacts).run _ = outcome
    at later
  cases later with
  | failed node fillsRest shownRest => exact .failed node (fills.append fillsRest) shownRest
  | done more fillsRest archived cached lengths shownRest =>
    exact .done more (fills.append fillsRest) archived cached lengths shownRest

/-- What the part of a run that builds a directory leaves: it failed and left nothing, or the
directory has the archives and the index. -/
inductive Staged (sha256 : List UInt8 → Sha256Digest) (nonce : Nonce)
    (artifacts : List MaterializationArtifact) (packages : List UInt8) (project : Project) :
    List Operation × Except MaterializationError (List MaterializationMethod) → Prop
  /-- The part failed, and nothing is left. -/
  | failed {operations : List Operation} {cause : MaterializationError}
      (builds : Builds nonce operations project)
      (shown : Shows (replay operations project) .clean) :
      Staged sha256 nonce artifacts packages project (operations, .error cause)
  /-- The directory is built. -/
  | done {operations : List Operation} {methods : List MaterializationMethod}
      (archives : List (String × Node))
      (fills : Fills nonce operations (apply (creation nonce) project))
      (archived : List.Forall₂ (Archived sha256) artifacts archives)
      (cached : ∀ selected ∈ artifacts, verifyCacheObject sha256 selected.artifact = .ok ())
      (lengths : methods.length = artifacts.length)
      (shown : Shows (replay (creation nonce :: operations) project)
        (.building nonce (contribTree (archives ++ [("PACKAGES", .file packages)])))) :
      Staged sha256 nonce artifacts packages project (creation nonce :: operations, .ok methods)

/-- The directory is built from nothing. -/
theorem buildStaging_run (surroundings : Surroundings) {artifacts : List MaterializationArtifact}
    (packages : List UInt8) (shown : Shows project .clean)
    (distinct : (artifacts.map destinationName).Nodup) :
    Staged sha256 surroundings.staging artifacts packages project
      ((buildStaging sha256 surroundings artifacts packages).run project) := by
  have created := @builds_new _ surroundings.staging shown
  have absent : project.get? (stagingName surroundings.staging) = none :=
    shown.staging _ (stagingStart_stagingName _)
  have ensured : (ensureDirectory (stagingName surroundings.staging) []).run project =
      ([creation surroundings.staging], .ok ()) := by
    unfold ensureDirectory
    rw [Program.run_look_bind, absent]
    rfl
  have later := @materializeFiles_run sha256 _ _ surroundings artifacts created distinct
  unfold buildStaging
  rw [Program.run_bind_ok ensured, replay_cons, replay_nil]
  generalize ranFiles : (materializeFiles sha256 surroundings (stagingName surroundings.staging)
    artifacts).run _ = outcome at later
  cases later with
  | failed node fillsRest shownRest =>
    obtain ⟨removes, removed⟩ := builds_remove shownRest
    rw [Program.run_bind_error (Program.run_tryCatch_rethrow _ ranFiles)]
    exact .failed ⟨.inl shown, rfl, fillsRest.builds.append removes⟩ (by
      rw [List.singleton_append, replay_cons, replay_append]
      exact removed)
  | done archives fillsRest archived cached lengths shownRest =>
    rw [List.nil_append] at shownRest
    have fresh : "PACKAGES" ∉ archives.map Prod.fst := by
      rw [Archived.names archived, List.mem_map]
      rintro ⟨selected, -, equal⟩
      exact destinationName_ne_packages selected equal
    have put := fills_put shownRest ["src", "contrib", "PACKAGES"] (.file packages)
    rw [put_contribTree _ fresh] at put
    rw [Program.run_bind_ok (Program.run_tryCatch_ok ranFiles), Program.run_perform_bind]
    exact .done archives (fillsRest.append put.1) archived cached lengths (by
      have whole := put.2
      rw [← replay_append] at whole
      exact whole)

end Building

section Publishing

variable {format : StateFormat} {sha256 : List UInt8 → Sha256Digest} {project : Project}
  {requested : List MaterializationArtifact}

/-- A state temporary that can be written is written. -/
theorem writeStateTemp_run (surroundings : Surroundings) {state : MaterializationState}
    {bytes : List UInt8} (written : format.writeState state = .ok bytes)
    (absent : project.get? (stateTempName surroundings.stateTemp) = none) :
    (writeStateTemp format surroundings state).run project =
      ([.put (stateTempName surroundings.stateTemp) [] (.file bytes)], .ok ()) := by
  have encoded : encodeState format (stateTempName surroundings.stateTemp) state = .ok bytes := by
    rw [encodeState, written]
    rfl
  refine Program.run_tryCatch_ok ?_
  rw [Program.run_lift_bind_ok _ _ encoded]
  exact writeTemp_run bytes absent

/-- A state temporary that cannot be written ends the run, without the staging directory. -/
theorem writeStateTemp_failed (surroundings : Surroundings) {state : MaterializationState}
    {reason : String} (refused : format.writeState state = .error reason) :
    ∃ cause, (writeStateTemp format surroundings state).run project =
      ([.remove (stagingName surroundings.staging)], .error cause) := by
  have encoded : encodeState format (stateTempName surroundings.stateTemp) state =
      .error (.invalidState [stateTempName surroundings.stateTemp] reason) := by
    rw [encodeState, refused]
    rfl
  exact ⟨_, Program.run_tryCatch_rethrow _ (Program.run_lift_bind_error _ _ encoded)⟩

/-- A marker temporary that can be written is written. -/
theorem writeTransactionTemp_run (surroundings : Surroundings)
    {transaction : MaterializationTransaction} {bytes : List UInt8}
    (written : format.writeTransaction transaction = .ok bytes)
    (absent : project.get? (markerTempName surroundings.markerTemp) = none) :
    (writeTransactionTemp format surroundings transaction).run project =
      ([.put (markerTempName surroundings.markerTemp) [] (.file bytes)], .ok ()) := by
  have encoded : encodeTransaction format (markerTempName surroundings.markerTemp) transaction =
      .ok bytes := by
    rw [encodeTransaction, written]
    rfl
  refine Program.run_tryCatch_ok ?_
  rw [Program.run_lift_bind_ok _ _ encoded]
  exact writeTemp_run bytes absent

/-- A prepared transaction goes through all its phases. -/
theorem publish_run (surroundings : Surroundings) (prepared : Prepared)
    (staging : prepared.staging = surroundings.staging)
    (stateTemp : prepared.stateTemp = surroundings.stateTemp)
    (writtenState : format.writeState prepared.state = .ok prepared.stateBytes)
    (written : format.writeTransaction prepared.transaction = .ok prepared.markerBytes)
    (shown : Shows project (.building prepared.staging prepared.tree)) :
    Shows (apply (Operation.put (stateTempName prepared.stateTemp) []
        (.file prepared.stateBytes)) project) (prepared.layout .prepared) ∧
      (publish format surroundings prepared.state).run project =
        ([.put (stateTempName prepared.stateTemp) [] (.file prepared.stateBytes),
          .put (markerTempName surroundings.markerTemp) [] (.file prepared.markerBytes),
          .rename (markerTempName surroundings.markerTemp) transactionName,
          .rename (stagingName prepared.staging) repositoryName,
          .rename (stateTempName prepared.stateTemp) stateName, .remove transactionName],
          .ok ()) := by
  have noState : project.get? (stateTempName surroundings.stateTemp) = none :=
    shown.stateTemp _ (stateTempStart_stateTempName _)
  have put : Shows (apply (Operation.put (stateTempName prepared.stateTemp) []
      (.file prepared.stateBytes)) project) (prepared.layout .prepared) :=
    shown.put_stateTemp _ _ rfl
  have noMarker : (apply (Operation.put (stateTempName prepared.stateTemp) []
      (.file prepared.stateBytes)) project).get? (markerTempName surroundings.markerTemp) = none :=
    put.markerTemp _ (markerTempStart_markerTempName _)
  refine ⟨put, ?_⟩
  rw [stateTemp] at noMarker
  have first := writeStateTemp_run surroundings writtenState noState
  rw [Prepared.transaction, staging, stateTemp] at written
  have second := writeTransactionTemp_run surroundings written noMarker
  unfold publish
  rw [Program.run_bind_ok first]
  simp only [replay_cons, replay_nil]
  rw [Program.run_bind_ok second, staging, stateTemp]
  rfl

/-- What a run leaves that had nothing to recover: it failed and left nothing, or it prepared a
transaction and took it to its end. -/
inductive Materialized (format : StateFormat) (sha256 : List UInt8 → Sha256Digest)
    (surroundings : Surroundings) (requested : List MaterializationArtifact) (project : Project) :
    List Operation × Except MaterializationError MaterializationState → Prop
  /-- The run failed. -/
  | failed {operations : List Operation} {cause : MaterializationError}
      (builds : Builds surroundings.staging operations project)
      (shown : Shows (replay operations project) .clean) :
      Materialized format sha256 surroundings requested project (operations, .error cause)
  /-- The run published its repository. -/
  | published {first later : List Operation} (prepared : Prepared)
      (sound : prepared.Sound format sha256) (records : prepared.Records sha256 requested)
      (cached : ∀ selected ∈ requested, verifyCacheObject sha256 selected.artifact = .ok ())
      (start : Shows project .clean)
      (fills : Fills surroundings.staging first (apply (creation surroundings.staging) project))
      (finishes : Finishes sha256 prepared requested later
        (apply (Operation.put (stateTempName surroundings.stateTemp) []
          (.file prepared.stateBytes))
            (replay (creation surroundings.staging :: first) project))) :
      Materialized format sha256 surroundings requested project
        (creation surroundings.staging :: first ++
          .put (stateTempName surroundings.stateTemp) [] (.file prepared.stateBytes) :: later,
          .ok prepared.state)

/-- The part of a run that builds a directory prepares nothing. -/
theorem builds_of_fills {nonce : Nonce} {operations : List Operation} (shown : Shows project .clean)
    (fills : Fills nonce operations (apply (creation nonce) project)) :
    Builds nonce (creation nonce :: operations) project :=
  ⟨.inl shown, rfl, fills.builds⟩

/-- The state of a directory that was built. -/
def builtState (sha256 : List UInt8 → Sha256Digest) (packages : List UInt8)
    (artifacts : List MaterializationArtifact) (methods : List MaterializationMethod) :
    MaterializationState :=
  ⟨2, (sha256 packages).text, List.zipWith recordFor artifacts methods⟩

/-- The state of a directory that was built records the request. -/
theorem records_built {prepared : Prepared} {packages : List UInt8}
    {methods : List MaterializationMethod} (valid : ValidInputs requested)
    (index : requestedPackages (canonicalArtifacts requested) = .ok packages)
    (lengths : methods.length = (canonicalArtifacts requested).length)
    (state : prepared.state = builtState sha256 packages (canonicalArtifacts requested) methods) :
    prepared.Records sha256 requested := by
  constructor
  · rw [recordsMatchRequested_iff, state]
    exact plain_zipWith lengths
  · have canonical : requestedPackages (canonicalArtifacts requested) =
        requestedPackages requested := by
      rw [requestedPackages, requestedPackages, ← writePackages_perm valid
        (canonicalArtifacts_perm_self requested).symm]
    rw [requestedIndexSha256, ← canonical, index, state]
    rfl

/-- A directory that was built makes a sound transaction. -/
theorem sound_built (lawful : format.Lawful) {prepared : Prepared} {packages : List UInt8}
    {artifacts : List MaterializationArtifact} {methods : List MaterializationMethod}
    {archives : List (String × Node)}
    (archived : List.Forall₂ (Archived sha256) artifacts archives)
    (distinct : (artifacts.map destinationName).Nodup)
    (lengths : methods.length = artifacts.length)
    (state : prepared.state = builtState sha256 packages artifacts methods)
    (tree : prepared.tree = contribTree (archives ++ [("PACKAGES", .file packages)]))
    (writtenState : format.writeState prepared.state = .ok prepared.stateBytes)
    (written : format.writeTransaction prepared.transaction = .ok prepared.markerBytes) :
    prepared.Sound format sha256 where
  schema := by rw [state]; rfl
  state := lawful.readState _ _ writtenState
  marker := lawful.readTransaction _ _ written
  written := written
  tree := by
    rw [tree, state]
    exact ⟨_, _, rfl, validRepository_built packages archived distinct lengths⟩

/-- A run from nothing fails or publishes. -/
theorem materializeNew_run (lawful : format.Lawful) (surroundings : Surroundings)
    (valid : ValidInputs requested) (shown : Shows project .clean) :
    Materialized format sha256 surroundings requested project
      ((materializeNew format sha256 surroundings requested).run project) := by
  have canonical := valid.perm (canonicalArtifacts_perm_self requested).symm
  unfold materializeNew
  dsimp only
  cases index : requestedPackages (canonicalArtifacts requested) with
  | error cause =>
    rw [Program.run_lift_bind_error _ _ rfl]
    exact .failed (.inl shown) shown
  | ok packages =>
    rw [Program.run_lift_bind_ok _ _ rfl]
    have staged := @buildStaging_run sha256 _ surroundings _ packages shown canonical.destinations
    generalize ranStaging : (buildStaging sha256 surroundings (canonicalArtifacts requested)
      packages).run project = outcome at staged
    cases staged with
    | failed builds shownRest =>
      rw [Program.run_bind_error ranStaging]
      exact .failed builds shownRest
    | @done operations methods archives fills archived cached lengths shownRest =>
      have folded : (⟨2, (sha256 packages).text,
          List.zipWith recordFor (canonicalArtifacts requested) methods⟩ : MaterializationState) =
            builtState sha256 packages (canonicalArtifacts requested) methods := rfl
      rw [Program.run_bind_ok ranStaging, folded]
      cases writtenState : format.writeState
          (builtState sha256 packages (canonicalArtifacts requested) methods) with
      | error reason =>
        obtain ⟨cause, ran⟩ := @writeStateTemp_failed _ 
          (replay (creation surroundings.staging :: operations) project) surroundings _ _ writtenState
        obtain ⟨removes, removed⟩ := builds_remove shownRest
        have stopped : (publish format surroundings
            (builtState sha256 packages (canonicalArtifacts requested) methods)).run
              (replay (creation surroundings.staging :: operations) project) =
            ([.remove (stagingName surroundings.staging)], .error cause) :=
          Program.run_bind_error ran
        rw [Program.run_bind_error stopped]
        exact .failed ((builds_of_fills shown fills).append removes) (by
          rw [replay_append]
          exact removed)
      | ok stateBytes =>
        obtain ⟨markerBytes, written⟩ := lawful.together _ _ surroundings.stateTemp
          surroundings.staging writtenState
        let prepared : Prepared := ⟨builtState sha256 packages (canonicalArtifacts requested) methods,
          surroundings.staging, surroundings.stateTemp,
          contribTree (archives ++ [("PACKAGES", .file packages)]), stateBytes, markerBytes⟩
        have records : prepared.Records sha256 requested := records_built valid index lengths rfl
        have sound : prepared.Sound format sha256 :=
          sound_built lawful archived canonical.destinations lengths rfl rfl writtenState written
        obtain ⟨put, ran⟩ := publish_run surroundings prepared rfl rfl writtenState written shownRest
        have finishes := finishes_prepared sound records surroundings.markerTemp put
        rw [Program.run_bind_ok ran]
        refine .published prepared sound records (fun selected member => ?_) shown fills finishes
        exact cached selected ((canonicalArtifacts_perm_self requested).mem_iff.mpr member)

end Publishing

end Rsolve
