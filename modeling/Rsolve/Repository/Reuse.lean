import Rsolve.Repository.Crashes
import Rsolve.Repository.Identities

/-!
# Reusing a repository

A later run finds the repository of an earlier one and returns its state without a change. It does
so for every order of the artifacts of the earlier run, and for other artifacts only when the keys
of two identities coincide.
-/
open Keyed Checked Ordered Journal

namespace Rsolve

section Finished

variable {format : StateFormat} {sha256 : List UInt8 → Sha256Digest} {project : Project}
  {prepared : Prepared} {requested : List MaterializationArtifact}

/-- A run in a project with a committed state changes nothing. -/
theorem materialize_finished (surroundings : Surroundings)
    (shown : Shows project (prepared.layout .finished)) (equipped : Equipped project) :
    (materialize format sha256 surroundings requested).run project =
      ([], validateInputs requested >>= fun _ => existingState format sha256 project requested) := by
  have committed : project.get? stateName = some (.file prepared.stateBytes) := shown.state
  unfold materialize
  rw [setup_equipped shown equipped]
  cases checked : validateInputs requested with
  | error cause => exact Program.run_lift_bind_error _ _ rfl
  | ok =>
    rw [Program.run_lift_bind_ok _ _ rfl, Program.run_bind_ok
      (recover_nothing surroundings shown.marker ⟨shown.states, shown.markers, shown.stagings⟩),
      replay_nil, afterRecovery_committed surroundings committed]
    rfl

/-- Runs in a project with a committed state leave it as it is. -/
theorem eq_of_continues {left : Project} (shown : Shows project (prepared.layout .finished))
    (equipped : Equipped project) (continues : Continues format sha256 project left) :
    left = project := by
  refine @Continues.induct format sha256 (fun other => other = project) ?_ _ _ continues rfl
  rintro _ surroundings requested rfl performed stopped
  rw [operationsOf, materialize_finished surroundings shown equipped, List.prefix_nil] at stopped
  rw [stopped, replay_nil]

/-- A run that succeeds in an empty project leaves a finished transaction. -/
theorem finished_of_first (lawful : format.Lawful) (surroundings : Surroundings)
    {state : MaterializationState}
    (succeeded : ((materialize format sha256 surroundings requested).run OrderedMap.empty).2 =
      .ok state) :
    ∃ prepared : Prepared, prepared.Sound format sha256 ∧ ValidInputs requested ∧
      prepared.Records sha256 requested ∧ prepared.state = state ∧
      (∀ selected ∈ requested, verifyCacheObject sha256 selected.artifact = .ok ()) ∧
      Shows (replay (operationsOf format sha256 surroundings requested OrderedMap.empty)
        OrderedMap.empty) (prepared.layout .finished) ∧
      Equipped (replay (operationsOf format sha256 surroundings requested OrderedMap.empty)
        OrderedMap.empty) := by
  rcases @materialize_clean format sha256 _ requested lawful surroundings shows_empty with
    ⟨operations, cause, ran, idle⟩ | ⟨setup, operations, result, valid, idle, equipped, materialized,
      ran⟩
  · rw [ran] at succeeded
    cases succeeded
  · rw [ran] at succeeded
    cases materialized with
    | failed building left => cases succeeded
    | @published first later prepared sound records cached start fills finishes =>
      rw [operationsOf, ran, replay_append]
      refine ⟨prepared, sound, valid, records, Except.ok.inj succeeded, cached, ?_, ?_⟩
      · rw [replay_append, replay_cons]
        exact finishes.2
      · refine equipped.replay fun operation member => ?_
        rcases List.mem_append.mp member with inside | inside
        · obtain ⟨_, building⟩ := Guarded.of_mem (builds_of_fills start fills) inside
          exact building.spares
        · rcases List.mem_cons.mp inside with rfl | inside
          · exact trivial
          · obtain ⟨_, recovers⟩ := Guarded.of_mem finishes.1 inside
            exact recovers.2.2

end Finished

/-- Two artifacts are one selection: a package, its identity, the spelling of its version, and the
digest and the length of its archive. -/
structure SameSelection (left right : MaterializationArtifact) : Prop where
  /-- The packages are equal. -/
  package : left.package = right.package
  /-- The identities are the same. -/
  identity : Same left.identity right.identity
  /-- The versions are spelled alike. -/
  version : left.version.raw = right.version.raw
  /-- The digests are equal. -/
  digest : left.artifact.sha256 = right.artifact.sha256
  /-- The lengths are equal. -/
  size : left.artifact.size = right.artifact.size

/-- Two lists of artifacts have one set of selections and one index. -/
structure SameSelections (left right : List MaterializationArtifact) : Prop where
  /-- The selections of the one are in the other. -/
  forth : ∀ selected ∈ left, ∃ other ∈ right, SameSelection selected other
  /-- The selections of the other are in the one. -/
  back : ∀ other ∈ right, ∃ selected ∈ left, SameSelection selected other
  /-- The indexes are equal. -/
  packages : requestedPackages left = requestedPackages right

/-- Artifacts of one package whose identities straddle the separators of their keys. -/
def Straddling (left right : List MaterializationArtifact) : Prop :=
  ∃ selected ∈ left, ∃ other ∈ right, selected.package = other.package ∧
    (Straddles selected.identity other.identity ∨ Straddles other.identity selected.identity)

/-- Artifacts that are recorded alike are one selection unless their identities straddle. -/
theorem sameSelection_of_recorded {left right : MaterializationArtifact}
    (equal : recorded left = recorded right)
    (apart : ¬ (Straddles left.identity right.identity ∨ Straddles right.identity left.identity)) :
    SameSelection left right where
  package := PackageName.ext (congrArg MaterializationRecord.package equal)
  identity := (same_or_straddles (congrArg MaterializationRecord.identity equal)).resolve_right apart
  version := congrArg MaterializationRecord.version equal
  digest := Sha256Digest.ext (congrArg MaterializationRecord.artifactSha256 equal)
  size := congrArg MaterializationRecord.size equal

section Requests

variable {left right : List MaterializationArtifact}

/-- What one of two requests that are recorded alike selects, the other one records. -/
theorem exists_recorded (records : requestRecords left = requestRecords right)
    {selected : MaterializationArtifact} (member : selected ∈ left) :
    ∃ other ∈ right, recorded selected = recorded other := by
  have inside : recorded selected ∈ requestRecords right := by
    rw [← records]
    exact List.mem_map_of_mem ((canonicalArtifacts_perm_self left).mem_iff.mpr member)
  obtain ⟨other, isRight, equal⟩ := List.mem_map.mp inside
  exact ⟨other, (canonicalArtifacts_perm_self right).mem_iff.mp isRight, equal.symm⟩

/-- Two requests that are recorded alike have one set of selections exactly when none of their
identities straddle. -/
theorem sameSelections_iff (valid : ValidInputs right)
    (records : requestRecords left = requestRecords right)
    (packages : requestedPackages left = requestedPackages right) :
    SameSelections left right ↔ ¬ Straddling left right := by
  constructor
  · rintro same ⟨selected, isLeft, other, isRight, equal, straddle⟩
    obtain ⟨found, inside, selection⟩ := same.forth selected isLeft
    obtain rfl : found = other :=
      valid.eq_of_package inside isRight (selection.package.symm.trans equal)
    rcases straddle with straddles | straddles
    · exact (straddles.collides equal).2 selection.identity
    · exact (straddles.collides equal.symm).2 selection.identity.symm
  · intro apart
    have selection : ∀ selected ∈ left, ∀ other ∈ right, recorded selected = recorded other →
        SameSelection selected other := fun selected isLeft other isRight equal =>
      sameSelection_of_recorded equal fun straddle => apart ⟨selected, isLeft, other, isRight,
        PackageName.ext (congrArg MaterializationRecord.package equal), straddle⟩
    refine ⟨fun selected isLeft => ?_, fun other isRight => ?_, packages⟩
    · obtain ⟨other, isRight, equal⟩ := exists_recorded records isLeft
      exact ⟨other, isRight, selection selected isLeft other isRight equal⟩
    · obtain ⟨selected, isLeft, equal⟩ := exists_recorded records.symm isRight
      exact ⟨selected, isLeft, selection selected isLeft other isRight equal.symm⟩

end Requests

namespace Small

/-- A commit. -/
def commit : GitCommitId :=
  ⟨.sha1, "aaaaaaaaaaaaaaaaaaaaaaaaaaaaaaaaaaaaaaaa", by decide +kernel⟩

/-- A release of a commit, in a repository with a path. -/
def committed (url path : String) (valid : RepositorySubdir.check path = .ok ()) : ReleaseIdentity :=
  ⟨alpha, .gitCommit ⟨url⟩ commit (some ⟨path, valid⟩)⟩

end Small

end Rsolve
