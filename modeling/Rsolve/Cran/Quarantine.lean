import Rsolve.Cran.Import

/-!
# The quarantine of identities

A record with an identity but without a valid description is rejected, and its identity is noted.
A valid record of a noted identity is rejected too, but its turn clears the note, and a record that
came before the note stays. So the identities that are admitted depend on the order of the records
exactly when an identity has both kinds.
-/
open Keyed Checked Panics

namespace Rsolve

/-- The identity that an admitted record stands for. -/
def CranCatalogObservation.identityKey (observation : CranCatalogObservation) :
    ProviderIdentityKey :=
  ⟨observation.package, observation.release.version, observation.scope⟩

namespace CranCatalog

/-- The identity that a record gives, when its package is the expected one. -/
def providedIdentity (context : CranCatalogRecordContext) (expected : Option PackageName)
    (record : CatalogRecord) : Option ProviderIdentityKey :=
  (providerIdentityFromFields record.fields context).toOption.filter fun identity =>
    expected.all fun name => identity.package = name

/-- A record is semantically valid: its fields give an observation. -/
def describes (basis : CatalogBasis) (context : CranCatalogRecordContext)
    (record : CatalogRecord) : Bool :=
  match (observationFromFieldsWithContext basis record.fields context).run with
  | some (.ok _) => true
  | _ => false

/-- Import quarantines identities: whatever the order of the records, the same identities are
admitted, each record is admitted or rejected once, and no admitted identity has an invalid
record. -/
structure Quarantines (basis : CatalogBasis) (context : CranCatalogRecordContext)
    (expected : Option PackageName) (records : List CatalogRecord) : Prop where
  /-- Every order is projected. -/
  projected : ∀ order, List.Perm order records →
    ∃ projection, providerObservationsFromFields basis order context expected = some projection
  /-- Two orders admit the same identities. -/
  sameIdentities : ∀ order, List.Perm order records → ∀ other, List.Perm other records →
    ∀ left right, providerObservationsFromFields basis order context expected = some left →
      providerObservationsFromFields basis other context expected = some right →
      ∀ observation ∈ left.observations, ∃ partner ∈ right.observations,
        Same partner.identityKey observation.identityKey
  /-- Each record is admitted or rejected once. -/
  once : ∀ order, List.Perm order records → ∀ projection,
    providerObservationsFromFields basis order context expected = some projection →
    (projection.observations.map (·.recordIndex) ++
      projection.rejections.map (·.recordIndex)).Perm (records.map (·.recordIndex))
  /-- No admitted identity has an invalid record. -/
  quarantined : ∀ order, List.Perm order records → ∀ projection,
    providerObservationsFromFields basis order context expected = some projection →
    ∀ observation ∈ projection.observations, ∀ record ∈ records, ∀ identity,
      providedIdentity context expected record = some identity →
      Same identity observation.identityKey → describes basis context record = true

/-- No identity has both a valid and an invalid record. -/
def Unmixed (basis : CatalogBasis) (context : CranCatalogRecordContext)
    (expected : Option PackageName) (records : List CatalogRecord) : Prop :=
  ∀ valid ∈ records, ∀ other ∈ records, ∀ identity identity',
    providedIdentity context expected valid = some identity →
    providedIdentity context expected other = some identity' → Same identity identity' →
    describes basis context valid = true → describes basis context other = true

variable {basis : CatalogBasis} {records : List CatalogRecord} {context : CranCatalogRecordContext}
  {expected : Option PackageName} {record : CatalogRecord} {fields : RecordFields}

/-- A record is valid when its fields are read. -/
theorem describes_eq :
    describes basis context record = (readObservation basis record.fields context).isOk := by
  unfold describes
  rw [observationFromFieldsWithContext_eq, run_attempt]
  cases readObservation basis record.fields context <;> rfl

/-- The identity of a record that is read is that of its parsed fields. -/
theorem Reads.identity_eq {observation : ReleaseObservation} {identity : ProviderIdentityKey}
    (reads : Reads fields context observation)
    (identified : providerIdentityFromFields fields context = .ok identity) :
    identity = ⟨reads.parsed.package, reads.parsed.version, reads.scope⟩ := by
  have required : ∀ {name text : String}, requiredField fields name = .ok text →
      PackageDescription.field fields name = some text := fun {name text} found => by
    unfold requiredField at found
    cases written : PackageDescription.field fields name with
    | none => rw [written] at found; cases found
    | some text' => rw [written] at found; exact congrArg some (Except.ok.inj found)
  obtain ⟨_, -, identified⟩ := bind_eq_ok.mp identified
  obtain ⟨versionText, versionField, identified⟩ := bind_eq_ok.mp identified
  obtain ⟨version, versionRead, identified⟩ := bind_eq_ok.mp identified
  obtain ⟨packageText, packageField, identified⟩ := bind_eq_ok.mp identified
  obtain ⟨package, packageRead, identified⟩ := bind_eq_ok.mp identified
  obtain ⟨scope, scopeRead, finished⟩ := bind_eq_ok.mp identified
  obtain rfl := Except.ok.inj finished
  obtain ⟨versionText', versionField', versionRead'⟩ := reads.parses.version
  obtain ⟨packageText', packageField', packageRead'⟩ := reads.parses.package
  obtain rfl := Option.some.inj ((required versionField).symm.trans versionField')
  obtain rfl := Option.some.inj ((required packageField).symm.trans packageField')
  rw [Except.ok.inj ((mapError_eq_ok.mp versionRead).symm.trans versionRead'),
    Except.ok.inj ((mapError_eq_ok.mp packageRead).symm.trans packageRead'),
    Except.ok.inj (scopeRead.symm.trans reads.scopeRead)]

/-! ### One record -/

/-- The state in which an identity is noted as valid. -/
def noteValid (state : ProviderState) (identity : ProviderIdentityKey) : ProviderState :=
  { state with seenIdentities := state.seenIdentities.insert identity false }

/-- What the observation of one record does. -/
inductive Observes (basis : CatalogBasis) (context : CranCatalogRecordContext)
    (expected : Option PackageName) (state : ProviderState) (record : CatalogRecord) :
    ProviderState → Prop
  /-- A record without an identity of the expected package is rejected. -/
  | strange {package version scope error}
      (unnamed : providedIdentity context expected record = none) :
      Observes basis context expected state record
        (state.reject record package version scope error)
  /-- An invalid record is rejected and noted. -/
  | invalid {identity package error}
      (provided : providedIdentity context expected record = some identity)
      (refused : describes basis context record = false) :
      Observes basis context expected state record
        (state.rejectInvalid record identity package error)
  /-- A valid record of an identity noted as invalid is rejected. -/
  | duplicate {identity named error}
      (provided : providedIdentity context expected record = some identity)
      (accepted : describes basis context record = true)
      (noted : state.seenIdentities.get? identity = some true) :
      Observes basis context expected state record
        ((noteValid state identity).rejectIdentity record named error)
  /-- A valid record that contradicts an admitted one is rejected. -/
  | conflicting {identity parsed named error cause}
      (provided : providedIdentity context expected record = some identity)
      (accepted : describes basis context record = true)
      (parses : identity = ⟨parsed.package, parsed.version, .root⟩)
      (conflict : state.aggregation.observeRelease (registryRelease parsed) = .error cause) :
      Observes basis context expected state record
        ((noteValid state identity).rejectIdentity record named error)
  /-- Any other valid record is admitted. -/
  | admitted {identity parsed scope fields aggregation}
      (provided : providedIdentity context expected record = some identity)
      (accepted : describes basis context record = true)
      (parses : identity = ⟨parsed.package, parsed.version, scope⟩)
      (aggregated : aggregation = state.aggregation ∨ scope = .root ∧
        state.aggregation.observeRelease (registryRelease parsed) = .ok aggregation) :
      Observes basis context expected state record
        { noteValid state identity with
          aggregation
          observations := state.observations ++
            [⟨record.recordIndex, parsed.package, fields, registryRelease parsed, scope⟩] }

/-- The observation of one record does one of these. -/
theorem observes_of_observeRecord {state next : ProviderState}
    (stepped : observeRecord basis records context expected state record = some next) :
    Observes basis context expected state record next := by
  unfold observeRecord at stepped
  cases identified : providerIdentityFromFields record.fields context with
  | error error =>
    rw [identified] at stepped
    obtain rfl := Option.some.inj stepped
    exact .strange (by rw [providedIdentity, identified]; rfl)
  | ok identity =>
    rw [identified] at stepped
    dsimp only at stepped
    cases unexpected : expected.filter (fun name => identity.package ≠ name) with
    | some name =>
      rw [unexpected] at stepped
      obtain rfl := Option.some.inj stepped
      refine .strange ?_
      obtain ⟨rfl, differs⟩ := Option.filter_eq_some_iff.mp unexpected
      rw [providedIdentity, identified]
      simpa [Except.toOption] using differs
    | none =>
      rw [unexpected] at stepped
      have provided : providedIdentity context expected record = some identity := by
        rw [providedIdentity, identified]
        cases expected with
        | none => rfl
        | some name => simpa [Except.toOption, Option.filter] using unexpected
      dsimp only at stepped
      rw [observationFromFieldsWithContext_eq] at stepped
      cases read : readObservation basis record.fields context with
      | error error =>
        rw [read] at stepped
        obtain rfl := Option.some.inj stepped
        exact .invalid provided (by rw [describes_eq, read]; rfl)
      | ok observation =>
        rw [read] at stepped
        have accepted : describes basis context record = true := by rw [describes_eq, read]; rfl
        obtain ⟨reads⟩ := reads_of_readObservation read
        simp only [run_attempt, Option.bind_eq_bind, Option.bind_some, reads.observationScope_eq,
          reads.tryFrom_eq, ExceptT.run_pure, Option.pure_def] at stepped
        have parses := reads.identity_eq identified
        unfold ProviderState.admit at stepped
        dsimp only at stepped
        split at stepped
        · next noted =>
          obtain rfl := Option.some.inj stepped
          exact .duplicate provided accepted noted
        · split at stepped
          · next error conflict =>
            obtain rfl := Option.some.inj stepped
            split at conflict
            · next rooted =>
              rw [rooted] at parses
              exact .conflicting provided accepted parses conflict
            · cases conflict
          · next aggregation aggregated =>
            obtain ⟨fields, -, stepped⟩ := Option.bind_eq_some_iff.mp stepped
            obtain rfl := Option.some.inj stepped
            refine .admitted provided accepted parses ?_
            split at aggregated
            · next rooted => exact .inr ⟨rooted, aggregated⟩
            · exact .inl (Except.ok.inj aggregated).symm

/-! ### All records -/

/-- What is known of the state after some records. -/
structure Projected (basis : CatalogBasis) (context : CranCatalogRecordContext)
    (expected : Option PackageName) (done : List CatalogRecord) (state : ProviderState) : Prop where
  /-- A noted identity has an invalid record. -/
  noted : ∀ key, state.seenIdentities.get? key = some true → ∃ record ∈ done, ∃ identity,
    providedIdentity context expected record = some identity ∧ Same identity key ∧
      describes basis context record = false
  /-- An admitted identity has a valid record. -/
  sound : ∀ observation ∈ state.observations, ∃ record ∈ done, ∃ parsed,
    observation.package = parsed.package ∧ observation.release = registryRelease parsed ∧
      providedIdentity context expected record = some observation.identityKey ∧
      describes basis context record = true
  /-- An aggregated identity was admitted. -/
  aggregated : ∀ identity release, state.aggregation.get? identity = some release →
    ∃ observation ∈ state.observations, observation.scope = .root ∧
      Same observation.release.identity identity
  /-- Each record was counted once. -/
  counted : (state.observations.map (·.recordIndex) ++
    state.rejections.map (·.recordIndex)).Perm (done.map (·.recordIndex))

/-- Where no identity has both kinds of records, every valid record's identity is admitted. -/
def Complete (basis : CatalogBasis) (context : CranCatalogRecordContext)
    (expected : Option PackageName) (done : List CatalogRecord) (state : ProviderState) : Prop :=
  ∀ record ∈ done, ∀ identity, providedIdentity context expected record = some identity →
    describes basis context record = true →
    ∃ observation ∈ state.observations, Same observation.identityKey identity

/-- Before the first record nothing is noted or admitted. -/
theorem projected_new : Projected basis context expected [] .new where
  noted key found := by cases found
  sound observation member := by cases member
  aggregated identity release found := by cases found
  counted := List.Perm.nil

/-- A rejection of the next record, with the same observations, keeps what is known. -/
theorem Projected.of_reject {done : List CatalogRecord} {state next : ProviderState}
    (known : Projected basis context expected done state)
    (observations : next.observations = state.observations)
    (aggregation : next.aggregation = state.aggregation)
    (rejections : next.rejections.map (·.recordIndex) =
      state.rejections.map (·.recordIndex) ++ [record.recordIndex])
    (noted : ∀ key, next.seenIdentities.get? key = some true →
      state.seenIdentities.get? key = some true ∨
        ∃ identity, providedIdentity context expected record = some identity ∧ Same identity key ∧
          describes basis context record = false) :
    Projected basis context expected (done ++ [record]) next where
  noted key found := by
    rcases noted key found with earlier | ⟨identity, provided, same, refused⟩
    · obtain ⟨other, member, rest⟩ := known.noted key earlier
      exact ⟨other, List.mem_append_left _ member, rest⟩
    · exact ⟨record, by simp, identity, provided, same, refused⟩
  sound observation member := by
    rw [observations] at member
    obtain ⟨other, otherIn, rest⟩ := known.sound observation member
    exact ⟨other, List.mem_append_left _ otherIn, rest⟩
  aggregated identity release found := by
    rw [aggregation] at found
    rw [observations]
    exact known.aggregated identity release found
  counted := by
    rw [observations, rejections, ← List.append_assoc, List.map_append]
    exact known.counted.append_right _

/-- Noting a valid record notes no invalid one. -/
theorem noted_of_noteValid {state : ProviderState} {identity key : ProviderIdentityKey}
    (found : (noteValid state identity).seenIdentities.get? key = some true) :
    state.seenIdentities.get? key = some true := by
  rw [noteValid, KeyedMap.get?_insert] at found
  split at found
  · cases found
  · exact found

/-- A release that is aggregated leaves the other identities alone. -/
theorem get?_of_observeRelease {aggregation next : ReleaseAggregation} {release : PackageRelease}
    (observed : aggregation.observeRelease release = .ok next) {query : ReleaseIdentity}
    {found : PackageRelease} (stored : next.get? query = some found) :
    Same release.identity query ∨ aggregation.get? query = some found := by
  have inserted : ∃ merged, next = aggregation.insert release.identity merged := by
    unfold ReleaseAggregation.observeRelease at observed
    split at observed
    · obtain ⟨merged, -, finished⟩ := bind_eq_ok.mp observed
      exact ⟨merged, (Except.ok.inj finished).symm⟩
    · exact ⟨release, (Except.ok.inj observed).symm⟩
  obtain ⟨merged, rfl⟩ := inserted
  rw [KeyedMap.get?_insert] at stored
  split at stored
  · next same => exact .inl same
  · exact .inr stored

/-- One record keeps what is known. -/
theorem Observes.projected {done : List CatalogRecord} {state next : ProviderState}
    (observes : Observes basis context expected state record next)
    (known : Projected basis context expected done state) :
    Projected basis context expected (done ++ [record]) next := by
  cases observes with
  | strange unnamed =>
    exact known.of_reject rfl rfl (by simp [ProviderState.reject]) fun key found => .inl found
  | @invalid identity _ _ provided refused =>
    refine known.of_reject rfl rfl
      (by simp [ProviderState.rejectInvalid, ProviderState.rejectIdentity, ProviderState.reject])
      fun key found => ?_
    change (state.seenIdentities.insert identity true).get? key = some true at found
    rw [KeyedMap.get?_insert] at found
    split at found
    · next same => exact .inr ⟨identity, provided, same, refused⟩
    · exact .inl found
  | duplicate provided accepted noted =>
    exact known.of_reject rfl rfl
      (by simp [noteValid, ProviderState.rejectIdentity, ProviderState.reject])
      fun key found => .inl (noted_of_noteValid found)
  | conflicting provided accepted parses conflict =>
    exact known.of_reject rfl rfl
      (by simp [noteValid, ProviderState.rejectIdentity, ProviderState.reject])
      fun key found => .inl (noted_of_noteValid found)
  | @admitted identity parsed scope fields aggregation provided accepted parses aggregated =>
    refine ⟨fun key found => ?_, fun observation member => ?_, fun query release found => ?_, ?_⟩
    · obtain ⟨other, member, rest⟩ := known.noted key (noted_of_noteValid found)
      exact ⟨other, List.mem_append_left _ member, rest⟩
    · rcases List.mem_append.mp member with earlier | latest
      · obtain ⟨other, otherIn, rest⟩ := known.sound observation earlier
        exact ⟨other, List.mem_append_left _ otherIn, rest⟩
      · obtain rfl := List.mem_singleton.mp latest
        exact ⟨record, by simp, parsed, rfl, rfl, by rw [provided, parses]; rfl, accepted⟩
    · have before : state.aggregation.get? query = some release →
          ∃ observation ∈ state.observations ++
            [⟨record.recordIndex, parsed.package, fields, registryRelease parsed, scope⟩],
            observation.scope = .root ∧ Same observation.release.identity query := fun stored => by
        obtain ⟨observation, member, rest⟩ := known.aggregated query release stored
        exact ⟨observation, List.mem_append_left _ member, rest⟩
      rcases aggregated with rfl | ⟨rooted, observed⟩
      · exact before found
      · rcases get?_of_observeRelease observed found with same | stored
        · exact ⟨_, List.mem_append_right _ List.mem_cons_self, rooted, same⟩
        · exact before stored
    · change ((state.observations ++ [_]).map _ ++ state.rejections.map _).Perm _
      rw [List.map_append, List.map_append, List.append_assoc]
      refine ((@List.perm_append_comm _ [record.recordIndex] _).append_left _).trans ?_
      rw [← List.append_assoc]
      exact known.counted.append_right _

/-- Releases of one identity have the same package and version. -/
theorem same_key_of_identity {left right : ParsedDescription} {scope : CranCatalogRecordScope}
    (same : Same (registryRelease left).identity (registryRelease right).identity) :
    Same (⟨left.package, left.version, scope⟩ : ProviderIdentityKey)
      ⟨right.package, right.version, scope⟩ := by
  simp [Same, representative, registryRelease, registryObservation] at same ⊢
  exact same

/-- An admitted record stays admitted. -/
theorem Observes.mono {state next : ProviderState}
    (observes : Observes basis context expected state record next)
    {observation : CranCatalogObservation} (member : observation ∈ state.observations) :
    observation ∈ next.observations := by
  cases observes with
  | strange => exact member
  | invalid => exact member
  | duplicate => exact member
  | conflicting => exact member
  | admitted => exact List.mem_append_left _ member

/-- A release that contradicts an aggregated one has its identity. -/
theorem exists_get?_of_conflict {aggregation : ReleaseAggregation} {release : PackageRelease}
    {cause : PackageReleaseError} (conflict : aggregation.observeRelease release = .error cause) :
    ∃ existing, aggregation.get? release.identity = some existing := by
  unfold ReleaseAggregation.observeRelease at conflict
  split at conflict
  · next existing found => exact ⟨existing, found⟩
  · cases conflict

/-- A valid record of an identity that was not noted is admitted, or its identity was before. -/
theorem Observes.exists_admitted {done : List CatalogRecord} {state next : ProviderState}
    (observes : Observes basis context expected state record next)
    (known : Projected basis context expected done state) {identity : ProviderIdentityKey}
    (provided : providedIdentity context expected record = some identity)
    (accepted : describes basis context record = true)
    (clear : state.seenIdentities.get? identity ≠ some true) :
    ∃ observation ∈ next.observations, Same observation.identityKey identity := by
  cases observes with
  | strange unnamed => rw [unnamed] at provided; cases provided
  | invalid _ refused => rw [accepted] at refused; cases refused
  | duplicate provided' _ noted =>
    obtain rfl := Option.some.inj (provided'.symm.trans provided)
    exact absurd noted clear
  | conflicting provided' _ parses conflict =>
    obtain rfl := Option.some.inj (provided'.symm.trans provided)
    obtain ⟨existing, stored⟩ := exists_get?_of_conflict conflict
    obtain ⟨observation, member, rooted, same⟩ := known.aggregated _ existing stored
    obtain ⟨_, _, other, package, release, _, _⟩ := known.sound observation member
    refine ⟨observation, member, ?_⟩
    rw [release] at same
    rw [CranCatalogObservation.identityKey, package, release, rooted, parses]
    exact same_key_of_identity same
  | admitted provided' _ parses _ =>
    obtain rfl := Option.some.inj (provided'.symm.trans provided)
    exact ⟨_, List.mem_append_right _ List.mem_cons_self, Same.of_eq parses.symm⟩

/-- One record keeps every valid record's identity admitted. -/
theorem Observes.complete {done : List CatalogRecord} {state next : ProviderState}
    (observes : Observes basis context expected state record next)
    (known : Projected basis context expected done state)
    (complete : Complete basis context expected done state)
    (unmixed : Unmixed basis context expected records) (earlier : ∀ other ∈ done, other ∈ records)
    (member : record ∈ records) : Complete basis context expected (done ++ [record]) next := by
  intro other otherIn identity provided accepted
  rcases List.mem_append.mp otherIn with before | latest
  · obtain ⟨observation, admitted, same⟩ := complete other before identity provided accepted
    exact ⟨observation, observes.mono admitted, same⟩
  · obtain rfl := List.mem_singleton.mp latest
    refine observes.exists_admitted known provided accepted fun noted => ?_
    obtain ⟨invalid, invalidIn, identity', provided', same, refused⟩ := known.noted identity noted
    have valid := unmixed other member invalid (earlier invalid invalidIn) identity identity'
      provided provided' same.symm accepted
    rw [valid] at refused
    cases refused

/-- The projection is that of the state after the last record. -/
theorem exists_state {projection : CranProviderObservationProjection}
    (provided : providerObservationsFromFields basis records context expected = some projection) :
    ∃ state : ProviderState,
      records.foldlM (observeRecord basis records context expected) .new = some state ∧
        projection = ⟨state.observations, state.rejections⟩ := by
  obtain ⟨state, folded, finished⟩ := Option.bind_eq_some_iff.mp provided
  exact ⟨state, folded, (Option.some.inj finished).symm⟩

/-- What is known of the state after all records. -/
theorem projected_of_foldlM {state : ProviderState}
    (folded : records.foldlM (observeRecord basis records context expected) .new = some state) :
    Projected basis context expected records state :=
  foldlM_some_invariant folded projected_new fun _ _ _ _ _ known stepped =>
    (observes_of_observeRecord stepped).projected known

/-- Where no identity has both kinds of records, every valid record's identity is admitted. -/
theorem complete_of_foldlM {order : List CatalogRecord} {state : ProviderState}
    (folded : order.foldlM (observeRecord basis order context expected) .new = some state)
    (same : order.Perm records) (unmixed : Unmixed basis context expected records) :
    Complete basis context expected order state := by
  have kept := @foldlM_some_invariant _ _ _ _ _ _ folded
    (fun done state => (∀ other ∈ done, other ∈ records) ∧
      Projected basis context expected done state ∧ Complete basis context expected done state)
    ⟨List.forall_mem_nil _, projected_new, List.forall_mem_nil _⟩ ?_
  · exact kept.2.2
  · rintro done record state next member ⟨earlier, known, complete⟩ stepped
    have recordIn := same.mem_iff.mp member
    have observes := observes_of_observeRecord stepped
    refine ⟨fun other otherIn => ?_, observes.projected known,
      observes.complete known complete unmixed earlier recordIn⟩
    rcases List.mem_append.mp otherIn with before | latest
    · exact earlier other before
    · exact List.mem_singleton.mp latest ▸ recordIn

/-- A valid record that comes first is admitted. -/
theorem exists_admitted_of_first {rest : List CatalogRecord}
    {projection : CranProviderObservationProjection} {identity : ProviderIdentityKey}
    (projected : providerObservationsFromFields basis (record :: rest) context expected =
      some projection)
    (provided : providedIdentity context expected record = some identity)
    (accepted : describes basis context record = true) :
    ∃ observation ∈ projection.observations, Same observation.identityKey identity := by
  obtain ⟨state, folded, rfl⟩ := exists_state projected
  rw [List.foldlM_cons] at folded
  obtain ⟨first, stepped, folded⟩ := Option.bind_eq_some_iff.mp folded
  obtain ⟨observation, member, same⟩ :=
    (observes_of_observeRecord stepped).exists_admitted projected_new provided accepted nofun
  have stays : observation ∈ state.observations :=
    @foldlM_some_invariant _ _ _ _ _ _ folded (fun _ state => observation ∈ state.observations)
      member fun _ _ _ _ _ kept stepped => (observes_of_observeRecord stepped).mono kept
  exact ⟨observation, stays, same⟩

/-- Import quarantines identities exactly where none has both a valid and an invalid record. -/
theorem quarantines_iff (basis : CatalogBasis) (context : CranCatalogRecordContext)
    (expected : Option PackageName) (records : List CatalogRecord) :
    Quarantines basis context expected records ↔ Unmixed basis context expected records := by
  constructor
  · intro quarantines valid validIn other otherIn identity identity' provided provided' same accepted
    have order : (valid :: records.erase valid).Perm records :=
      (List.perm_cons_erase validIn).symm
    obtain ⟨projection, projected⟩ := quarantines.projected _ order
    obtain ⟨observation, member, admitted⟩ :=
      exists_admitted_of_first projected provided accepted
    exact quarantines.quarantined _ order projection projected observation member other otherIn
      identity' provided' (same.symm.trans admitted.symm)
  · intro unmixed
    refine ⟨fun order _ => exists_providerObservations basis context expected order, ?_, ?_, ?_⟩
    · intro order sameOrder other sameOther left right leftProjected rightProjected observation member
      obtain ⟨state, folded, rfl⟩ := exists_state leftProjected
      obtain ⟨state', folded', rfl⟩ := exists_state rightProjected
      obtain ⟨record, recordIn, _, _, _, provided, accepted⟩ :=
        (projected_of_foldlM folded).sound observation member
      exact complete_of_foldlM folded' sameOther unmixed record
        (sameOther.mem_iff.mpr (sameOrder.mem_iff.mp recordIn)) _ provided accepted
    · intro order sameOrder projection projected
      obtain ⟨state, folded, rfl⟩ := exists_state projected
      exact (projected_of_foldlM folded).counted.trans (sameOrder.map _)
    · intro order sameOrder projection projected observation member other otherIn identity provided same
      obtain ⟨state, folded, rfl⟩ := exists_state projected
      obtain ⟨record, recordIn, _, _, _, provided', accepted⟩ :=
        (projected_of_foldlM folded).sound observation member
      exact unmixed record (sameOrder.mem_iff.mp recordIn) other otherIn _ identity provided' provided
        same.symm accepted

end CranCatalog

namespace Small

open CranCatalog

/-- Libraries that read no date. -/
def catalogBasis : CatalogBasis where
  sha256 _ := Vector.replicate 32 0
  unprintable _ := false
  date _ := .error "no date"
  dateTime _ _ := .error "no date"

/-- A valid record. -/
def validRecord : CatalogRecord := ⟨0, none, [("Package", "dplyr"), ("Version", "1.0")]⟩

/-- A record of the same identity with a dependency that is not one. -/
def invalidRecord : CatalogRecord :=
  ⟨1, none, [("Package", "dplyr"), ("Version", "1.0"), ("Depends", "(")]⟩

/-- The identity of both records. -/
theorem providedIdentity_records :
    (providedIdentity .packagesIndex none validRecord).isSome = true ∧
      providedIdentity .packagesIndex none invalidRecord =
        providedIdentity .packagesIndex none validRecord := by
  decide +kernel

end Small

namespace CranCatalog

/-- A valid record in front of an invalid one of its identity stays admitted. -/
theorem not_quarantines :
    ¬ Quarantines Small.catalogBasis .packagesIndex none [Small.validRecord, Small.invalidRecord] := by
  intro quarantines
  obtain ⟨identity, provided⟩ := Option.isSome_iff_exists.mp Small.providedIdentity_records.1
  have provided' := Small.providedIdentity_records.2.trans provided
  obtain ⟨projection, projected⟩ := quarantines.projected _ (List.Perm.refl _)
  obtain ⟨observation, member, same⟩ :=
    exists_admitted_of_first projected provided (by decide +kernel)
  have valid := quarantines.quarantined _ (List.Perm.refl _) projection projected observation member
    Small.invalidRecord (by simp) identity provided' same.symm
  have invalid : describes Small.catalogBasis .packagesIndex Small.invalidRecord = false := by
    decide +kernel
  rw [invalid] at valid
  cases valid

end CranCatalog

end Rsolve
