import Rsolve.Cran.Quarantine

/-!
# The records of one version

What is observed of one version of a package depends on the records whose first version field says
that version. Records of other versions, and records without one, change neither the releases of the
version nor its rejections.
-/
open Keyed Checked Panics

namespace Rsolve.CranCatalog

/-- The version that the first version field of some fields says. -/
def versionHint (fields : RecordFields) : Option RPackageVersion :=
  (PackageDescription.field fields "Version").bind fun value =>
    (RPackageVersion.parse (PackageDescription.trimText value)).toOption

/-- A record says a version. -/
def saysVersion (version : RPackageVersion) (record : CatalogRecord) : Bool :=
  (versionHint record.fields).any fun hint => Same hint version

/-- Two states are alike for a version: they have the same releases and rejections of it, in their
order, and they know the same of its identities. -/
structure Alike (version : RPackageVersion) (left right : ProviderState) : Prop where
  releases : (left.observations.map (·.release)).filter (fun release => Same release.version version) =
    (right.observations.map (·.release)).filter fun release => Same release.version version
  rejected : (left.rejections.map fun rejection => (rejection.package, rejection.version)).filter
      (fun rejection => rejection.2.any fun hint => Same hint version) =
    (right.rejections.map fun rejection => (rejection.package, rejection.version)).filter
      fun rejection => rejection.2.any fun hint => Same hint version
  seen : ∀ key, Same key.version version →
    left.seenIdentities.get? key = right.seenIdentities.get? key
  aggregated : ∀ identity hint, identity.provenance.fixedVersion = some hint → Same hint version →
    left.aggregation.get? identity = right.aggregation.get? identity

variable {basis : CatalogBasis} {version : RPackageVersion} {left right : ProviderState}

/-- Provenances that are the same fix the same version. -/
theorem same_of_fixedVersion {first second : Provenance} {hint found : RPackageVersion}
    (same : Same first second) (fixed : first.fixedVersion = some hint)
    (fixedOther : second.fixedVersion = some found) : Same hint found := by
  cases first <;> cases second <;>
    simp_all [Same, representative, Provenance.fixedVersion]

namespace Alike

/-- A state is like itself. -/
theorem refl (state : ProviderState) : Alike version state state :=
  ⟨rfl, rfl, fun _ _ => rfl, fun _ _ _ _ => rfl⟩

/-- Likeness is symmetric. -/
theorem symm (alike : Alike version left right) : Alike version right left :=
  ⟨alike.releases.symm, alike.rejected.symm, fun key same => (alike.seen key same).symm,
    fun identity hint fixed same => (alike.aggregated identity hint fixed same).symm⟩

/-- Likeness is transitive. -/
theorem trans {between : ProviderState} (first : Alike version left between)
    (second : Alike version between right) : Alike version left right :=
  ⟨first.releases.trans second.releases, first.rejected.trans second.rejected,
    fun key same => (first.seen key same).trans (second.seen key same),
    fun identity hint fixed same => (first.aggregated identity hint fixed same).trans
      (second.aggregated identity hint fixed same)⟩

/-- States stay alike when one rejection is added to both. -/
theorem reject (alike : Alike version left right) {first second : CatalogRecord}
    {package : Option PackageName} {hint : Option RPackageVersion}
    {scope other : Option CranCatalogRecordScope} {error cause : CranRecordError} :
    Alike version (left.reject first package hint scope error)
      (right.reject second package hint other cause) := by
  refine ⟨alike.releases, ?_, alike.seen, alike.aggregated⟩
  simp only [ProviderState.reject, List.map_append, List.filter_append, alike.rejected, List.map_cons,
    List.map_nil]

/-- A rejection of another version changes nothing. -/
theorem of_reject {state : ProviderState} {record : CatalogRecord} {package : Option PackageName}
    {hint : Option RPackageVersion} {scope : Option CranCatalogRecordScope} {error : CranRecordError}
    (other : (hint.any fun hint => Same hint version) = false) :
    Alike version state (state.reject record package hint scope error) := by
  refine ⟨rfl, ?_, fun _ _ => rfl, fun _ _ _ _ => rfl⟩
  simp only [ProviderState.reject, List.map_append, List.filter_append, List.map_cons, List.map_nil]
  rw [List.filter_singleton, other]
  exact (List.append_nil _).symm

/-- States stay alike when an identity is noted in both. -/
theorem note (alike : Alike version left right) (identity : ProviderIdentityKey) (flag : Bool) :
    Alike version { left with seenIdentities := left.seenIdentities.insert identity flag }
      { right with seenIdentities := right.seenIdentities.insert identity flag } := by
  refine ⟨alike.releases, alike.rejected, fun key same => ?_, alike.aggregated⟩
  rw [KeyedMap.get?_insert, KeyedMap.get?_insert, alike.seen key same]

/-- Noting an identity of another version changes nothing. -/
theorem of_note {state : ProviderState} {identity : ProviderIdentityKey} {flag : Bool}
    (other : ¬ Same identity.version version) :
    Alike version state { state with seenIdentities := state.seenIdentities.insert identity flag } := by
  refine ⟨rfl, rfl, fun key same => ?_, fun _ _ _ _ => rfl⟩
  rw [KeyedMap.get?_insert, if_neg]
  intro equal
  exact other (Same.trans (congrArg ProviderIdentityKey.version equal) same)

/-- States stay alike when what is aggregated under one identity is replaced in both. -/
theorem aggregate (alike : Alike version left right) (identity : ReleaseIdentity)
    (release : PackageRelease) :
    Alike version { left with aggregation := left.aggregation.insert identity release }
      { right with aggregation := right.aggregation.insert identity release } := by
  refine ⟨alike.releases, alike.rejected, alike.seen, fun key hint fixed same => ?_⟩
  rw [KeyedMap.get?_insert, KeyedMap.get?_insert, alike.aggregated key hint fixed same]

/-- Aggregating another version changes nothing. -/
theorem of_aggregate {state : ProviderState} {identity : ReleaseIdentity} {release : PackageRelease}
    {hint : RPackageVersion} (fixed : identity.provenance.fixedVersion = some hint)
    (other : ¬ Same hint version) :
    Alike version state
      { state with aggregation := state.aggregation.insert identity release } := by
  refine ⟨rfl, rfl, fun _ _ => rfl, fun key found fixedKey same => ?_⟩
  rw [KeyedMap.get?_insert, if_neg]
  intro equal
  obtain ⟨-, provenance⟩ := ReleaseIdentity.same_iff.mp equal
  exact other ((same_of_fixedVersion provenance fixed fixedKey).trans same)

/-- States stay alike when one release is added to both. -/
theorem observe (alike : Alike version left right) {first second : CranCatalogObservation}
    (same : first.release = second.release) :
    Alike version { left with observations := left.observations ++ [first] }
      { right with observations := right.observations ++ [second] } := by
  refine ⟨?_, alike.rejected, alike.seen, alike.aggregated⟩
  simp only [List.map_append, List.filter_append, alike.releases, List.map_cons, List.map_nil, same]

/-- A release of another version changes nothing. -/
theorem of_observe {state : ProviderState} {observation : CranCatalogObservation}
    (other : ¬ Same observation.release.version version) :
    Alike version state { state with observations := state.observations ++ [observation] } := by
  refine ⟨?_, rfl, fun _ _ => rfl, fun _ _ _ _ => rfl⟩
  simp only [List.map_append, List.filter_append, List.map_cons, List.map_nil]
  rw [List.filter_singleton, decide_eq_false other]
  exact (List.append_nil _).symm

end Alike

/-! ### One record -/

section Records

variable {records others : List CatalogRecord} {record : CatalogRecord}
  {identity : ProviderIdentityKey} {scope : CranCatalogRecordScope} {release : PackageRelease}

/-- What the observation of a release stores under its identity. -/
def merged (aggregation : ReleaseAggregation) (release : PackageRelease) :
    Except PackageReleaseError PackageRelease :=
  match aggregation.get? release.identity with
  | some existing => existing.mergeConsistent release
  | none => .ok release

/-- The observation of a release stores what is merged. -/
theorem observeRelease_eq (aggregation : ReleaseAggregation) (release : PackageRelease) :
    aggregation.observeRelease release =
      (merged aggregation release).map (aggregation.insert release.identity) := by
  unfold ReleaseAggregation.observeRelease merged
  cases aggregation.get? release.identity with
  | none => rfl
  | some existing => cases existing.mergeConsistent release <;> rfl

/-- States stay alike when a record of the version is admitted to both. -/
theorem Alike.admit (alike : Alike version left right) {reached next : ProviderState}
    {hint : RPackageVersion} (fixed : release.identity.provenance.fixedVersion = some hint)
    (same : Same hint version) (identified : Same identity.version version)
    (stepped : left.admit records record identity scope release = some reached)
    (steppedOther : right.admit others record identity scope release = some next) :
    Alike version reached next := by
  have noted := alike.note identity false
  have mergedAlike : merged left.aggregation release = merged right.aggregation release := by
    rw [merged, merged, alike.aggregated _ _ fixed same]
  unfold ProviderState.admit at stepped steppedOther
  dsimp only at stepped steppedOther
  rw [alike.seen identity identified] at stepped
  split at stepped
  · next rejected =>
    rw [if_pos rejected] at steppedOther
    obtain rfl := Option.some.inj stepped
    obtain rfl := Option.some.inj steppedOther
    exact noted.reject
  · next rejected =>
    rw [if_neg rejected] at steppedOther
    by_cases root : scope = .root
    · rw [if_pos root, observeRelease_eq, mergedAlike] at stepped
      rw [if_pos root, observeRelease_eq] at steppedOther
      cases outcome : merged right.aggregation release with
      | error cause =>
        rw [outcome] at stepped steppedOther
        obtain rfl := Option.some.inj stepped
        obtain rfl := Option.some.inj steppedOther
        exact noted.reject
      | ok stored =>
        rw [outcome] at stepped steppedOther
        obtain ⟨fields, -, stepped⟩ := Option.bind_eq_some_iff.mp stepped
        obtain ⟨otherFields, -, steppedOther⟩ := Option.bind_eq_some_iff.mp steppedOther
        obtain rfl := Option.some.inj stepped
        obtain rfl := Option.some.inj steppedOther
        exact (noted.aggregate release.identity stored).observe rfl
    · rw [if_neg root] at stepped steppedOther
      obtain ⟨fields, -, stepped⟩ := Option.bind_eq_some_iff.mp stepped
      obtain ⟨otherFields, -, steppedOther⟩ := Option.bind_eq_some_iff.mp steppedOther
      obtain rfl := Option.some.inj stepped
      obtain rfl := Option.some.inj steppedOther
      exact noted.observe rfl

/-- The admission of a record of another version changes nothing. -/
theorem Alike.of_admission {state next : ProviderState} {hint : RPackageVersion}
    (fixed : release.identity.provenance.fixedVersion = some hint) (other : ¬ Same hint version)
    (identified : ¬ Same identity.version version)
    (stepped : state.admit records record identity scope release = some next) :
    Alike version state next := by
  have released : ¬ Same release.version version := fun same =>
    other ((release.versioned hint fixed).trans same)
  have noted : Alike version state
      { state with seenIdentities := state.seenIdentities.insert identity false } :=
    .of_note identified
  have rejected : ((some identity.version).any fun hint => Same hint version) = false := by
    simpa using identified
  unfold ProviderState.admit at stepped
  dsimp only at stepped
  split at stepped
  · obtain rfl := Option.some.inj stepped
    exact noted.trans (.of_reject rejected)
  · by_cases root : scope = .root
    · rw [if_pos root, observeRelease_eq] at stepped
      cases outcome : merged state.aggregation release with
      | error cause =>
        rw [outcome] at stepped
        obtain rfl := Option.some.inj stepped
        exact noted.trans (.of_reject rejected)
      | ok stored =>
        rw [outcome] at stepped
        obtain ⟨fields, -, stepped⟩ := Option.bind_eq_some_iff.mp stepped
        obtain rfl := Option.some.inj stepped
        exact (noted.trans (.of_aggregate fixed other)).trans (.of_observe released)
    · rw [if_neg root] at stepped
      obtain ⟨fields, -, stepped⟩ := Option.bind_eq_some_iff.mp stepped
      obtain rfl := Option.some.inj stepped
      exact noted.trans (.of_observe released)

/-- The identity of a record has the version of its first version field. -/
theorem versionHint_of_identity {fields : RecordFields} {context : CranCatalogRecordContext}
    (identified : providerIdentityFromFields fields context = .ok identity) :
    versionHint fields = some identity.version := by
  obtain ⟨_, -, identified⟩ := bind_eq_ok.mp identified
  obtain ⟨text, found, identified⟩ := bind_eq_ok.mp identified
  obtain ⟨version, read, identified⟩ := bind_eq_ok.mp identified
  obtain ⟨_, -, identified⟩ := bind_eq_ok.mp identified
  obtain ⟨_, -, identified⟩ := bind_eq_ok.mp identified
  obtain ⟨_, -, finished⟩ := bind_eq_ok.mp identified
  obtain rfl := Except.ok.inj finished
  have written : PackageDescription.field fields "Version" = some text := by
    unfold requiredField at found
    split at found
    · next value written => rw [written, Except.ok.inj found]
    · cases found
  rw [versionHint, written, Option.bind_some, mapError_eq_ok.mp read]
  rfl

/-- The observation of one record rejects it with its hints, rejects it as invalid, or admits it with a
release of its version. -/
theorem observeRecord_cases (basis : CatalogBasis) (record : CatalogRecord) :
    (∃ package scope error, ∀ records state,
      observeRecord basis records .packagesIndex none state record =
        some (state.reject record package (versionHint record.fields) scope error)) ∨
    (∃ identity error, versionHint record.fields = some identity.version ∧ ∀ records state,
      observeRecord basis records .packagesIndex none state record =
        some (state.rejectInvalid record identity identity.package error)) ∨
    ∃ identity scope release, versionHint record.fields = some identity.version ∧
      release.identity.provenance.fixedVersion = some identity.version ∧ ∀ records state,
        observeRecord basis records .packagesIndex none state record =
          state.admit records record identity scope release := by
  cases identified : providerIdentityFromFields record.fields .packagesIndex with
  | error error =>
    refine .inl ⟨(PackageDescription.field record.fields "Package").bind fun value =>
      (PackageName.new (PackageDescription.trimText value)).toOption,
      (fieldScope record.fields .packagesIndex).toOption, error, fun records state => ?_⟩
    unfold observeRecord
    rw [identified]
    rfl
  | ok identity =>
    have hinted := versionHint_of_identity identified
    cases read : readObservation basis record.fields .packagesIndex with
    | error error =>
      refine .inr (.inl ⟨identity, error, hinted, fun records state => ?_⟩)
      unfold observeRecord
      rw [identified, observationFromFieldsWithContext_eq, read]
      rfl
    | ok observation =>
      obtain ⟨reads⟩ := reads_of_readObservation read
      refine .inr (.inr ⟨identity, reads.scope, registryRelease reads.parsed, hinted, ?_,
        fun records state => ?_⟩)
      · rw [reads.identity_eq identified]
        rfl
      · unfold observeRecord
        rw [identified, observationFromFieldsWithContext_eq, read]
        simp only [Option.filter_none, run_attempt, Option.bind_eq_bind, Option.bind_some,
          reads.observationScope_eq, reads.tryFrom_eq, ExceptT.run_pure, Option.pure_def]

/-- States stay alike when a record of the version is observed in both. -/
theorem Alike.step (alike : Alike version left right) {reached next : ProviderState}
    (spoken : saysVersion version record = true)
    (stepped : observeRecord basis records .packagesIndex none left record = some reached)
    (steppedOther : observeRecord basis others .packagesIndex none right record = some next) :
    Alike version reached next := by
  rcases observeRecord_cases basis record with ⟨package, scope, error, observes⟩ |
    ⟨identity, error, hinted, observes⟩ | ⟨identity, scope, release, hinted, fixed, observes⟩
  · obtain rfl := Option.some.inj ((observes _ _).symm.trans stepped)
    obtain rfl := Option.some.inj ((observes _ _).symm.trans steppedOther)
    exact alike.reject
  · obtain rfl := Option.some.inj ((observes _ _).symm.trans stepped)
    obtain rfl := Option.some.inj ((observes _ _).symm.trans steppedOther)
    exact (alike.note identity true).reject
  · rw [observes] at stepped steppedOther
    have same : Same identity.version version := by
      simpa [saysVersion, hinted] using spoken
    exact alike.admit fixed same same stepped steppedOther

/-- The observation of a record of another version changes nothing. -/
theorem Alike.of_step {state next : ProviderState}
    (other : saysVersion version record = false)
    (stepped : observeRecord basis records .packagesIndex none state record = some next) :
    Alike version state next := by
  rcases observeRecord_cases basis record with ⟨package, scope, error, observes⟩ |
    ⟨identity, error, hinted, observes⟩ | ⟨identity, scope, release, hinted, fixed, observes⟩
  · obtain rfl := Option.some.inj ((observes _ _).symm.trans stepped)
    exact .of_reject other
  · obtain rfl := Option.some.inj ((observes _ _).symm.trans stepped)
    have differs : ¬ Same identity.version version := by
      simpa [saysVersion, hinted] using other
    exact (Alike.of_note differs).trans (.of_reject (by simpa using differs))
  · rw [observes] at stepped
    have differs : ¬ Same identity.version version := by
      simpa [saysVersion, hinted] using other
    exact .of_admission fixed differs differs stepped

/-! ### All records -/

/-- The records of the version alone lead to a state that is alike. -/
theorem alike_filter {items : List CatalogRecord} {reached next : ProviderState}
    (alike : Alike version left right)
    (folded : items.foldlM (observeRecord basis records .packagesIndex none) left = some reached)
    (filtered : (items.filter (saysVersion version)).foldlM
      (observeRecord basis others .packagesIndex none) right = some next) :
    Alike version reached next := by
  induction items generalizing left right with
  | nil =>
    obtain rfl := Option.some.inj folded
    obtain rfl := Option.some.inj filtered
    exact alike
  | cons record rest ih =>
    rw [List.foldlM_cons] at folded
    obtain ⟨between, stepped, folded⟩ := Option.bind_eq_some_iff.mp folded
    cases spoken : saysVersion version record with
    | true =>
      rw [List.filter_cons_of_pos spoken, List.foldlM_cons] at filtered
      obtain ⟨state, steppedOther, filtered⟩ := Option.bind_eq_some_iff.mp filtered
      exact ih (alike.step spoken stepped steppedOther) folded filtered
    | false =>
      rw [List.filter_cons_of_neg (by simp [spoken])] at filtered
      exact ih ((Alike.of_step spoken stepped).symm.trans alike) folded filtered

/-- What is observed of a version does not change when records are left out that do not say it. -/
theorem alike_of_filter {items kept : List CatalogRecord} {reached next : ProviderState}
    (same : kept.filter (saysVersion version) =
      items.filter (saysVersion version))
    (folded : items.foldlM (observeRecord basis items .packagesIndex none) .new = some reached)
    (foldedKept : kept.foldlM (observeRecord basis kept .packagesIndex none) .new = some next) :
    Alike version reached next := by
  have total : ∀ state record, record ∈ items.filter (saysVersion version) →
      ∃ next, observeRecord basis (items.filter (saysVersion version)) .packagesIndex none state record =
        some next :=
    fun state record member => exists_observeRecord member none state
  obtain ⟨final, filtered⟩ := exists_foldlM_eq_some total .new
  have filteredKept := filtered
  rw [← same] at filteredKept
  exact (alike_filter (.refl _) folded filtered).trans
    (alike_filter (.refl _) foldedKept filteredKept).symm

end Records

end Rsolve.CranCatalog
