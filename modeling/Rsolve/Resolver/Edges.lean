import Rsolve.Resolver.Cutoff

/-!
# Requirements and edges of a resolution

The provider merges the requirements of one package version into a map from solver packages to
ranges, so of several requirements on one solver key only the last one reaches the solver. Where the
last requirement of every key implies the others on the versions offered for that key, nothing is
lost: every root and every edge of a resolution is met. Where it does not, an edge may be violated.
-/
open Keyed Checked Growth Intervals

namespace Rsolve

/-- Two requirements are the same field by field. -/
theorem PackageRequirement.same_iff {left right : PackageRequirement} :
    Same left right ↔ left.name = right.name ∧ Same left.source right.source ∧
      Same left.constraint right.constraint := by
  simp [Same, representative]

/-- Two declarations are the same when their kinds are equal and their requirements the same. -/
theorem DeclaredDependency.same_iff {left right : DeclaredDependency} :
    Same left right ↔ left.kind = right.kind ∧ Same left.package right.package := by
  simp [Same, representative]

/-- Source scopes that are the same are equal, or exact about the same identity. -/
theorem DependencySourceConstraint.same_cases {left right : DependencySourceConstraint}
    (same : Same left right) :
    left = right ∨ ∃ leftIdentity rightIdentity, left = .exact leftIdentity ∧
      right = .exact rightIdentity ∧ Same leftIdentity rightIdentity := by
  cases left <;> cases right <;> simp_all [Same, representative]

namespace Provider

variable (provider : Provider)

/-! ### Requirements of one solver key -/

/-- The solver keys and constraints of requirements. -/
def keyedRequirements (packages : List PackageRequirement) :
    List (SolverKey × VersionConstraint) :=
  packages.filterMap (fun package =>
    (provider.subjectForPackage package).toOption.map (fun subject =>
      (subject, package.constraint)))

/-- The keyed requirements of the root. -/
def rootRequirements : List (SolverKey × VersionConstraint) :=
  (.r, provider.request.rRequirement) ::
    provider.keyedRequirements (provider.request.roots.map RootRequirement.package)

/-- The keyed requirements of a release under an expansion. -/
def edgeRequirements (release : PackageRelease) (expansion : RootExpansionPolicy) :
    List (SolverKey × VersionConstraint) :=
  provider.keyedRequirements
    ((projectDependencyEdges release expansion).map ResolvedDependencyEdge.package)

/-- A version is offered for a subject: the target for R, and otherwise the version of a visible
candidate. -/
def Offers (subject : SolverKey) (version : RPackageVersion) : Prop :=
  (subject = .r ∧ version = provider.rVersion) ∨
    ∃ key result visible, Same key subject ∧ provider.loader key = .ok result ∧
      provider.visibleCandidates key result.candidates = .ok visible ∧
      ∃ candidate ∈ visible, candidate.release.version = version

/-- Merging loses nothing: the last requirement of every key implies the others on the versions
offered for the key. -/
def MergesFaithfully (requirements : List (SolverKey × VersionConstraint)) : Prop :=
  ∀ requirement ∈ requirements, ∀ last,
    (KeyedMap.ofList requirements).get? requirement.1 = some last →
    ∀ version, provider.Offers requirement.1 version → last.satisfies version = true →
      requirement.2.satisfies version = true

/-- The step of a run does not lose a requirement. -/
def FaithfulStep (state : ProviderState) : Call × Reply → Prop
  | (.getDependencies .root _, _) => provider.MergesFaithfully provider.rootRequirements
  | (.getDependencies (.subject subject) (.candidate id), _) =>
    ∀ candidate expansion, state.Visible subject id candidate →
      provider.expansionForSubject subject = .ok expansion →
      provider.MergesFaithfully (provider.edgeRequirements candidate.release expansion)
  | _ => True

/-! ### Met requirements -/

/-- The candidates a selection holds for a subject. -/
def selectedCandidates (selected : List (PackageId × SolverVersion)) (state : ProviderState)
    (subject : SolverKey) : List PreparedCandidate :=
  selected.filterMap (fun item =>
    match item with
    | (.subject other, .candidate id) =>
      if Same other subject then (provider.candidateForId other id state).1.toOption else none
    | _ => none)

/-- The candidate is a resolved package, or provided by the runtime. -/
def ResolvedIn (resolution : Resolution) (candidate : PreparedCandidate) : Prop :=
  candidate.release.isRBasePackage = true ∨ ∃ package ∈ resolution.packages,
    Same package.identity candidate.identity ∧ Same package.version candidate.release.version

/-- Being resolved is checked package by package. -/
instance (resolution : Resolution) (candidate : PreparedCandidate) :
    Decidable (ResolvedIn resolution candidate) :=
  inferInstanceAs (Decidable (_ ∨ _))

/-- A selected candidate meets a requirement of a subject. -/
structure MeetsRequirement (resolution : Resolution) (package : PackageRequirement)
    (subject : SolverKey) (candidate : PreparedCandidate) : Prop where
  /-- The candidate is a candidate of the required package. -/
  named : candidate.identity.name = package.name
  /-- Its version satisfies the constraint. -/
  satisfied : package.constraint.satisfies candidate.release.version = true
  /-- The subject may select it. -/
  eligible : candidate.isEligibleFor subject = true
  /-- It is part of the resolution. -/
  resolved : ResolvedIn resolution candidate

/-- Meeting a requirement is checked field by field. -/
instance (resolution : Resolution) (package : PackageRequirement) (subject : SolverKey)
    (candidate : PreparedCandidate) :
    Decidable (MeetsRequirement resolution package subject candidate) :=
  decidable_of_iff (candidate.identity.name = package.name ∧
      package.constraint.satisfies candidate.release.version = true ∧
      candidate.isEligibleFor subject = true ∧ ResolvedIn resolution candidate)
    ⟨fun ⟨named, satisfied, eligible, resolved⟩ => ⟨named, satisfied, eligible, resolved⟩,
      fun met => ⟨met.named, met.satisfied, met.eligible, met.resolved⟩⟩

/-- A requirement is met: the target satisfies a requirement on R, and a selected candidate of its
solver key meets any other. -/
def RequirementMet (resolution : Resolution) (selected : List (PackageId × SolverVersion))
    (state : ProviderState) (package : PackageRequirement) : Prop :=
  if package.name.text = "R" then package.constraint.satisfies provider.rVersion = true
  else
    match provider.subjectForPackage package with
    | .error _ => False
    | .ok subject => ∃ candidate ∈ provider.selectedCandidates selected state subject,
        MeetsRequirement resolution package subject candidate

/-- Being met can be checked. -/
instance (resolution : Resolution) (selected : List (PackageId × SolverVersion))
    (state : ProviderState) (package : PackageRequirement) :
    Decidable (provider.RequirementMet resolution selected state package) :=
  if runtime : package.name.text = "R" then
    decidable_of_iff (package.constraint.satisfies provider.rVersion = true)
      (by simp [RequirementMet, runtime])
  else
    match found : provider.subjectForPackage package with
    | .error _ => isFalse (by simp [RequirementMet, runtime, found])
    | .ok subject => decidable_of_iff
        (∃ candidate ∈ provider.selectedCandidates selected state subject,
          MeetsRequirement resolution package subject candidate)
        (by simp [RequirementMet, runtime, found])

/-- Every root and every edge of a resolution is met. -/
structure SoundResolution (resolution : Resolution) (selected : List (PackageId × SolverVersion))
    (state : ProviderState) : Prop where
  /-- The target satisfies the root constraint on R. -/
  runtime : provider.request.rRequirement.satisfies provider.rVersion = true
  /-- Every root requirement is met. -/
  roots : ∀ root ∈ provider.request.roots,
    provider.RequirementMet resolution selected state root.package
  /-- Every edge of every package is met. -/
  edges : ∀ package ∈ resolution.packages, ∀ edge ∈ package.effectiveDependencies,
    provider.RequirementMet resolution selected state edge.package

/-! ### Subjects of requirements -/

/-- A requirement on R is about the R subject, and any other is about its package. -/
theorem subjectForPackage_eq_ok {package : PackageRequirement} {subject : SolverKey}
    (found : provider.subjectForPackage package = .ok subject) :
    if package.name.text = "R" then subject = .r
    else subject ≠ .r ∧ subject.subjectName = some package.name := by
  unfold subjectForPackage at found
  split at found
  · simp at found
  · split at found
    · next runtime => rw [if_pos runtime]; exact (Except.ok.inj found).symm
    · next ordinary =>
      rw [if_neg ordinary]
      split at found
      · split at found
        · next identity named =>
          obtain rfl := Except.ok.inj found
          exact ⟨by simp, congrArg some (ResolutionRequest.exactRootIdentity_name named)⟩
        · obtain rfl := Except.ok.inj found
          exact ⟨by simp, rfl⟩
      · obtain rfl := Except.ok.inj found
        exact ⟨by simp, rfl⟩
      · obtain rfl := Except.ok.inj found
        exact ⟨by simp, rfl⟩
      · obtain rfl := Except.ok.inj found
        exact ⟨by simp, rfl⟩
      · next identity source =>
        obtain rfl := Except.ok.inj found
        exact ⟨by simp, congrArg some (package.exactNamed identity source)⟩
      · simp at found

/-- Requirements that are the same are about the same subject. -/
theorem subjectForPackage_congr {left right : PackageRequirement} (same : Same left right)
    {subject : SolverKey} (found : provider.subjectForPackage left = .ok subject) :
    ∃ other, provider.subjectForPackage right = .ok other ∧ Same subject other := by
  obtain ⟨named, sources, -⟩ := PackageRequirement.same_iff.mp same
  rcases DependencySourceConstraint.same_cases sources with equal | ⟨leftIdentity, rightIdentity,
    leftExact, rightExact, identities⟩
  · refine ⟨subject, ?_, Same.refl _⟩
    rw [← found]
    simp only [subjectForPackage, equal, named]
  · simp only [subjectForPackage, leftExact, rightExact, named] at found ⊢
    split at found
    · next runtime => exact ⟨subject, by rw [if_pos runtime, found], Same.refl _⟩
    · next ordinary =>
      obtain rfl := Except.ok.inj found
      exact ⟨.exact rightIdentity, by rw [if_neg ordinary], congrArg SolverKey.exact identities⟩

/-- The same requirements are met together. -/
theorem RequirementMet.congr {resolution : Resolution}
    {selected : List (PackageId × SolverVersion)} {state : ProviderState}
    {left right : PackageRequirement} (same : Same left right)
    (met : provider.RequirementMet resolution selected state left) :
    provider.RequirementMet resolution selected state right := by
  obtain ⟨named, -, constraints⟩ := PackageRequirement.same_iff.mp same
  have satisfies := VersionConstraint.satisfies_congr_constraint constraints
  unfold RequirementMet at met ⊢
  rw [← named]
  split at met
  · next runtime => rw [if_pos runtime, ← satisfies]; exact met
  · next ordinary =>
    rw [if_neg ordinary]
    split at met
    · exact met.elim
    · next subject found =>
      obtain ⟨other, foundOther, sameSubject⟩ := provider.subjectForPackage_congr same found
      obtain ⟨candidate, member, meets⟩ := met
      simp only [foundOther]
      refine ⟨candidate, ?_, ⟨meets.named.trans named, ?_, ?_, meets.resolved⟩⟩
      · rw [selectedCandidates, List.mem_filterMap] at member ⊢
        obtain ⟨item, itemIn, found⟩ := member
        refine ⟨item, itemIn, ?_⟩
        split at found
        · next key id =>
          rw [← found]
          simp only [sameSubject.congr_right key]
        · simp at found
      · rw [← satisfies]
        exact meets.satisfied
      · rw [← candidate.isEligibleFor_congr sameSubject]
        exact meets.eligible

/-- A keyed requirement and its entry in a dependency answer. -/
def EntryFor (state : ProviderState) (requirement : SolverKey × VersionConstraint)
    (entry : PackageId × VersionRange) : Prop :=
  entry.1 = .subject requirement.1 ∧
    provider.RangeOf requirement.1 requirement.2 entry.2 state

section Run

variable {provider} {pubgrub : PubGrub} {transcript : Transcript} {state : ProviderState}
  {selected : List (PackageId × SolverVersion)} (reached : provider.Reaches pubgrub transcript state)
  (sound : SelectionSound transcript selected) {packages : SelectedPackages}
  {resolution : Resolution} (gathers : provider.GathersAll state selected selected packages)
  (projects : provider.Projects packages resolution)

include reached in
/-- The candidates of a loaded subject are offered for it. -/
theorem offers_of_view {subject : SolverKey} {loaded : LoadedSubject}
    (view : state.View subject loaded) {entry : CandidateId × PreparedCandidate}
    (member : entry ∈ loaded.candidates) :
    provider.Offers subject entry.2.release.version := by
  obtain ⟨key, same, loads⟩ := reached.answered.1.cached subject loaded view
  obtain ⟨result, visible, offered, shown, listed, -⟩ := loads.prepared
  refine Or.inr ⟨key, result, visible, same, offered, shown, entry.2, ?_, rfl⟩
  rw [← listed]
  exact List.mem_map_of_mem member

include reached sound gathers projects in
/-- A supported candidate is part of the resolution. -/
theorem Supported.resolvedIn {subject : SolverKey} {id : CandidateId}
    {candidate : PreparedCandidate}
    (supported : provider.Supported state selected subject id candidate) :
    ResolvedIn resolution candidate := by
  by_cases runtime : candidate.release.isRBasePackage = true
  · exact Or.inl runtime
  · obtain ⟨selection, stored, subjectIn⟩ := gathers.complete subject id candidate
      supported.member supported (by simpa using runtime)
    have gathered := gathers.sound _ _ stored
    obtain ⟨otherId, other, otherSupported, facts⟩ := gathered.gathered subject subjectIn
    have same := facts.trans (supported_sameFacts reached sound otherSupported supported
      (((ReleaseIdentity.same_iff.mp facts.identity).1.symm.trans gathered.named)))
    obtain ⟨expansion, expanded⟩ := provider.expansionForSubjects_of_keyed
      (selected_rootsKeyed reached sound) selection.subjects
    refine Or.inr ⟨⟨selection.subject, selection.candidate.release,
      projectDependencyEdges selection.candidate.release expansion, visibleRepositories selection⟩,
      (projects.projected _).mpr ⟨_, selection, stored, ?_⟩, same.identity, same.version⟩
    simp only [projectPackage, expanded, ok_bind]
    rfl

/-- The entries of requirements are the entries of the keyed requirements. -/
theorem entriesFor_keyed {requirements : List PackageRequirement}
    {entries : List (PackageId × VersionRange)}
    (entered : provider.EntriesOf requirements entries state) :
    List.Forall₂ (provider.EntryFor state) (provider.keyedRequirements requirements)
      entries := by
  induction entered with
  | nil => exact List.Forall₂.nil
  | @cons package entry _ _ head _ ih =>
    obtain ⟨subject, found, keyed, ranged⟩ := head
    rw [keyedRequirements, List.filterMap_cons]
    simp only [found, Except.toOption, Option.map_some]
    exact List.Forall₂.cons ⟨keyed, ranged⟩ ih

include reached sound gathers projects in
/-- Where merging loses nothing, a met dependency answer meets every requirement in it. -/
theorem met_of_entriesFor {requirements : List (SolverKey × VersionConstraint)}
    {entries : List (PackageId × VersionRange)} {constraints : KeyedMap PackageId VersionRange}
    (paired : List.Forall₂ (provider.EntryFor state) requirements entries)
    (faithful : provider.MergesFaithfully requirements)
    (stored : ∀ subject, constraints.get? (.subject subject) =
      (KeyedMap.ofList entries).get? (.subject subject))
    (met : Meets selected constraints) {subject : SolverKey} {constraint : VersionConstraint}
    (member : (subject, constraint) ∈ requirements) :
    (subject = .r ∧ constraint.satisfies provider.rVersion = true) ∨
      (subject ≠ .r ∧ ∃ candidate ∈ provider.selectedCandidates selected state subject,
        constraint.satisfies candidate.release.version = true ∧
        candidate.isEligibleFor subject = true ∧ ResolvedIn resolution candidate) := by
  have wellFormed := reached.answered.1
  -- The last entry of the subject is the entry of the last requirement on it.
  obtain ⟨entry, entryIn, keyed⟩ : ∃ entry ∈ entries, entry.1 = .subject subject := by
    clear faithful stored met
    induction paired with
    | nil => simp at member
    | cons head _ ih =>
      rcases List.mem_cons.mp member with rfl | member
      · exact ⟨_, List.mem_cons_self, head.1⟩
      · obtain ⟨entry, entryIn, keyed⟩ := ih member
        exact ⟨entry, List.mem_cons_of_mem _ entryIn, keyed⟩
  obtain ⟨range, last⟩ := KeyedMap.exists_get?_ofList entryIn
  rw [keyed] at last
  obtain ⟨⟨key, lastConstraint⟩, ⟨_, _⟩, ⟨rfl, ranged⟩, sameKey, lastStored, rfl⟩ :=
    KeyedMap.get?_ofList_related paired (fun first second related =>
      show Same first.1 subject ↔ Same second.1 (PackageId.subject subject) by
        rw [related.1]
        exact ⟨congrArg PackageId.subject, PackageId.subject.inj⟩) last
  have implied := faithful _ member lastConstraint lastStored
  rw [← stored] at last
  obtain ⟨⟨package, _⟩, heldIn, samePackage, rfl⟩ := (KeyedMap.get?_eq_some_iff _ _ _).mp last
  obtain ⟨⟨other, version⟩, otherIn, sameOther, within⟩ := met _ heldIn
  obtain ⟨selectedKey, rfl, sameSelected⟩ := eq_subject_of_same (sameOther.trans samePackage)
  rcases ranged with ⟨runtime, ranged⟩ | ⟨differs, loaded, view, ranged⟩
  · -- A requirement on R admits the target or nothing.
    dsimp only at runtime ranged within sameKey
    subst runtime ranged
    obtain rfl := eq_r_of_same sameKey.symm
    refine Or.inl ⟨rfl, implied _ (Or.inl ⟨rfl, rfl⟩) ?_⟩
    unfold rRange at within
    split at within
    · assumption
    · simp at within
  · dsimp only at differs view ranged within sameKey
    subst ranged
    obtain ⟨found, foundIn, satisfied, rfl⟩ := has_admittedRange.mp within
    have different : subject ≠ .r := by
      rintro rfl
      exact differs (eq_r_of_same sameKey)
    have visible : state.Visible selectedKey found.1 found.2 :=
      ProviderState.Visible.congr ⟨loaded, view, foundIn⟩ (sameKey.trans sameSelected.symm)
    refine Or.inr ⟨different, found.2, ?_, ?_, ?_, ?_⟩
    · rw [selectedCandidates, List.mem_filterMap]
      refine ⟨_, otherIn, ?_⟩
      simp only [if_pos sameSelected, provider.candidateForId_of_visible wellFormed visible]
      rfl
    · refine implied _ ?_ satisfied
      rcases offers_of_view reached view foundIn with ⟨runtime, -⟩ | ⟨origin, result, visible,
        sameOrigin, offered⟩
      · exact absurd runtime differs
      · exact Or.inr ⟨origin, result, visible, sameOrigin.trans sameKey, offered⟩
    · rw [← found.2.isEligibleFor_congr sameKey]
      exact view_eligible wellFormed view foundIn
    · have selectedDiffers : selectedKey ≠ .r := by
        rintro rfl
        exact different (eq_r_of_same sameSelected.symm)
      obtain ⟨id, candidate, equal, supported⟩ :=
        selected_supported reached sound otherIn selectedDiffers
      obtain rfl : found.1 = id := by simpa using equal
      rw [provider.visible_unique wellFormed visible supported.visible]
      exact supported.resolvedIn reached sound gathers projects

include reached sound gathers projects in
/-- Where merging loses nothing, a met dependency answer meets every package requirement in it. -/
theorem requirementMet_of_entriesFor {requirements : List (SolverKey × VersionConstraint)}
    {entries : List (PackageId × VersionRange)} {constraints : KeyedMap PackageId VersionRange}
    (paired : List.Forall₂ (provider.EntryFor state) requirements entries)
    (faithful : provider.MergesFaithfully requirements)
    (stored : ∀ subject, constraints.get? (.subject subject) =
      (KeyedMap.ofList entries).get? (.subject subject))
    (met : Meets selected constraints) {package : PackageRequirement} {subject : SolverKey}
    (found : provider.subjectForPackage package = .ok subject)
    (member : (subject, package.constraint) ∈ requirements) :
    provider.RequirementMet resolution selected state package := by
  have about := provider.subjectForPackage_eq_ok found
  unfold RequirementMet
  rcases met_of_entriesFor reached sound gathers projects paired faithful stored met member with
    ⟨runtime, satisfied⟩ | ⟨differs, candidate, held, satisfied, eligible, resolved⟩
  · split at about
    · next named => rw [if_pos named]; exact satisfied
    · exact absurd runtime about.1
  · split at about
    · exact absurd about differs
    · next named =>
      rw [if_neg named]
      simp only [found]
      refine ⟨candidate, held, ⟨?_, satisfied, eligible, resolved⟩⟩
      have own := PreparedCandidate.name_of_isEligibleFor eligible
      exact Option.some.inj (own.symm.trans about.2)

end Run

/-- A requirement with a subject is a keyed requirement. -/
theorem mem_keyedRequirements {packages : List PackageRequirement} {package : PackageRequirement}
    (member : package ∈ packages) {subject : SolverKey}
    (found : provider.subjectForPackage package = .ok subject) :
    (subject, package.constraint) ∈ provider.keyedRequirements packages := by
  refine List.mem_filterMap.mpr ⟨package, member, ?_⟩
  simp [found, Except.toOption]

/-- Every requirement of a dependency answer has a subject. -/
theorem subject_of_entriesOf {packages : List PackageRequirement}
    {entries : List (PackageId × VersionRange)} {state : ProviderState}
    (entered : provider.EntriesOf packages entries state) {package : PackageRequirement}
    (member : package ∈ packages) :
    ∃ subject, provider.subjectForPackage package = .ok subject := by
  induction entered with
  | nil => simp at member
  | cons head _ ih =>
    rcases List.mem_cons.mp member with rfl | member
    · obtain ⟨subject, found, -⟩ := head
      exact ⟨subject, found⟩
    · exact ih member

/-- Releases that declare the same dependencies have the same edges. -/
theorem exists_edge_of_same {left right : PackageRelease} {expansion : RootExpansionPolicy}
    (same : Same left.declaredDependencies right.declaredDependencies)
    {edge : ResolvedDependencyEdge} (member : edge ∈ projectDependencyEdges left expansion) :
    ∃ other ∈ projectDependencyEdges right expansion, Same other.package edge.package := by
  obtain ⟨dependency, declared, projected⟩ := List.mem_filterMap.mp member
  have listed : representative dependency ∈ right.declaredDependencies.map representative := by
    rw [← show left.declaredDependencies.map representative =
      right.declaredDependencies.map representative from same]
    exact List.mem_map_of_mem declared
  obtain ⟨other, otherDeclared, equal⟩ := List.mem_map.mp listed
  obtain ⟨kinds, packages⟩ := DeclaredDependency.same_iff.mp equal
  obtain ⟨kind, kindOf, rfl⟩ := Option.map_eq_some_iff.mp projected
  refine ⟨⟨kind, other.package⟩, List.mem_filterMap.mpr ⟨other, otherDeclared, ?_⟩, packages⟩
  rw [kinds, kindOf]
  rfl

/-- The entry for an installed name does not hide an entry for a subject. -/
theorem get?_ofList_occupancy (name : PackageName) (range : VersionRange)
    (entries : List (PackageId × VersionRange)) (subject : SolverKey) :
    (KeyedMap.ofList ((PackageId.occupancy name, range) :: entries)).get? (.subject subject) =
      (KeyedMap.ofList entries).get? (.subject subject) := by
  rw [KeyedMap.get?_ofList, KeyedMap.get?_ofList, List.reverse_cons, List.find?_append]
  cases entries.reverse.find? (fun entry => decide (Same entry.1 (PackageId.subject subject))) <;>
    simp [Same, representative]

/-- Releases that declare the same dependencies have the same keyed requirements. -/
theorem edgeRequirements_related {left right : PackageRelease}
    (same : Same left.declaredDependencies right.declaredDependencies)
    (expansion : RootExpansionPolicy) :
    List.Forall₂ (fun first second => Same first.1 second.1 ∧ Same first.2 second.2)
      (provider.edgeRequirements left expansion) (provider.edgeRequirements right expansion) := by
  have paired := same_list.mp same
  unfold edgeRequirements projectDependencyEdges
  generalize left.declaredDependencies = leftDeclared at paired
  generalize right.declaredDependencies = rightDeclared at paired
  induction paired with
  | nil => exact List.Forall₂.nil
  | @cons first second _ _ head _ ih =>
    obtain ⟨kinds, packages⟩ := DeclaredDependency.same_iff.mp head
    rw [List.filterMap_cons, List.filterMap_cons, kinds]
    cases projectedKind expansion second.kind with
    | none => exact ih
    | some kind =>
      simp only [Option.map_some, List.map_cons, keyedRequirements, List.filterMap_cons]
      cases found : provider.subjectForPackage first.package with
      | ok subject =>
        obtain ⟨other, foundOther, sameSubject⟩ := provider.subjectForPackage_congr packages found
        simp only [foundOther, Except.toOption, Option.map_some]
        exact List.Forall₂.cons
          ⟨sameSubject, (PackageRequirement.same_iff.mp packages).2.2⟩ ih
      | error cause =>
        cases foundOther : provider.subjectForPackage second.package with
        | ok other =>
          obtain ⟨subject, foundFirst, -⟩ :=
            provider.subjectForPackage_congr packages.symm foundOther
          rw [found] at foundFirst
          simp at foundFirst
        | error otherCause => exact ih

/-- A gathered package has the edges of one of its subjects. -/
theorem exists_subject_of_edge {state : ProviderState}
    {selected : List (PackageId × SolverVersion)} {name : PackageName}
    {selection : SelectedPackage} (gathered : provider.Gathers state selected name selection)
    {expansion : RootExpansionPolicy}
    (expanded : provider.expansionForSubjects selection.subjects = .ok expansion)
    {edge : ResolvedDependencyEdge}
    (member : edge ∈ projectDependencyEdges selection.candidate.release expansion) :
    ∃ subject id candidate own, provider.Supported state selected subject id candidate ∧
      provider.expansionForSubject subject = .ok own ∧
      ∃ other ∈ projectDependencyEdges candidate.release own, Same other.package edge.package := by
  have found : ∀ subject ∈ selection.subjects, ∀ own,
      provider.expansionForSubject subject = .ok own →
      edge ∈ projectDependencyEdges selection.candidate.release own →
      ∃ subject id candidate own, provider.Supported state selected subject id candidate ∧
        provider.expansionForSubject subject = .ok own ∧
        ∃ other ∈ projectDependencyEdges candidate.release own,
          Same other.package edge.package := by
    intro subject subjectIn own expandedOwn edgeIn
    obtain ⟨id, candidate, supported, facts⟩ := gathered.gathered subject subjectIn
    exact ⟨subject, id, candidate, own, supported, expandedOwn,
      exists_edge_of_same facts.declaredDependencies edgeIn⟩
  rcases provider.expansionForSubjects_eq_ok expanded with rfl | ⟨subject, subjectIn, own⟩
  · obtain ⟨id, candidate, supported, -⟩ := gathered.gathered _ gathered.represented
    obtain ⟨own, entries, expandedOwn, -⟩ := supported.met
    refine found _ gathered.represented own expandedOwn ?_
    cases own with
    | hardOnly => exact member
    | directSuggests => exact projectDependencyEdges_directSuggests member
  · exact found subject subjectIn expansion own member

end Provider

namespace Small

/-- Every requirement is the last of its key, or no constraint at all. -/
def lastOrFree (requirements : List (SolverKey × VersionConstraint)) : Bool :=
  requirements.all (fun requirement =>
    (KeyedMap.ofList requirements).get? requirement.1 == some requirement.2 ||
      requirement.2 == .unconstrained)

/-- Such requirements merge without loss. -/
theorem mergesFaithfully_of_lastOrFree (provider : Provider)
    {requirements : List (SolverKey × VersionConstraint)}
    (simple : lastOrFree requirements = true) : provider.MergesFaithfully requirements := by
  intro requirement member last stored version _ satisfied
  have checked := List.all_eq_true.mp simple requirement member
  simp only [Bool.or_eq_true, beq_iff_eq] at checked
  rcases checked with isLast | free
  · obtain rfl := Option.some.inj (isLast.symm.trans stored)
    exact satisfied
  · rw [free]
    rfl

/-- Whether the requirements of a step are of that simple form. -/
def simpleStep (provider : Provider) (state : ProviderState) : Call × Reply → Bool
  | (.getDependencies .root _, _) => lastOrFree provider.rootRequirements
  | (.getDependencies (.subject subject) (.candidate id), _) =>
    match (provider.candidateForId subject id state).1, provider.expansionForSubject subject with
    | .ok candidate, .ok expansion =>
      lastOrFree (provider.edgeRequirements candidate.release expansion)
    | _, _ => true
  | _ => true

/-- A step with requirements of that form loses none of them. -/
theorem faithfulStep_of_simpleStep {provider : Provider} {state : ProviderState}
    (wellFormed : provider.WellFormed state) {record : Call × Reply}
    (simple : simpleStep provider state record = true) : provider.FaithfulStep state record := by
  unfold Provider.FaithfulStep
  split
  · exact mergesFaithfully_of_lastOrFree provider simple
  · intro candidate expansion visible expanded
    refine mergesFaithfully_of_lastOrFree provider ?_
    simpa only [simpleStep, provider.candidateForId_of_visible wellFormed visible, expanded] using
      simple
  · trivial

/-- A package that depends on another with declarations in a given order. -/
def dependent (declarations : List DeclaredDependency) (version : RPackageVersion) : Provider :=
  provider [candidate alpha newer declarations, candidate rcpp version []]
    [requirement alpha .unconstrained] none

/-- An import of the newer version. -/
def importsNewer : DeclaredDependency := ⟨.imports, requirement rcpp ⟨[⟨.ge, newer⟩]⟩⟩

/-- A link to any version. -/
def linksAny : DeclaredDependency := ⟨.linkingTo, requirement rcpp .unconstrained⟩

/-- The selection of the dependent package. -/
def dependentSelection : List (PackageId × SolverVersion) :=
  [(.root, .root), (.subject .r, .r newer), (.subject (.installedName alpha), first),
    (.subject (.installedName rcpp), second), (.occupancy alpha, first), (.occupancy rcpp, second)]

end Small

namespace Provider

end Provider

end Rsolve
