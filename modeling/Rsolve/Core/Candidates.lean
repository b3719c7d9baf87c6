import Rsolve.Core.Release

/-!
# Prepared candidates

A prepared candidate is a release together with the repository occurrences that make it visible.
Its occurrences name distinct repositories, stand in rank order, and carry distributions of the
release. Observations of one identity merge; two candidates with the same facts merge into a
candidate with those facts.
-/
open Keyed Checked

namespace Rsolve

/-- `CandidateAvailability` — whether a repository offers a release. -/
inductive CandidateAvailability
  | available
  | metadataOnly
deriving Repr, DecidableEq

/-- `CandidateCurrentness` — whether a repository lists a release as current. -/
inductive CandidateCurrentness
  | current
  | historical
deriving Repr, DecidableEq

/-- Availability is ordered as declared. -/
instance : Ord CandidateAvailability := ⟨compareOn CandidateAvailability.ctorIdx⟩

/-- The order of availability is lawful. -/
instance : Std.TransCmp (compare : CandidateAvailability → CandidateAvailability → Ordering) :=
  inferInstanceAs (Std.TransCmp (compareOn CandidateAvailability.ctorIdx))

/-- Currentness is ordered as declared. -/
instance : Ord CandidateCurrentness := ⟨compareOn CandidateCurrentness.ctorIdx⟩

/-- The order of currentness is lawful. -/
instance : Std.TransCmp (compare : CandidateCurrentness → CandidateCurrentness → Ordering) :=
  inferInstanceAs (Std.TransCmp (compareOn CandidateCurrentness.ctorIdx))

/-- `RepositoryOccurrence` — one release in one manifest repository entry. -/
structure RepositoryOccurrence where
  /-- The repository entry. -/
  repository : RepositoryId
  /-- The registry behind the entry. -/
  registry : RegistryId
  /-- Whether the entry offers the release. -/
  availability : CandidateAvailability
  /-- Whether the entry lists the release as current. -/
  currentness : CandidateCurrentness
  /-- The rank of the entry. -/
  rank : RepositoryRank
  /-- The distributions seen through the entry. -/
  distributions : List Distribution
  /-- The distributions belong to the registry. -/
  registered : ∀ distribution ∈ distributions, distribution.registry = registry
  /-- The distributions are in canonical order. -/
  canonical : DistributionsCanonical distributions
deriving DecidableEq

/-- `RepositoryOccurrenceError`. -/
inductive RepositoryOccurrenceError
  | distributionRegistryMismatch (repository : RepositoryId) (expected found : RegistryId)
deriving DecidableEq

/-- `RepositoryOccurrenceError::fmt` — the error text. -/
def RepositoryOccurrenceError.message : RepositoryOccurrenceError → String
  | .distributionRegistryMismatch repository expected found =>
    "distribution for repository " ++ repository.text ++ " belongs to registry " ++ found.text ++
      ", expected " ++ expected.text

/-- `validate_distribution_registries` — every distribution belongs to the registry. -/
def validateDistributionRegistries (repository : RepositoryId) (registry : RegistryId)
    (distributions : List Distribution) : Except RepositoryOccurrenceError Unit :=
  distributions.forM (fun distribution => ensure (distribution.registry = registry)
    (.distributionRegistryMismatch repository registry distribution.registry))

/-- The registry check passes exactly when every distribution belongs to the registry. -/
theorem validateDistributionRegistries_ok {repository : RepositoryId} {registry : RegistryId}
    {distributions : List Distribution} {done : Unit} :
    validateDistributionRegistries repository registry distributions = .ok done ↔
      ∀ distribution ∈ distributions, distribution.registry = registry := by
  unfold validateDistributionRegistries
  rw [forM_eq_ok]
  simp

namespace RepositoryOccurrence

/-- `RepositoryOccurrence::new`. -/
def new (repository : RepositoryId) (registry : RegistryId) (availability : CandidateAvailability)
    (currentness : CandidateCurrentness) (rank : RepositoryRank)
    (distributions : List Distribution) : Except RepositoryOccurrenceError RepositoryOccurrence :=
  match checked : validateDistributionRegistries repository registry distributions with
  | .error cause => .error cause
  | .ok () => .ok
    { repository, registry, availability, currentness, rank
      distributions := canonicalizeDistributions distributions
      registered := fun distribution member =>
        validateDistributionRegistries_ok.mp checked distribution
          (mem_of_mem_canonicalizeDistributions member)
      canonical := canonicalizeDistributions_canonical distributions }

/-- `RepositoryOccurrence::same_facts` — everything but the distributions agrees. -/
def sameFacts (left right : RepositoryOccurrence) : Bool :=
  left.repository == right.repository && left.registry == right.registry &&
    left.availability == right.availability && left.currentness == right.currentness &&
    left.rank == right.rank

/-- Occurrences with the same facts have one registry. -/
theorem sameFacts_registry {left right : RepositoryOccurrence} (same : left.sameFacts right = true) :
    left.registry = right.registry := by
  simp only [sameFacts, Bool.and_eq_true, beq_iff_eq] at same
  exact same.1.1.1.2

/-- `RepositoryOccurrence::merge_distributions` — add the distributions of another observation. -/
def mergeDistributions (existing occurrence : RepositoryOccurrence)
    (same : existing.sameFacts occurrence = true) : RepositoryOccurrence :=
  { existing with
    distributions := canonicalizeDistributions (existing.distributions ++ occurrence.distributions)
    registered := by
      intro distribution member
      rcases List.mem_append.mp (mem_of_mem_canonicalizeDistributions member) with old | new
      · exact existing.registered distribution old
      · rw [sameFacts_registry same]
        exact occurrence.registered distribution new
    canonical := canonicalizeDistributions_canonical _ }

/-- An occurrence has the same facts as itself. -/
@[simp]
theorem sameFacts_self (occurrence : RepositoryOccurrence) :
    occurrence.sameFacts occurrence = true := by
  simp [sameFacts]

/-- Merging an occurrence with itself changes nothing. -/
@[simp]
theorem mergeDistributions_self (occurrence : RepositoryOccurrence) :
    occurrence.mergeDistributions occurrence occurrence.sameFacts_self = occurrence := by
  have merged : canonicalizeDistributions (occurrence.distributions ++ occurrence.distributions) =
      occurrence.distributions :=
    canonicalizeDistributions_eq_of_mem occurrence.canonical (by simp)
  simp only [mergeDistributions, merged]

/-- The facts after the repository in the order that groups observations. -/
def compareFacts : RepositoryOccurrence → RepositoryOccurrence → Ordering :=
  compareLex (compareOn rank) (compareLex (compareOn registry)
    (compareLex (compareOn availability) (compareOn currentness)))

/-- The order that groups the observations of one repository. -/
def compareByRepository : RepositoryOccurrence → RepositoryOccurrence → Ordering :=
  compareLex (compareOn repository) compareFacts

/-- The order in which occurrences are stored. -/
def compareByRank : RepositoryOccurrence → RepositoryOccurrence → Ordering :=
  compareLex (compareOn rank) (compareLex (compareOn repository) (compareLex (compareOn registry)
    (compareLex (compareOn availability) (compareOn currentness))))

/-- The order of facts is lawful. -/
instance : Std.TransCmp compareFacts :=
  inferInstanceAs (Std.TransCmp (compareLex (compareOn rank) (compareLex (compareOn registry)
    (compareLex (compareOn availability) (compareOn currentness)))))

/-- The grouping order is lawful. -/
instance : Std.TransCmp compareByRepository :=
  inferInstanceAs (Std.TransCmp (compareLex (compareOn repository) compareFacts))

/-- The grouping order does not decrease the repository. -/
theorem repository_isLE_of_compareByRepository {left right : RepositoryOccurrence}
    (below : (compareByRepository left right).isLE) :
    (compare left.repository right.repository).isLE := by
  simp only [compareByRepository, compareLex, compareOn] at below
  cases relation : compare left.repository right.repository with
  | gt => simp [relation] at below
  | _ => rfl

/-- The storage order is lawful. -/
instance : Std.TransCmp compareByRank :=
  inferInstanceAs (Std.TransCmp (compareLex (compareOn rank) (compareLex (compareOn repository)
    (compareLex (compareOn registry) (compareLex (compareOn availability)
      (compareOn currentness))))))

/-- Occurrences that the storage order identifies belong to one repository. -/
theorem repository_eq_of_compareByRank {left right : RepositoryOccurrence}
    (same : compareByRank left right = .eq) : left.repository = right.repository := by
  simp only [compareByRank, compareLex_eq_eq] at same
  exact Identifier.eq_of_compare_eq same.2.1

end RepositoryOccurrence

/-- `NonRepositoryExposure` — how a candidate is visible without a repository. -/
inductive NonRepositoryExposure
  | none
  | exactOnly
  | runtimeInstalled
deriving Repr, DecidableEq

/-- `PreparedCandidate` — a release and the occurrences that make it visible. -/
structure PreparedCandidate where
  /-- The release. -/
  release : PackageRelease
  /-- The visibility outside repositories. -/
  exposure : NonRepositoryExposure
  /-- The repository occurrences. -/
  occurrences : List RepositoryOccurrence
  /-- Only the R runtime installs R base packages. -/
  runtime : exposure = .runtimeInstalled → release.isRBasePackage = true
  /-- The occurrences name distinct repositories. -/
  distinct : occurrences.Pairwise (fun left right => left.repository ≠ right.repository)
  /-- The occurrences stand in rank order. -/
  ordered : occurrences.Pairwise (fun left right => (left.compareByRank right).isLE)
  /-- A candidate is visible somewhere. -/
  exposed : exposure = .none → occurrences ≠ []
  /-- The distributions of an occurrence are distributions of the release. -/
  projected : ∀ occurrence ∈ occurrences, ∀ distribution ∈ occurrence.distributions,
    distribution ∈ release.distributions
  /-- The distributions of a repository release are seen through some occurrence. -/
  covered : exposure = .none → ∀ distribution ∈ release.distributions,
    ∃ occurrence ∈ occurrences, distribution ∈ occurrence.distributions

/-- `PreparedCandidateError`. -/
inductive PreparedCandidateError
  | release (cause : PackageReleaseError)
  | identityMismatch
  | conflictingReleaseMetadata (field : String)
  | conflictingOccurrence (repository : RepositoryId)
  | invalidOccurrence (cause : RepositoryOccurrenceError)
  | distributionNotInRelease (repository : RepositoryId)
  | releaseDistributionWithoutOccurrence
  | missingRepositoryOccurrence
  | invalidNonRepositoryExposure
deriving DecidableEq

/-- `PreparedCandidateError::fmt` — the error text. -/
def PreparedCandidateError.message : PreparedCandidateError → String
  | .release cause => cause.message
  | .identityMismatch => "prepared candidates have different identities"
  | .conflictingReleaseMetadata field => "conflicting release metadata in " ++ field
  | .conflictingOccurrence repository =>
    "conflicting occurrences for repository " ++ repository.text
  | .invalidOccurrence cause => cause.message
  | .distributionNotInRelease repository =>
    "occurrence for repository " ++ repository.text ++ " contains an unprojected distribution"
  | .releaseDistributionWithoutOccurrence =>
    "prepared release contains a distribution absent from its repository occurrences"
  | .missingRepositoryOccurrence =>
    "a repository-backed prepared candidate requires a repository occurrence"
  | .invalidNonRepositoryExposure =>
    "runtime-installed exposure is only valid for R base packages"

/-- `map_release_merge_error`. -/
def mapReleaseMergeError : PackageReleaseError → PreparedCandidateError
  | .conflictingMetadata field => .conflictingReleaseMetadata field
  | .invalidDependency index => .release (.invalidDependency index)

/-- The registry check on one observation of `normalize_and_validate`. -/
def checkRegistries (occurrence : RepositoryOccurrence) : Except PreparedCandidateError Unit :=
  (validateDistributionRegistries occurrence.repository occurrence.registry
    occurrence.distributions).mapError .invalidOccurrence

/-- The grouping loop of `normalize_and_validate`, from its last group on. -/
def groupFrom (existing : RepositoryOccurrence) :
    List RepositoryOccurrence → Except PreparedCandidateError (List RepositoryOccurrence)
  | [] => .ok [existing]
  | occurrence :: rest => do
    checkRegistries occurrence
    if existing.repository = occurrence.repository then
      if same : existing.sameFacts occurrence = true then
        groupFrom (existing.mergeDistributions occurrence same) rest
      else .error (.conflictingOccurrence occurrence.repository)
    else
      let groups ← groupFrom occurrence rest
      return existing :: groups

/-- The grouping loop of `normalize_and_validate`. -/
def groupOccurrences :
    List RepositoryOccurrence → Except PreparedCandidateError (List RepositoryOccurrence)
  | [] => .ok []
  | first :: rest => do
    checkRegistries first
    groupFrom first rest

/-- The occurrences `normalize_and_validate` stores. -/
def normalizeOccurrences (occurrences : List RepositoryOccurrence) :
    Except PreparedCandidateError (List RepositoryOccurrence) := do
  let groups ← groupOccurrences
    (Sorting.sortBy RepositoryOccurrence.compareByRepository occurrences)
  return Sorting.sortBy RepositoryOccurrence.compareByRank groups

/-- The distributions of an occurrence belong to its registry. -/
@[simp]
theorem checkRegistries_ok (occurrence : RepositoryOccurrence) :
    checkRegistries occurrence = .ok () := by
  unfold checkRegistries
  rw [validateDistributionRegistries_ok.mpr occurrence.registered]
  rfl

/-- Grouping observations in repository order gives strictly increasing repositories, the first
being the repository of the last group. -/
theorem groupFrom_strict {existing : RepositoryOccurrence} {rest groups : List RepositoryOccurrence}
    (ordered : (existing :: rest).Pairwise
      (fun left right => (compare left.repository right.repository).isLE))
    (grouped : groupFrom existing rest = .ok groups) :
    (∀ group ∈ groups, group.repository = existing.repository ∨
        ∃ occurrence ∈ rest, group.repository = occurrence.repository) ∧
      groups.Pairwise (fun left right => compare left.repository right.repository = .lt) := by
  induction rest generalizing existing groups with
  | nil =>
    obtain rfl : [existing] = groups := by simpa [groupFrom] using grouped
    simp
  | cons occurrence rest ih =>
    rw [List.pairwise_cons] at ordered
    simp only [groupFrom, checkRegistries_ok, ok_bind] at grouped
    split at grouped
    · next sameRepository =>
      split at grouped
      · next same =>
        have restOrdered : (existing.mergeDistributions occurrence same :: rest).Pairwise
            (fun left right => (compare left.repository right.repository).isLE) := by
          refine List.pairwise_cons.mpr ⟨fun other member => ?_, (List.pairwise_cons.mp ordered.2).2⟩
          exact ordered.1 other (List.mem_cons_of_mem _ member)
        obtain ⟨named, strict⟩ := ih restOrdered grouped
        refine ⟨fun group member => ?_, strict⟩
        rcases named group member with head | ⟨other, otherIn, equal⟩
        · exact Or.inl head
        · exact Or.inr ⟨other, List.mem_cons_of_mem _ otherIn, equal⟩
      · simp at grouped
    · next differs =>
      obtain ⟨later, laterGrouped, finished⟩ := bind_eq_ok.mp grouped
      obtain rfl : existing :: later = groups := by simpa [pure, Except.pure] using finished
      obtain ⟨named, strict⟩ := ih ordered.2 laterGrouped
      have above : ∀ other ∈ occurrence :: rest,
          compare existing.repository other.repository = .lt := by
        intro other member
        have first : compare existing.repository occurrence.repository = .lt := by
          have below := ordered.1 occurrence List.mem_cons_self
          rcases Ordering.isLE_iff_eq_lt_or_eq_eq.mp below with less | equal
          · exact less
          · exact absurd (Identifier.eq_of_compare_eq equal) differs
        rcases List.mem_cons.mp member with rfl | member
        · exact first
        · exact Std.TransCmp.lt_of_lt_of_isLE first ((List.pairwise_cons.mp ordered.2).1 other member)
      constructor
      · intro group member
        rcases List.mem_cons.mp member with rfl | member
        · exact Or.inl rfl
        · rcases named group member with head | ⟨other, otherIn, equal⟩
          · exact Or.inr ⟨occurrence, List.mem_cons_self, head⟩
          · exact Or.inr ⟨other, List.mem_cons_of_mem _ otherIn, equal⟩
      · refine List.pairwise_cons.mpr ⟨fun group member => ?_, strict⟩
        rcases named group member with head | ⟨other, otherIn, equal⟩
        · rw [head]
          exact above occurrence List.mem_cons_self
        · rw [equal]
          exact above other (List.mem_cons_of_mem _ otherIn)

/-- Stored occurrences name distinct repositories in rank order. -/
theorem normalizeOccurrences_spec {occurrences normalized : List RepositoryOccurrence}
    (accepted : normalizeOccurrences occurrences = .ok normalized) :
    normalized.Pairwise (fun left right => left.repository ≠ right.repository) ∧
      normalized.Pairwise (fun left right => (left.compareByRank right).isLE) := by
  obtain ⟨groups, grouped, finished⟩ := bind_eq_ok.mp accepted
  obtain rfl : Sorting.sortBy RepositoryOccurrence.compareByRank groups = normalized := by
    simpa [pure, Except.pure] using finished
  refine ⟨?_, Sorting.sortBy_pairwise _ groups⟩
  have ordered : (Sorting.sortBy RepositoryOccurrence.compareByRepository occurrences).Pairwise
      (fun left right => (compare left.repository right.repository).isLE) :=
    (Sorting.sortBy_pairwise RepositoryOccurrence.compareByRepository occurrences).imp
      RepositoryOccurrence.repository_isLE_of_compareByRepository
  have distinct : groups.Pairwise (fun left right => left.repository ≠ right.repository) := by
    generalize Sorting.sortBy RepositoryOccurrence.compareByRepository occurrences = sorted
      at ordered grouped
    cases sorted with
    | nil =>
      obtain rfl : [] = groups := by simpa [groupOccurrences] using grouped
      exact List.Pairwise.nil
    | cons first rest =>
      simp only [groupOccurrences, checkRegistries_ok, ok_bind] at grouped
      refine (groupFrom_strict ordered grouped).2.imp ?_
      intro left right below equal
      simp [equal] at below
  exact ((Sorting.sortBy_perm _ groups).pairwise_iff (fun differs => differs.symm)).mpr distinct

/-- Grouping observations that agree with their repository's others keeps one of each. -/
theorem groupFrom_agreeing {existing : RepositoryOccurrence} {rest : List RepositoryOccurrence}
    (agree : ∀ left ∈ existing :: rest, ∀ right ∈ existing :: rest,
      left.repository = right.repository → left = right) :
    groupFrom existing rest = .ok (rest.destutter'
      (fun left right => (compareOn RepositoryOccurrence.repository left right == .eq) = false)
      existing) := by
  induction rest generalizing existing with
  | nil => rfl
  | cons occurrence rest ih =>
    simp only [groupFrom, checkRegistries_ok, ok_bind, List.destutter']
    by_cases sameRepository : existing.repository = occurrence.repository
    · have equal : existing = occurrence :=
        agree existing (by simp) occurrence (by simp) sameRepository
      subst equal
      have compared : compareOn RepositoryOccurrence.repository existing existing = .eq :=
        Std.ReflCmp.compare_self
      simp only [if_true, compared, RepositoryOccurrence.sameFacts_self, dite_true,
        RepositoryOccurrence.mergeDistributions_self, beq_self_eq_true, Bool.true_eq_false,
        if_false]
      exact ih fun left leftIn right rightIn =>
        agree left (List.mem_cons_of_mem _ leftIn) right (List.mem_cons_of_mem _ rightIn)
    · have compared : (compareOn RepositoryOccurrence.repository existing occurrence == .eq) =
          false := by
        rw [Bool.eq_false_iff]
        intro equal
        exact sameRepository (Identifier.eq_of_compare_eq (beq_iff_eq.mp equal))
      simp only [sameRepository, if_false, compared, if_true]
      rw [ih fun left leftIn right rightIn =>
        agree left (List.mem_cons_of_mem _ leftIn) right (List.mem_cons_of_mem _ rightIn)]
      rfl

/-- Stored occurrences seen twice are stored as they are. -/
theorem normalizeOccurrences_double {occurrences : List RepositoryOccurrence}
    (distinct : occurrences.Pairwise (fun left right => left.repository ≠ right.repository))
    (ordered : occurrences.Pairwise (fun left right => (left.compareByRank right).isLE)) :
    normalizeOccurrences (occurrences ++ occurrences) = .ok occurrences := by
  have agree : ∀ left ∈ occurrences, ∀ right ∈ occurrences,
      left.repository = right.repository → left = right := by
    have symmetric : Std.Symm (fun left right : RepositoryOccurrence =>
        left.repository ≠ right.repository) := ⟨fun _ _ differs => differs.symm⟩
    intro left leftIn right rightIn same
    by_contra differs
    exact distinct.forall leftIn rightIn differs same
  have grouped : ∀ items : List RepositoryOccurrence, (∀ item ∈ items, item ∈ occurrences) →
      groupOccurrences items = .ok (Sorting.dedupBy
        (fun left right => compareOn RepositoryOccurrence.repository left right == .eq) items) := by
    intro items within
    cases items with
    | nil => rfl
    | cons first rest =>
      simp only [groupOccurrences, checkRegistries_ok, ok_bind]
      exact groupFrom_agreeing fun left leftIn right rightIn =>
        agree left (within left leftIn) right (within right rightIn)
  have strict : (Sorting.sortBy (compareOn RepositoryOccurrence.repository) occurrences).Pairwise
      (fun left right => compareOn RepositoryOccurrence.repository left right = .lt) := by
    have apart := ((Sorting.sortBy_perm (compareOn RepositoryOccurrence.repository)
      occurrences).pairwise_iff (fun {_ _} differs => Ne.symm differs)).mpr distinct
    refine ((Sorting.sortBy_pairwise _ occurrences).and apart).imp ?_
    rintro left right ⟨below, differs⟩
    rcases Ordering.isLE_iff_eq_lt_or_eq_eq.mp below with less | equal
    · exact less
    · exact absurd (Identifier.eq_of_compare_eq equal) differs
  have members : ∀ item, item ∈ occurrences ++ occurrences ↔
      item ∈ Sorting.sortBy (compareOn RepositoryOccurrence.repository) occurrences := by simp
  have canonical := Sorting.canonical_eq_of_strict (compareOn RepositoryOccurrence.repository)
    RepositoryOccurrence.compareFacts strict members
  unfold normalizeOccurrences
  rw [grouped _ (by simp)]
  change (Except.ok (Sorting.canonical _ RepositoryOccurrence.compareFacts _) >>= _) = _
  rw [canonical, ok_bind]
  have restored : Sorting.sortBy RepositoryOccurrence.compareByRank
      (Sorting.sortBy (compareOn RepositoryOccurrence.repository) occurrences) = occurrences := by
    rw [Sorting.sortBy_eq_of_perm RepositoryOccurrence.compareByRank
      (Sorting.sortBy_perm (compareOn RepositoryOccurrence.repository) occurrences)]
    · exact Sorting.sortBy_eq_self ordered
    · intro left leftIn right rightIn equal
      exact agree left (Sorting.mem_sortBy.mp leftIn) right (Sorting.mem_sortBy.mp rightIn)
        (RepositoryOccurrence.repository_eq_of_compareByRank equal)
  rw [restored]
  rfl

namespace PreparedCandidate

/-- `PreparedCandidate::normalize_and_validate` — store the occurrences of a release and check the
release against them. -/
def normalizeAndValidate (release : PackageRelease) (exposure : NonRepositoryExposure)
    (occurrences : List RepositoryOccurrence) : Except PreparedCandidateError PreparedCandidate :=
  if runtime : exposure = .runtimeInstalled → release.isRBasePackage = true then
    match stored : normalizeOccurrences occurrences with
    | .error cause => .error cause
    | .ok occurrences =>
      if exposed : exposure = .none → occurrences ≠ [] then
        match unprojected : occurrences.find? (fun occurrence => occurrence.distributions.any
            (fun distribution => !release.distributions.contains distribution)) with
        | some occurrence => .error (.distributionNotInRelease occurrence.repository)
        | none =>
          if covered : exposure = .none → ∀ distribution ∈ release.distributions,
              ∃ occurrence ∈ occurrences, distribution ∈ occurrence.distributions then
            .ok
              { release, exposure, occurrences, runtime, exposed, covered
                distinct := (normalizeOccurrences_spec stored).1
                ordered := (normalizeOccurrences_spec stored).2
                projected := by simpa using unprojected }
          else .error .releaseDistributionWithoutOccurrence
      else .error .missingRepositoryOccurrence
  else .error .invalidNonRepositoryExposure

/-- `PreparedCandidate::new`. -/
def new (release : PackageRelease) (exposure : NonRepositoryExposure)
    (occurrences : List RepositoryOccurrence) : Except PreparedCandidateError PreparedCandidate :=
  normalizeAndValidate release exposure occurrences

/-- `PreparedCandidate::identity`. -/
def identity (candidate : PreparedCandidate) : ReleaseIdentity :=
  candidate.release.identity

/-- `PreparedCandidate::available_occurrences`. -/
def availableOccurrences (candidate : PreparedCandidate) : List RepositoryOccurrence :=
  candidate.occurrences.filter (fun occurrence => occurrence.availability == .available)

end PreparedCandidate

/-- `provenance_matches` — whether a provenance is within a subject's scope. -/
def provenanceMatches (provenance : Provenance) : SolverKey → Bool
  | .registry nspace _ =>
    match provenance with
    | .registryRelease candidate _ => candidate == nspace
    | _ => false
  | .bioconductor nspace release _ =>
    match provenance with
    | .bioconductorRelease candidateNspace candidateRelease _ =>
      candidateNspace == nspace && candidateRelease == release
    | _ => false
  | .exact _ => true
  | .repository _ _ => true
  | .installedName _ => true
  | .r => false

namespace PreparedCandidate

/-- The occurrences within the repository scope of a subject. -/
def withinRepository (subject : SolverKey) (occurrence : RepositoryOccurrence) : Bool :=
  match subject with
  | .repository repository _ => occurrence.repository == repository
  | _ => true

/-- Whether a subject with an exact identity names another identity. -/
def outsideExact (candidate : PreparedCandidate) : SolverKey → Bool
  | .exact identity => !decide (Same candidate.identity identity)
  | _ => false

/-- `PreparedCandidate::applicable_occurrences` — the occurrences that offer the release to a
subject. -/
def applicableOccurrences (candidate : PreparedCandidate) (subject : SolverKey) :
    List RepositoryOccurrence :=
  match subject.subjectName with
  | none => []
  | some name =>
    if candidate.identity.name ≠ name then []
    else if candidate.outsideExact subject then []
    else if !provenanceMatches candidate.identity.provenance subject then []
    else candidate.availableOccurrences.filter (withinRepository subject)

/-- `PreparedCandidate::is_eligible_for` — whether a subject may select the release. -/
def isEligibleFor (candidate : PreparedCandidate) (subject : SolverKey) : Bool :=
  match subject.subjectName with
  | none => false
  | some name =>
    if candidate.identity.name ≠ name then false
    else
      match subject with
      | .exact identity => decide (Same candidate.identity identity) &&
          (candidate.exposure != .none || !candidate.availableOccurrences.isEmpty)
      | .installedName _ =>
        if candidate.exposure == .runtimeInstalled then true
        else !(candidate.applicableOccurrences subject).isEmpty
      | _ => !(candidate.applicableOccurrences subject).isEmpty

/-- `PreparedCandidate::repository_rank_for` — the best rank that offers the release to a
subject. -/
def repositoryRankFor (candidate : PreparedCandidate) (subject : SolverKey) :
    Option RepositoryRank :=
  ((candidate.applicableOccurrences subject).map (fun occurrence =>
    occurrence.rank.ordinal)).min?.map RepositoryRank.mk

/-- `PreparedCandidate::same_facts` — two views hold the same immutable facts. -/
structure SameFacts (left right : PreparedCandidate) : Prop where
  /-- The exposures agree. -/
  exposure : left.exposure = right.exposure
  /-- The identities agree. -/
  identity : Same left.identity right.identity
  /-- The versions agree. -/
  version : Same left.release.version right.release.version
  /-- The metadata agrees. -/
  metadata : left.release.metadata = right.release.metadata
  /-- The publications agree. -/
  publication : left.release.publication = right.release.publication
  /-- The declared dependencies agree. -/
  declaredDependencies : Same left.release.declaredDependencies right.release.declaredDependencies
  /-- The distributions agree. -/
  distributions : left.release.distributions = right.release.distributions
  /-- The occurrences agree. -/
  occurrences : left.occurrences = right.occurrences

/-- The facts are compared one by one. -/
instance (left right : PreparedCandidate) : Decidable (left.SameFacts right) :=
  decidable_of_iff (left.exposure = right.exposure ∧ Same left.identity right.identity ∧
    Same left.release.version right.release.version ∧
    left.release.metadata = right.release.metadata ∧
    left.release.publication = right.release.publication ∧
    Same left.release.declaredDependencies right.release.declaredDependencies ∧
    left.release.distributions = right.release.distributions ∧
    left.occurrences = right.occurrences)
    ⟨fun ⟨a, b, c, d, e, f, g, h⟩ => ⟨a, b, c, d, e, f, g, h⟩,
      fun ⟨a, b, c, d, e, f, g, h⟩ => ⟨a, b, c, d, e, f, g, h⟩⟩

/-- A candidate has the same facts as itself. -/
theorem SameFacts.refl (candidate : PreparedCandidate) : candidate.SameFacts candidate :=
  ⟨rfl, .refl _, .refl _, rfl, rfl, .refl _, rfl, rfl⟩

/-- Having the same facts is symmetric. -/
theorem SameFacts.symm {left right : PreparedCandidate} (same : left.SameFacts right) :
    right.SameFacts left :=
  ⟨same.exposure.symm, same.identity.symm, same.version.symm, same.metadata.symm,
    same.publication.symm, same.declaredDependencies.symm, same.distributions.symm,
    same.occurrences.symm⟩

/-- Having the same facts is transitive. -/
theorem SameFacts.trans {first second third : PreparedCandidate} (left : first.SameFacts second)
    (right : second.SameFacts third) : first.SameFacts third :=
  ⟨left.exposure.trans right.exposure, left.identity.trans right.identity,
    left.version.trans right.version, left.metadata.trans right.metadata,
    left.publication.trans right.publication,
    left.declaredDependencies.trans right.declaredDependencies,
    left.distributions.trans right.distributions, left.occurrences.trans right.occurrences⟩

/-- The exposure of two observations of one identity. -/
def mergedExposure : NonRepositoryExposure → NonRepositoryExposure → NonRepositoryExposure
  | .runtimeInstalled, _ => .runtimeInstalled
  | _, .runtimeInstalled => .runtimeInstalled
  | .exactOnly, _ => .exactOnly
  | _, .exactOnly => .exactOnly
  | .none, .none => .none

/-- `PreparedCandidate::merge` — merge two observations of one identity. -/
def merge (candidate incoming : PreparedCandidate) :
    Except PreparedCandidateError PreparedCandidate := do
  ensure (Same candidate.identity incoming.identity) .identityMismatch
  let release ← (candidate.release.mergeConsistent incoming.release).mapError mapReleaseMergeError
  normalizeAndValidate release (mergedExposure candidate.exposure incoming.exposure)
    (candidate.occurrences ++ incoming.occurrences)

/-- A candidate whose stored occurrences are normalized passes its own checks. -/
theorem normalizeAndValidate_of_normalized {candidate : PreparedCandidate}
    {occurrences : List RepositoryOccurrence}
    (stored : normalizeOccurrences occurrences = .ok candidate.occurrences) :
    normalizeAndValidate candidate.release candidate.exposure occurrences = .ok candidate := by
  unfold normalizeAndValidate
  rw [dif_pos candidate.runtime]
  split
  · next cause failed => simp [stored] at failed
  · next found accepted =>
    obtain rfl : candidate.occurrences = found := by
      rw [stored] at accepted
      simpa using accepted
    rw [dif_pos candidate.exposed]
    split
    · next occurrence unprojected =>
      have occurrenceIn := List.mem_of_find?_eq_some unprojected
      have missing := List.find?_some unprojected
      obtain ⟨distribution, distributionIn, absent⟩ := List.any_eq_true.mp missing
      have present := candidate.projected occurrence occurrenceIn distribution distributionIn
      simp [present] at absent
    · rw [dif_pos candidate.covered]

/-- Candidates with the same facts merge into the first of them. -/
theorem merge_of_sameFacts {candidate incoming : PreparedCandidate}
    (same : candidate.SameFacts incoming) : candidate.merge incoming = .ok candidate := by
  have exposure : mergedExposure candidate.exposure candidate.exposure = candidate.exposure := by
    cases candidate.exposure <;> rfl
  have release := PackageRelease.mergeConsistent_same same.version same.metadata same.publication
    same.declaredDependencies same.distributions
  unfold merge
  rw [ensure_of same.identity, release, ← same.exposure, exposure, ← same.occurrences]
  exact normalizeAndValidate_of_normalized
    (normalizeOccurrences_double candidate.distinct candidate.ordered)

end PreparedCandidate

/-- `PreparedCandidateSet` — the identity-keyed union of prepared candidates. Its order is that of
first insertion; the source leaves it open. -/
abbrev PreparedCandidateSet := KeyedMap ReleaseIdentity PreparedCandidate

/-- `PreparedCandidateSet::insert` — equal identities merge. -/
def PreparedCandidateSet.insertCandidate (set : PreparedCandidateSet) (candidate : PreparedCandidate) :
    Except PreparedCandidateError PreparedCandidateSet :=
  match set.get? candidate.identity with
  | some existing => do
    let merged ← existing.merge candidate
    return set.insert merged.identity merged
  | none => .ok (set.insert candidate.identity candidate)

/-- `PreparedCandidateSet::from_candidates`. -/
def PreparedCandidateSet.fromCandidates (candidates : List PreparedCandidate) :
    Except PreparedCandidateError PreparedCandidateSet :=
  candidates.foldlM PreparedCandidateSet.insertCandidate .empty

end Rsolve
