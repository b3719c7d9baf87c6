import Rsolve.Orchestration.Loaders
import Rsolve.Resolver.Completeness

/-!
# Views of composed sources

Every subject sees a release through the sources that cover the subject. The provider compares whole
candidates, so a release may be seen by several subjects of one resolution only when all of them see
it through the same sources. Then no load conflicts with another.
-/
open Keyed Checked Growth

namespace Rsolve

/-- Two releases agree on everything a repository does not add. -/
structure PackageRelease.Agrees (left right : PackageRelease) : Prop where
  /-- The versions agree. -/
  version : Same left.version right.version
  /-- The metadata agrees. -/
  metadata : left.metadata = right.metadata
  /-- The publications agree. -/
  publication : left.publication = right.publication
  /-- The declared dependencies agree. -/
  declaredDependencies : Same left.declaredDependencies right.declaredDependencies

/-- Whether an identity is within the scope of a subject. -/
def SolverKey.scopes (subject : SolverKey) (identity : ReleaseIdentity) : Bool :=
  subject.subjectName == some identity.name &&
    (match subject with
      | .exact named => decide (Same identity named)
      | _ => provenanceMatches identity.provenance subject)

/-- Whether a subject names an exact identity. -/
def SolverKey.isExact : SolverKey → Bool
  | .exact _ => true
  | _ => false

/-- The same identities are within the same scopes. -/
theorem SolverKey.scopes_congr (subject : SolverKey) {left right : ReleaseIdentity}
    (same : Same left right) : subject.scopes left = subject.scopes right := by
  obtain ⟨names, provenances⟩ := ReleaseIdentity.same_iff.mp same
  unfold scopes
  rw [names]
  congr 1
  split
  · next named => exact decide_eq_decide.mpr (same.congr_left named)
  · exact provenanceMatches_congr_provenance provenances subject

/-- An identity within the scope of a subject is an identity of its package. -/
theorem SolverKey.subjectName_of_scopes {subject : SolverKey} {identity : ReleaseIdentity}
    (within : subject.scopes identity = true) : subject.subjectName = some identity.name := by
  simp only [scopes, Bool.and_eq_true, beq_iff_eq] at within
  exact within.1

namespace RepositoryCandidateLoader

variable (entry : RepositoryCandidateLoader)

/-- Whether an entry looks the package of a subject up. -/
def covers : SolverKey → Bool
  | .repository repository name => repository == entry.repository && entry.allows name
  | .r => false
  | .installedName name | .registry _ name | .bioconductor _ _ name => entry.allows name
  | .exact identity => entry.allows identity.name

/-- What an entry observes of a package. -/
def observations (name : PackageName) : List RawCandidateObservation :=
  match entry.raw (.installedName name) with
  | .ok result => result.observations
  | .error _ => []

/-- Whether an entry observes an identity. -/
def Observes (identity : ReleaseIdentity) : Prop :=
  ∃ observation ∈ entry.observations identity.name,
    Same observation.release.identity identity

/-- An entry looks up the subjects it covers and has nothing for the others. -/
theorem load_eq (subject : SolverKey) : entry.load subject =
    match subject.subjectName with
    | some name => if entry.covers subject then entry.lookup subject name else .ok ⟨[], []⟩
    | none => .ok ⟨[], []⟩ := by
  cases subject with
  | repository repository name =>
    by_cases own : repository = entry.repository
    · cases allowed : entry.allows name <;> simp [load, covers, SolverKey.subjectName, own, allowed]
    · simp [load, covers, SolverKey.subjectName, own]
  | r => rfl
  | installedName name =>
    cases allowed : entry.allows name <;> simp [load, covers, SolverKey.subjectName, allowed]
  | registry nspace name =>
    cases allowed : entry.allows name <;> simp [load, covers, SolverKey.subjectName, allowed]
  | bioconductor nspace release name =>
    cases allowed : entry.allows name <;> simp [load, covers, SolverKey.subjectName, allowed]
  | exact identity =>
    cases allowed : entry.allows identity.name <;>
      simp [load, covers, SolverKey.subjectName, allowed]

/-- A candidate prepared by an entry: the observed release with an occurrence in the entry. -/
structure Prepared (observation : RawCandidateObservation) (candidate : PreparedCandidate) :
    Prop where
  /-- The release is the observed one. -/
  release : candidate.release = observation.release
  /-- It is visible in repositories only. -/
  exposure : candidate.exposure = .none
  /-- Its occurrences are occurrences in the entry. -/
  occurrences : ∀ occurrence ∈ candidate.occurrences, occurrence.repository = entry.repository ∧
    occurrence.registry = entry.registry ∧ occurrence.availability = .available ∧
    occurrence.currentness = observation.currentness ∧ occurrence.rank = entry.rank

/-- Observations whose distributions belong to the registry of the entry are prepared. -/
theorem prepare_prepared {observation : RawCandidateObservation}
    (registered : ∀ distribution ∈ observation.release.distributions,
      distribution.registry = entry.registry) :
    ∃ candidate, entry.prepare observation = .ok candidate ∧
      entry.Prepared observation candidate := by
  obtain ⟨occurrence, made, facts⟩ : ∃ occurrence, RepositoryOccurrence.new entry.repository
      entry.registry .available observation.currentness entry.rank
      observation.release.distributions = .ok occurrence ∧
      occurrence.repository = entry.repository ∧ occurrence.registry = entry.registry ∧
      occurrence.availability = .available ∧ occurrence.currentness = observation.currentness ∧
      occurrence.rank = entry.rank ∧
      ∀ distribution, distribution ∈ occurrence.distributions ↔
        distribution ∈ observation.release.distributions := by
    unfold RepositoryOccurrence.new
    split
    · next cause failed =>
      have passes : validateDistributionRegistries entry.repository entry.registry
          observation.release.distributions = .ok () :=
        validateDistributionRegistries_ok.mpr registered
      simp [passes] at failed
    · exact ⟨_, rfl, rfl, rfl, rfl, rfl, rfl, fun _ => mem_canonicalizeDistributions⟩
  obtain ⟨repository, registry, availability, currentness, rank, distributions⟩ := facts
  obtain ⟨candidate, accepted⟩ := @PreparedCandidate.normalizeAndValidate_of_coherent
    observation.release .none [occurrence] (by simp)
    (by
      intro left leftIn right rightIn _
      rw [List.mem_singleton.mp leftIn, List.mem_singleton.mp rightIn]
      exact occurrence.sameFacts_self)
    (by simp)
    (by
      intro other member distribution found
      obtain rfl := List.mem_singleton.mp member
      exact (distributions distribution).mp found)
    (fun _ distribution member => ⟨occurrence, by simp, (distributions distribution).mpr member⟩)
  obtain ⟨releaseIs, exposureIs, stored⟩ :=
    PreparedCandidate.normalizeAndValidate_eq_ok accepted
  refine ⟨candidate, ?_, releaseIs, exposureIs, fun other member => ?_⟩
  · rw [prepare, made]
    change (PreparedCandidate.normalizeAndValidate _ _ _).mapError _ = _
    rw [accepted]
    rfl
  · obtain ⟨source, sourceIn, same⟩ := (normalizeOccurrences_groups stored).drawn other member
    obtain rfl := List.mem_singleton.mp sourceIn
    obtain ⟨first, second, third, fourth, fifth⟩ := RepositoryOccurrence.sameFacts_iff.mp same
    exact ⟨first.symm.trans repository, second.symm.trans registry, third.symm.trans availability,
      fourth.symm.trans currentness, fifth.symm.trans rank⟩

/-- A prepared candidate is eligible for the subjects that the entry covers and that scope it. -/
theorem Prepared.isEligibleFor {entry : RepositoryCandidateLoader}
    {observation : RawCandidateObservation} {candidate : PreparedCandidate}
    (prepared : entry.Prepared observation candidate) {subject : SolverKey}
    (covered : entry.covers subject = true) :
    candidate.isEligibleFor subject = subject.scopes candidate.identity := by
  have available : candidate.availableOccurrences = candidate.occurrences := by
    refine List.filter_eq_self.mpr fun occurrence member => ?_
    simp [(prepared.occurrences occurrence member).2.2.1]
  have within : candidate.occurrences.filter (PreparedCandidate.withinRepository subject) =
      candidate.occurrences := by
    refine List.filter_eq_self.mpr fun occurrence member => ?_
    cases subject with
    | repository repository name =>
      simp only [covers, Bool.and_eq_true, beq_iff_eq] at covered
      simp [PreparedCandidate.withinRepository, covered.1,
        (prepared.occurrences occurrence member).1]
    | _ => rfl
  have whole : candidate.occurrences.isEmpty = false := by
    simpa using candidate.exposed prepared.exposure
  have applicable : ∀ name, subject.subjectName = some name → candidate.identity.name = name →
      candidate.outsideExact subject = false →
      (!(candidate.applicableOccurrences subject).isEmpty) =
        provenanceMatches candidate.identity.provenance subject := by
    intro name aboutName named inside
    unfold PreparedCandidate.applicableOccurrences
    simp only [aboutName, named, inside, available, within, ne_eq, not_true_eq_false, if_false]
    cases provenanceMatches candidate.identity.provenance subject <;> simp [whole]
  unfold PreparedCandidate.isEligibleFor SolverKey.scopes
  cases subject with
  | r => simp [covers] at covered
  | exact identity =>
    by_cases named : candidate.identity.name = identity.name
    · simp [SolverKey.subjectName, named, available, whole]
    · have differs : ¬ identity.name = candidate.identity.name := fun equal => named equal.symm
      simp [SolverKey.subjectName, named, differs]
  | installedName name =>
    by_cases named : candidate.identity.name = name
    · have shown := applicable name rfl named rfl
      simp only [SolverKey.subjectName, named, prepared.exposure, shown, ne_eq, not_true_eq_false,
        if_false, beq_self_eq_true, Bool.true_and]
      rfl
    · have differs : ¬ name = candidate.identity.name := fun equal => named equal.symm
      simp [SolverKey.subjectName, named, differs]
  | registry nspace name =>
    by_cases named : candidate.identity.name = name
    · have shown := applicable name rfl named rfl
      simp only [SolverKey.subjectName, named, shown, ne_eq, not_true_eq_false, if_false,
        beq_self_eq_true, Bool.true_and]
    · have differs : ¬ name = candidate.identity.name := fun equal => named equal.symm
      simp [SolverKey.subjectName, named, differs]
  | bioconductor nspace release name =>
    by_cases named : candidate.identity.name = name
    · have shown := applicable name rfl named rfl
      simp only [SolverKey.subjectName, named, shown, ne_eq, not_true_eq_false, if_false,
        beq_self_eq_true, Bool.true_and]
    · have differs : ¬ name = candidate.identity.name := fun equal => named equal.symm
      simp [SolverKey.subjectName, named, differs]
  | repository repository name =>
    by_cases named : candidate.identity.name = name
    · have shown := applicable name rfl named rfl
      simp only [SolverKey.subjectName, named, shown, ne_eq, not_true_eq_false, if_false,
        beq_self_eq_true, Bool.true_and]
    · have differs : ¬ name = candidate.identity.name := fun equal => named equal.symm
      simp [SolverKey.subjectName, named, differs]

/-- What a covering entry offers: the eligible prepared observations of the subject's package, or an
ordinary absence. -/
theorem load_of_registered {subject : SolverKey}
    (absences : ∀ key cause, entry.raw key = .error cause → cause.category = .notFound)
    (registered : ∀ name, ∀ observation ∈ entry.observations name,
      ∀ distribution ∈ observation.release.distributions, distribution.registry = entry.registry) :
    (∃ cause, entry.load subject = .error cause ∧ cause.category = .notFound ∧
      ∀ name, subject.subjectName = some name → entry.observations name = []) ∨
    ∃ result, entry.load subject = .ok result ∧ ∀ candidate, candidate ∈ result.candidates ↔
      entry.covers subject = true ∧ candidate.isEligibleFor subject = true ∧
        ∃ name, subject.subjectName = some name ∧ ∃ observation ∈ entry.observations name,
          entry.prepare observation = .ok candidate := by
  rw [entry.load_eq subject]
  cases about : subject.subjectName with
  | none => exact Or.inr ⟨_, rfl, by simp⟩
  | some name =>
    cases covered : entry.covers subject with
    | false => exact Or.inr ⟨_, rfl, by simp⟩
    | true =>
      simp only [if_true, lookup]
      have seen : entry.observations name = match entry.raw (.installedName name) with
          | .ok result => result.observations
          | .error _ => [] := rfl
      cases raw : entry.raw (.installedName name) with
      | error cause =>
        refine Or.inl ⟨cause, rfl, absences _ cause raw, fun other same => ?_⟩
        obtain rfl := Option.some.inj same
        rw [seen, raw]
      | ok result =>
        replace seen : entry.observations name = result.observations := by rw [seen, raw]
        obtain ⟨prepared, accepted⟩ : ∃ prepared,
            result.observations.mapM entry.prepare = .ok prepared := by
          refine exists_mapM_eq_ok fun observation member => ?_
          rw [← seen] at member
          obtain ⟨candidate, accepted, -⟩ :=
            entry.prepare_prepared (registered name observation member)
          exact ⟨candidate, accepted⟩
        refine Or.inr ⟨⟨prepared.filter (fun candidate => candidate.isEligibleFor subject),
          result.quarantined⟩, by rw [ok_bind, accepted]; rfl, fun candidate => ?_⟩
        rw [List.mem_filter, mem_of_mapM_eq_ok accepted]
        simp only [true_and, Option.some.injEq, exists_eq_left', seen]
        exact and_comm

end RepositoryCandidateLoader

/-- A direct candidate is eligible for the exact subjects of its identity. -/
theorem DirectGitCandidateLoader.isEligibleFor (loader : DirectGitCandidateLoader)
    {candidate : PreparedCandidate} (member : candidate ∈ loader.candidates)
    (subject : SolverKey) :
    candidate.isEligibleFor subject = (subject.isExact && subject.scopes candidate.identity) := by
  have exposure := loader.exactOnly candidate member
  have unlisted := loader.unlisted candidate member
  have nothing : candidate.applicableOccurrences subject = [] := by
    have available : candidate.availableOccurrences = [] := by
      simp [PreparedCandidate.availableOccurrences, unlisted]
    unfold PreparedCandidate.applicableOccurrences
    rw [available]
    split
    · rfl
    · simp
  unfold PreparedCandidate.isEligibleFor SolverKey.scopes SolverKey.isExact
  cases subject with
  | exact identity =>
    by_cases named : candidate.identity.name = identity.name
    · simp [SolverKey.subjectName, named, exposure]
    · have differs : ¬ identity.name = candidate.identity.name := fun equal => named equal.symm
      simp [SolverKey.subjectName, named, differs]
  | _ => simp [SolverKey.subjectName, exposure, nothing]

namespace CompositeCandidateLoader

/-- What a loader offers a subject; a failed loader offers nothing. -/
def offered (subject : SolverKey) (loader : CandidateLoader) : List PreparedCandidate :=
  match loader subject with
  | .ok result => result.candidates
  | .error _ => []

/-- A loader has candidates or an ordinary absence for a subject. -/
def Settles (subject : SolverKey) (loader : CandidateLoader) : Prop :=
  ∀ cause, loader subject = .error cause → cause.category = .notFound

/-- A composition of loaders without failures adds all their candidates. -/
theorem loadFrom_of_settles {subject : SolverKey} {loaders : List CandidateLoader}
    (settles : ∀ loader ∈ loaders, Settles subject loader) {set final : PreparedCandidateSet}
    (added : (loaders.flatMap (offered subject)).foldlM PreparedCandidateSet.insertCandidate set =
      .ok final) (index : Nat) (quarantined : List QuarantinedCandidate) :
    ∃ reached, loadFrom subject loaders index set quarantined = .ok (final, reached) := by
  induction loaders generalizing set index quarantined with
  | nil =>
    obtain rfl := Except.ok.inj added
    exact ⟨quarantined, rfl⟩
  | cons loader rest ih =>
    have restSettles : ∀ other ∈ rest, Settles subject other :=
      fun other member => settles other (List.mem_cons_of_mem _ member)
    rw [List.flatMap_cons, List.foldlM_append] at added
    obtain ⟨middle, first, added⟩ := bind_eq_ok.mp added
    unfold loadFrom
    cases outcome : loader subject with
    | ok result =>
      have here : result.candidates.foldlM PreparedCandidateSet.insertCandidate set =
          .ok middle := by
        simpa [offered, outcome] using first
      simp only [addCandidates, here]
      exact ih restSettles added (index + 1) _
    | error cause =>
      have absent := settles loader List.mem_cons_self cause outcome
      obtain rfl : set = middle := by simpa [offered, outcome, pure, Except.pure] using first
      simp only [absent, if_true]
      exact ih restSettles added (index + 1) quarantined

end CompositeCandidateLoader

namespace CandidateSources

variable (sources : CandidateSources)

/-- A release that some source observes. -/
def Observed (release : PackageRelease) : Prop :=
  (∃ candidate ∈ sources.direct.candidates, candidate.release = release) ∨
    ∃ entry ∈ sources.entries, ∃ name, ∃ observation ∈ entry.observations name,
      observation.release = release

/-- Raw loaders that fail by absence only and agree on the releases they share. -/
structure Reliable : Prop where
  /-- The only failure is that something is not found. -/
  absences : ∀ entry ∈ sources.entries, ∀ key cause, entry.raw key = .error cause →
    cause.category = .notFound
  /-- Observations of one identity agree. -/
  agree : ∀ left right, sources.Observed left → sources.Observed right →
    Same left.identity right.identity → left.Agrees right

/-- Observations that have a place in their entries. -/
structure Placed : Prop where
  /-- Observed distributions belong to the registry of the entry. -/
  registered : ∀ entry ∈ sources.entries, ∀ name, ∀ observation ∈ entry.observations name,
    ∀ distribution ∈ observation.release.distributions, distribution.registry = entry.registry
  /-- Entries of one repository id record a release with the same facts. -/
  coherent : ∀ left ∈ sources.entries, ∀ right ∈ sources.entries,
    left.repository = right.repository → ∀ name, ∀ first ∈ left.observations name,
    ∀ second ∈ right.observations name, Same first.release.identity second.release.identity →
    left.registry = right.registry ∧ left.rank = right.rank ∧
      first.currentness = second.currentness

/-- A subject sees an identity through a source that covers the subject. -/
def Sees (subject : SolverKey) (identity : ReleaseIdentity) : Prop :=
  subject.scopes identity = true ∧
    ((∃ entry ∈ sources.entries, entry.covers subject = true ∧ entry.Observes identity) ∨
      subject.isExact = true ∧ ∃ candidate ∈ sources.direct.candidates,
        Same candidate.identity identity)

/-- The subjects of a set that see one release see it through the same sources. -/
def OneView (touched : SolverKey → Prop) : Prop :=
  ∀ left right, touched left → touched right → ∀ identity, sources.Sees left identity →
    sources.Sees right identity →
    (∀ entry ∈ sources.entries, entry.Observes identity → entry.covers left = entry.covers right) ∧
    ∀ candidate ∈ sources.direct.candidates, Same candidate.identity identity →
      left.isExact = right.isExact

/-- A candidate that a source offers a subject. -/
def Offers (subject : SolverKey) (candidate : PreparedCandidate) : Prop :=
  candidate.isEligibleFor subject = true ∧ (candidate ∈ sources.direct.candidates ∨
    ∃ entry ∈ sources.entries, entry.covers subject = true ∧
      ∃ name, subject.subjectName = some name ∧ ∃ observation ∈ entry.observations name,
        entry.prepare observation = .ok candidate)

variable {sources}

section Composing

variable (reliable : sources.Reliable) (placed : sources.Placed)
include reliable placed

/-- Every source has candidates or an ordinary absence. -/
theorem settles (subject : SolverKey) :
    ∀ loader ∈ sources.compose.loaders, CompositeCandidateLoader.Settles subject loader := by
  intro loader member cause failed
  rcases List.mem_append.mp member with direct | listed
  · have isDirect : loader = sources.direct.load := by
      split at direct
      · simp at direct
      · exact List.mem_singleton.mp direct
    simp [isDirect, DirectGitCandidateLoader.load] at failed
  · obtain ⟨entry, entryIn, rfl⟩ := List.mem_map.mp listed
    rcases entry.load_of_registered (reliable.absences entry entryIn)
      (placed.registered entry entryIn) with ⟨other, failedWith, absent, -⟩ | ⟨result, loaded, -⟩
    · rw [failed] at failedWith
      obtain rfl := Except.error.inj failedWith
      exact absent
    · rw [failed] at loaded
      simp at loaded

/-- The candidates of all sources are the ones they offer. -/
theorem mem_offered {subject : SolverKey} {candidate : PreparedCandidate} :
    candidate ∈ sources.compose.loaders.flatMap (CompositeCandidateLoader.offered subject) ↔
      sources.Offers subject candidate := by
  have direct : candidate ∈ (if sources.direct.candidates.isEmpty then []
      else [sources.direct.load]).flatMap (CompositeCandidateLoader.offered subject) ↔
      candidate.isEligibleFor subject = true ∧ candidate ∈ sources.direct.candidates := by
    split
    · next empty => simp [List.isEmpty_iff.mp empty]
    · simp [CompositeCandidateLoader.offered, DirectGitCandidateLoader.load, and_comm]
  have listed : ∀ entry ∈ sources.entries,
      (candidate ∈ CompositeCandidateLoader.offered subject entry.load ↔
        candidate.isEligibleFor subject = true ∧ entry.covers subject = true ∧
          ∃ name, subject.subjectName = some name ∧ ∃ observation ∈ entry.observations name,
            entry.prepare observation = .ok candidate) := by
    intro entry entryIn
    unfold CompositeCandidateLoader.offered
    rcases entry.load_of_registered (reliable.absences entry entryIn)
      (placed.registered entry entryIn) with ⟨cause, failed, -, nothing⟩ | ⟨result, loaded, offers⟩
    · rw [failed]
      constructor
      · intro member
        simp at member
      · rintro ⟨-, -, name, about, observation, observationIn, -⟩
        rw [nothing name about] at observationIn
        simp at observationIn
    · rw [loaded]
      dsimp only
      rw [offers]
      exact and_left_comm
  unfold compose Offers
  rw [List.flatMap_append, List.mem_append, direct, List.flatMap_map, List.mem_flatMap,
    and_or_left]
  refine or_congr Iff.rfl ?_
  constructor
  · rintro ⟨entry, entryIn, member⟩
    obtain ⟨eligible, held⟩ := (listed entry entryIn).mp member
    exact ⟨eligible, entry, entryIn, held⟩
  · rintro ⟨eligible, entry, entryIn, held⟩
    exact ⟨entry, entryIn, (listed entry entryIn).mpr ⟨eligible, held⟩⟩

omit reliable in
/-- An offered candidate is seen through the source that offers it. -/
theorem Offers.sees {subject : SolverKey} {candidate : PreparedCandidate}
    (offers : sources.Offers subject candidate) : sources.Sees subject candidate.identity := by
  obtain ⟨eligible, direct | ⟨entry, entryIn, covered, name, about, observation, observationIn,
    made⟩⟩ := offers
  · rw [sources.direct.isEligibleFor direct, Bool.and_eq_true] at eligible
    exact ⟨eligible.2, Or.inr ⟨eligible.1, candidate, direct, Same.refl _⟩⟩
  · obtain ⟨prepared, accepted, isPrepared⟩ := entry.prepare_prepared
      (placed.registered entry entryIn name observation observationIn)
    obtain rfl := Except.ok.inj (accepted.symm.trans made)
    rw [isPrepared.isEligibleFor covered] at eligible
    have named : name = prepared.identity.name :=
      Option.some.inj (about.symm.trans (SolverKey.subjectName_of_scopes eligible))
    refine ⟨eligible, Or.inl ⟨entry, entryIn, covered, observation, named ▸ observationIn, ?_⟩⟩
    rw [PreparedCandidate.identity, isPrepared.release]
    exact Same.refl _

omit reliable in
/-- A candidate offered to one subject of a set with one view is offered to every subject of the set
that sees its identity. -/
theorem Offers.transfer {touched : SolverKey → Prop} (oneView : sources.OneView touched)
    {left right : SolverKey} (leftIn : touched left) (rightIn : touched right)
    {candidate : PreparedCandidate} (offers : sources.Offers left candidate)
    (sees : sources.Sees right candidate.identity) : sources.Offers right candidate := by
  obtain ⟨covers, exactness⟩ :=
    oneView left right leftIn rightIn candidate.identity (offers.sees placed) sees
  obtain ⟨eligible, direct | ⟨entry, entryIn, covered, name, about, observation, observationIn,
    made⟩⟩ := offers
  · refine ⟨?_, Or.inl direct⟩
    rw [sources.direct.isEligibleFor direct, Bool.and_eq_true] at eligible ⊢
    exact ⟨(exactness candidate direct (Same.refl _)) ▸ eligible.1, sees.1⟩
  · obtain ⟨prepared, accepted, isPrepared⟩ := entry.prepare_prepared
      (placed.registered entry entryIn name observation observationIn)
    obtain rfl := Except.ok.inj (accepted.symm.trans made)
    rw [isPrepared.isEligibleFor covered] at eligible
    obtain rfl : name = prepared.identity.name :=
      Option.some.inj (about.symm.trans (SolverKey.subjectName_of_scopes eligible))
    have observes : entry.Observes prepared.identity := by
      refine ⟨observation, observationIn, ?_⟩
      rw [PreparedCandidate.identity, isPrepared.release]
      exact Same.refl _
    have coveredRight : entry.covers right = true := covers entry entryIn observes ▸ covered
    refine ⟨by rw [isPrepared.isEligibleFor coveredRight]; exact sees.1, Or.inr
      ⟨entry, entryIn, coveredRight, _, SolverKey.subjectName_of_scopes sees.1, observation, observationIn, made⟩⟩

/-- Candidates of one identity that are offered to one subject are compatible. -/
theorem Offers.compatible {subject : SolverKey} {left right : PreparedCandidate}
    (leftOffers : sources.Offers subject left) (rightOffers : sources.Offers subject right)
    (same : Same left.identity right.identity) : left.Compatible right := by
  -- An offered candidate is an observed release whose occurrences are in its entry.
  have origin : ∀ {candidate : PreparedCandidate}, sources.Offers subject candidate →
      sources.Observed candidate.release ∧ ∀ occurrence ∈ candidate.occurrences,
        ∃ entry ∈ sources.entries, ∃ name, subject.subjectName = some name ∧
          ∃ observation ∈ entry.observations name, observation.release = candidate.release ∧
          occurrence.repository = entry.repository ∧ occurrence.registry = entry.registry ∧
          occurrence.availability = .available ∧
          occurrence.currentness = observation.currentness ∧ occurrence.rank = entry.rank := by
    rintro candidate ⟨-, direct | ⟨entry, entryIn, -, name, about, observation, observationIn,
      made⟩⟩
    · refine ⟨Or.inl ⟨candidate, direct, rfl⟩, fun occurrence member => ?_⟩
      rw [sources.direct.unlisted candidate direct] at member
      simp at member
    · obtain ⟨prepared, accepted, isPrepared⟩ := entry.prepare_prepared
        (placed.registered entry entryIn name observation observationIn)
      obtain rfl := Except.ok.inj (accepted.symm.trans made)
      exact ⟨Or.inr ⟨entry, entryIn, name, observation, observationIn, isPrepared.release.symm⟩,
        fun occurrence member => ⟨entry, entryIn, name, about, observation, observationIn,
          isPrepared.release.symm, isPrepared.occurrences occurrence member⟩⟩
  obtain ⟨leftObserved, leftPlaced⟩ := origin leftOffers
  obtain ⟨rightObserved, rightPlaced⟩ := origin rightOffers
  have agrees := reliable.agree left.release right.release leftObserved rightObserved same
  refine ⟨agrees.version, agrees.metadata, ?_, agrees.declaredDependencies, ?_⟩
  · intro first second known other
    rw [agrees.publication, other] at known
    exact (Option.some.inj known).symm
  · intro first firstIn second secondIn repositories
    obtain ⟨one, oneIn, name, about, observation, observationIn, releaseIs, repository, registry,
      availability, currentness, rank⟩ := leftPlaced first firstIn
    obtain ⟨two, twoIn, name', about', observation', observationIn', releaseIs', repository',
      registry', availability', currentness', rank'⟩ := rightPlaced second secondIn
    obtain rfl := Option.some.inj (about.symm.trans about')
    have sameEntry : one.repository = two.repository := by
      rw [← repository, repositories, repository']
    obtain ⟨registries, ranks, currentnesses⟩ := placed.coherent one oneIn two twoIn sameEntry name
      observation observationIn observation' observationIn' (by rw [releaseIs, releaseIs']; exact same)
    refine RepositoryOccurrence.sameFacts_iff.mpr ⟨repositories, ?_, ?_, ?_, ?_⟩
    · rw [registry, registries, registry']
    · rw [availability, availability']
    · rw [currentness, currentnesses, currentness']
    · rw [rank, ranks, rank']

/-- The composition loads every subject: it holds the unions of what the sources offer. -/
theorem compose_load (subject : SolverKey) : ∃ set quarantined,
    sources.compose.load subject = .ok ⟨set.values, quarantined⟩ ∧
      PreparedCandidateSet.Holds set
        (sources.compose.loaders.flatMap (CompositeCandidateLoader.offered subject)) := by
  obtain ⟨set, added⟩ := PreparedCandidateSet.fromCandidates_isOk.mpr
    (fun left leftIn right rightIn same =>
      Offers.compatible reliable placed ((mem_offered reliable placed).mp leftIn)
        ((mem_offered reliable placed).mp rightIn) same)
  obtain ⟨quarantined, reached⟩ := CompositeCandidateLoader.loadFrom_of_settles
    (settles reliable placed subject) added 0 []
  refine ⟨set, quarantined, ?_, PreparedCandidateSet.fromCandidates_holds added⟩
  rw [CompositeCandidateLoader.load, reached]
  rfl

omit reliable placed in
/-- What a subject sees does not depend on the spelling of the identity. -/
theorem Sees.congr {subject : SolverKey} {left right : ReleaseIdentity} (same : Same left right)
    (sees : sources.Sees subject left) : sources.Sees subject right := by
  obtain ⟨within, source⟩ := sees
  refine ⟨by rw [← subject.scopes_congr same]; exact within, ?_⟩
  rcases source with ⟨entry, entryIn, covered, observation, observationIn, observed⟩ |
    ⟨exactly, candidate, direct, observed⟩
  · refine Or.inl ⟨entry, entryIn, covered, observation, ?_, observed.trans same⟩
    rw [← (ReleaseIdentity.same_iff.mp same).1]
    exact observationIn
  · exact Or.inr ⟨exactly, candidate, direct, observed.trans same⟩

/-- What a provider shows over a composition are the unions of what the sources offer. -/
theorem shows_of_compose {provider : Provider} (composed : provider.loader = sources.compose.load)
    (subject : SolverKey) : ∃ visible, provider.Shows subject visible ∧
      ∀ candidate ∈ visible, candidate.Summarizes (fun other =>
        sources.Offers subject other ∧ Same other.identity candidate.identity) := by
  obtain ⟨set, quarantined, loaded, holds⟩ := compose_load reliable placed subject
  obtain ⟨unique, collected, within, -⟩ := @uniqueCandidates_of_agreeing set.values (by
    intro left leftIn right rightIn same
    have found := holds.get?_of_mem leftIn
    rw [set.get?_congr same, holds.get?_of_mem rightIn] at found
    rw [Option.some.inj found]
    exact PreparedCandidate.SameFacts.refl _)
  refine ⟨_, ⟨_, by rw [composed]; exact loaded, by
    rw [Provider.visibleCandidates, collected]; rfl⟩, fun candidate member => ?_⟩
  have stored := holds.get?_of_mem
    (within candidate (Sorting.mem_sortBy.mp (List.mem_filter.mp member).1))
  refine (holds.stored _ _ stored).congr fun other => ?_
  rw [mem_offered reliable placed]

/-- Subjects with one view load without conflicts. -/
theorem loadable_of_oneView {provider : Provider}
    (composed : provider.loader = sources.compose.load) {touched : SolverKey → Prop}
    (oneView : sources.OneView touched) : provider.Loadable touched := by
  constructor
  · intro subject _
    obtain ⟨visible, shows, -⟩ := shows_of_compose reliable placed composed subject
    exact ⟨visible, shows⟩
  · intro left right leftVisible rightVisible leftIn rightIn leftShows rightShows candidate member
      other otherIn same
    obtain ⟨leftShown, leftAlso, leftUnions⟩ := shows_of_compose reliable placed composed left
    obtain ⟨rightShown, rightAlso, rightUnions⟩ := shows_of_compose reliable placed composed right
    obtain rfl := leftShows.unique leftAlso
    obtain rfl := rightShows.unique rightAlso
    have leftUnion := leftUnions candidate member
    have rightUnion := rightUnions other otherIn
    -- Both subjects see the identity, so they are offered the same observations of it.
    have leftSees : sources.Sees left candidate.identity := by
      obtain ⟨observed, offers, sameObserved⟩ := leftUnion.inhabited
      exact (offers.sees placed).congr sameObserved
    have rightSees : sources.Sees right other.identity := by
      obtain ⟨observed, offers, sameObserved⟩ := rightUnion.inhabited
      exact (offers.sees placed).congr sameObserved
    refine leftUnion.sameFacts (rightUnion.congr fun observed => ?_)
    constructor
    · rintro ⟨offers, sameOther⟩
      have sameCandidate := sameOther.trans same.symm
      exact ⟨offers.transfer placed oneView rightIn leftIn (leftSees.congr sameCandidate.symm),
        sameCandidate⟩
    · rintro ⟨offers, sameCandidate⟩
      have sameOther := sameCandidate.trans same
      exact ⟨offers.transfer placed oneView leftIn rightIn (rightSees.congr sameOther.symm),
        sameOther⟩

end Composing

end CandidateSources

namespace Provider

variable (provider : Provider)

/-- Loading subjects of a set without conflicts one after another succeeds, and an identity has one id
in all of them. -/
theorem loaded_all {touched : SolverKey → Prop} (loadable : provider.Loadable touched)
    {subjects : List SolverKey} (within : ∀ subject ∈ subjects, touched subject) :
    ∃ loaded state, subjects.mapM provider.loaded .initial = (.ok loaded, state) ∧
      loaded.length = subjects.length ∧
      ∀ left ∈ loaded, ∀ right ∈ loaded, ∀ first ∈ left.candidates, ∀ second ∈ right.candidates,
        (Same first.2.identity second.2.identity ↔ first.1 = second.1) := by
  obtain ⟨loaded, state, returned, healthy⟩ :=
    (Succeeds.mapM fun subject member =>
      (loaded_succeeds loadable (within subject member)).weaken fun _ _ held => held.1)
      .initial (provider.initial_healthy touched)
  have ensured := (Ensures.mapM ProviderState.view_monotone provider.loaded_ensures subjects)
    .initial provider.initial_wellFormed
  rw [returned] at ensured
  obtain ⟨-, wellFormed, established⟩ := ensured
  have views := established loaded rfl
  refine ⟨loaded, state, returned, views.length_eq.symm, ?_⟩
  intro left leftIn right rightIn first firstIn second secondIn
  obtain ⟨leftIndex, leftBound, rfl⟩ := List.getElem_of_mem leftIn
  obtain ⟨rightIndex, rightBound, rfl⟩ := List.getElem_of_mem rightIn
  have leftView := views.get (by rw [views.length_eq]; exact leftBound) leftBound
  have rightView := views.get (by rw [views.length_eq]; exact rightBound) rightBound
  have leftInterned := view_interned wellFormed leftView firstIn
  have rightInterned := view_interned wellFormed rightView secondIn
  constructor
  · intro same
    have found := leftInterned.1
    rw [state.interner.byIdentity.get?_congr same, rightInterned.1] at found
    exact (Option.some.inj found).symm
  · intro equal
    rw [equal] at leftInterned
    exact (leftInterned.sameFacts rightInterned).identity

end Provider

/-! ### A mirrored release -/

namespace Small

/-- A raw loader that observes one release of one package. -/
def raw : RawCandidateLoader
  | .installedName name =>
    if name = alpha then .ok ⟨[⟨release alpha newer [], .current⟩], []⟩
    else .error ⟨.notFound, "package is absent"⟩
  | _ => .error ⟨.notFound, "package is absent"⟩

/-- A repository entry over the raw loader. -/
def entry (repository : RepositoryId) (rank : Nat) : RepositoryCandidateLoader :=
  ⟨raw, repository, registry, ⟨rank⟩, none⟩

/-- A repository and its mirror. -/
def sources : CandidateSources :=
  ⟨⟨[], by simp, by simp⟩, [entry repository 0, entry mirror 1]⟩

/-- A provider over the repository and its mirror. -/
def composed (roots : List PackageRequirement) : Provider :=
  { provider [] roots none with loader := sources.compose.load }

/-- Every entry observes the one release. -/
theorem entry_of_mem {found : RepositoryCandidateLoader} (member : found ∈ sources.entries) :
    found = entry repository 0 ∨ found = entry mirror 1 := by
  simpa [sources] using member

/-- The observations of an entry are observations of the one release. -/
theorem observations_entry {repository : RepositoryId} {rank : Nat} {name : PackageName}
    {observation : RawCandidateObservation}
    (member : observation ∈ (entry repository rank).observations name) :
    observation = ⟨release alpha newer [], .current⟩ := by
  simp only [RepositoryCandidateLoader.observations, entry, raw] at member
  split at member
  · next result found =>
    split at found
    · obtain rfl := Except.ok.inj found
      simpa using member
    · simp at found
  · simp at member

/-- The sources are reliable. -/
theorem sources_reliable : sources.Reliable := by
  constructor
  · intro found member key cause failed
    have isRaw : found.raw = raw := by
      rcases entry_of_mem member with rfl | rfl <;> rfl
    rw [isRaw] at failed
    unfold raw at failed
    split at failed
    · split at failed
      · simp at failed
      · obtain rfl := Except.error.inj failed
        rfl
    · obtain rfl := Except.error.inj failed
      rfl
  · have only : ∀ found, sources.Observed found → found = release alpha newer [] := by
      rintro found (⟨candidate, member, -⟩ | ⟨other, member, name, observation, observed, rfl⟩)
      · simp [sources] at member
      · rcases entry_of_mem member with rfl | rfl <;> rw [observations_entry observed]
    intro left right leftObserved rightObserved _
    rw [only left leftObserved, only right rightObserved]
    exact ⟨Same.refl _, rfl, rfl, Same.refl _⟩

/-- The sources are placed. -/
theorem sources_placed : sources.Placed := by
  constructor
  · intro found member name observation observed distribution distributionIn
    have nothing : observation.release.distributions = [] := by
      rcases entry_of_mem member with rfl | rfl <;> rw [observations_entry observed] <;> rfl
    rw [nothing] at distributionIn
    simp at distributionIn
  · intro left leftIn right rightIn same name first firstIn second secondIn _
    have current : ∀ found ∈ sources.entries, ∀ observation ∈ found.observations name,
        observation.currentness = .current := by
      intro found member observation observed
      rcases entry_of_mem member with rfl | rfl <;> rw [observations_entry observed]
    have apart : (entry repository 0).repository ≠ (entry mirror 1).repository := by decide
    rw [current left leftIn first firstIn, current right rightIn second secondIn]
    rcases entry_of_mem leftIn with rfl | rfl <;> rcases entry_of_mem rightIn with rfl | rfl
    · exact ⟨rfl, rfl, rfl⟩
    · exact absurd same apart
    · exact absurd same.symm apart
    · exact ⟨rfl, rfl, rfl⟩

/-- The requirement on the mirrored package through the repository. -/
def qualified : PackageRequirement :=
  ⟨alpha, .repository repository, .unconstrained, namesPackage_repository repository alpha⟩

/-- A solver that asks for the root's dependencies again and again. -/
def asker : PubGrub := ⟨fun _ => .ask (.getDependencies .root .root), fun _ => ""⟩

/-- Whether a run fails with the given load failure. -/
def failsWith (provider : Provider) (pubgrub : PubGrub) (fuel : Nat)
    (cause : CandidateLoadError) : Bool :=
  match provider.solve pubgrub fuel with
  | some (.error (.candidateLoad _ found)) => decide (found = cause)
  | _ => false

/-- The selection of the mirrored package. -/
def mirroredSelection : List (PackageId × SolverVersion) :=
  [(.root, .root), (.subject .r, .r newer), (.subject (.installedName alpha), first),
    (.occupancy alpha, first)]

/-- A subject shows the mirrored package without dependencies and quarantined versions. -/
def clean (provider : Provider) (subject : SolverKey) : Bool :=
  match provider.loader subject with
  | .ok result => result.quarantined.isEmpty &&
      (match provider.visibleCandidates subject result.candidates with
        | .ok visible => visible.all (fun candidate =>
            candidate.release.declaredDependencies.isEmpty)
        | .error _ => false)
  | .error _ => false

end Small

namespace Provider

end Provider

end Rsolve
