import Rsolve.Core.Candidates

/-!
# Merging observations

Two observations of one identity merge exactly when they agree on the release and on the facts of
every repository they share. What they merge into is determined by the set of observations, so a
union of candidates does not depend on the order in which they arrive.
-/
open Keyed Checked

namespace Rsolve

namespace RepositoryOccurrence

/-- Occurrences have the same facts when all fields but the distributions agree. -/
theorem sameFacts_iff {left right : RepositoryOccurrence} : left.sameFacts right = true ↔
    left.repository = right.repository ∧ left.registry = right.registry ∧
      left.availability = right.availability ∧ left.currentness = right.currentness ∧
      left.rank = right.rank := by
  simp only [sameFacts, Bool.and_eq_true, beq_iff_eq, and_assoc]

/-- Having the same facts is symmetric. -/
theorem sameFacts_symm {left right : RepositoryOccurrence} (same : left.sameFacts right = true) :
    right.sameFacts left = true := by
  obtain ⟨repository, registry, availability, currentness, rank⟩ := sameFacts_iff.mp same
  exact sameFacts_iff.mpr ⟨repository.symm, registry.symm, availability.symm, currentness.symm,
    rank.symm⟩

/-- Having the same facts is transitive. -/
theorem sameFacts_trans {first second third : RepositoryOccurrence}
    (left : first.sameFacts second = true) (right : second.sameFacts third = true) :
    first.sameFacts third = true := by
  obtain ⟨repository, registry, availability, currentness, rank⟩ := sameFacts_iff.mp left
  obtain ⟨repository', registry', availability', currentness', rank'⟩ := sameFacts_iff.mp right
  exact sameFacts_iff.mpr ⟨repository.trans repository', registry.trans registry',
    availability.trans availability', currentness.trans currentness', rank.trans rank'⟩

end RepositoryOccurrence

/-- The occurrences of one repository agree on its facts. -/
def Coherent (occurrences : List RepositoryOccurrence) : Prop :=
  ∀ left ∈ occurrences, ∀ right ∈ occurrences, left.repository = right.repository →
    left.sameFacts right = true

/-- What the groups of a list of occurrences are: they have the facts of occurrences of the list, every
occurrence belongs to one, and their distributions are those of their occurrences. -/
structure Groups (occurrences groups : List RepositoryOccurrence) : Prop where
  /-- Every group has the facts of an occurrence. -/
  drawn : ∀ group ∈ groups, ∃ occurrence ∈ occurrences, occurrence.sameFacts group = true
  /-- Every occurrence is part of a group. -/
  holds : ∀ occurrence ∈ occurrences, ∃ group ∈ groups, occurrence.sameFacts group = true ∧
    ∀ distribution ∈ occurrence.distributions, distribution ∈ group.distributions
  /-- The distributions of a group are distributions of its occurrences. -/
  observed : ∀ group ∈ groups, ∀ distribution ∈ group.distributions, ∃ occurrence ∈ occurrences,
    occurrence.repository = group.repository ∧ distribution ∈ occurrence.distributions

/-- Merging two occurrences of one repository groups them. -/
theorem mergeDistributions_groups {existing occurrence : RepositoryOccurrence}
    (same : existing.sameFacts occurrence = true) :
    Groups [existing, occurrence] [existing.mergeDistributions occurrence same] := by
  have facts : existing.sameFacts (existing.mergeDistributions occurrence same) = true :=
    existing.sameFacts_self
  have repositories := (RepositoryOccurrence.sameFacts_iff.mp same).1
  have merged : ∀ distribution,
      distribution ∈ (existing.mergeDistributions occurrence same).distributions ↔
        distribution ∈ existing.distributions ∨ distribution ∈ occurrence.distributions := by
    simp [RepositoryOccurrence.mergeDistributions]
  refine ⟨?_, ?_, ?_⟩
  · intro group member
    obtain rfl := List.mem_singleton.mp member
    exact ⟨existing, by simp, facts⟩
  · intro other member
    refine ⟨_, List.mem_singleton_self _, ?_⟩
    rcases List.mem_cons.mp member with rfl | member
    · exact ⟨facts, fun distribution found => (merged distribution).mpr (Or.inl found)⟩
    · obtain rfl := List.mem_singleton.mp member
      exact ⟨RepositoryOccurrence.sameFacts_trans (RepositoryOccurrence.sameFacts_symm same) facts,
        fun distribution found => (merged distribution).mpr (Or.inr found)⟩
  · intro group member distribution found
    obtain rfl := List.mem_singleton.mp member
    rcases (merged distribution).mp found with old | new
    · exact ⟨existing, by simp, rfl, old⟩
    · exact ⟨occurrence, by simp, repositories.symm, new⟩

/-- Grouping groups of some occurrences groups the occurrences. -/
theorem Groups.trans {first second third : List RepositoryOccurrence} (left : Groups first second)
    (right : Groups second third) : Groups first third := by
  refine ⟨?_, ?_, ?_⟩
  · intro group member
    obtain ⟨middle, middleIn, facts⟩ := right.drawn group member
    obtain ⟨occurrence, occurrenceIn, earlier⟩ := left.drawn middle middleIn
    exact ⟨occurrence, occurrenceIn, RepositoryOccurrence.sameFacts_trans earlier facts⟩
  · intro occurrence member
    obtain ⟨middle, middleIn, earlier, kept⟩ := left.holds occurrence member
    obtain ⟨group, groupIn, facts, held⟩ := right.holds middle middleIn
    exact ⟨group, groupIn, RepositoryOccurrence.sameFacts_trans earlier facts,
      fun distribution found => held distribution (kept distribution found)⟩
  · intro group member distribution found
    obtain ⟨middle, middleIn, repositories, kept⟩ := right.observed group member distribution found
    obtain ⟨occurrence, occurrenceIn, earlier, held⟩ :=
      left.observed middle middleIn distribution kept
    exact ⟨occurrence, occurrenceIn, earlier.trans repositories, held⟩

/-- Grouping lists side by side groups their concatenation. -/
theorem Groups.append {first second third fourth : List RepositoryOccurrence}
    (left : Groups first second) (right : Groups third fourth) :
    Groups (first ++ third) (second ++ fourth) := by
  refine ⟨?_, ?_, ?_⟩
  · intro group member
    rcases List.mem_append.mp member with inLeft | inRight
    · obtain ⟨occurrence, occurrenceIn, facts⟩ := left.drawn group inLeft
      exact ⟨occurrence, List.mem_append_left _ occurrenceIn, facts⟩
    · obtain ⟨occurrence, occurrenceIn, facts⟩ := right.drawn group inRight
      exact ⟨occurrence, List.mem_append_right _ occurrenceIn, facts⟩
  · intro occurrence member
    rcases List.mem_append.mp member with inLeft | inRight
    · obtain ⟨group, groupIn, held⟩ := left.holds occurrence inLeft
      exact ⟨group, List.mem_append_left _ groupIn, held⟩
    · obtain ⟨group, groupIn, held⟩ := right.holds occurrence inRight
      exact ⟨group, List.mem_append_right _ groupIn, held⟩
  · intro group member distribution found
    rcases List.mem_append.mp member with inLeft | inRight
    · obtain ⟨occurrence, occurrenceIn, held⟩ := left.observed group inLeft distribution found
      exact ⟨occurrence, List.mem_append_left _ occurrenceIn, held⟩
    · obtain ⟨occurrence, occurrenceIn, held⟩ := right.observed group inRight distribution found
      exact ⟨occurrence, List.mem_append_right _ occurrenceIn, held⟩

/-- Occurrences are groups of a list with the same members. -/
theorem Groups.of_mem {occurrences groups : List RepositoryOccurrence}
    (members : ∀ occurrence, occurrence ∈ groups ↔ occurrence ∈ occurrences) :
    Groups occurrences groups :=
  ⟨fun group member => ⟨group, (members group).mp member, group.sameFacts_self⟩,
    fun occurrence member => ⟨occurrence, (members occurrence).mpr member,
      occurrence.sameFacts_self, fun _ found => found⟩,
    fun group member _ found => ⟨group, (members group).mp member, rfl, found⟩⟩

/-- Occurrences group themselves. -/
theorem Groups.refl (occurrences : List RepositoryOccurrence) : Groups occurrences occurrences :=
  Groups.of_mem fun _ => Iff.rfl

/-- The grouping loop groups what it is given. -/
theorem groupFrom_groups {existing : RepositoryOccurrence}
    {rest groups : List RepositoryOccurrence} (grouped : groupFrom existing rest = .ok groups) :
    Groups (existing :: rest) groups := by
  induction rest generalizing existing groups with
  | nil =>
    obtain rfl : [existing] = groups := by simpa [groupFrom] using grouped
    exact Groups.refl _
  | cons occurrence rest ih =>
    simp only [groupFrom, checkRegistries_ok, ok_bind] at grouped
    split at grouped
    · split at grouped
      · next same =>
        have both := (mergeDistributions_groups same).append (Groups.refl rest)
        exact both.trans (ih grouped)
      · simp at grouped
    · obtain ⟨later, laterGrouped, finished⟩ := bind_eq_ok.mp grouped
      obtain rfl : existing :: later = groups := by simpa [pure, Except.pure] using finished
      exact (Groups.refl [existing]).append (ih laterGrouped)

/-- Grouping coherent occurrences succeeds. -/
theorem groupFrom_of_coherent {existing : RepositoryOccurrence} {rest : List RepositoryOccurrence}
    (coherent : Coherent (existing :: rest)) : ∃ groups, groupFrom existing rest = .ok groups := by
  induction rest generalizing existing with
  | nil => exact ⟨[existing], rfl⟩
  | cons occurrence rest ih =>
    simp only [groupFrom, checkRegistries_ok, ok_bind]
    have restCoherent : ∀ first, first.sameFacts existing = true → Coherent (first :: rest) := by
      intro first facts
      have repositories := (RepositoryOccurrence.sameFacts_iff.mp facts).1
      have others : ∀ other ∈ rest, first.repository = other.repository →
          first.sameFacts other = true := fun other member same =>
        RepositoryOccurrence.sameFacts_trans facts
          (coherent existing (by simp) other (by simp [member]) (repositories.symm.trans same))
      intro left leftIn right rightIn same
      rcases List.mem_cons.mp leftIn with rfl | leftRest <;>
        rcases List.mem_cons.mp rightIn with rfl | rightRest
      · exact RepositoryOccurrence.sameFacts_self _
      · exact others right rightRest same
      · exact RepositoryOccurrence.sameFacts_symm (others left leftRest same.symm)
      · exact coherent left (by simp [leftRest]) right (by simp [rightRest]) same
    by_cases sameRepository : existing.repository = occurrence.repository
    · have same := coherent existing (by simp) occurrence (by simp) sameRepository
      rw [if_pos sameRepository, dif_pos same]
      exact ih (restCoherent _ existing.sameFacts_self)
    · rw [if_neg sameRepository]
      obtain ⟨groups, grouped⟩ := ih fun left leftIn right rightIn =>
        coherent left (List.mem_cons_of_mem _ leftIn) right (List.mem_cons_of_mem _ rightIn)
      rw [grouped]
      exact ⟨existing :: groups, rfl⟩

/-- Stored occurrences are the groups of what is stored. -/
theorem normalizeOccurrences_groups {occurrences normalized : List RepositoryOccurrence}
    (accepted : normalizeOccurrences occurrences = .ok normalized) :
    Groups occurrences normalized := by
  obtain ⟨groups, grouped, finished⟩ := bind_eq_ok.mp accepted
  obtain rfl : Sorting.sortBy RepositoryOccurrence.compareByRank groups = normalized := by
    simpa [pure, Except.pure] using finished
  have sorted : Groups occurrences
      (Sorting.sortBy RepositoryOccurrence.compareByRepository occurrences) :=
    Groups.of_mem fun _ => Sorting.mem_sortBy
  have ranked : Groups groups (Sorting.sortBy RepositoryOccurrence.compareByRank groups) :=
    Groups.of_mem fun _ => Sorting.mem_sortBy
  refine (sorted.trans ?_).trans ranked
  generalize Sorting.sortBy RepositoryOccurrence.compareByRepository occurrences = list at grouped
  cases list with
  | nil =>
    obtain rfl : [] = groups := by simpa [groupOccurrences] using grouped
    exact Groups.refl _
  | cons first rest =>
    simp only [groupOccurrences, checkRegistries_ok, ok_bind] at grouped
    exact groupFrom_groups grouped

/-- Occurrences are stored exactly when they are coherent. -/
theorem normalizeOccurrences_isOk {occurrences : List RepositoryOccurrence} :
    (∃ normalized, normalizeOccurrences occurrences = .ok normalized) ↔ Coherent occurrences := by
  constructor
  · rintro ⟨normalized, accepted⟩ left leftIn right rightIn same
    have groups := normalizeOccurrences_groups accepted
    obtain ⟨leftGroup, leftGroupIn, leftFacts, -⟩ := groups.holds left leftIn
    obtain ⟨rightGroup, rightGroupIn, rightFacts, -⟩ := groups.holds right rightIn
    have symmetric : Std.Symm (fun first second : RepositoryOccurrence =>
        first.repository ≠ second.repository) := ⟨fun _ _ differs => differs.symm⟩
    have one : leftGroup = rightGroup := by
      by_contra differs
      refine (normalizeOccurrences_spec accepted).1.forall leftGroupIn rightGroupIn differs ?_
      rw [← (RepositoryOccurrence.sameFacts_iff.mp leftFacts).1, same,
        (RepositoryOccurrence.sameFacts_iff.mp rightFacts).1]
    rw [one] at leftFacts
    exact RepositoryOccurrence.sameFacts_trans leftFacts
      (RepositoryOccurrence.sameFacts_symm rightFacts)
  · intro coherent
    unfold normalizeOccurrences
    have sortedCoherent :
        Coherent (Sorting.sortBy RepositoryOccurrence.compareByRepository occurrences) :=
      fun left leftIn right rightIn => coherent left (Sorting.mem_sortBy.mp leftIn) right
        (Sorting.mem_sortBy.mp rightIn)
    generalize Sorting.sortBy RepositoryOccurrence.compareByRepository occurrences = list
      at sortedCoherent
    cases list with
    | nil => exact ⟨[], rfl⟩
    | cons first rest =>
      obtain ⟨groups, grouped⟩ := groupFrom_of_coherent sortedCoherent
      rw [groupOccurrences, checkRegistries_ok, ok_bind, grouped]
      exact ⟨_, rfl⟩

/-- The publications of two observations merge exactly when they do not name two dates. -/
theorem PackageRelease.mergedPublication_isOk {left right : Option ReleasePublication} :
    (∃ merged, mergedPublication left right = .ok merged) ↔
      ∀ first second, left = some first → right = some second → first = second := by
  cases left <;> cases right <;> simp only [mergedPublication]
  case some.some first second =>
    by_cases agree : first = second
    · simp [agree]
    · simp [agree]
  all_goals simp

/-- A merged publication is one of the two. -/
theorem PackageRelease.mergedPublication_eq_some {left right merged : Option ReleasePublication}
    (accepted : mergedPublication left right = .ok merged) (publication : ReleasePublication) :
    merged = some publication ↔ left = some publication ∨ right = some publication := by
  cases left <;> cases right <;> simp only [mergedPublication] at accepted
  case some.some first second =>
    split at accepted
    · simp at accepted
    · next agree =>
      obtain rfl := Except.ok.inj accepted
      rw [not_not.mp agree]
      simp
  all_goals
    obtain rfl := Except.ok.inj accepted
    simp

/-- What a merge of two releases is, when it succeeds. -/
theorem PackageRelease.mergeConsistent_eq_ok {release incoming merged : PackageRelease}
    (accepted : release.mergeConsistent incoming = .ok merged) :
    Same release.version incoming.version ∧ release.metadata = incoming.metadata ∧
      mergedPublication release.publication incoming.publication = .ok merged.publication ∧
      Same release.declaredDependencies incoming.declaredDependencies ∧
      merged.identity = release.identity ∧ merged.version = release.version ∧
      merged.metadata = release.metadata ∧
      merged.declaredDependencies = release.declaredDependencies ∧
      ∀ distribution, distribution ∈ merged.distributions ↔
        distribution ∈ release.distributions ∨ distribution ∈ incoming.distributions := by
  obtain ⟨_, version, accepted⟩ := bind_eq_ok.mp accepted
  obtain ⟨_, metadata, accepted⟩ := bind_eq_ok.mp accepted
  obtain ⟨publication, published, accepted⟩ := bind_eq_ok.mp accepted
  obtain ⟨_, dependencies, accepted⟩ := bind_eq_ok.mp accepted
  obtain rfl := Except.ok.inj accepted
  refine ⟨ensure_eq_ok.mp version, ensure_eq_ok.mp metadata, published, ensure_eq_ok.mp dependencies,
    rfl, rfl, rfl, rfl, fun distribution => ?_⟩
  rw [mem_canonicalizeDistributions, mem_extendDistributions]

/-- Releases merge when they agree on everything but their distributions and an unknown date. -/
theorem PackageRelease.mergeConsistent_isOk {release incoming : PackageRelease}
    (version : Same release.version incoming.version)
    (metadata : release.metadata = incoming.metadata)
    (publication : ∀ first second, release.publication = some first →
      incoming.publication = some second → first = second)
    (dependencies : Same release.declaredDependencies incoming.declaredDependencies) :
    ∃ merged, release.mergeConsistent incoming = .ok merged := by
  obtain ⟨published, known⟩ := mergedPublication_isOk.mpr publication
  unfold mergeConsistent
  simp only [ensure_of version, ensure_of metadata, ensure_of dependencies, known, ok_bind]
  exact ⟨_, rfl⟩

namespace PreparedCandidate

/-- Two observations agree on everything a merge compares. -/
structure Compatible (left right : PreparedCandidate) : Prop where
  /-- The versions agree. -/
  version : Same left.release.version right.release.version
  /-- The metadata agrees. -/
  metadata : left.release.metadata = right.release.metadata
  /-- Two known publication dates agree. -/
  publication : ∀ first second, left.release.publication = some first →
    right.release.publication = some second → first = second
  /-- The declared dependencies agree. -/
  declaredDependencies : Same left.release.declaredDependencies right.release.declaredDependencies
  /-- The occurrences of one repository agree on its facts. -/
  occurrences : ∀ first ∈ left.occurrences, ∀ second ∈ right.occurrences,
    first.repository = second.repository → first.sameFacts second = true

/-- A candidate is the union of observations of one identity. -/
structure Summarizes (observed : PreparedCandidate → Prop) (summary : PreparedCandidate) : Prop where
  /-- Something was observed. -/
  inhabited : ∃ candidate, observed candidate
  /-- The identities agree. -/
  identity : ∀ candidate, observed candidate → Same candidate.identity summary.identity
  /-- The versions agree. -/
  version : ∀ candidate, observed candidate →
    Same candidate.release.version summary.release.version
  /-- The metadata agrees. -/
  metadata : ∀ candidate, observed candidate →
    candidate.release.metadata = summary.release.metadata
  /-- The publication is the one that is known. -/
  publication : ∀ publication, summary.release.publication = some publication ↔
    ∃ candidate, observed candidate ∧ candidate.release.publication = some publication
  /-- The declared dependencies agree. -/
  declaredDependencies : ∀ candidate, observed candidate →
    Same candidate.release.declaredDependencies summary.release.declaredDependencies
  /-- The runtime installs it when it installs an observation. -/
  installed : summary.exposure = .runtimeInstalled ↔
    ∃ candidate, observed candidate ∧ candidate.exposure = .runtimeInstalled
  /-- It is visible in repositories only when all observations are. -/
  hidden : summary.exposure = .none ↔ ∀ candidate, observed candidate → candidate.exposure = .none
  /-- The distributions are those of the observations. -/
  distributions : ∀ distribution, distribution ∈ summary.release.distributions ↔
    ∃ candidate, observed candidate ∧ distribution ∈ candidate.release.distributions
  /-- Every occurrence has the facts of an observed one. -/
  drawn : ∀ occurrence ∈ summary.occurrences, ∃ candidate, observed candidate ∧
    ∃ source ∈ candidate.occurrences, source.sameFacts occurrence = true
  /-- Every observed occurrence is part of one. -/
  holds : ∀ candidate, observed candidate → ∀ source ∈ candidate.occurrences,
    ∃ occurrence ∈ summary.occurrences, source.sameFacts occurrence = true ∧
      ∀ distribution ∈ source.distributions, distribution ∈ occurrence.distributions
  /-- The distributions of an occurrence were observed in its repository. -/
  placed : ∀ occurrence ∈ summary.occurrences, ∀ distribution ∈ occurrence.distributions,
    ∃ candidate, observed candidate ∧ ∃ source ∈ candidate.occurrences,
      source.repository = occurrence.repository ∧ distribution ∈ source.distributions

/-- One observation is its own union. -/
theorem summarizes_single (candidate : PreparedCandidate) :
    candidate.Summarizes (fun other => other = candidate) := by
  constructor
  · exact ⟨candidate, rfl⟩
  · rintro _ rfl; exact Same.refl _
  · rintro _ rfl; exact Same.refl _
  · rintro _ rfl; rfl
  · simp
  · rintro _ rfl; exact Same.refl _
  · simp
  · simp
  · simp
  · exact fun occurrence member => ⟨candidate, rfl, occurrence, member, occurrence.sameFacts_self⟩
  · rintro _ rfl source member
    exact ⟨source, member, source.sameFacts_self, fun _ found => found⟩
  · exact fun occurrence member distribution found => ⟨candidate, rfl, occurrence, member, rfl, found⟩

/-- The exposure of a union of two. -/
theorem mergedExposure_eq_none {left right : NonRepositoryExposure} :
    mergedExposure left right = .none ↔ left = .none ∧ right = .none := by
  cases left <;> cases right <;> simp [mergedExposure]

/-- The runtime installs a union of two when it installs one of them. -/
theorem mergedExposure_eq_runtimeInstalled {left right : NonRepositoryExposure} :
    mergedExposure left right = .runtimeInstalled ↔
      left = .runtimeInstalled ∨ right = .runtimeInstalled := by
  cases left <;> cases right <;> simp [mergedExposure]

/-- What a validated candidate is. -/
theorem normalizeAndValidate_eq_ok {release : PackageRelease} {exposure : NonRepositoryExposure}
    {occurrences : List RepositoryOccurrence} {candidate : PreparedCandidate}
    (accepted : normalizeAndValidate release exposure occurrences = .ok candidate) :
    candidate.release = release ∧ candidate.exposure = exposure ∧
      normalizeOccurrences occurrences = .ok candidate.occurrences := by
  unfold normalizeAndValidate at accepted
  split at accepted
  · split at accepted
    · simp at accepted
    · next normalized stored =>
      split at accepted
      · split at accepted
        · simp at accepted
        · split at accepted
          · obtain rfl := Except.ok.inj accepted
            exact ⟨rfl, rfl, stored⟩
          · simp at accepted
      · simp at accepted
  · simp at accepted

/-- A validated candidate of coherent occurrences exists when the release and the occurrences show the
same distributions. -/
theorem normalizeAndValidate_of_coherent {release : PackageRelease}
    {exposure : NonRepositoryExposure} {occurrences : List RepositoryOccurrence}
    (runtime : exposure = .runtimeInstalled → release.isRBasePackage = true)
    (coherent : Coherent occurrences) (exposed : exposure = .none → occurrences ≠ [])
    (projected : ∀ occurrence ∈ occurrences, ∀ distribution ∈ occurrence.distributions,
      distribution ∈ release.distributions)
    (covered : exposure = .none → ∀ distribution ∈ release.distributions,
      ∃ occurrence ∈ occurrences, distribution ∈ occurrence.distributions) :
    ∃ candidate, normalizeAndValidate release exposure occurrences = .ok candidate := by
  obtain ⟨normalized, stored⟩ := normalizeOccurrences_isOk.mpr coherent
  have groups := normalizeOccurrences_groups stored
  have storedExposed : exposure = .none → normalized ≠ [] := by
    intro none empty
    obtain ⟨occurrence, member⟩ := List.exists_mem_of_ne_nil _ (exposed none)
    obtain ⟨group, groupIn, -⟩ := groups.holds occurrence member
    rw [empty] at groupIn
    exact List.not_mem_nil groupIn
  have storedCovered : exposure = .none → ∀ distribution ∈ release.distributions,
      ∃ occurrence ∈ normalized, distribution ∈ occurrence.distributions := by
    intro none distribution member
    obtain ⟨occurrence, occurrenceIn, found⟩ := covered none distribution member
    obtain ⟨group, groupIn, -, held⟩ := groups.holds occurrence occurrenceIn
    exact ⟨group, groupIn, held distribution found⟩
  unfold normalizeAndValidate
  rw [dif_pos runtime]
  split
  · next cause failed => simp [stored] at failed
  · next found accepted =>
    obtain rfl : normalized = found := by simpa [stored] using accepted
    rw [dif_pos storedExposed]
    split
    · next occurrence unprojected =>
      have missing := List.find?_some unprojected
      obtain ⟨distribution, distributionIn, absent⟩ := List.any_eq_true.mp missing
      obtain ⟨source, sourceIn, -, held⟩ := groups.observed occurrence
        (List.mem_of_find?_eq_some unprojected) distribution distributionIn
      have present := projected source sourceIn distribution held
      simp [present] at absent
    · rw [dif_pos storedCovered]
      exact ⟨_, rfl⟩

/-- What a merge of two observations is, when it succeeds. -/
theorem merge_eq_ok {candidate incoming merged : PreparedCandidate} :
    candidate.merge incoming = .ok merged ↔ Same candidate.identity incoming.identity ∧
      ∃ release, candidate.release.mergeConsistent incoming.release = .ok release ∧
        normalizeAndValidate release (mergedExposure candidate.exposure incoming.exposure)
          (candidate.occurrences ++ incoming.occurrences) = .ok merged := by
  unfold merge
  constructor
  · intro accepted
    obtain ⟨_, named, accepted⟩ := bind_eq_ok.mp accepted
    obtain ⟨release, consistent, accepted⟩ := bind_eq_ok.mp accepted
    exact ⟨ensure_eq_ok.mp named, release, mapError_eq_ok.mp consistent, accepted⟩
  · rintro ⟨same, release, consistent, accepted⟩
    rw [ensure_of same, ok_bind, consistent]
    exact accepted

end PreparedCandidate

end Rsolve
