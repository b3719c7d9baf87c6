import Rsolve.Core.Merging

/-!
# Unions of candidates

A union of observations is determined, up to spelling, by the set of observations. Building it one
observation at a time fails exactly when two observations of one identity disagree, so neither the
outcome nor the union depends on the order of arrival.
-/
open Keyed Checked

namespace Rsolve

namespace PreparedCandidate

/-- The stored occurrences of a candidate are strictly ordered. -/
theorem occurrences_strict (candidate : PreparedCandidate) :
    candidate.occurrences.Pairwise (fun left right => left.compareByRank right = .lt) := by
  refine (candidate.ordered.and candidate.distinct).imp ?_
  rintro left right ⟨below, differs⟩
  rcases Ordering.isLE_iff_eq_lt_or_eq_eq.mp below with less | equal
  · exact less
  · exact absurd (RepositoryOccurrence.repository_eq_of_compareByRank equal) differs

/-- A candidate has one occurrence in a repository. -/
theorem occurrence_unique {candidate : PreparedCandidate} {left right : RepositoryOccurrence}
    (leftIn : left ∈ candidate.occurrences) (rightIn : right ∈ candidate.occurrences)
    (same : left.repository = right.repository) : left = right := by
  have symmetric : Std.Symm (fun first second : RepositoryOccurrence =>
      first.repository ≠ second.repository) := ⟨fun _ _ differs => differs.symm⟩
  by_contra differs
  exact candidate.distinct.forall leftIn rightIn differs same

/-- A candidate is compatible with itself. -/
theorem Compatible.refl (candidate : PreparedCandidate) : candidate.Compatible candidate := by
  refine ⟨Same.refl _, rfl, ?_, Same.refl _, ?_⟩
  · intro first second known other
    exact Option.some.inj (known.symm.trans other)
  · intro first firstIn second secondIn same
    rw [occurrence_unique firstIn secondIn same]
    exact second.sameFacts_self

/-- Compatibility is symmetric. -/
theorem Compatible.symm {left right : PreparedCandidate} (compatible : left.Compatible right) :
    right.Compatible left where
  version := compatible.version.symm
  metadata := compatible.metadata.symm
  publication := fun first second known other => (compatible.publication second first other known).symm
  declaredDependencies := compatible.declaredDependencies.symm
  occurrences := fun first firstIn second secondIn same => RepositoryOccurrence.sameFacts_symm
    (compatible.occurrences second secondIn first firstIn same.symm)

/-- Compatible observations have coherent occurrences. -/
theorem Compatible.coherent {left right : PreparedCandidate} (compatible : left.Compatible right) :
    Coherent (left.occurrences ++ right.occurrences) := by
  intro first firstIn second secondIn same
  rcases List.mem_append.mp firstIn with firstLeft | firstRight <;>
    rcases List.mem_append.mp secondIn with secondLeft | secondRight
  · exact (Compatible.refl left).occurrences first firstLeft second secondLeft same
  · exact compatible.occurrences first firstLeft second secondRight same
  · exact compatible.symm.occurrences first firstRight second secondLeft same
  · exact (Compatible.refl right).occurrences first firstRight second secondRight same

/-- Compatible observations of one identity merge. -/
theorem merge_of_compatible {left right : PreparedCandidate}
    (same : Same left.identity right.identity) (compatible : left.Compatible right) :
    ∃ merged, left.merge right = .ok merged := by
  obtain ⟨release, consistent⟩ := PackageRelease.mergeConsistent_isOk compatible.version
    compatible.metadata compatible.publication compatible.declaredDependencies
  obtain ⟨-, -, -, -, identityIs, -, -, -, distributions⟩ :=
    PackageRelease.mergeConsistent_eq_ok consistent
  have provenances : left.release.identity.provenance.isRBasePackage =
      right.release.identity.provenance.isRBasePackage :=
    Provenance.isRBasePackage_congr (ReleaseIdentity.same_iff.mp same).2
  have runtime : mergedExposure left.exposure right.exposure = .runtimeInstalled →
      release.isRBasePackage = true := by
    intro installed
    rw [PackageRelease.isRBasePackage, identityIs]
    rcases mergedExposure_eq_runtimeInstalled.mp installed with isLeft | isRight
    · exact left.runtime isLeft
    · rw [provenances]
      exact right.runtime isRight
  obtain ⟨merged, accepted⟩ := normalizeAndValidate_of_coherent runtime compatible.coherent
    (fun none empty => left.exposed (mergedExposure_eq_none.mp none).1
      (List.append_eq_nil_iff.mp empty).1)
    (by
      intro occurrence member distribution found
      rw [distributions]
      rcases List.mem_append.mp member with isLeft | isRight
      · exact Or.inl (left.projected occurrence isLeft distribution found)
      · exact Or.inr (right.projected occurrence isRight distribution found))
    (by
      intro none distribution member
      obtain ⟨leftNone, rightNone⟩ := mergedExposure_eq_none.mp none
      rcases (distributions distribution).mp member with isLeft | isRight
      · obtain ⟨occurrence, occurrenceIn, found⟩ := left.covered leftNone distribution isLeft
        exact ⟨occurrence, List.mem_append_left _ occurrenceIn, found⟩
      · obtain ⟨occurrence, occurrenceIn, found⟩ := right.covered rightNone distribution isRight
        exact ⟨occurrence, List.mem_append_right _ occurrenceIn, found⟩)
  exact ⟨merged, merge_eq_ok.mpr ⟨same, release, consistent, accepted⟩⟩

/-- A merge is the union of its two observations. -/
theorem merge_summarizes {left right merged : PreparedCandidate}
    (accepted : left.merge right = .ok merged) :
    merged.Summarizes (fun candidate => candidate = left ∨ candidate = right) := by
  obtain ⟨same, release, consistent, validated⟩ := merge_eq_ok.mp accepted
  obtain ⟨releaseIs, exposureIs, stored⟩ := normalizeAndValidate_eq_ok validated
  obtain ⟨versions, metadata, published, dependencies, identityIs, versionIs, metadataIs,
    dependenciesIs, distributions⟩ := PackageRelease.mergeConsistent_eq_ok consistent
  have groups := normalizeOccurrences_groups stored
  constructor
  · exact ⟨left, Or.inl rfl⟩
  · rw [identity, releaseIs, identityIs]
    rintro _ (rfl | rfl)
    · exact Same.refl _
    · exact same.symm
  · rw [releaseIs, versionIs]
    rintro _ (rfl | rfl)
    · exact Same.refl _
    · exact versions.symm
  · rw [releaseIs, metadataIs]
    rintro _ (rfl | rfl)
    · rfl
    · exact metadata.symm
  · intro publication
    rw [releaseIs, PackageRelease.mergedPublication_eq_some published]
    simp
  · rw [releaseIs, dependenciesIs]
    rintro _ (rfl | rfl)
    · exact Same.refl _
    · exact dependencies.symm
  · rw [exposureIs, mergedExposure_eq_runtimeInstalled]
    simp
  · rw [exposureIs, mergedExposure_eq_none]
    simp
  · intro distribution
    rw [releaseIs, distributions]
    simp
  · intro occurrence member
    obtain ⟨source, sourceIn, facts⟩ := groups.drawn occurrence member
    rcases List.mem_append.mp sourceIn with isLeft | isRight
    · exact ⟨left, Or.inl rfl, source, isLeft, facts⟩
    · exact ⟨right, Or.inr rfl, source, isRight, facts⟩
  · rintro _ (rfl | rfl) source sourceIn
    · exact groups.holds source (List.mem_append_left _ sourceIn)
    · exact groups.holds source (List.mem_append_right _ sourceIn)
  · intro occurrence member distribution found
    obtain ⟨source, sourceIn, held⟩ := groups.observed occurrence member distribution found
    rcases List.mem_append.mp sourceIn with isLeft | isRight
    · exact ⟨left, Or.inl rfl, source, isLeft, held⟩
    · exact ⟨right, Or.inr rfl, source, isRight, held⟩

section Summary

variable {observed : PreparedCandidate → Prop} {summary : PreparedCandidate}
  (summarizes : summary.Summarizes observed)
include summarizes

/-- A union of a union and one more observation is the union of all. -/
theorem Summarizes.extend {incoming merged : PreparedCandidate}
    (both : merged.Summarizes (fun candidate => candidate = summary ∨ candidate = incoming)) :
    merged.Summarizes (fun candidate => observed candidate ∨ candidate = incoming) := by
  constructor
  · obtain ⟨candidate, member⟩ := summarizes.inhabited
    exact ⟨candidate, Or.inl member⟩
  · rintro candidate (member | rfl)
    · exact (summarizes.identity candidate member).trans (both.identity summary (Or.inl rfl))
    · exact both.identity candidate (Or.inr rfl)
  · rintro candidate (member | rfl)
    · exact (summarizes.version candidate member).trans (both.version summary (Or.inl rfl))
    · exact both.version candidate (Or.inr rfl)
  · rintro candidate (member | rfl)
    · exact (summarizes.metadata candidate member).trans (both.metadata summary (Or.inl rfl))
    · exact both.metadata candidate (Or.inr rfl)
  · intro publication
    rw [both.publication]
    simp only [or_and_right, exists_or, exists_eq_left, summarizes.publication]
  · rintro candidate (member | rfl)
    · exact (summarizes.declaredDependencies candidate member).trans
        (both.declaredDependencies summary (Or.inl rfl))
    · exact both.declaredDependencies candidate (Or.inr rfl)
  · rw [both.installed]
    simp only [or_and_right, exists_or, exists_eq_left, summarizes.installed]
  · rw [both.hidden]
    simp only [or_imp, forall_and, forall_eq, summarizes.hidden]
  · intro distribution
    rw [both.distributions]
    simp only [or_and_right, exists_or, exists_eq_left, summarizes.distributions]
  · intro occurrence member
    obtain ⟨candidate, rfl | rfl, source, sourceIn, facts⟩ := both.drawn occurrence member
    · obtain ⟨origin, originIn, first, firstIn, earlier⟩ := summarizes.drawn source sourceIn
      exact ⟨origin, Or.inl originIn, first, firstIn,
        RepositoryOccurrence.sameFacts_trans earlier facts⟩
    · exact ⟨candidate, Or.inr rfl, source, sourceIn, facts⟩
  · rintro candidate (member | rfl) source sourceIn
    · obtain ⟨middle, middleIn, earlier, kept⟩ := summarizes.holds candidate member source sourceIn
      obtain ⟨occurrence, occurrenceIn, facts, held⟩ :=
        both.holds summary (Or.inl rfl) middle middleIn
      exact ⟨occurrence, occurrenceIn, RepositoryOccurrence.sameFacts_trans earlier facts,
        fun distribution found => held distribution (kept distribution found)⟩
    · exact both.holds candidate (Or.inr rfl) source sourceIn
  · intro occurrence member distribution found
    obtain ⟨candidate, rfl | rfl, source, sourceIn, repositories, held⟩ :=
      both.placed occurrence member distribution found
    · obtain ⟨origin, originIn, first, firstIn, earlier, kept⟩ :=
        summarizes.placed source sourceIn distribution held
      exact ⟨origin, Or.inl originIn, first, firstIn, earlier.trans repositories, kept⟩
    · exact ⟨candidate, Or.inr rfl, source, sourceIn, repositories, held⟩

/-- An observation that is compatible with every observation is compatible with their union. -/
theorem Summarizes.compatible {incoming : PreparedCandidate}
    (each : ∀ candidate, observed candidate → candidate.Compatible incoming) :
    summary.Compatible incoming := by
  obtain ⟨candidate, member⟩ := summarizes.inhabited
  have compatible := each candidate member
  refine ⟨(summarizes.version candidate member).symm.trans compatible.version,
    (summarizes.metadata candidate member).symm.trans compatible.metadata, ?_,
    (summarizes.declaredDependencies candidate member).symm.trans compatible.declaredDependencies, ?_⟩
  · intro first second known other
    obtain ⟨source, sourceIn, sourceKnown⟩ := (summarizes.publication first).mp known
    exact (each source sourceIn).publication first second sourceKnown other
  · intro first firstIn second secondIn same
    obtain ⟨source, sourceIn, origin, originIn, facts⟩ := summarizes.drawn first firstIn
    have repositories := (RepositoryOccurrence.sameFacts_iff.mp facts).1
    exact RepositoryOccurrence.sameFacts_trans (RepositoryOccurrence.sameFacts_symm facts)
      ((each source sourceIn).occurrences origin originIn second secondIn (repositories.trans same))

/-- Observations with a union are compatible. -/
theorem Summarizes.compatible_of_observed {left right : PreparedCandidate} (leftIn : observed left)
    (rightIn : observed right) : left.Compatible right := by
  refine ⟨(summarizes.version left leftIn).trans (summarizes.version right rightIn).symm,
    (summarizes.metadata left leftIn).trans (summarizes.metadata right rightIn).symm, ?_,
    (summarizes.declaredDependencies left leftIn).trans
      (summarizes.declaredDependencies right rightIn).symm, ?_⟩
  · intro first second known other
    have leftKnown := (summarizes.publication first).mpr ⟨left, leftIn, known⟩
    have rightKnown := (summarizes.publication second).mpr ⟨right, rightIn, other⟩
    exact Option.some.inj (leftKnown.symm.trans rightKnown)
  · intro first firstIn second secondIn same
    obtain ⟨one, oneIn, oneFacts, -⟩ := summarizes.holds left leftIn first firstIn
    obtain ⟨other, otherIn, otherFacts, -⟩ := summarizes.holds right rightIn second secondIn
    have equal : one = other := by
      refine occurrence_unique oneIn otherIn ?_
      rw [← (RepositoryOccurrence.sameFacts_iff.mp oneFacts).1, same,
        (RepositoryOccurrence.sameFacts_iff.mp otherFacts).1]
    rw [equal] at oneFacts
    exact RepositoryOccurrence.sameFacts_trans oneFacts
      (RepositoryOccurrence.sameFacts_symm otherFacts)

/-- An occurrence of one union is an occurrence of every other. -/
theorem Summarizes.mem_occurrences {other : PreparedCandidate} (also : other.Summarizes observed)
    {occurrence : RepositoryOccurrence} (member : occurrence ∈ summary.occurrences) :
    occurrence ∈ other.occurrences := by
  obtain ⟨candidate, candidateIn, source, sourceIn, facts⟩ := summarizes.drawn occurrence member
  obtain ⟨found, foundIn, foundFacts, -⟩ := also.holds candidate candidateIn source sourceIn
  have shared : occurrence.sameFacts found = true := RepositoryOccurrence.sameFacts_trans
    (RepositoryOccurrence.sameFacts_symm facts) foundFacts
  obtain ⟨repositories, registries, availabilities, currentnesses, ranks⟩ :=
    RepositoryOccurrence.sameFacts_iff.mp shared
  -- The distributions of an occurrence are those observed in its repository.
  have within : ∀ {first second : PreparedCandidate}, first.Summarizes observed →
      second.Summarizes observed → ∀ {one two : RepositoryOccurrence}, one ∈ first.occurrences →
      two ∈ second.occurrences → one.repository = two.repository →
      ∀ distribution ∈ one.distributions, distribution ∈ two.distributions := by
    intro first second firstSummary secondSummary one two oneIn twoIn same distribution inOne
    obtain ⟨origin, originIn, start, startIn, placed, held⟩ :=
      firstSummary.placed one oneIn distribution inOne
    obtain ⟨target, targetIn, targetFacts, kept⟩ :=
      secondSummary.holds origin originIn start startIn
    have equal : target = two := by
      refine occurrence_unique targetIn twoIn ?_
      rw [← (RepositoryOccurrence.sameFacts_iff.mp targetFacts).1, placed, same]
    rw [← equal]
    exact kept distribution held
  have distributions : occurrence.distributions = found.distributions :=
    Sorting.strict_ext occurrence.canonical found.canonical fun distribution =>
      ⟨within summarizes also member foundIn repositories distribution,
        within also summarizes foundIn member repositories.symm distribution⟩
  have equal : occurrence = found := by
    cases occurrence
    cases found
    simp_all
  rw [equal]
  exact foundIn

/-- Unions of the same observations have the same facts. -/
theorem Summarizes.sameFacts {other : PreparedCandidate} (also : other.Summarizes observed) :
    summary.SameFacts other := by
  obtain ⟨candidate, member⟩ := summarizes.inhabited
  refine ⟨?_, ?_, ?_, ?_, ?_, ?_, ?_, ?_⟩
  · have installed := summarizes.installed.trans also.installed.symm
    have hidden := summarizes.hidden.trans also.hidden.symm
    cases left : summary.exposure <;> cases right : other.exposure <;> simp_all
  · exact (summarizes.identity candidate member).symm.trans (also.identity candidate member)
  · exact (summarizes.version candidate member).symm.trans (also.version candidate member)
  · exact (summarizes.metadata candidate member).symm.trans (also.metadata candidate member)
  · refine Option.ext fun publication => ?_
    rw [summarizes.publication, also.publication]
  · exact (summarizes.declaredDependencies candidate member).symm.trans
      (also.declaredDependencies candidate member)
  · refine Sorting.strict_ext summary.release.canonical other.release.canonical
      fun distribution => ?_
    rw [summarizes.distributions, also.distributions]
  · exact Sorting.strict_ext summary.occurrences_strict other.occurrences_strict fun occurrence =>
      ⟨summarizes.mem_occurrences also, also.mem_occurrences summarizes⟩

end Summary

/-- A union does not depend on how its observations are described. -/
theorem Summarizes.congr {observed other : PreparedCandidate → Prop} {summary : PreparedCandidate}
    (summarizes : summary.Summarizes observed)
    (same : ∀ candidate, observed candidate ↔ other candidate) : summary.Summarizes other := by
  have equal : observed = other := funext fun candidate => propext (same candidate)
  rw [← equal]
  exact summarizes

/-- Two observations disagree on something a merge compares. -/
def Disagrees (left right : PreparedCandidate) : Prop :=
  ¬ Same left.release.version right.release.version ∨
    left.release.metadata ≠ right.release.metadata ∨
    ¬ Same left.release.declaredDependencies right.release.declaredDependencies ∨
    (∃ first second, left.release.publication = some first ∧
      right.release.publication = some second ∧ first ≠ second) ∨
    ∃ first ∈ left.occurrences, ∃ second ∈ right.occurrences,
      first.repository = second.repository ∧ (first.registry ≠ second.registry ∨
        first.availability ≠ second.availability ∨ first.currentness ≠ second.currentness ∨
        first.rank ≠ second.rank)

/-- Observations are compatible unless they disagree. -/
theorem compatible_iff {left right : PreparedCandidate} :
    left.Compatible right ↔ ¬ left.Disagrees right := by
  constructor
  · rintro compatible (version | metadata | dependencies | ⟨first, second, known, other, differ⟩ |
      ⟨first, firstIn, second, secondIn, same, differ⟩)
    · exact version compatible.version
    · exact metadata compatible.metadata
    · exact dependencies compatible.declaredDependencies
    · exact differ (compatible.publication first second known other)
    · have facts := RepositoryOccurrence.sameFacts_iff.mp
        (compatible.occurrences first firstIn second secondIn same)
      simp_all
  · intro agrees
    simp only [Disagrees, not_or, not_exists, not_and, not_not] at agrees
    obtain ⟨version, metadata, dependencies, publication, occurrences⟩ := agrees
    refine ⟨version, metadata, publication, dependencies, ?_⟩
    intro first firstIn second secondIn same
    obtain ⟨registry, availability, currentness, rank⟩ :=
      occurrences first firstIn second secondIn same
    exact RepositoryOccurrence.sameFacts_iff.mpr ⟨same, registry, availability, currentness, rank⟩

end PreparedCandidate

namespace PreparedCandidateSet

/-- A set holds, for every identity, the union of the observations of it. -/
structure Holds (set : PreparedCandidateSet) (seen : List PreparedCandidate) : Prop where
  /-- A stored candidate is the union of the observations of its identity. -/
  stored : ∀ identity summary, set.get? identity = some summary →
    summary.Summarizes (fun candidate => candidate ∈ seen ∧ Same candidate.identity identity)
  /-- Every observed identity is stored. -/
  complete : ∀ candidate ∈ seen, ∃ summary, set.get? candidate.identity = some summary

/-- The empty set holds nothing. -/
theorem empty_holds : Holds .empty [] :=
  ⟨fun _ _ found => by simp at found, fun _ member => by simp at member⟩

/-- Inserting a candidate adds its observation. -/
theorem insertCandidate_holds {set inserted : PreparedCandidateSet} {seen : List PreparedCandidate}
    (holds : set.Holds seen) {candidate : PreparedCandidate}
    (accepted : set.insertCandidate candidate = .ok inserted) :
    inserted.Holds (seen ++ [candidate]) := by
  -- Under the identity of the candidate, the union gains it; other identities keep their union.
  obtain ⟨merged, insertedIs, summarizes⟩ : ∃ merged : PreparedCandidate,
      (∀ identity, inserted.get? identity = if Same candidate.identity identity then some merged
        else set.get? identity) ∧
      merged.Summarizes (fun other => other ∈ seen ++ [candidate] ∧
        Same other.identity candidate.identity) := by
    unfold insertCandidate at accepted
    cases known : set.get? candidate.identity with
    | some existing =>
      simp only [known] at accepted
      obtain ⟨merged, mergedIs, accepted⟩ := bind_eq_ok.mp accepted
      obtain rfl := Except.ok.inj accepted
      have both := PreparedCandidate.merge_summarizes mergedIs
      have sameMerged : Same candidate.identity merged.identity :=
        both.identity candidate (Or.inr rfl)
      refine ⟨merged, fun identity => ?_, ?_⟩
      · rw [KeyedMap.get?_insert]
        simp only [sameMerged.congr_left identity]
      · refine ((holds.stored _ _ known).extend both).congr fun other => ?_
        constructor
        · rintro (⟨member, same⟩ | rfl)
          · exact ⟨List.mem_append_left _ member, same⟩
          · exact ⟨by simp, Same.refl _⟩
        · rintro ⟨member, same⟩
          rcases List.mem_append.mp member with old | new
          · exact Or.inl ⟨old, same⟩
          · exact Or.inr (List.mem_singleton.mp new)
    | none =>
      simp only [known] at accepted
      obtain rfl := Except.ok.inj accepted
      refine ⟨candidate, fun identity => KeyedMap.get?_insert .., ?_⟩
      refine (PreparedCandidate.summarizes_single candidate).congr fun other => ?_
      constructor
      · rintro rfl
        exact ⟨by simp, Same.refl _⟩
      · rintro ⟨member, same⟩
        rcases List.mem_append.mp member with old | new
        · obtain ⟨summary, found⟩ := holds.complete other old
          rw [set.get?_congr same, known] at found
          simp at found
        · exact List.mem_singleton.mp new
  constructor
  · intro identity summary found
    rw [insertedIs] at found
    split at found
    · next same =>
      obtain rfl := Option.some.inj found
      exact summarizes.congr fun other => and_congr_right fun _ => same.congr_right other.identity
    · next differs =>
      refine (holds.stored identity summary found).congr fun other => ?_
      constructor
      · rintro ⟨member, same⟩
        exact ⟨List.mem_append_left _ member, same⟩
      · rintro ⟨member, same⟩
        rcases List.mem_append.mp member with old | new
        · exact ⟨old, same⟩
        · obtain rfl := List.mem_singleton.mp new
          exact absurd same differs
  · intro other member
    rw [insertedIs]
    split
    · exact ⟨merged, rfl⟩
    · next differs =>
      rcases List.mem_append.mp member with old | new
      · exact holds.complete other old
      · obtain rfl := List.mem_singleton.mp new
        exact absurd (Same.refl _) differs

/-- Inserting a candidate that is compatible with the observations of its identity succeeds. -/
theorem insertCandidate_of_compatible {set : PreparedCandidateSet} {seen : List PreparedCandidate}
    (holds : set.Holds seen) {candidate : PreparedCandidate}
    (compatible : ∀ other ∈ seen, Same other.identity candidate.identity →
      other.Compatible candidate) :
    ∃ inserted, set.insertCandidate candidate = .ok inserted := by
  unfold insertCandidate
  cases known : set.get? candidate.identity with
  | none => exact ⟨_, rfl⟩
  | some existing =>
    have summarizes := holds.stored _ _ known
    obtain ⟨source, member, same⟩ := summarizes.inhabited
    have sameExisting : Same existing.identity candidate.identity :=
      (summarizes.identity source ⟨member, same⟩).symm.trans same
    obtain ⟨merged, mergedIs⟩ := PreparedCandidate.merge_of_compatible sameExisting
      (summarizes.compatible fun other held => compatible other held.1 held.2)
    refine ⟨set.insert merged.identity merged, ?_⟩
    simp only [mergedIs, ok_bind]
    rfl

/-- Inserting candidates one by one adds their observations. -/
theorem foldlM_insertCandidate_holds {set final : PreparedCandidateSet}
    {seen candidates : List PreparedCandidate} (holds : set.Holds seen)
    (accepted : candidates.foldlM insertCandidate set = .ok final) :
    final.Holds (seen ++ candidates) := by
  induction candidates generalizing set seen with
  | nil =>
    obtain rfl := Except.ok.inj accepted
    simpa using holds
  | cons candidate rest ih =>
    rw [List.foldlM_cons] at accepted
    obtain ⟨inserted, first, accepted⟩ := bind_eq_ok.mp accepted
    simpa using ih (insertCandidate_holds holds first) accepted

/-- Inserting candidates that are compatible with one another succeeds. -/
theorem foldlM_insertCandidate_of_compatible {set : PreparedCandidateSet}
    {seen candidates : List PreparedCandidate} (holds : set.Holds seen)
    (compatible : ∀ left ∈ seen ++ candidates, ∀ right ∈ seen ++ candidates,
      Same left.identity right.identity → left.Compatible right) :
    ∃ final, candidates.foldlM insertCandidate set = .ok final := by
  induction candidates generalizing set seen with
  | nil => exact ⟨set, rfl⟩
  | cons candidate rest ih =>
    obtain ⟨inserted, first⟩ := insertCandidate_of_compatible holds fun other member =>
      compatible other (List.mem_append_left _ member) candidate (by simp)
    rw [List.foldlM_cons, first]
    exact ih (insertCandidate_holds holds first) (by simpa using compatible)

/-- A union of candidates exists exactly when candidates of one identity are compatible. -/
theorem fromCandidates_isOk {candidates : List PreparedCandidate} :
    (∃ set, fromCandidates candidates = .ok set) ↔
      ∀ left ∈ candidates, ∀ right ∈ candidates, Same left.identity right.identity →
        left.Compatible right := by
  constructor
  · rintro ⟨set, accepted⟩ left leftIn right rightIn same
    have holds := foldlM_insertCandidate_holds empty_holds accepted
    obtain ⟨summary, found⟩ := holds.complete right (by simpa using rightIn)
    exact (holds.stored _ _ found).compatible_of_observed ⟨by simpa using leftIn, same⟩
      ⟨by simpa using rightIn, Same.refl _⟩
  · intro compatible
    exact foldlM_insertCandidate_of_compatible empty_holds (by simpa using compatible)

/-- A union holds its candidates. -/
theorem fromCandidates_holds {candidates : List PreparedCandidate} {set : PreparedCandidateSet}
    (accepted : fromCandidates candidates = .ok set) : set.Holds candidates := by
  simpa using foldlM_insertCandidate_holds empty_holds accepted

/-- Two sets hold the same identities, and candidates with the same facts under each of them. -/
def SameUnion (left right : PreparedCandidateSet) : Prop :=
  ∀ identity, match left.get? identity, right.get? identity with
    | some first, some second => first.SameFacts second
    | none, none => True
    | _, _ => False

/-- A candidate of a set is stored under its identity. -/
theorem Holds.get?_of_mem {set : PreparedCandidateSet} {seen : List PreparedCandidate}
    (holds : set.Holds seen) {candidate : PreparedCandidate} (member : candidate ∈ set.values) :
    set.get? candidate.identity = some candidate := by
  obtain ⟨entry, entryIn, rfl⟩ := List.mem_map.mp member
  have stored : set.get? entry.1 = some entry.2 :=
    (KeyedMap.get?_eq_some_iff _ _ _).mpr ⟨entry, entryIn, Same.refl _, rfl⟩
  have summarizes := holds.stored _ _ stored
  obtain ⟨observed, observedIn, same⟩ := summarizes.inhabited
  rw [← stored]
  exact set.get?_congr ((summarizes.identity observed ⟨observedIn, same⟩).symm.trans same)

/-- Sets that hold the same observations are the same union. -/
theorem Holds.sameUnion {left right : PreparedCandidateSet} {seen other : List PreparedCandidate}
    (leftHolds : left.Holds seen) (rightHolds : right.Holds other)
    (same : ∀ candidate, candidate ∈ seen ↔ candidate ∈ other) : left.SameUnion right := by
  intro identity
  cases found : left.get? identity with
  | some first =>
    have summarizes := leftHolds.stored identity first found
    obtain ⟨candidate, member, sameIdentity⟩ := summarizes.inhabited
    obtain ⟨second, foundOther⟩ := rightHolds.complete candidate ((same candidate).mp member)
    rw [right.get?_congr sameIdentity] at foundOther
    simp only [foundOther]
    refine summarizes.sameFacts ((rightHolds.stored identity second foundOther).congr ?_)
    exact fun candidate => and_congr_left fun _ => (same candidate).symm
  | none =>
    cases foundOther : right.get? identity with
    | none => trivial
    | some second =>
      obtain ⟨candidate, member, sameIdentity⟩ :=
        (rightHolds.stored identity second foundOther).inhabited
      obtain ⟨first, foundFirst⟩ := leftHolds.complete candidate ((same candidate).mpr member)
      rw [left.get?_congr sameIdentity, found] at foundFirst
      simp at foundFirst

/-- A union of candidates does not depend on their order: it fails exactly when two candidates of one
identity disagree, and otherwise every order gives the same identities with the same facts. -/
theorem fromCandidates_perm (candidates reordered : List PreparedCandidate)
    (perm : candidates.Perm reordered) :
    ((∃ cause, fromCandidates candidates = .error cause) ↔
      ∃ left ∈ candidates, ∃ right ∈ candidates, Same left.identity right.identity ∧
        left.Disagrees right) ∧
    ((∃ cause, fromCandidates reordered = .error cause) ↔
      ∃ cause, fromCandidates candidates = .error cause) ∧
    ∀ set other, fromCandidates candidates = .ok set → fromCandidates reordered = .ok other →
      set.SameUnion other := by
  have fails : ∀ items : List PreparedCandidate, (∃ cause, fromCandidates items = .error cause) ↔
      ∃ left ∈ items, ∃ right ∈ items, Same left.identity right.identity ∧
        left.Disagrees right := by
    intro items
    have succeeds := @fromCandidates_isOk items
    have either : (∃ cause, fromCandidates items = .error cause) ↔
        ¬ ∃ set, fromCandidates items = .ok set := by
      cases fromCandidates items <;> simp
    rw [either, succeeds]
    simp only [PreparedCandidate.compatible_iff, not_forall, not_not, exists_prop]
  refine ⟨fails candidates, ?_, ?_⟩
  · rw [fails candidates, fails reordered]
    simp only [perm.mem_iff]
  · intro set other accepted acceptedOther
    exact (fromCandidates_holds accepted).sameUnion (fromCandidates_holds acceptedOther)
      fun candidate => perm.mem_iff

end PreparedCandidateSet

/-! ### Small releases -/

namespace Small

/-- A package. -/
def alpha : PackageName := ⟨"alpha", by decide⟩

/-- A package that others depend on. -/
def rcpp : PackageName := ⟨"Rcpp", by decide⟩

/-- An older version. -/
def older : RPackageVersion := ⟨"0.9", .fromVec [0, 9], by decide⟩

/-- A newer version. -/
def newer : RPackageVersion := ⟨"1.0", .fromVec [1, 0], by decide⟩

/-- The repository. -/
def repository : RepositoryId := ⟨"cran", by decide⟩

/-- The date of every release. -/
def published : PublicationDate := ⟨2024, 5, 1, by decide⟩

/-- A registry release without distributions. -/
def release (name : PackageName) (version : RPackageVersion)
    (dependencies : List DeclaredDependency) : PackageRelease where
  identity := ⟨name, .registryRelease ⟨"cran", by decide⟩ version⟩
  version := version
  metadata := ⟨[], List.Pairwise.nil, by simp⟩
  publication := some ⟨published⟩
  declaredDependencies := dependencies
  distributions := []
  versioned := by rintro _ ⟨⟩; rfl
  canonical := List.Pairwise.nil

/-- The registry behind every entry. -/
def registry : RegistryId := ⟨"cran", by decide⟩

/-- The occurrence of a release in a repository entry. -/
def occurrenceIn (repository : RepositoryId) (rank : Nat) : RepositoryOccurrence where
  repository := repository
  registry := registry
  availability := .available
  currentness := .current
  rank := ⟨rank⟩
  distributions := []
  registered := by simp
  canonical := List.Pairwise.nil

/-- A candidate of a repository entry. -/
def candidateIn (repository : RepositoryId) (rank : Nat) (name : PackageName)
    (version : RPackageVersion) : PreparedCandidate where
  release := release name version []
  exposure := .none
  occurrences := [occurrenceIn repository rank]
  runtime := by simp
  distinct := by simp
  ordered := by simp
  exposed := by simp
  projected := by simp [occurrenceIn]
  covered := by simp [release]

/-- A mirror of the repository. -/
def mirror : RepositoryId := ⟨"mirror", by decide⟩

/-- A release seen in the repository and in its mirror. -/
def mirrored : List PreparedCandidate :=
  [candidateIn repository 0 alpha newer, candidateIn mirror 1 alpha newer]

end Small

namespace PreparedCandidateSet

/-- A release seen in a repository and in its mirror has one union in both orders, and one that is
seen in a repository at two ranks has none. -/
theorem fromCandidates_perm_mirrored :
    (∃ set other, fromCandidates Small.mirrored = .ok set ∧
      fromCandidates Small.mirrored.reverse = .ok other ∧ set.SameUnion other) ∧
    ∃ cause, fromCandidates [Small.candidateIn Small.repository 0 Small.alpha Small.newer,
      Small.candidateIn Small.repository 1 Small.alpha Small.newer] = .error cause := by
  constructor
  · have independent := fromCandidates_perm Small.mirrored Small.mirrored.reverse
      (List.reverse_perm _).symm
    obtain ⟨set, accepted⟩ := exists_of_isOk
      (show (fromCandidates Small.mirrored).isOk = true by decide +kernel)
    obtain ⟨other, reversed⟩ := exists_of_isOk
      (show (fromCandidates Small.mirrored.reverse).isOk = true by decide +kernel)
    exact ⟨set, other, accepted, reversed, independent.2.2 set other accepted reversed⟩
  · refine (fromCandidates_perm _ _ (List.Perm.refl _)).1.mpr ⟨_, List.mem_cons_self, _,
      List.mem_cons_of_mem _ List.mem_cons_self, Same.refl _, ?_⟩
    refine Or.inr (Or.inr (Or.inr (Or.inr ⟨_, List.mem_cons_self, _, List.mem_cons_self, rfl, ?_⟩)))
    exact Or.inr (Or.inr (Or.inr (by decide)))

end PreparedCandidateSet

end Rsolve
