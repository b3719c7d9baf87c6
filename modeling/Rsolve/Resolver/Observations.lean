import Rsolve.Core.Unions
import Rsolve.Resolver.Health

/-!
# Observations within a subject

A loader may return several observations of one identity. The provider merges them in the order they
arrive. What it holds then is, for every identity, the union of its observations; it fails exactly
when two of them disagree. So neither depends on the order, up to the spelling of versions.
-/
open Keyed Checked Growth

namespace Rsolve

/-- Observations of one identity are compatible. -/
def CoherentObservations (releases : List PreparedCandidate) : Prop :=
  ∀ left ∈ releases, ∀ right ∈ releases, Same left.identity right.identity → left.Compatible right

/-- Candidates hold, for every identity, the union of the observations of it. -/
structure Gathered (unique seen : List PreparedCandidate) : Prop where
  /-- A candidate is the union of the observations of its identity. -/
  union : ∀ summary ∈ unique, summary.Summarizes (fun candidate =>
    candidate ∈ seen ∧ Same candidate.identity summary.identity)
  /-- Every observed identity has a candidate. -/
  complete : ∀ candidate ∈ seen, ∃ summary ∈ unique, Same candidate.identity summary.identity

/-- No candidates hold no observations. -/
theorem gathered_nil : Gathered [] [] :=
  ⟨fun _ member => absurd member List.not_mem_nil, fun _ member => absurd member List.not_mem_nil⟩

/-- The candidates that an observation does not merge with are of other identities. -/
theorem mem_eraseP_identity {unique : List PreparedCandidate} (distinct : DistinctIdentities unique)
    {existing : PreparedCandidate} (member : existing ∈ unique) {identity : ReleaseIdentity}
    (same : Same existing.identity identity) {other : PreparedCandidate} :
    other ∈ unique.eraseP (fun candidate => Same candidate.identity identity) ↔
      other ∈ unique ∧ ¬ Same other.identity identity := by
  induction unique with
  | nil => simp
  | cons head rest ih =>
    rw [DistinctIdentities, List.pairwise_cons] at distinct
    by_cases matched : Same head.identity identity
    · simp only [List.eraseP_cons, matched, decide_true, cond_true, List.mem_cons]
      constructor
      · intro kept
        exact ⟨Or.inr kept, fun also => distinct.1 other kept (matched.trans also.symm)⟩
      · rintro ⟨rfl | kept, differs⟩
        · exact absurd matched differs
        · exact kept
    · have inRest : existing ∈ rest := by
        rcases List.mem_cons.mp member with rfl | inRest
        · exact absurd same matched
        · exact inRest
      simp only [List.eraseP_cons, matched, decide_false, cond_false, List.mem_cons,
        ih distinct.2 inRest]
      constructor
      · rintro (rfl | ⟨kept, differs⟩)
        · exact ⟨Or.inl rfl, matched⟩
        · exact ⟨Or.inr kept, differs⟩
      · rintro ⟨rfl | kept, differs⟩
        · exact Or.inl rfl
        · exact Or.inr ⟨kept, differs⟩

/-- One observation is added to the union of its identity. -/
theorem observeCandidate_gathered {unique joined seen : List PreparedCandidate}
    {release : PreparedCandidate} (distinct : DistinctIdentities unique)
    (gathered : Gathered unique seen) (observed : observeCandidate unique release = .ok joined) :
    Gathered joined (seen ++ [release]) := by
  unfold observeCandidate at observed
  split at observed
  · next existing found =>
    have member := List.mem_of_find?_eq_some found
    have same : Same existing.identity release.identity := by simpa using List.find?_some found
    split at observed
    · next merged accepted =>
      obtain rfl := Except.ok.inj observed
      have both := PreparedCandidate.merge_summarizes accepted
      have sameMerged : Same existing.identity merged.identity :=
        both.identity existing (Or.inl rfl)
      constructor
      · intro summary summaryIn
        rcases List.mem_append.mp summaryIn with kept | new
        · obtain ⟨summaryIn, differs⟩ := (mem_eraseP_identity distinct member same).mp kept
          refine (gathered.union summary summaryIn).congr fun candidate => ?_
          simp only [List.mem_append, List.mem_singleton]
          refine and_congr_left fun agrees => ⟨Or.inl, ?_⟩
          rintro (old | rfl)
          · exact old
          · exact absurd agrees.symm differs
        · obtain rfl := List.mem_singleton.mp new
          refine ((gathered.union existing member).extend both).congr fun candidate => ?_
          simp only [List.mem_append, List.mem_singleton]
          constructor
          · rintro (⟨old, agrees⟩ | rfl)
            · exact ⟨Or.inl old, agrees.trans sameMerged⟩
            · exact ⟨Or.inr rfl, same.symm.trans sameMerged⟩
          · rintro ⟨old | rfl, agrees⟩
            · exact Or.inl ⟨old, agrees.trans sameMerged.symm⟩
            · exact Or.inr rfl
      · intro candidate candidateIn
        by_cases agrees : Same candidate.identity release.identity
        · exact ⟨merged, by simp, agrees.trans (same.symm.trans sameMerged)⟩
        · rcases List.mem_append.mp candidateIn with old | new
          · obtain ⟨summary, summaryIn, covers⟩ := gathered.complete candidate old
            refine ⟨summary, List.mem_append_left _ ?_, covers⟩
            exact (mem_eraseP_identity distinct member same).mpr
              ⟨summaryIn, fun also => agrees (covers.trans also)⟩
          · obtain rfl := List.mem_singleton.mp new
            exact absurd (Same.refl _) agrees
    · simp at observed
  · next absent =>
    obtain rfl := Except.ok.inj observed
    have fresh : ∀ summary ∈ unique, ¬ Same summary.identity release.identity := by
      simpa using List.find?_eq_none.mp absent
    constructor
    · intro summary summaryIn
      rcases List.mem_append.mp summaryIn with old | new
      · refine (gathered.union summary old).congr fun candidate => ?_
        simp only [List.mem_append, List.mem_singleton]
        refine and_congr_left fun agrees => ⟨Or.inl, ?_⟩
        rintro (seenBefore | rfl)
        · exact seenBefore
        · exact absurd agrees.symm (fresh summary old)
      · obtain rfl := List.mem_singleton.mp new
        refine (PreparedCandidate.summarizes_single summary).congr fun candidate => ?_
        simp only [List.mem_append, List.mem_singleton]
        constructor
        · rintro rfl
          exact ⟨Or.inr rfl, Same.refl _⟩
        · rintro ⟨seenBefore | rfl, agrees⟩
          · obtain ⟨other, otherIn, covers⟩ := gathered.complete candidate seenBefore
            exact absurd (covers.symm.trans agrees) (fresh other otherIn)
          · rfl
    · intro candidate candidateIn
      rcases List.mem_append.mp candidateIn with old | new
      · obtain ⟨summary, summaryIn, covers⟩ := gathered.complete candidate old
        exact ⟨summary, List.mem_append_left _ summaryIn, covers⟩
      · obtain rfl := List.mem_singleton.mp new
        exact ⟨candidate, by simp, Same.refl _⟩

/-- An observation that is compatible with those of its identity is added. -/
theorem observeCandidate_of_compatible {unique seen : List PreparedCandidate}
    {release : PreparedCandidate} (gathered : Gathered unique seen)
    (compatible : ∀ other ∈ seen, Same other.identity release.identity →
      other.Compatible release) :
    ∃ joined, observeCandidate unique release = .ok joined := by
  unfold observeCandidate
  split
  · next existing found =>
    have same : Same existing.identity release.identity := by simpa using List.find?_some found
    obtain ⟨merged, mergedIs⟩ := PreparedCandidate.merge_of_compatible same
      ((gathered.union existing (List.mem_of_find?_eq_some found)).compatible
        fun other held => compatible other held.1 (held.2.trans same))
    exact ⟨_, by rw [mergedIs]⟩
  · exact ⟨_, rfl⟩

/-- What is merged is the union of the observations. -/
theorem uniqueCandidates_gathered {releases unique : List PreparedCandidate}
    (accepted : uniqueCandidates releases = .ok unique) : Gathered unique releases := by
  have general : ∀ (rest seen start : List PreparedCandidate), DistinctIdentities start →
      Gathered start seen → rest.foldlM observeCandidate start = .ok unique →
      Gathered unique (seen ++ rest) := by
    intro rest
    induction rest with
    | nil =>
      intro seen start _ gathered accepted
      rw [← Except.ok.inj accepted]
      simpa using gathered
    | cons release rest ih =>
      intro seen start distinct gathered accepted
      rw [List.foldlM_cons] at accepted
      obtain ⟨joined, observed, continued⟩ := bind_eq_ok.mp accepted
      simpa using ih (seen ++ [release]) joined (observeCandidate_distinct distinct observed)
        (observeCandidate_gathered distinct gathered observed) continued
  simpa using general releases [] [] List.Pairwise.nil gathered_nil accepted

/-- Observations are merged exactly when they are coherent. -/
theorem uniqueCandidates_isOk {releases : List PreparedCandidate} :
    (∃ unique, uniqueCandidates releases = .ok unique) ↔ CoherentObservations releases := by
  constructor
  · rintro ⟨unique, accepted⟩ left leftIn right rightIn same
    have gathered := uniqueCandidates_gathered accepted
    obtain ⟨summary, summaryIn, covers⟩ := gathered.complete right rightIn
    exact (gathered.union summary summaryIn).compatible_of_observed ⟨leftIn, same.trans covers⟩
      ⟨rightIn, covers⟩
  · intro coherent
    have general : ∀ (rest seen start : List PreparedCandidate), DistinctIdentities start →
        Gathered start seen → CoherentObservations (seen ++ rest) →
        ∃ unique, rest.foldlM observeCandidate start = .ok unique := by
      intro rest
      induction rest with
      | nil => exact fun _ start _ _ _ => ⟨start, rfl⟩
      | cons release rest ih =>
        intro seen start distinct gathered coherent
        obtain ⟨joined, observed⟩ := observeCandidate_of_compatible gathered fun other member =>
          coherent other (List.mem_append_left _ member) release (by simp)
        rw [List.foldlM_cons, observed]
        exact ih (seen ++ [release]) joined (observeCandidate_distinct distinct observed)
          (observeCandidate_gathered distinct gathered observed) (by simpa using coherent)
    exact general releases [] [] List.Pairwise.nil gathered_nil coherent

/-- Merging the same observations in another order fails alike. -/
theorem uniqueCandidates_isOk_perm {releases shuffled : List PreparedCandidate}
    (perm : releases.Perm shuffled) :
    (∃ unique, uniqueCandidates releases = .ok unique) ↔
      ∃ unique, uniqueCandidates shuffled = .ok unique := by
  rw [uniqueCandidates_isOk, uniqueCandidates_isOk]
  simp only [CoherentObservations, perm.mem_iff]

/-- Merging the same observations in another order gives candidates with the same facts. -/
theorem uniqueCandidates_perm {releases shuffled unique others : List PreparedCandidate}
    (perm : releases.Perm shuffled) (accepted : uniqueCandidates releases = .ok unique)
    (acceptedOther : uniqueCandidates shuffled = .ok others) {summary : PreparedCandidate}
    (member : summary ∈ unique) : ∃ other ∈ others, summary.SameFacts other := by
  have summarizes := (uniqueCandidates_gathered accepted).union summary member
  obtain ⟨candidate, candidateIn, same⟩ := summarizes.inhabited
  have gathered := uniqueCandidates_gathered acceptedOther
  obtain ⟨other, otherIn, covers⟩ := gathered.complete candidate (perm.mem_iff.mp candidateIn)
  refine ⟨other, otherIn, summarizes.sameFacts ((gathered.union other otherIn).congr ?_)⟩
  intro observed
  rw [perm.mem_iff, (same.symm.trans covers).congr_right observed.identity]

namespace Provider

variable (provider : Provider)

/-- A subject shows its candidates when its observations are coherent. -/
theorem visibleCandidates_isOk {subject : SolverKey} {releases : List PreparedCandidate} :
    (∃ visible, provider.visibleCandidates subject releases = .ok visible) ↔
      CoherentObservations releases := by
  rw [← uniqueCandidates_isOk]
  constructor
  · rintro ⟨visible, shown⟩
    obtain ⟨unique, collected, -⟩ := bind_eq_ok.mp shown
    exact ⟨unique, collected⟩
  · rintro ⟨unique, collected⟩
    exact ⟨_, by rw [visibleCandidates, collected]; rfl⟩

/-- The visible candidates of a subject are the eligible ones. -/
theorem mem_visibleCandidates {subject : SolverKey}
    {releases unique visible : List PreparedCandidate}
    (collected : uniqueCandidates releases = .ok unique)
    (shown : provider.visibleCandidates subject releases = .ok visible)
    {candidate : PreparedCandidate} :
    candidate ∈ visible ↔ candidate ∈ unique ∧ candidate.isEligibleFor subject = true := by
  obtain ⟨found, collectedAs, finished⟩ := bind_eq_ok.mp shown
  obtain rfl := Except.ok.inj (collectedAs.symm.trans collected)
  rw [← Except.ok.inj finished, List.mem_filter, Sorting.mem_sortBy]

/-- The visible candidates do not depend on the order of the observations, up to spelling. -/
theorem visibleCandidates_perm {subject : SolverKey} {other : Provider}
    {releases shuffled visible others : List PreparedCandidate} (perm : releases.Perm shuffled)
    (shown : provider.visibleCandidates subject releases = .ok visible)
    (shownOther : other.visibleCandidates subject shuffled = .ok others)
    {candidate : PreparedCandidate} (member : candidate ∈ visible) :
    ∃ twin ∈ others, candidate.SameFacts twin := by
  obtain ⟨unique, collected, -⟩ := bind_eq_ok.mp shown
  obtain ⟨uniqueOther, collectedOther, -⟩ := bind_eq_ok.mp shownOther
  obtain ⟨listed, eligible⟩ := (provider.mem_visibleCandidates collected shown).mp member
  obtain ⟨twin, twinIn, facts⟩ := uniqueCandidates_perm perm collected collectedOther listed
  refine ⟨twin, (other.mem_visibleCandidates collectedOther shownOther).mpr ⟨twinIn, ?_⟩, facts⟩
  rw [← facts.isEligibleFor]
  exact eligible

/-- The only subject of a set loads without conflicts when its observations are coherent. -/
theorem loadable_single {subject : SolverKey} {result : CandidateLoadResult}
    (offered : provider.loader subject = .ok result)
    (coherent : CoherentObservations result.candidates) : provider.Loadable (· = subject) := by
  constructor
  · rintro _ rfl
    obtain ⟨visible, shown⟩ := provider.visibleCandidates_isOk.mpr coherent
    exact ⟨visible, result, offered, shown⟩
  · rintro _ _ visible others rfl rfl shows showsOther candidate member other otherIn same
    obtain rfl := shows.unique showsOther
    obtain ⟨_, -, shown⟩ := shows
    have symmetric : Std.Symm (fun first second : PreparedCandidate =>
        ¬ Same first.identity second.identity) := ⟨fun _ _ differs same => differs same.symm⟩
    by_contra differs
    refine (visibleCandidates_distinct shown).forall member otherIn ?_ same
    rintro rfl
    exact differs (PreparedCandidate.SameFacts.refl _)

end Provider

end Rsolve
