import Rsolve.Resolver.Soundness

/-!
# The publication cutoff

The cutoff is applied twice: when a version is chosen it narrows the candidates, unless it would
leave none, and when the dependencies of a candidate are asked it refuses the candidate. Base
packages and locked identities are exempt in both places.
-/
open Keyed Checked Growth Intervals

namespace Rsolve

/-- A cutoff date admits a candidate: it is exempt, or published by that date. -/
def AdmittedBy (date : PublicationDate) (locked : Option ReleaseIdentity)
    (candidate : PreparedCandidate) : Prop :=
  candidate.release.isRBasePackage = true ∨ Same locked (some candidate.identity) ∨
    ∃ publication, candidate.release.publication = some publication ∧
      (publication.date.cmp date).isLE = true

namespace Provider

variable (provider : Provider)

/-- The cutoff of the request admits a candidate for a subject. -/
def PassesCutoff (subject : SolverKey) (candidate : PreparedCandidate) : Prop :=
  ∀ cutoff, provider.request.publicationCutoff = some cutoff →
    AdmittedBy cutoff.date (provider.lockDecision subject).locked candidate

/-- Exactly the admitted candidates are not rejected. -/
theorem rejection_eq_none {date : PublicationDate} {locked : Option ReleaseIdentity}
    {candidate : PreparedCandidate} :
    rejection date locked candidate = none ↔ AdmittedBy date locked candidate := by
  unfold rejection AdmittedBy
  split
  · next exempt => simp only [true_iff]; exact or_assoc.mp (Or.inl exempt)
  · next ordinary =>
    rw [not_or] at ordinary
    simp only [ordinary.1, ordinary.2, false_or]
    cases candidate.release.publication with
    | none => simp
    | some publication =>
      cases late : publication.date.cmp date <;> simp [late]

/-- A rejection names the rejected candidate. -/
theorem rejection_identity {date : PublicationDate} {locked : Option ReleaseIdentity}
    {candidate : PreparedCandidate} {found : PublicationRejection}
    (rejected : rejection date locked candidate = some found) :
    found.identity = candidate.identity := by
  unfold rejection at rejected
  split at rejected
  · simp at rejected
  · split at rejected
    · split at rejected
      · rw [← Option.some.inj rejected]; rfl
      · simp at rejected
    · rw [← Option.some.inj rejected]; rfl

/-- Under a cutoff, the rejections of candidates are those of each of them. -/
theorem mem_publicationRejections {cutoff : PublicationCutoff}
    (given : provider.request.publicationCutoff = some cutoff)
    {candidates : List (CandidateId × PreparedCandidate)} {locked : Option ReleaseIdentity}
    {found : PublicationRejection} :
    found ∈ provider.publicationRejections candidates locked ↔
      ∃ entry ∈ candidates, rejection cutoff.date locked entry.2 = some found := by
  simp [publicationRejections, given, Sorting.mem_sortBy]

/-- A candidate without rejections passes the cutoff, if the lock decision admits it. -/
theorem passesCutoff_of_candidateRejections {subject : SolverKey} {id : CandidateId}
    {candidate : PreparedCandidate}
    (required : meetsRequired (provider.lockDecision subject) candidate = true)
    (clean : provider.candidateRejections subject id candidate = []) :
    provider.PassesCutoff subject candidate := by
  intro cutoff given
  rw [candidateRejections, if_pos required] at clean
  rw [← rejection_eq_none]
  cases rejected : rejection cutoff.date (provider.lockDecision subject).locked candidate with
  | none => rfl
  | some found =>
    have listed := (provider.mem_publicationRejections given).mpr
      ⟨(id, candidate), List.mem_singleton_self _, rejected⟩
    rw [clean] at listed
    simp at listed

/-! ### Choosing a version -/

/-- The cutoff leaves no candidate only where there was none. -/
theorem withinCutoff_eq_nil (locked : Option ReleaseIdentity)
    (eligible : List (CandidateId × PreparedCandidate)) :
    provider.withinCutoff locked eligible = [] ↔ eligible = [] := by
  constructor
  · intro nothing
    unfold withinCutoff at nothing
    dsimp only at nothing
    split at nothing
    · split at nothing
      · exact nothing
      · next some => exact absurd (by rw [nothing]; rfl) some
    · exact nothing
  · rintro rfl
    refine List.eq_nil_iff_forall_not_mem.mpr fun entry member => ?_
    exact absurd (provider.mem_of_mem_withinCutoff member) List.not_mem_nil

/-- No version is preferred only where none is selectable. -/
theorem preferredCandidate_eq_none {subject : SolverKey} {range : VersionRange}
    {loaded : LoadedSubject} :
    provider.preferredCandidate subject range loaded = none ↔
      provider.selectableCandidates subject range loaded = [] := by
  have sorted : ∀ cmp (items : List (CandidateId × PreparedCandidate)),
      Sorting.sortBy cmp items = [] ↔ items = [] := by
    intro cmp items
    rw [← List.isEmpty_iff, ← List.isEmpty_iff, (Sorting.sortBy_perm cmp items).isEmpty_eq]
  unfold preferredCandidate
  dsimp only
  rw [Option.map_eq_none_iff, List.getLast?_eq_none_iff, sorted, withinCutoff_eq_nil]

/-- Where a selectable candidate passes the cutoff, the preferred one does. -/
theorem preferredCandidate_passes {state : ProviderState} (wellFormed : provider.WellFormed state)
    {subject : SolverKey} {loaded : LoadedSubject} (view : state.View subject loaded)
    {range : VersionRange} {entry : CandidateId × PreparedCandidate}
    (selectable : entry ∈ provider.selectableCandidates subject range loaded)
    (passes : provider.PassesCutoff subject entry.2) :
    ∃ chosen ∈ provider.selectableCandidates subject range loaded,
      provider.preferredCandidate subject range loaded = some chosen.1 ∧
      provider.PassesCutoff subject chosen.2 := by
  cases preferred : provider.preferredCandidate subject range loaded with
  | none =>
    rw [preferredCandidate_eq_none] at preferred
    rw [preferred] at selectable
    simp at selectable
  | some id =>
    obtain ⟨candidate, left⟩ := provider.preferredCandidate_eq_some preferred
    refine ⟨(id, candidate), provider.mem_of_mem_withinCutoff left, rfl, ?_⟩
    intro cutoff given
    rw [← rejection_eq_none]
    by_contra rejected
    obtain ⟨found, rejected⟩ := Option.ne_none_iff_exists'.mp rejected
    have listed := (provider.mem_publicationRejections given).mpr
      ⟨(id, candidate), provider.mem_of_mem_withinCutoff left, rejected⟩
    -- The admitted entry survives the filter, so the filter was applied.
    have survives : entry ∈ (provider.selectableCandidates subject range loaded).filter
        (fun other => !(provider.publicationRejections
          (provider.selectableCandidates subject range loaded)
          (provider.lockDecision subject).locked).any (fun found =>
            decide (Same other.2.identity found.identity))) := by
      refine List.mem_filter.mpr ⟨selectable, ?_⟩
      simp only [Bool.not_eq_true', List.any_eq_false, decide_eq_true_eq]
      intro other otherListed same
      obtain ⟨refused, refusedIn, refusal⟩ :=
        (provider.mem_publicationRejections given).mp otherListed
      rw [rejection_identity refusal] at same
      obtain rfl := view_entry_eq wellFormed view (List.mem_filter.mp selectable).1
        (List.mem_filter.mp refusedIn).1 same
      rw [rejection_eq_none.mpr (passes cutoff given)] at refusal
      simp at refusal
    unfold withinCutoff at left
    dsimp only at left
    rw [if_pos ⟨by simp [given], List.ne_nil_of_mem listed⟩, if_neg] at left
    · have kept := (List.mem_filter.mp left).2
      simp only [Bool.not_eq_true', List.any_eq_false, decide_eq_true_eq] at kept
      exact kept found listed (Same.of_eq (rejection_identity rejected).symm)
    · rw [List.isEmpty_iff]
      exact List.ne_nil_of_mem survives

/-! ### Runs under a cutoff -/

end Provider

end Rsolve
