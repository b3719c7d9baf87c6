import Rsolve.Resolver.Choice
import Rsolve.Resolver.Explanation

/-!
# What a comparison explains

A comparison should be about the solve that happened: its alternatives are identities that the
solver was offered, each listed once, and the order of the loader does not show. The comparison is
made from the list of the loader as it is, so this holds where that list is already what the solver
makes of it: one observation of every identity, each of them eligible.
-/
open Keyed Checked Growth Intervals

namespace Rsolve

/-- The identity of a decision candidate. -/
def DecisionCandidate.identity : DecisionCandidate → Option ReleaseIdentity
  | .release identity _ => some identity
  | .r _ => none
  | .installedName _ occupiedBy => some occupiedBy

/-- A release stands for its identity, whatever the subject. -/
@[simp]
theorem candidateForSubject_identity (subject : SolverKey) (release : PackageRelease) :
    (candidateForSubject subject release).identity = some release.identity := by
  cases subject <;> rfl

/-- A loader lists for a subject what it loads for it. -/
def ReleaseLister.Agrees (releases : ReleaseLister) (loader : CandidateLoader) : Prop :=
  ∀ left right, Same left right →
    releases left = (loader right).map CandidateLoadResult.candidates

/-- For the subject of every resolved package, the loader lists each identity once, and only
candidates that are eligible. -/
def ReleaseLister.ListsPlainly (releases : ReleaseLister) (resolution : Resolution) : Prop :=
  ∀ package ∈ resolution.packages, ∀ listed, releases package.subject = .ok listed →
    DistinctIdentities listed ∧
      ∀ candidate ∈ listed, candidate.isEligibleFor package.subject = true

/-- Another loader lists the same candidates in another order. -/
def ReleaseLister.Shuffles (releases shuffled : ReleaseLister) : Prop :=
  ∀ subject, (∃ cause, releases subject = .error cause ∧ shuffled subject = .error cause) ∨
    ∃ listed other, releases subject = .ok listed ∧ shuffled subject = .ok other ∧
      listed.Perm other

namespace Provider

variable (provider : Provider) (releases : ReleaseLister)

/-- A loaded subject would offer an identity. -/
def OffersIdentity (subject : SolverKey) (identity : ReleaseIdentity) : Prop :=
  ∃ visible, provider.Shows subject visible ∧
    ∃ candidate ∈ visible, Same candidate.identity identity

/-- An assignment explains a resolved package. -/
structure ExplainsPackage (package : ResolvedPackage) (assignment : SubjectAssignment) : Prop where
  /-- The assignment is about the subject of the package. -/
  subject : assignment.subject = subjectToDecisionSubject package.subject
  /-- The release of the package is assigned. -/
  assigned : assignment.assigned = candidateForSubject package.subject package.release
  /-- The alternatives are identities that the subject would offer. -/
  offered : ∀ alternative ∈ assignment.alternatives, ∃ identity,
    alternative.candidate.identity = some identity ∧
      provider.OffersIdentity package.subject identity
  /-- No identity is listed twice. -/
  once : assignment.alternatives.Pairwise (fun left right =>
    ¬ Same left.candidate.identity right.candidate.identity)

/-- A comparison explains a resolution: it has one assignment for R and one for every package. -/
def Explains (resolution : Resolution) (comparison : AssignmentComparison) : Prop :=
  ∃ packages assignments, packages.Perm resolution.packages ∧
    comparison.assignments =
      ⟨.r, .r resolution.target.rVersion, .fixedRTarget, []⟩ :: assignments ∧
    List.Forall₂ provider.ExplainsPackage packages assignments

/-- A resolution is returned with a comparison that explains it, and every order of the loader leads
to that comparison. -/
def Explained (pubgrub : PubGrub) (fuel : Nat) (resolution : Resolution) : Prop :=
  ∃ comparison, provider.resolveWithAssignmentComparison releases pubgrub fuel =
      some (.ok ⟨resolution, comparison⟩) ∧
    provider.Explains resolution comparison ∧
    ∀ shuffled : ReleaseLister, releases.Shuffles shuffled →
      provider.reconstructComparison shuffled resolution = .ok comparison

variable {provider} {releases}

/-! ### Lists of distinct identities -/

/-- In a list of distinct identities, an identity belongs to one candidate. -/
theorem eq_of_distinct {candidates : List PreparedCandidate}
    (distinct : DistinctIdentities candidates) {left right : PreparedCandidate}
    (leftIn : left ∈ candidates) (rightIn : right ∈ candidates)
    (same : Same left.identity right.identity) : left = right := by
  have symmetric : Std.Symm (fun first second : PreparedCandidate =>
      ¬ Same first.identity second.identity) := ⟨fun _ _ differs same => differs same.symm⟩
  by_contra differs
  exact distinct.forall leftIn rightIn differs same

/-- A list of distinct identities is coherent. -/
theorem coherent_of_distinct {candidates : List PreparedCandidate}
    (distinct : DistinctIdentities candidates) : CoherentObservations candidates := by
  intro left leftIn right rightIn same
  rw [eq_of_distinct distinct leftIn rightIn same]
  exact PreparedCandidate.Compatible.refl right

/-- A subject offers the eligible candidates of a list of distinct identities. -/
theorem offersIdentity_of_mem {subject : SolverKey} {result : CandidateLoadResult}
    (offered : provider.loader subject = .ok result)
    (distinct : DistinctIdentities result.candidates) {candidate : PreparedCandidate}
    (member : candidate ∈ result.candidates)
    (eligible : candidate.isEligibleFor subject = true) :
    provider.OffersIdentity subject candidate.identity := by
  have loads : ∃ visible, provider.visibleCandidates subject result.candidates = .ok visible :=
    provider.visibleCandidates_isOk.mpr (coherent_of_distinct distinct)
  obtain ⟨visible, shown⟩ := loads
  obtain ⟨unique, collected, -⟩ := bind_eq_ok.mp shown
  have gathered := uniqueCandidates_gathered collected
  obtain ⟨summary, summaryIn, same⟩ := gathered.complete candidate member
  refine ⟨visible, ⟨result, offered, shown⟩, summary,
    (provider.mem_visibleCandidates collected shown).mpr ⟨summaryIn, ?_⟩, same.symm⟩
  have alone : summary.Summarizes (fun other => other = candidate) := by
    refine (gathered.union summary summaryIn).congr fun other => ?_
    constructor
    · rintro ⟨otherIn, otherSame⟩
      exact eq_of_distinct distinct otherIn member (otherSame.trans same.symm)
    · rintro rfl
      exact ⟨member, same⟩
  rw [(alone.sameFacts (PreparedCandidate.summarizes_single candidate)).isEligibleFor]
  exact eligible

/-! ### The alternatives -/

/-- An alternative is a listed candidate of another identity. -/
theorem mem_alternativesFor {context : DifferenceContext} {package : ResolvedPackage}
    {candidates : List PreparedCandidate} {alternative : AlternativeComparison}
    (member : alternative ∈ provider.alternativesFor context package candidates) :
    ∃ candidate ∈ candidates, alternative.candidate.identity = some candidate.identity := by
  obtain ⟨entry, entryIn, rfl⟩ := List.mem_map.mp member
  obtain ⟨candidate, candidateIn, differs⟩ := List.mem_filterMap.mp (Sorting.mem_sortBy.mp entryIn)
  obtain ⟨difference, -, rfl⟩ := Option.map_eq_some_iff.mp differs
  exact ⟨candidate, (List.mem_filter.mp candidateIn).1, candidateForSubject_identity _ _⟩

/-- Alternatives among distinct identities are distinct. -/
theorem alternativesFor_distinct {context : DifferenceContext} {package : ResolvedPackage}
    {candidates : List PreparedCandidate} (distinct : DistinctIdentities candidates) :
    (provider.alternativesFor context package candidates).Pairwise (fun left right =>
      ¬ Same left.candidate.identity right.candidate.identity) := by
  unfold alternativesFor
  dsimp only
  rw [List.pairwise_map]
  refine ((Sorting.sortBy_perm _ _).pairwise_iff ?_).mpr ?_
  · intro left right differs same
    exact differs same.symm
  · rw [List.pairwise_filterMap]
    refine (distinct.filter _).imp ?_
    intro left right differs entry entryIs other otherIs
    obtain ⟨_, -, rfl⟩ := Option.map_eq_some_iff.mp entryIs
    obtain ⟨_, -, rfl⟩ := Option.map_eq_some_iff.mp otherIs
    rw [candidateForSubject_identity, candidateForSubject_identity, same_some]
    exact differs

/-- The alternatives among distinct identities of one name do not depend on their order. -/
theorem alternativesFor_perm {unprintable : Char → Bool}
    (shown : provider.debug.provenance = Provenance.debug unprintable)
    (context : DifferenceContext) (package : ResolvedPackage)
    {candidates shuffled : List PreparedCandidate} (distinct : DistinctIdentities candidates)
    {name : Option PackageName}
    (named : ∀ candidate ∈ candidates, name = some candidate.identity.name)
    (perm : candidates.Perm shuffled) :
    provider.alternativesFor context package candidates =
      provider.alternativesFor context package shuffled := by
  have versions := transCmp_image RPackageVersion.cmp
    (fun candidate : PreparedCandidate => candidate.release.version)
  have forward : Std.TransCmp provider.compareAlternatives := by
    unfold compareAlternatives
    infer_instance
  have ordered := transCmp_image provider.compareAlternatives
    (fun entry : PreparedCandidate × AssignmentDifference => entry.1)
  unfold alternativesFor
  dsimp only
  congr 1
  refine Sorting.sortBy_eq_of_perm _ ((perm.filter _).filterMap _) ?_
  intro first firstIn second secondIn tied
  obtain ⟨left, leftIn, leftDiffers⟩ := List.mem_filterMap.mp firstIn
  obtain ⟨right, rightIn, rightDiffers⟩ := List.mem_filterMap.mp secondIn
  obtain ⟨_, -, rfl⟩ := Option.map_eq_some_iff.mp leftDiffers
  obtain ⟨_, -, rfl⟩ := Option.map_eq_some_iff.mp rightDiffers
  have leftListed := (List.mem_filter.mp leftIn).1
  have rightListed := (List.mem_filter.mp rightIn).1
  have same : Same left.identity right.identity := by
    by_contra differs
    simp only [compareAlternatives, compareLex_eq_eq] at tied
    refine (compareKeys_congr shown (PreparedCandidate.SameFacts.refl left)
      (PreparedCandidate.SameFacts.refl right) ?_ tied.1 differs).2 tied.2
    exact Option.some.inj ((named left leftListed).symm.trans (named right rightListed))
  obtain rfl := eq_of_distinct distinct leftListed rightListed same
  rw [leftDiffers] at rightDiffers
  exact Option.some.inj rightDiffers

/-! ### Assignments -/

/-- A resolved package is listed for its subject. -/
theorem listed_of_resolved {pubgrub : PubGrub} (sound : pubgrub.SoundFor provider)
    (agrees : releases.Agrees provider.loader) {fuel : Nat} {resolution : Resolution}
    (solved : provider.solve pubgrub fuel = some (.ok resolution)) {package : ResolvedPackage}
    (member : package ∈ resolution.packages) :
    ∃ result, provider.loader package.subject = .ok result ∧
      releases package.subject = .ok result.candidates ∧
      ∃ candidate ∈ result.candidates, Same candidate.identity package.identity := by
  obtain ⟨selected, transcript, state, driven⟩ := provider.driven_of_solve solved
  obtain ⟨reached, -⟩ := provider.drive_ends .start driven
  obtain ⟨packages, found, solvedTo, -, gathers, projects⟩ := provider.solve_of_driven sound driven
  obtain rfl : found = resolution := by simpa [solvedTo] using solved
  obtain ⟨name, selection, stored, accepted⟩ := (projects.projected package).mp member
  have gathered := gathers.sound name selection stored
  obtain ⟨expansion, -, shaped⟩ := bind_eq_ok.mp accepted
  obtain rfl := Except.ok.inj shaped
  obtain ⟨id, candidate, supported, facts⟩ := gathered.gathered _ gathered.represented
  obtain ⟨loaded, view, listed⟩ := supported.visible
  obtain ⟨key, same, loads⟩ := reached.answered.1.cached _ loaded view
  obtain ⟨result, visible, offered, shown, paired, -⟩ := loads.prepared
  have lists : releases selection.subject = .ok result.candidates := by
    rw [agrees _ _ same.symm, offered]
    rfl
  have own := agrees selection.subject selection.subject (Same.refl _)
  rw [lists] at own
  cases loads : provider.loader selection.subject with
  | error cause =>
    rw [loads] at own
    simp [Except.map] at own
  | ok other =>
    rw [loads] at own
    have equal : result.candidates = other.candidates := Except.ok.inj own
    obtain ⟨unique, collected, -⟩ := bind_eq_ok.mp shown
    have visibleIn : candidate ∈ visible := paired ▸ List.mem_map_of_mem listed
    obtain ⟨observed, observedIn, sameObserved⟩ := ((uniqueCandidates_gathered collected).union _
      ((provider.mem_visibleCandidates collected shown).mp visibleIn).1).inhabited
    exact ⟨other, rfl, by rw [← equal, lists], observed, equal ▸ observedIn,
      sameObserved.trans facts.identity.symm⟩

/-- The assignment of a resolved package whose subject lists it. -/
theorem assignmentFor_of_listed (resolution : Resolution) (selected : List ResolvedPackage)
    {package : ResolvedPackage} {candidates : List PreparedCandidate}
    (lists : releases package.subject = .ok candidates)
    (found : ∃ candidate ∈ candidates, Same candidate.identity package.identity) :
    ∃ selectedCandidate ∈ candidates, Same selectedCandidate.identity package.identity ∧
      provider.assignmentFor releases resolution selected package = .ok
        ⟨subjectToDecisionSubject package.subject,
          candidateForSubject package.subject package.release,
          assignmentBasis provider.request package.subject resolution.target.rVersion
            (rootExpansionForPackage provider.request package.name)
            (provider.lockDecision package.subject) package candidates,
          provider.alternativesFor (provider.differenceContext resolution selected package
            selectedCandidate) package candidates⟩ := by
  cases looked : candidates.find? (fun candidate =>
      decide (Same candidate.identity package.identity)) with
  | none =>
    obtain ⟨candidate, member, same⟩ := found
    simpa [same] using List.find?_eq_none.mp looked candidate member
  | some selectedCandidate =>
    refine ⟨selectedCandidate, List.mem_of_find?_eq_some looked,
      by simpa using List.find?_some looked, ?_⟩
    simp only [assignmentFor, loadCandidates, lists, Except.mapError, ok_bind, looked]
    rfl

/-- The basis of an assignment does not depend on the order of the candidates. -/
theorem assignmentBasis_perm (request : ResolutionRequest) (subject : SolverKey)
    (rVersion : RPackageVersion) (expansion : RootExpansionPolicy) (decision : LockDecision)
    (selected : ResolvedPackage) {candidates shuffled : List PreparedCandidate}
    (perm : candidates.Perm shuffled) :
    assignmentBasis request subject rVersion expansion decision selected candidates =
      assignmentBasis request subject rVersion expansion decision selected shuffled := by
  have opened : openBasis request subject rVersion expansion selected candidates =
      openBasis request subject rVersion expansion selected shuffled := by
    unfold openBasis
    rw [perm.any_eq, perm.countP_eq]
  unfold assignmentBasis
  rw [opened]

section Plain

variable {unprintable : Char → Bool}
  (shown : provider.debug.provenance = Provenance.debug unprintable)
  {resolution : Resolution} (plain : releases.ListsPlainly resolution)
  {package : ResolvedPackage} (member : package ∈ resolution.packages)
include plain member

/-- An assignment made from a plain list explains its package. -/
theorem explainsPackage_of_plain {result : CandidateLoadResult}
    (offered : provider.loader package.subject = .ok result)
    (lists : releases package.subject = .ok result.candidates) {context : DifferenceContext}
    {basis : AssignmentBasis} :
    provider.ExplainsPackage package ⟨subjectToDecisionSubject package.subject,
      candidateForSubject package.subject package.release, basis,
      provider.alternativesFor context package result.candidates⟩ where
  subject := rfl
  assigned := rfl
  offered := by
    obtain ⟨distinct, eligible⟩ := plain package member _ lists
    intro alternative listed
    obtain ⟨candidate, candidateIn, identity⟩ := mem_alternativesFor listed
    exact ⟨candidate.identity, identity,
      offersIdentity_of_mem offered distinct candidateIn (eligible candidate candidateIn)⟩
  once := alternativesFor_distinct (plain package member _ lists).1

include shown

/-- An assignment made from a plain list does not depend on its order. -/
theorem assignmentFor_perm {shuffled : ReleaseLister} {candidates other : List PreparedCandidate}
    (lists : releases package.subject = .ok candidates)
    (listsOther : shuffled package.subject = .ok other) (perm : candidates.Perm other)
    (found : ∃ candidate ∈ candidates, Same candidate.identity package.identity)
    (selected : List ResolvedPackage) :
    provider.assignmentFor shuffled resolution selected package =
      provider.assignmentFor releases resolution selected package := by
  obtain ⟨distinct, eligible⟩ := plain package member _ lists
  have foundOther : ∃ candidate ∈ other, Same candidate.identity package.identity := by
    obtain ⟨candidate, candidateIn, same⟩ := found
    exact ⟨candidate, perm.mem_iff.mp candidateIn, same⟩
  obtain ⟨first, firstIn, firstSame, made⟩ :=
    provider.assignmentFor_of_listed resolution selected lists found
  obtain ⟨second, secondIn, secondSame, madeOther⟩ :=
    provider.assignmentFor_of_listed resolution selected listsOther foundOther
  obtain rfl := eq_of_distinct distinct firstIn (perm.mem_iff.mpr secondIn)
    (firstSame.trans secondSame.symm)
  rw [made, madeOther, assignmentBasis_perm _ _ _ _ _ _ perm]
  refine congrArg (fun alternatives => Except.ok (SubjectAssignment.mk _ _ _ alternatives)) ?_
  exact (provider.alternativesFor_perm shown _ package distinct
    (fun candidate candidateIn => PreparedCandidate.name_of_isEligibleFor
      (eligible candidate candidateIn)) perm).symm

end Plain

end Provider

namespace Small

/-- The releases of a loader, as it loads them. -/
def lister (provider : Provider) : ReleaseLister :=
  fun subject => (provider.loader subject).map CandidateLoadResult.candidates

/-- The loader of a provider of candidates lists what it loads. -/
theorem lister_agrees {offered : List PreparedCandidate} {request : ResolutionRequest} :
    (lister { observing offered with request := request }).Agrees (observing offered).loader := by
  intro left right same
  simp only [lister, observing, provider, SolverKey.subjectName_congr same]

/-- A provider of candidates that is asked for a package. -/
def explaining (offered : List PreparedCandidate) : Provider :=
  { observing offered with
    request := (provider [] [requirement alpha .unconstrained] none).request }

/-- A newer release and an older one. -/
def listedOnce : List PreparedCandidate :=
  [candidateIn repository 0 alpha newer, candidateIn repository 0 alpha older]

/-- A newer release and an older one that two repositories offer. -/
def listedTwice : List PreparedCandidate :=
  listedOnce ++ [candidateIn mirror 1 alpha older]

/-- The selection of the newer release. -/
def explainedSelection : List (PackageId × SolverVersion) :=
  [(.root, .root), (.subject .r, .r newer), (.subject (.installedName alpha), second),
    (.occupancy alpha, second)]

/-- Distinct identities are decided pair by pair. -/
instance (candidates : List PreparedCandidate) : Decidable (DistinctIdentities candidates) :=
  inferInstanceAs (Decidable (candidates.Pairwise _))

/-- Whether the loader lists plainly, as a test. -/
def listsPlainly (releases : ReleaseLister) (resolution : Resolution) : Bool :=
  resolution.packages.all (fun package => (releases package.subject).toOption.all (fun listed =>
    decide (DistinctIdentities listed) &&
      listed.all (fun candidate => candidate.isEligibleFor package.subject)))

/-- The test finds plain lists. -/
theorem listsPlainly_of_test {releases : ReleaseLister} {resolution : Resolution}
    (passed : listsPlainly releases resolution = true) : releases.ListsPlainly resolution := by
  intro package member listed lists
  have checked := List.all_eq_true.mp passed package member
  rw [lists] at checked
  simp only [Except.toOption, Option.all_some, Bool.and_eq_true, decide_eq_true_eq,
    List.all_eq_true] at checked
  exact checked

end Small

namespace Provider

end Provider

end Rsolve
