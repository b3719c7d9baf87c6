import Rsolve.Resolver.Health

/-!
# Plans

A plan chooses one release for every package name of a set of subjects, such that the release is
selectable for every subject of the set and the merged requirements of the root and of the chosen
releases stay within the set. A plan is an assignment that satisfies everything the provider can
answer, so a complete solver never reports that there is no solution.
-/
open Keyed Checked Growth Intervals

namespace Rsolve

/-! ### What is assumed of the solver -/

/-- A choice of versions for solver packages. -/
abbrev Assignment := PackageId → Option SolverVersion

/-- An assignment meets every entry of a dependency answer. -/
def Assignment.Meets (assignment : Assignment) (constraints : KeyedMap PackageId VersionRange) :
    Prop :=
  ∀ entry ∈ constraints.entries, ∃ version, assignment entry.1 = some version ∧
    VersionRange.has entry.2 version = true

/-- An assignment satisfies the recorded answers. -/
structure Assignment.Satisfies (assignment : Assignment) (transcript : Transcript) : Prop where
  /-- Equal packages have one version. -/
  respects : ∀ left right, Same left right → assignment left = assignment right
  /-- The root has its version. -/
  root : assignment .root = some .root
  /-- The dependencies of an assigned version are met. -/
  available : ∀ package version constraints found,
    (Call.getDependencies package version, Reply.dependencies (.available constraints)) ∈ transcript →
    assignment package = some found → Same version found → assignment.Meets constraints
  /-- No unavailable version is assigned. -/
  unavailable : ∀ package version message found,
    (Call.getDependencies package version, Reply.dependencies (.unavailable message)) ∈ transcript →
    assignment package = some found → ¬ Same version found
  /-- No version is assigned within a range without versions. -/
  noVersions : ∀ package range found,
    (Call.chooseVersion package range, Reply.chosen none) ∈ transcript →
    assignment package = some found → VersionRange.has range found = false

/-- The solver reports no solution only when no assignment satisfies the recorded answers. -/
def PubGrub.CompleteFor (pubgrub : PubGrub) (provider : Provider) : Prop :=
  ∀ transcript state tree, provider.Reaches pubgrub transcript state →
    pubgrub.next transcript = .noSolution tree →
    ¬ ∃ assignment : Assignment, assignment.Satisfies transcript

/-- A version of a package lies in a range some recorded dependency answer gave for it. -/
def Demanded (transcript : Transcript) (package : PackageId) (version : SolverVersion) : Prop :=
  ∃ asked found constraints,
    (Call.getDependencies asked found, Reply.dependencies (.available constraints)) ∈ transcript ∧
    ∃ entry ∈ constraints.entries, Same entry.1 package ∧ VersionRange.has entry.2 version = true

/-- A recorded dependency answer names a package. -/
def Mentioned (transcript : Transcript) (package : PackageId) : Prop :=
  ∃ asked found constraints,
    (Call.getDependencies asked found, Reply.dependencies (.available constraints)) ∈ transcript ∧
    ∃ entry ∈ constraints.entries, Same entry.1 package

/-- A recorded answer chose a version of a package. -/
def Chosen (transcript : Transcript) (package : PackageId) (version : SolverVersion) : Prop :=
  ∃ range, (Call.chooseVersion package range, Reply.chosen (some version)) ∈ transcript

/-- The solver asks only about what recorded answers require: it starts from the root, it asks about
packages that dependencies name, within the ranges they give, and it asks for the dependencies of
chosen versions. -/
structure PubGrub.DisciplinedFor (pubgrub : PubGrub) (provider : Provider) : Prop where
  /-- Prioritized packages are named by dependencies. -/
  prioritized : ∀ transcript state package range, provider.Reaches pubgrub transcript state →
    pubgrub.next transcript = .ask (.prioritize package range) →
    package = .root ∨ Mentioned transcript package
  /-- Versions are chosen for packages named by dependencies. -/
  packages : ∀ transcript state package range, provider.Reaches pubgrub transcript state →
    pubgrub.next transcript = .ask (.chooseVersion package range) →
    package = .root ∨ Mentioned transcript package
  /-- Versions are chosen within ranges given by dependencies. -/
  ranges : ∀ transcript state package range, provider.Reaches pubgrub transcript state →
    pubgrub.next transcript = .ask (.chooseVersion package range) → package ≠ .root →
    ∀ version, range.has version = true → Demanded transcript package version
  /-- Dependencies are asked of chosen versions. -/
  dependencies : ∀ transcript state package version, provider.Reaches pubgrub transcript state →
    pubgrub.next transcript = .ask (.getDependencies package version) →
    (package = .root ∧ version = .root) ∨ Chosen transcript package version

/-- The run of the solver ends. -/
def PubGrub.TerminatesFor (pubgrub : PubGrub) (provider : Provider) : Prop :=
  ∃ fuel outcome, provider.drive pubgrub fuel [] .initial = some outcome

namespace Provider

variable (provider : Provider)

/-- Every record of a run was the answer to the next question at some point of it. -/
theorem Reaches.exists_of_mem {provider : Provider} {pubgrub : PubGrub} {transcript : Transcript}
    {state : ProviderState} (reached : provider.Reaches pubgrub transcript state)
    {record : Call × Reply} (member : record ∈ transcript) :
    ∃ before earlier later, provider.Reaches pubgrub before earlier ∧
      pubgrub.next before = .ask record.1 ∧
      provider.answer record.1 earlier = (.ok record.2, later) := by
  induction reached with
  | start => simp at member
  | step before asked answered ih =>
    rcases List.mem_append.mp member with old | new
    · exact ih old
    · obtain rfl := List.mem_singleton.mp new
      exact ⟨_, _, _, before, asked, answered⟩

/-! ### Plans -/

/-- The merged requirements stay within a set of subjects and admit the chosen releases. -/
def Settled (touched : SolverKey → Prop) (chosen : List PreparedCandidate)
    (requirements : List (SolverKey × VersionConstraint)) : Prop :=
  ∀ subject last, (KeyedMap.ofList requirements).get? subject = some last →
    (subject = .r → last.satisfies provider.rVersion = true) ∧
    (subject ≠ .r → touched subject ∧ ∀ candidate ∈ chosen,
      subject.subjectName = some candidate.identity.name →
      last.satisfies candidate.release.version = true)

/-- A candidate may be selected by a subject. -/
structure Selectable (subject : SolverKey) (candidate : PreparedCandidate) : Prop where
  /-- The candidate is a candidate of the subject's package. -/
  named : subject.subjectName = some candidate.identity.name
  /-- The subject sees the candidate. -/
  visible : ∀ visible, provider.Shows subject visible →
    ∃ shown ∈ visible, shown.SameFacts candidate
  /-- The lock decision admits the candidate. -/
  required : meetsRequired (provider.lockDecision subject) candidate = true
  /-- The cutoff admits the candidate. -/
  passes : provider.PassesCutoff subject candidate

/-- A choice of releases for a set of subjects that answers every requirement within the set. -/
structure Plan (touched : SolverKey → Prop) (chosen : List PreparedCandidate) : Prop where
  /-- One release is chosen for a package name. -/
  distinct : chosen.Pairwise (fun left right => left.identity.name ≠ right.identity.name)
  /-- The set does not depend on spelling. -/
  closed : ∀ left right, Same left right → touched left → touched right
  /-- Every subject of the set may select a chosen release. -/
  selectable : ∀ subject, touched subject → ∃ candidate ∈ chosen,
    provider.Selectable subject candidate
  /-- The requirements of the root are settled. -/
  roots : provider.Settled touched chosen provider.rootRequirements
  /-- No edge of a chosen release is Git-sourced. -/
  plain : ∀ subject candidate expansion, touched subject → candidate ∈ chosen →
    subject.subjectName = some candidate.identity.name →
    provider.expansionForSubject subject = .ok expansion →
    ∀ edge ∈ projectDependencyEdges candidate.release expansion, ¬ IsGitSourced edge.package
  /-- The requirements of a chosen release are settled. -/
  edges : ∀ subject candidate expansion, touched subject → candidate ∈ chosen →
    subject.subjectName = some candidate.identity.name →
    provider.expansionForSubject subject = .ok expansion →
    provider.Settled touched chosen (provider.edgeRequirements candidate.release expansion)

/-- The id of the release chosen for a package name. -/
def chosenId (chosen : List PreparedCandidate) (interner : CandidateInterner)
    (name : Option PackageName) : Option CandidateId :=
  (chosen.find? (fun candidate => some candidate.identity.name == name)).bind (fun candidate =>
    interner.byIdentity.get? candidate.identity)

open Classical in
/-- The assignment of a plan in a state. -/
noncomputable def planned (touched : SolverKey → Prop) (chosen : List PreparedCandidate)
    (state : ProviderState) : Assignment
  | .root => some .root
  | .subject subject =>
    if subject = .r then some (.r provider.rVersion)
    else if touched subject then
      (chosenId chosen state.interner subject.subjectName).map .candidate
    else none
  | .occupancy name => (chosenId chosen state.interner (some name)).map .candidate

/-- Settled requirements stay settled for a release with the same dependencies. -/
theorem Settled.congr {touched : SolverKey → Prop} {chosen : List PreparedCandidate}
    {left right : PackageRelease} {expansion : RootExpansionPolicy}
    (settled : provider.Settled touched chosen (provider.edgeRequirements left expansion))
    (same : Same left.declaredDependencies right.declaredDependencies) :
    provider.Settled touched chosen (provider.edgeRequirements right expansion) := by
  intro subject last stored
  obtain ⟨first, second, ⟨-, constraints⟩, -, storedFirst, rfl⟩ := KeyedMap.get?_ofList_related
    (provider.edgeRequirements_related same expansion)
    (fun first second related =>
      show Same first.1 subject ↔ Same second.1 subject from related.1.congr_left subject) stored
  have satisfies := VersionConstraint.satisfies_congr_constraint constraints
  simp only [← satisfies]
  exact settled subject first.2 storedFirst

section Planned

variable {provider} {touched : SolverKey → Prop} {chosen : List PreparedCandidate}
  (plan : provider.Plan touched chosen)
include plan

/-- A package name has one chosen release. -/
theorem Plan.unique {left right : PreparedCandidate} (leftIn : left ∈ chosen)
    (rightIn : right ∈ chosen) (named : left.identity.name = right.identity.name) :
    left = right := by
  have symmetric : Std.Symm (fun first second : PreparedCandidate =>
      first.identity.name ≠ second.identity.name) := ⟨fun _ _ differs => differs.symm⟩
  by_contra differs
  exact plan.distinct.forall leftIn rightIn differs named

/-- The chosen id of a package name is the id of the chosen release. -/
theorem Plan.chosenId_eq {candidate : PreparedCandidate} (member : candidate ∈ chosen)
    (interner : CandidateInterner) :
    chosenId chosen interner (some candidate.identity.name) =
      interner.byIdentity.get? candidate.identity := by
  unfold chosenId
  cases found : chosen.find? (fun other => some other.identity.name ==
      some candidate.identity.name) with
  | none => simpa using List.find?_eq_none.mp found candidate member
  | some other =>
    have named : other.identity.name = candidate.identity.name := by
      simpa using List.find?_some found
    rw [plan.unique (List.mem_of_find?_eq_some found) member named]
    rfl

/-- A loaded subject of the set holds its chosen release under the chosen id. -/
theorem Plan.exists_entry {state : ProviderState} (wellFormed : provider.WellFormed state)
    {subject : SolverKey} (within : touched subject) {loaded : LoadedSubject}
    (view : state.View subject loaded) :
    ∃ candidate ∈ chosen, provider.Selectable subject candidate ∧
      ∃ entry ∈ loaded.candidates, entry.2.SameFacts candidate ∧
        chosenId chosen state.interner subject.subjectName = some entry.1 := by
  obtain ⟨key, same, loads⟩ := wellFormed.cached subject loaded view
  obtain ⟨result, visible, offered, shown, listed, -⟩ := loads.prepared
  obtain ⟨candidate, member, selectable⟩ := plan.selectable subject within
  obtain ⟨other, otherIn, otherSelectable⟩ :=
    plan.selectable key (plan.closed subject key same.symm within)
  have named : other.identity.name = candidate.identity.name := by
    have names := otherSelectable.named
    rw [SolverKey.subjectName_congr same, selectable.named] at names
    exact (Option.some.inj names).symm
  obtain rfl := plan.unique otherIn member named
  obtain ⟨found, foundIn, facts⟩ := otherSelectable.visible visible ⟨result, offered, shown⟩
  rw [← listed] at foundIn
  obtain ⟨entry, entryIn, rfl⟩ := List.mem_map.mp foundIn
  refine ⟨other, member, selectable, entry, entryIn, facts, ?_⟩
  rw [selectable.named, plan.chosenId_eq member,
    ← state.interner.byIdentity.get?_congr facts.identity]
  exact (view_interned wellFormed view entryIn).1

/-- Settled entries are met by the assignment of a plan. -/
theorem Plan.entry_met {state : ProviderState} (wellFormed : provider.WellFormed state)
    {requirements : List (SolverKey × VersionConstraint)}
    {entries : List (PackageId × VersionRange)}
    (paired : List.Forall₂ (provider.EntryFor state) requirements entries)
    (settled : provider.Settled touched chosen requirements) {subject : SolverKey}
    {range : VersionRange}
    (stored : (KeyedMap.ofList entries).get? (.subject subject) = some range) :
    ∃ version, provider.planned touched chosen state (.subject subject) = some version ∧
      range.has version = true := by
  obtain ⟨⟨key, last⟩, ⟨_, _⟩, ⟨rfl, ranged⟩, sameKey, lastStored, rfl⟩ :=
    KeyedMap.get?_ofList_related paired (fun first second related =>
      show Same first.1 subject ↔ Same second.1 (PackageId.subject subject) by
        rw [related.1]
        exact ⟨congrArg PackageId.subject, PackageId.subject.inj⟩) stored
  obtain ⟨runtime, ordinary⟩ := settled subject last lastStored
  rcases ranged with ⟨isRuntime, ranged⟩ | ⟨differs, loaded, view, ranged⟩
  · dsimp only at isRuntime ranged sameKey ⊢
    subst isRuntime ranged
    obtain rfl := eq_r_of_same sameKey.symm
    refine ⟨.r provider.rVersion, by simp [planned], ?_⟩
    rw [rRange, if_pos (runtime rfl)]
    simp
  · dsimp only at differs view ranged sameKey ⊢
    subst ranged
    have different : subject ≠ .r := by
      rintro rfl
      exact differs (eq_r_of_same sameKey)
    obtain ⟨within, satisfied⟩ := ordinary different
    obtain ⟨candidate, member, selectable, entry, entryIn, facts, assigned⟩ :=
      plan.exists_entry wellFormed (plan.closed subject key sameKey.symm within) view
    refine ⟨.candidate entry.1, ?_, has_admittedRange.mpr ⟨entry, entryIn, ?_, rfl⟩⟩
    · rw [SolverKey.subjectName_congr sameKey] at assigned
      simp [planned, different, within, assigned]
    · rw [last.satisfies_congr facts.version]
      refine satisfied candidate member ?_
      rw [← SolverKey.subjectName_congr sameKey]
      exact selectable.named

/-- In a plan's assignment, an assigned subject of a visible id is assigned its chosen release. -/
theorem Plan.assigned {state : ProviderState} (wellFormed : provider.WellFormed state)
    {subject : SolverKey} (differs : subject ≠ .r) {id : CandidateId}
    {candidate : PreparedCandidate} (visible : state.Visible subject id candidate)
    (assigned : provider.planned touched chosen state (.subject subject) = some (.candidate id)) :
    touched subject ∧ ∃ picked ∈ chosen, provider.Selectable subject picked ∧
      candidate.SameFacts picked ∧
      chosenId chosen state.interner subject.subjectName = some id := by
  simp only [planned, differs, if_false] at assigned
  split at assigned
  · next within =>
    obtain ⟨loaded, view, member⟩ := visible
    obtain ⟨picked, pickedIn, selectable, ⟨entryId, shown⟩, entryIn, facts, found⟩ :=
      plan.exists_entry wellFormed within view
    obtain rfl : entryId = id := by simpa [found] using assigned
    obtain ⟨-, rfl⟩ := Prod.mk.inj (view_id_eq wellFormed view entryIn member rfl)
    exact ⟨within, picked, pickedIn, selectable, facts, found⟩
  · simp at assigned

/-- The assignment of a plan respects the equality of packages. -/
theorem Plan.respects (state : ProviderState) {left right : PackageId} (same : Same left right) :
    provider.planned touched chosen state left = provider.planned touched chosen state right := by
  cases left with
  | subject subject =>
    obtain ⟨key, rfl, sameKey⟩ := eq_subject_of_same same.symm
    have runtime : subject = .r ↔ key = .r :=
      ⟨fun equal => eq_r_of_same (equal ▸ sameKey), fun equal => eq_r_of_same (equal ▸ sameKey.symm)⟩
    have within : touched subject ↔ touched key :=
      ⟨plan.closed _ _ sameKey.symm, plan.closed _ _ sameKey⟩
    simp only [planned, runtime, SolverKey.subjectName_congr sameKey]
    by_cases inside : touched subject
    · simp only [inside, within.mp inside, if_true]
    · simp only [inside, mt within.mpr inside, if_false]
  | root => cases right <;> simp_all [Same, representative]
  | occupancy name => cases right <;> simp_all [Same, representative]

/-- The dependencies of an assigned version are met. -/
theorem Plan.available {state : ProviderState} (wellFormed : provider.WellFormed state)
    {package : PackageId} {version found : SolverVersion}
    {constraints : KeyedMap PackageId VersionRange}
    (answered : provider.DependencyAnswer state package version (.available constraints))
    (assigned : provider.planned touched chosen state package = some found)
    (agrees : Same version found) :
    Assignment.Meets (provider.planned touched chosen state) constraints := by
  intro entry member
  have stored : constraints.get? entry.1 = some entry.2 :=
    (KeyedMap.get?_eq_some_iff _ _ _).mpr ⟨entry, member, Same.refl _, rfl⟩
  cases answered with
  | root entries entered =>
    obtain ⟨source, sourceIn, same, -⟩ := KeyedMap.mem_ofList member
    have paired : List.Forall₂ (provider.EntryFor state) provider.rootRequirements
        ((.subject .r, provider.rRange provider.request.rRequirement) :: entries) :=
      List.Forall₂.cons ⟨rfl, Or.inl ⟨rfl, rfl⟩⟩ (entriesFor_keyed entered)
    obtain ⟨subject, keyed⟩ : ∃ subject, entry.1 = .subject subject := by
      rcases List.mem_cons.mp sourceIn with rfl | sourceIn
      · obtain ⟨key, keyed, -⟩ := eq_subject_of_same same.symm
        exact ⟨key, keyed⟩
      · obtain ⟨_, -, key, -, keyed, -⟩ := entered.subject sourceIn
        rw [keyed] at same
        obtain ⟨key, keyed, -⟩ := eq_subject_of_same same.symm
        exact ⟨key, keyed⟩
    rw [keyed] at stored ⊢
    exact plan.entry_met wellFormed paired plan.roots stored
  | r version => simp [KeyedMap.empty] at member
  | occupancy name version => simp [KeyedMap.empty] at member
  | admitted subject id candidate expansion entries differs visible passes expanded entered =>
    obtain rfl := SolverVersion.eq_candidate_of_same agrees
    obtain ⟨within, picked, pickedIn, selectable, facts, found⟩ :=
      plan.assigned wellFormed differs visible assigned
    have names := (ReleaseIdentity.same_iff.mp facts.identity).1
    obtain ⟨source, sourceIn, same, equal⟩ := KeyedMap.mem_ofList member
    rcases List.mem_cons.mp sourceIn with rfl | sourceIn
    · refine ⟨.candidate id, ?_, by rw [← equal]; simp⟩
      rw [← plan.respects state same]
      rw [selectable.named, ← names] at found
      simp [planned, found]
    · obtain ⟨_, -, key, -, keyed, -⟩ := entered.subject sourceIn
      rw [keyed] at same
      obtain ⟨key, keyed, -⟩ := eq_subject_of_same same.symm
      rw [keyed, get?_ofList_occupancy] at stored
      rw [keyed]
      have settled := (plan.edges subject picked expansion within pickedIn selectable.named
        expanded).congr provider facts.symm.declaredDependencies
      exact plan.entry_met wellFormed (entriesFor_keyed entered) settled stored

omit plan in
/-- A candidate with the facts of a selectable one has no rejections. -/
theorem Selectable.candidateRejections_eq_nil {subject : SolverKey} {id : CandidateId}
    {candidate picked : PreparedCandidate} (selectable : provider.Selectable subject picked)
    (facts : candidate.SameFacts picked) :
    provider.candidateRejections subject id candidate = [] := by
  unfold candidateRejections
  split
  · rw [List.eq_nil_iff_forall_not_mem]
    intro found listed
    cases given : provider.request.publicationCutoff with
    | none => simp [publicationRejections, given] at listed
    | some cutoff =>
      obtain ⟨entry, entryIn, rejected⟩ := (provider.mem_publicationRejections given).mp listed
      obtain rfl := List.mem_singleton.mp entryIn
      have admitted : AdmittedBy cutoff.date (provider.lockDecision subject).locked candidate := by
        rcases selectable.passes cutoff given with base | locked | dated
        · refine Or.inl ?_
          rw [PackageRelease.isRBasePackage] at base ⊢
          rw [← base]
          exact Provenance.isRBasePackage_congr
            (ReleaseIdentity.same_iff.mp facts.identity).2
        · exact Or.inr (Or.inl (locked.trans (same_some.mpr facts.identity.symm)))
        · rw [← facts.publication] at dated
          exact Or.inr (Or.inr dated)
      rw [rejection_eq_none.mpr admitted] at rejected
      simp at rejected
  · rfl

/-- No unavailable version is assigned. -/
theorem Plan.unavailable {state : ProviderState} (wellFormed : provider.WellFormed state)
    {package : PackageId} {version found : SolverVersion} {message : ProviderMessage}
    (answered : provider.DependencyAnswer state package version (.unavailable message))
    (assigned : provider.planned touched chosen state package = some found) :
    ¬ Same version found := by
  intro agrees
  cases answered with
  | rejected subject id candidate _ differs visible refused =>
    obtain rfl := SolverVersion.eq_candidate_of_same agrees
    obtain ⟨-, picked, -, selectable, facts, -⟩ := plan.assigned wellFormed differs visible assigned
    exact refused (selectable.candidateRejections_eq_nil facts)
  | gitSourced subject id candidate expansion edge _ differs visible expanded projected git =>
    obtain rfl := SolverVersion.eq_candidate_of_same agrees
    obtain ⟨within, picked, pickedIn, selectable, facts, -⟩ :=
      plan.assigned wellFormed differs visible assigned
    obtain ⟨other, otherIn, same⟩ := exists_edge_of_same facts.declaredDependencies projected
    refine plan.plain subject picked expansion within pickedIn selectable.named expanded other
      otherIn ?_
    obtain ⟨repository, source⟩ := git
    refine ⟨repository, ?_⟩
    rcases DependencySourceConstraint.same_cases (PackageRequirement.same_iff.mp same).2.1 with
      equal | ⟨_, _, -, exactSource, -⟩
    · rw [equal, source]
    · rw [source] at exactSource
      simp at exactSource
  | foreign _ _ _ kind =>
    rcases kind with ⟨rfl, differs⟩ | ⟨⟨subject, rfl, differs⟩, foreign⟩
    · obtain rfl := Option.some.inj assigned
      cases version <;> simp_all [Same, representative]
    · simp only [planned, differs, if_false] at assigned
      split at assigned
      · obtain ⟨id, -, rfl⟩ := Option.map_eq_some_iff.mp assigned
        exact foreign id (SolverVersion.eq_candidate_of_same agrees.symm)
      · simp at assigned

/-- No version is assigned within a range for which none was chosen. -/
theorem Plan.noVersions {state : ProviderState} (wellFormed : provider.WellFormed state)
    {package : PackageId} {range : VersionRange} {version : SolverVersion}
    (answered : provider.ChoiceAnswer state package range none)
    (named : ∀ name, package ≠ .occupancy name)
    (assigned : provider.planned touched chosen state package = some version) :
    range.has version = false := by
  generalize nothing : (none : Option SolverVersion) = choice at answered
  cases answered with
  | root range =>
    obtain rfl := Option.some.inj assigned
    split at nothing
    · simp at nothing
    · simp_all
  | r range =>
    obtain rfl : SolverVersion.r provider.rVersion = version := by simpa [planned] using assigned
    split at nothing
    · simp at nothing
    · simp_all
  | subject subject range loaded differs view =>
    have empty := provider.preferredCandidate_eq_none.mp (Option.map_eq_none_iff.mp nothing.symm)
    simp only [planned, differs, if_false] at assigned
    split at assigned
    · next within =>
      obtain ⟨picked, pickedIn, selectable, entry, entryIn, facts, found⟩ :=
        plan.exists_entry wellFormed within view
      obtain rfl : SolverVersion.candidate entry.1 = version := by simpa [found] using assigned
      by_contra inside
      have listed : entry ∈ provider.selectableCandidates subject range loaded := by
        refine List.mem_filter.mpr ⟨entryIn, ?_⟩
        have required : meetsRequired (provider.lockDecision subject) entry.2 = true := by
          rw [← selectable.required]
          unfold meetsRequired
          split
          · next identity _ => exact decide_eq_decide.mpr (facts.identity.congr_left identity)
          · rfl
        rw [required, Bool.true_and]
        simpa using inside
      rw [empty] at listed
      simp at listed
    · simp at assigned
  | unoccupied name range => exact absurd rfl (named name)
  | occupied name range => exact absurd rfl (named name)

omit plan in
/-- A disciplined solver is told that a demanded id of an installed name is there. -/
theorem occupant_of_demanded {pubgrub : PubGrub} {transcript : Transcript} {state : ProviderState}
    (reached : provider.Reaches pubgrub transcript state) {name : PackageName} {id : CandidateId}
    (demanded : Demanded transcript (.occupancy name) (.candidate id)) {range : VersionRange}
    (inside : range.has (.candidate id) = true) :
    provider.occupant name range state.interner ≠ none := by
  have wellFormed := reached.answered.1
  obtain ⟨asked, version, constraints, recorded, entry, entryIn, same, within⟩ := demanded
  have answered := reached.answered.2 _ recorded
  have occupied : entry.1 = .occupancy name := by
    cases key : entry.1 <;> rw [key] at same <;> simp_all [Same, representative]
  have isSubject : ∀ {packages entries}, provider.EntriesOf packages entries state →
      ∀ source ∈ entries, ¬ Same source.1 entry.1 := by
    intro packages entries entered source sourceIn sameSource
    obtain ⟨_, -, key, -, keyed, -⟩ := entered.subject sourceIn
    rw [keyed, occupied] at sameSource
    simp [Same, representative] at sameSource
  change provider.DependencyAnswer state asked version (.available constraints) at answered
  cases answered with
  | root entries entered =>
    obtain ⟨source, sourceIn, sameSource, -⟩ := KeyedMap.mem_ofList entryIn
    rcases List.mem_cons.mp sourceIn with rfl | sourceIn
    · rw [occupied] at sameSource
      simp [Same, representative] at sameSource
    · exact absurd sameSource (isSubject entered source sourceIn)
  | r version => simp [KeyedMap.empty] at entryIn
  | occupancy other version => simp [KeyedMap.empty] at entryIn
  | admitted subject found candidate expansion entries differs visible passes expanded entered =>
    obtain ⟨source, sourceIn, sameSource, equal⟩ := KeyedMap.mem_ofList entryIn
    rcases List.mem_cons.mp sourceIn with rfl | sourceIn
    · rw [occupied] at sameSource
      rw [← equal, VersionRange.has_singleton] at within
      obtain rfl : id = found := by
        simpa using SolverVersion.eq_candidate_of_same within
      obtain ⟨loaded, view, member⟩ := visible
      obtain ⟨-, existing, stored, facts⟩ := view_interned wellFormed view member
      have named : existing.identity.name = name := by
        rw [(ReleaseIdentity.same_iff.mp facts.identity).1]
        simpa [Same, representative] using sameSource
      intro absent
      have refused := List.find?_eq_none.mp absent id (mem_idsForName.mpr ⟨existing, stored, named⟩)
      exact refused inside
    · exact absurd sameSource (isSubject entered source sourceIn)

/-- The assignment of a plan satisfies everything a disciplined solver was answered. -/
theorem Plan.satisfies {pubgrub : PubGrub} (disciplined : pubgrub.DisciplinedFor provider)
    {transcript : Transcript} {state : ProviderState}
    (reached : provider.Reaches pubgrub transcript state) :
    (provider.planned touched chosen state).Satisfies transcript := by
  have wellFormed := reached.answered.1
  refine ⟨fun left right same => plan.respects state same, rfl, ?_, ?_, ?_⟩
  · intro package version constraints found recorded assigned agrees
    exact plan.available wellFormed (reached.answered.2 _ recorded) assigned agrees
  · intro package version message found recorded assigned
    exact plan.unavailable wellFormed (reached.answered.2 _ recorded) assigned
  · intro package range found recorded assigned
    by_cases named : ∃ name, package = .occupancy name
    · -- The id was interned before the question, because a dependency answer gave it.
      obtain ⟨name, rfl⟩ := named
      obtain ⟨before, earlier, later, reachedBefore, asked, answered⟩ :=
        reached.exists_of_mem recorded
      by_contra inside
      obtain ⟨id, -, rfl⟩ := Option.map_eq_some_iff.mp assigned
      have held : range.has (.candidate id) = true := by simpa using inside
      have occupied := occupant_of_demanded reachedBefore
        (disciplined.ranges before earlier _ range reachedBefore asked (by simp) _ held) held
      obtain ⟨choice, -⟩ := Prod.mk.inj answered
      have nothing : (provider.occupant name range earlier.interner).map SolverVersion.candidate =
          none := by
        simpa using Except.ok.inj choice
      exact occupied (Option.map_eq_none_iff.mp nothing)
    · exact plan.noVersions wellFormed (reached.answered.2 _ recorded)
        (fun name equal => named ⟨name, equal⟩) assigned

/-- With a plan, a complete solver does not report that there is no solution. -/
theorem Plan.not_noSolution {pubgrub : PubGrub} (complete : pubgrub.CompleteFor provider)
    (disciplined : pubgrub.DisciplinedFor provider) {transcript : Transcript}
    {state : ProviderState} (reached : provider.Reaches pubgrub transcript state)
    {tree : DerivationTree} : pubgrub.next transcript ≠ .noSolution tree :=
  fun ended => complete transcript state tree reached ended
    ⟨_, plan.satisfies disciplined reached⟩

end Planned

end Provider

end Rsolve
