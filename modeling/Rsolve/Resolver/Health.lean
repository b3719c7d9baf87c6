import Rsolve.Resolver.Edges

/-!
# Runs that do not fail

Loading fails when the loader fails, when a subject holds conflicting observations, or when two
subjects disagree about one identity. Where none of this happens among a set of subjects, every
question about these subjects is answered, and the state stays free of failures.
-/
open Keyed Checked Growth Intervals

namespace Rsolve

namespace Provider

variable (provider : Provider)

/-- The visible candidates of a subject. -/
def Shows (subject : SolverKey) (visible : List PreparedCandidate) : Prop :=
  ∃ result, provider.loader subject = .ok result ∧
    provider.visibleCandidates subject result.candidates = .ok visible

/-- A subject shows one list of candidates. -/
theorem Shows.unique {provider : Provider} {subject : SolverKey}
    {left right : List PreparedCandidate} (leftShows : provider.Shows subject left)
    (rightShows : provider.Shows subject right) : left = right := by
  obtain ⟨result, offered, shown⟩ := leftShows
  obtain ⟨other, offeredOther, shownOther⟩ := rightShows
  obtain rfl := Except.ok.inj (offered.symm.trans offeredOther)
  exact Except.ok.inj (shown.symm.trans shownOther)

/-- A set of subjects loads without conflicts. -/
structure Loadable (touched : SolverKey → Prop) : Prop where
  /-- Every subject shows its candidates. -/
  shows : ∀ subject, touched subject → ∃ visible, provider.Shows subject visible
  /-- Candidates of one identity have the same facts. -/
  agrees : ∀ left right leftVisible rightVisible, touched left → touched right →
    provider.Shows left leftVisible → provider.Shows right rightVisible →
    ∀ candidate ∈ leftVisible, ∀ other ∈ rightVisible,
      Same candidate.identity other.identity → candidate.SameFacts other

/-- The interned candidates are candidates of a set of subjects. -/
def Sourced (touched : SolverKey → Prop) (interner : CandidateInterner) : Prop :=
  interner.WellFormed ∧ ∀ id candidate, interner.candidates.get? id = some candidate →
    ∃ subject visible, touched subject ∧ provider.Shows subject visible ∧ candidate ∈ visible

/-- A state free of failures that has only loaded subjects of a set. -/
structure Healthy (touched : SolverKey → Prop) (state : ProviderState) : Prop where
  /-- The state is well formed. -/
  wellFormed : provider.WellFormed state
  /-- No failure is cached. -/
  clean : ∀ subject outcome, state.cache.get? subject = some outcome →
    ∃ loaded, outcome = .ok loaded
  /-- The interned candidates are candidates of the set. -/
  sourced : provider.Sourced touched state.interner

/-- The initial state is free of failures. -/
theorem initial_healthy (touched : SolverKey → Prop) : provider.Healthy touched .initial :=
  ⟨provider.initial_wellFormed, fun _ _ stored => by simp [ProviderState.initial] at stored,
    CandidateInterner.initial_wellFormed, fun _ _ stored => by
      simp [ProviderState.initial, CandidateInterner.initial] at stored⟩

section Loading

variable {provider} {touched : SolverKey → Prop} (loadable : provider.Loadable touched)
include loadable

/-- Interning a candidate of the set succeeds. -/
theorem intern_succeeds {subject : SolverKey} {visible : List PreparedCandidate}
    (within : touched subject) (shows : provider.Shows subject visible)
    {candidate : PreparedCandidate} (member : candidate ∈ visible) :
    Succeeds (provider.Sourced touched) (CandidateInterner.intern candidate)
      (fun _ => provider.Sourced touched) := by
  rintro interner ⟨wellFormed, sourced⟩
  obtain ⟨-, kept, -⟩ := CandidateInterner.intern_ensures candidate interner wellFormed
  unfold CandidateInterner.intern at kept ⊢
  cases known : interner.byIdentity.get? candidate.identity with
  | none =>
    simp only [known] at kept
    refine ⟨_, _, rfl, kept, fun id stored found => ?_⟩
    rw [KeyedMap.get?_insert] at found
    split at found
    · obtain rfl := Option.some.inj found
      exact ⟨subject, visible, within, shows, member⟩
    · exact sourced id stored found
  | some id =>
    obtain ⟨existing, stored, same⟩ := wellFormed.named candidate.identity id known
    obtain ⟨other, otherVisible, otherWithin, otherShows, otherIn⟩ := sourced id existing stored
    have facts := loadable.agrees other subject otherVisible visible otherWithin within otherShows
      shows existing otherIn candidate member same
    simp only [stored, if_pos facts]
    exact ⟨id, interner, rfl, wellFormed, sourced⟩

/-- Loading a subject of the set succeeds. -/
theorem loaded_succeeds {subject : SolverKey} (within : touched subject) :
    Succeeds (provider.Healthy touched) (provider.loaded subject)
      (fun loaded state => provider.Healthy touched state ∧ state.View subject loaded) := by
  intro state healthy
  obtain ⟨-, wellFormed, established⟩ := provider.loaded_ensures subject state healthy.wellFormed
  unfold loaded at wellFormed established ⊢
  cases known : state.cache.get? subject with
  | some outcome =>
    obtain ⟨loaded, rfl⟩ := healthy.clean subject outcome known
    exact ⟨loaded, state, rfl, healthy, known⟩
  | none =>
    obtain ⟨visible, shows⟩ := loadable.shows subject within
    obtain ⟨result, offered, shown⟩ := shows
    obtain ⟨entries, interner, interned, sourced⟩ : ∃ entries interner,
        internCandidates visible state.interner = (.ok entries, interner) ∧
          provider.Sourced touched interner := by
      refine Succeeds.mapM (fun candidate member => ?_) state.interner healthy.sourced
      refine Succeeds.bind (intern_succeeds loadable within ⟨result, offered, shown⟩ member)
        fun id => ?_
      exact (Succeeds.pure _).weaken fun _ _ held => held.2
    have done : provider.loadSubject subject state.interner =
        (.ok ⟨entries, result.quarantined⟩, interner) := by
      simp only [loadSubject, Bind.bind, Attempt.ofExcept, offered, shown, interned]
      rfl
    simp only [known, done] at wellFormed established ⊢
    refine ⟨_, _, rfl, ⟨wellFormed, ?_, sourced⟩, established _ rfl⟩
    intro query outcome stored
    rw [KeyedMap.get?_insert] at stored
    split at stored
    · exact ⟨_, (Option.some.inj stored).symm⟩
    · exact healthy.clean query outcome stored

end Loading

/-! ### Answering -/

/-- No constraint on the subject is met by quarantined versions only. -/
def Unquarantined (subject : SolverKey) (constraint : VersionConstraint) : Prop :=
  ∀ key loaded interner, Same key subject → provider.Loads key loaded interner →
    ∃ range, provider.rangeWithin subject constraint loaded = .ok range

/-- A requirement can be turned into a dependency entry. -/
def Answerable (touched : SolverKey → Prop) (package : PackageRequirement) : Prop :=
  ∀ subject, provider.subjectForPackage package = .ok subject → subject ≠ .r →
    touched subject ∧ provider.Unquarantined subject package.constraint

/-- A solver package is the root, R, an installed name or a subject of the set. -/
def Touches (touched : SolverKey → Prop) (package : PackageId) : Prop :=
  ∀ subject, package = .subject subject → subject ≠ .r → touched subject

/-- A question that can be answered without leaving the set. -/
def Asks (touched : SolverKey → Prop) (state : ProviderState) : Call → Prop
  | .prioritize package _ => Touches touched package
  | .chooseVersion package _ => Touches touched package
  | .getDependencies .root _ => ∀ root ∈ provider.request.roots, provider.Answerable touched root.package
  | .getDependencies (.subject subject) (.candidate id) => subject ≠ .r →
      ∃ candidate, state.Visible subject id candidate ∧
        (provider.candidateRejections subject id candidate = [] → ∀ expansion,
          provider.expansionForSubject subject = .ok expansion →
          ∀ edge ∈ projectDependencyEdges candidate.release expansion,
            provider.Answerable touched edge.package)
  | _ => True

/-- A requirement that is not Git-sourced is about a subject. -/
theorem subjectForPackage_of_not_git {package : PackageRequirement}
    (plain : ¬ IsGitSourced package) :
    ∃ subject, provider.subjectForPackage package = .ok subject := by
  unfold subjectForPackage
  split
  · next repository source => exact absurd ⟨repository, source⟩ plain
  · split
    · exact ⟨_, rfl⟩
    · split
      · split
        · exact ⟨_, rfl⟩
        · exact ⟨_, rfl⟩
      · exact ⟨_, rfl⟩
      · exact ⟨_, rfl⟩
      · exact ⟨_, rfl⟩
      · exact ⟨_, rfl⟩
      · next repository source => exact absurd ⟨repository, source⟩ plain

section Answering

variable {provider} {touched : SolverKey → Prop} (loadable : provider.Loadable touched)
include loadable

/-- The range of a constraint on a subject of the set is found. -/
theorem rangesForSubject_succeeds {subject : SolverKey} {constraint : VersionConstraint}
    (answerable : subject ≠ .r → touched subject ∧ provider.Unquarantined subject constraint) :
    Succeeds (provider.Healthy touched) (provider.rangesForSubject subject constraint)
      (fun _ => provider.Healthy touched) := by
  unfold rangesForSubject
  split
  · exact (Succeeds.pure _).weaken fun _ _ held => held.2
  · next differs =>
    obtain ⟨within, unquarantined⟩ := answerable differs
    refine Succeeds.bind (loaded_succeeds loadable within) fun loaded => ?_
    rintro state ⟨healthy, view⟩
    obtain ⟨key, same, loads⟩ := healthy.wellFormed.cached _ loaded view
    obtain ⟨range, ranged⟩ := unquarantined key loaded _ same loads
    exact ⟨range, state, by simp only [Attempt.ofExcept, ranged], healthy⟩

/-- The entry of an answerable requirement is found. -/
theorem requirementEntry_succeeds {package : PackageRequirement}
    (plain : ¬ IsGitSourced package) (answerable : provider.Answerable touched package) :
    Succeeds (provider.Healthy touched) (provider.requirementEntry package)
      (fun _ => provider.Healthy touched) := by
  obtain ⟨subject, found⟩ := provider.subjectForPackage_of_not_git plain
  intro state healthy
  obtain ⟨range, reached, ranged, kept⟩ :=
    rangesForSubject_succeeds loadable (answerable subject found) state healthy
  refine ⟨(.subject subject, range), reached, ?_, kept⟩
  simp only [requirementEntry, Bind.bind, Attempt.ofExcept, found, ranged]
  rfl

/-- The entries of answerable edges are found, up to a Git-sourced one. -/
theorem edgeEntries_succeeds {edges : List ResolvedDependencyEdge}
    (answerable : ∀ edge ∈ edges, provider.Answerable touched edge.package) :
    Succeeds (provider.Healthy touched) (provider.edgeEntries edges)
      (fun _ => provider.Healthy touched) := by
  induction edges with
  | nil => exact (Succeeds.pure _).weaken fun _ _ held => held.2
  | cons edge rest ih =>
    unfold edgeEntries
    split
    · exact (Succeeds.pure _).weaken fun _ _ held => held.2
    · next plain =>
      have notGit : ¬ IsGitSourced edge.package := by
        rintro ⟨repository, source⟩
        exact plain repository source
      refine Succeeds.bind (requirementEntry_succeeds loadable notGit
        (answerable edge List.mem_cons_self)) fun entry => ?_
      refine Succeeds.bind (ih fun other member =>
        answerable other (List.mem_cons_of_mem _ member)) fun entries => ?_
      exact (Succeeds.pure _).weaken fun _ _ held => held.2

/-- Choosing a version of a subject of the set succeeds. -/
theorem chooseForSubject_succeeds {subject : SolverKey} (range : VersionRange)
    (within : subject ≠ .r → touched subject) :
    Succeeds (provider.Healthy touched) (provider.chooseForSubject subject range)
      (fun _ => provider.Healthy touched) := by
  unfold chooseForSubject
  split
  · exact (Succeeds.pure _).weaken fun _ _ held => held.2
  · next differs =>
    refine Succeeds.bind (loaded_succeeds loadable (within differs)) fun loaded => ?_
    exact (Succeeds.pure _).weaken fun _ _ held => held.2.1

/-- Counting the versions of a subject of the set succeeds. -/
theorem subjectCount_succeeds {subject : SolverKey} (range : VersionRange)
    (within : subject ≠ .r → touched subject) :
    Succeeds (provider.Healthy touched) (provider.subjectCount subject range)
      (fun _ => provider.Healthy touched) := by
  unfold subjectCount
  split
  · exact (Succeeds.pure _).weaken fun _ _ held => held.2
  · next differs =>
    intro state healthy
    obtain ⟨loaded, reached, found, kept, -⟩ :=
      loaded_succeeds loadable (within differs) state healthy
    refine ⟨countWithin range loaded, reached, ?_, kept⟩
    simp only [Attempt.recover, Bind.bind, found]
    rfl

/-- Every question that stays within the set is answered, and the state stays free of failures. -/
theorem answer_succeeds (keyed : provider.RootsKeyed)
    (plain : ∀ root ∈ provider.request.roots, ¬ IsGitSourced root.package)
    {state : ProviderState} (healthy : provider.Healthy touched state) {call : Call}
    (asks : provider.Asks touched state call) :
    ∃ reply reached, provider.answer call state = (.ok reply, reached) ∧
      provider.Healthy touched reached := by
  cases call with
  | prioritize package range =>
    have counted : Succeeds (provider.Healthy touched) (provider.versionCount package range)
        (fun _ => provider.Healthy touched) := by
      cases package with
      | root => exact (Succeeds.pure _).weaken fun _ _ held => held.2
      | occupancy name => exact (Succeeds.pure _).weaken fun _ _ held => held.2
      | subject subject => exact subjectCount_succeeds loadable range (asks subject rfl)
    obtain ⟨count, reached, returned, kept⟩ := counted state healthy
    refine ⟨.priority count (provider.debugPackage package), reached, ?_, kept⟩
    have prioritized : provider.prioritize package range state =
        (.ok (count, provider.debugPackage package), reached) := by
      rw [prioritize, Attempt.bind_ok returned]
      rfl
    rw [answer, Attempt.bind_ok prioritized]
    rfl
  | chooseVersion package range =>
    have chosen : Succeeds (provider.Healthy touched) (provider.chooseVersion package range)
        (fun _ => provider.Healthy touched) := by
      cases package with
      | root => exact (Succeeds.pure _).weaken fun _ _ held => held.2
      | occupancy name => exact fun state healthy => ⟨_, state, rfl, healthy⟩
      | subject subject => exact chooseForSubject_succeeds loadable range (asks subject rfl)
    refine Succeeds.bind chosen (fun version => ?_) state healthy
    exact (Succeeds.pure _).weaken fun _ _ held => held.2
  | getDependencies package version =>
    have answered : ∃ dependencies reached,
        provider.getDependencies package version state = (.ok dependencies, reached) ∧
          provider.Healthy touched reached := by
      unfold getDependencies
      split
      · split
        · refine Succeeds.bind (Succeeds.mapM fun root member =>
            requirementEntry_succeeds loadable (plain root member) (asks root member))
            (fun entries => ?_) state healthy
          exact (Succeeds.pure _).weaken fun _ _ held => held.2
        · exact ⟨_, state, rfl, healthy⟩
      · exact ⟨_, state, rfl, healthy⟩
      · next subject differs =>
        split
        · next id =>
          obtain ⟨candidate, visible, answerable⟩ := asks differs
          have found := provider.candidateForId_of_visible healthy.wellFormed visible
          have judged : provider.publicationRejectionsForCandidate subject id state =
              (.ok (provider.candidateRejections subject id candidate), state) := by
            rw [publicationRejectionsForCandidate, Attempt.bind_ok found]
            rfl
          rw [Attempt.bind_ok judged]
          by_cases clean : provider.candidateRejections subject id candidate = []
          · obtain ⟨expansion, expanded⟩ := provider.expansionForSubject_of_keyed keyed subject
            obtain ⟨entries, reached, entered, kept⟩ := edgeEntries_succeeds loadable
              (answerable clean expansion expanded) state healthy
            refine ⟨edgeDependencies id candidate entries, reached, ?_, kept⟩
            have expandedHere : (Attempt.ofExcept (provider.expansionForSubject subject) :
                ProviderM RootExpansionPolicy) state = (.ok expansion, state) := by
              rw [Attempt.ofExcept, expanded]
            rw [if_neg (not_not.mpr clean), Attempt.bind_ok found, candidateDependencies,
              Attempt.bind_ok expandedHere, Attempt.bind_ok entered]
            rfl
          · rw [if_pos clean]
            exact ⟨_, state, rfl, healthy⟩
        · exact ⟨_, state, rfl, healthy⟩
      · exact ⟨_, state, rfl, healthy⟩
    obtain ⟨dependencies, reached, returned, kept⟩ := answered
    refine ⟨.dependencies dependencies, reached, ?_, kept⟩
    rw [answer, Attempt.bind_ok returned]
    rfl

end Answering

end Provider

end Rsolve
