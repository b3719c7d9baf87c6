import Rsolve.Resolver.Invariants

/-!
# What the provider answers

Each function of the provider has one specification: what its answer says about the subjects loaded
when it returns. A specification survives the growth of the state, so everything the provider said
during a run is true of the state in which the run ends.
-/
open Keyed Checked Growth Intervals

namespace Rsolve

/-! ### Version sets -/

/-- The kind of a solver version, which its order compares first. -/
def SolverVersion.kind : SolverVersion → Nat
  | .root => 0
  | .r _ => 1
  | .candidate _ => 2

/-- The R components of a solver version. -/
def SolverVersion.rKey : SolverVersion → List Nat
  | .r version => version.key
  | _ => []

/-- The candidate ordinal of a solver version. -/
def SolverVersion.ordinal : SolverVersion → Nat
  | .candidate id => id.ordinal
  | _ => 0

/-- The order of solver versions is lexicographic. -/
theorem SolverVersion.cmp_eq : SolverVersion.cmp =
    compareLex (compareOn kind) (compareLex (compareOn rKey) (compareOn ordinal)) := by
  funext left right
  cases left <;> cases right <;>
    simp [SolverVersion.cmp, compareLex, compareOn, kind, rKey, ordinal, RPackageVersion.cmp] <;>
    rfl

/-- The order of solver versions is lawful. -/
instance : Std.TransCmp SolverVersion.cmp := by
  rw [SolverVersion.cmp_eq]
  infer_instance

/-- R versions of the solver are the same when their versions are. -/
theorem SolverVersion.same_r {left right : RPackageVersion} :
    Same (SolverVersion.r left) (SolverVersion.r right) ↔ Same left right :=
  ⟨fun same => SolverVersion.r.inj same, fun same => congrArg SolverVersion.r same⟩

/-- Solver versions compare equal exactly when they are the same. -/
theorem SolverVersion.cmp_eq_iff_same {left right : SolverVersion} :
    SolverVersion.cmp left right = .eq ↔ Same left right := by
  cases left with
  | root => cases right <;> simp [SolverVersion.cmp, Same, representative]
  | r left =>
    cases right with
    | r right => exact RPackageVersion.cmp_eq_iff_same.trans SolverVersion.same_r.symm
    | _ => simp [SolverVersion.cmp, Same, representative]
  | candidate left =>
    cases right with
    | candidate right =>
      obtain ⟨left⟩ := left
      obtain ⟨right⟩ := right
      simp [SolverVersion.cmp, Same, representative]
    | _ => simp [SolverVersion.cmp, Same, representative]

/-- A singleton holds the versions that are the same as its own. -/
@[simp]
theorem VersionRange.has_singleton {own version : SolverVersion} :
    VersionRange.has (.singleton own) version = true ↔ Same own version := by
  rw [VersionRange.has, Ranges.contains_singleton, beq_iff_eq, SolverVersion.cmp_eq_iff_same]

/-- The empty set holds no version. -/
@[simp]
theorem VersionRange.has_empty {version : SolverVersion} :
    VersionRange.has .empty version = false := rfl

/-- Membership does not depend on the spelling of a version. -/
theorem VersionRange.has_congr (range : VersionRange) {left right : SolverVersion}
    (same : Same left right) : range.has left = range.has right := by
  have equal : SolverVersion.cmp left right = .eq := SolverVersion.cmp_eq_iff_same.mpr same
  have above : ∀ low, SolverVersion.cmp low left = SolverVersion.cmp low right :=
    fun low => Std.TransCmp.congr_right equal
  have below : ∀ high, SolverVersion.cmp left high = SolverVersion.cmp right high :=
    fun high => Std.TransCmp.congr_left equal
  unfold VersionRange.has Ranges.contains
  congr 1
  funext segment
  have lower : Ranges.aboveLower SolverVersion.cmp left segment.1 =
      Ranges.aboveLower SolverVersion.cmp right segment.1 := by
    cases segment.1 <;> simp [Ranges.aboveLower, above]
  have upper : Ranges.belowUpper SolverVersion.cmp left segment.2 =
      Ranges.belowUpper SolverVersion.cmp right segment.2 := by
    cases segment.2 <;> simp [Ranges.belowUpper, below]
  rw [lower, upper]

/-- A solver version that is the same as a candidate is that candidate. -/
theorem SolverVersion.eq_candidate_of_same {id : CandidateId} {version : SolverVersion}
    (same : Same (.candidate id) version) : version = .candidate id := by
  cases version <;> simp_all [Same, representative]

namespace Provider

/-- The range of a constraint holds exactly the ids of the candidates it admits. -/
theorem has_admittedRange {constraint : VersionConstraint} {loaded : LoadedSubject}
    {version : SolverVersion} :
    (admittedRange constraint loaded).has version = true ↔
      ∃ entry ∈ loaded.candidates, constraint.satisfies entry.2.release.version = true ∧
        version = .candidate entry.1 := by
  have general : ∀ (entries : List (CandidateId × PreparedCandidate)) (start : VersionRange),
      VersionRange.has (entries.foldl (fun range entry =>
        if constraint.satisfies entry.2.release.version then
          range.union (.singleton (.candidate entry.1))
        else range) start) version = true ↔
      start.has version = true ∨
        ∃ entry ∈ entries, constraint.satisfies entry.2.release.version = true ∧
          version = .candidate entry.1 := by
    intro entries
    induction entries with
    | nil => simp
    | cons head rest ih =>
      intro start
      rw [List.foldl_cons, ih]
      split
      · next admits =>
        have joined : VersionRange.has (start.union (.singleton (.candidate head.1))) version =
            true ↔ start.has version = true ∨ version = .candidate head.1 := by
          rw [VersionRange.has, Ranges.contains_union, Bool.or_eq_true]
          refine or_congr Iff.rfl ?_
          change VersionRange.has (.singleton (.candidate head.1)) version = true ↔ _
          rw [VersionRange.has_singleton]
          exact ⟨SolverVersion.eq_candidate_of_same, fun equal => Same.of_eq equal.symm⟩
        simp [joined, admits, or_assoc]
      · next refuses => simp [refuses]
  simpa [admittedRange] using general loaded.candidates .empty

/-- A range without ids admits no candidate. -/
theorem admittedRange_eq_empty {constraint : VersionConstraint} {loaded : LoadedSubject}
    (empty : admittedRange constraint loaded = .empty)
    {entry : CandidateId × PreparedCandidate} (member : entry ∈ loaded.candidates) :
    constraint.satisfies entry.2.release.version = false := by
  by_contra admits
  have held : (admittedRange constraint loaded).has (.candidate entry.1) = true :=
    has_admittedRange.mpr ⟨entry, member, by simpa using admits, rfl⟩
  rw [empty] at held
  simp at held

end Provider

/-! ### Specifications -/

/-- A candidate is visible to a subject under an id. -/
def ProviderState.Visible (subject : SolverKey) (id : CandidateId) (candidate : PreparedCandidate)
    (state : ProviderState) : Prop :=
  ∃ loaded, state.View subject loaded ∧ (id, candidate) ∈ loaded.candidates

/-- A visible candidate stays visible. -/
theorem ProviderState.visible_monotone (subject : SolverKey) (id : CandidateId)
    (candidate : PreparedCandidate) : Monotone (ProviderState.Visible subject id candidate) := by
  rintro earlier later grown ⟨loaded, view, member⟩
  exact ⟨loaded, ProviderState.view_monotone _ _ grown view, member⟩

/-- A candidate visible to a subject is visible to every spelling of the subject. -/
theorem ProviderState.Visible.congr {subject other : SolverKey} {id : CandidateId}
    {candidate : PreparedCandidate} {state : ProviderState}
    (visible : state.Visible subject id candidate) (same : Same subject other) :
    state.Visible other id candidate := by
  obtain ⟨loaded, view, member⟩ := visible
  refine ⟨loaded, ?_, member⟩
  unfold ProviderState.View
  rw [← state.cache.get?_congr same]
  exact view

namespace Provider

variable (provider : Provider)

/-- A subject sees one candidate under an id. -/
theorem visible_unique {state : ProviderState} (wellFormed : provider.WellFormed state)
    {subject : SolverKey} {id : CandidateId} {left right : PreparedCandidate}
    (leftVisible : state.Visible subject id left) (rightVisible : state.Visible subject id right) :
    left = right := by
  obtain ⟨loaded, view, leftIn⟩ := leftVisible
  obtain ⟨other, otherView, rightIn⟩ := rightVisible
  obtain rfl := view.unique otherView (Same.refl subject)
  exact congrArg Prod.snd (view_id_eq wellFormed view leftIn rightIn rfl)

/-- Looking up an id makes its candidate visible. -/
theorem candidateForId_ensures (subject : SolverKey) (id : CandidateId) :
    Ensures provider.WellFormed (provider.candidateForId subject id) (fun candidate =>
      ProviderState.Visible subject id candidate) := by
  refine (Ensures.bind (ProviderState.view_monotone subject) (provider.loaded_ensures subject)
    fun loaded => Ensures.ofExcept _).weaken ?_
  rintro candidate state wellFormed ⟨loaded, view, lookup⟩
  refine ⟨loaded, view, (findCandidate_eq_some wellFormed view).mp ?_⟩
  unfold visibleCandidate at lookup
  split at lookup
  · next release found => rw [found, Except.ok.inj lookup]
  · simp at lookup

/-- A range is the range of a constraint on a subject. -/
def RangeOf (subject : SolverKey) (constraint : VersionConstraint) (range : VersionRange)
    (state : ProviderState) : Prop :=
  (subject = .r ∧ range = provider.rRange constraint) ∨
    (subject ≠ .r ∧ ∃ loaded, state.View subject loaded ∧ range = admittedRange constraint loaded)

/-- A range stays the range of its constraint. -/
theorem rangeOf_monotone (subject : SolverKey) (constraint : VersionConstraint)
    (range : VersionRange) : Monotone (provider.RangeOf subject constraint range) := by
  rintro earlier later grown (fixed | ⟨differs, loaded, view, equal⟩)
  · exact Or.inl fixed
  · exact Or.inr ⟨differs, loaded, ProviderState.view_monotone _ _ grown view, equal⟩

/-- The range of a constraint on a package subject admits its candidates. -/
theorem candidateRanges_ensures (subject : SolverKey) (constraint : VersionConstraint) :
    Ensures provider.WellFormed (provider.candidateRanges subject constraint)
      (fun range state => ∃ loaded, state.View subject loaded ∧
        range = admittedRange constraint loaded) := by
  refine (Ensures.bind (ProviderState.view_monotone subject) (provider.loaded_ensures subject)
    fun loaded => Ensures.ofExcept _).weaken ?_
  rintro range state - ⟨loaded, view, ranged⟩
  refine ⟨loaded, view, ?_⟩
  unfold rangeWithin at ranged
  dsimp only at ranged
  split at ranged
  · simp at ranged
  · exact (Except.ok.inj ranged).symm

/-- The range of a constraint on a subject is what it should be. -/
theorem rangesForSubject_ensures (subject : SolverKey) (constraint : VersionConstraint) :
    Ensures provider.WellFormed (provider.rangesForSubject subject constraint)
      (provider.RangeOf subject constraint) := by
  unfold rangesForSubject
  split
  · refine (Ensures.pure _).weaken ?_
    rintro range state - rfl
    exact Or.inl ⟨rfl, rfl⟩
  · next differs =>
    refine (provider.candidateRanges_ensures _ constraint).weaken ?_
    intro range state _ admitted
    exact Or.inr ⟨differs, admitted⟩

/-- An entry is the dependency entry of a requirement. -/
def EntryOf (package : PackageRequirement) (entry : PackageId × VersionRange)
    (state : ProviderState) : Prop :=
  ∃ subject, provider.subjectForPackage package = .ok subject ∧ entry.1 = .subject subject ∧
    provider.RangeOf subject package.constraint entry.2 state

/-- An entry stays the entry of its requirement. -/
theorem entryOf_monotone (package : PackageRequirement) (entry : PackageId × VersionRange) :
    Monotone (provider.EntryOf package entry) := by
  rintro earlier later grown ⟨subject, named, keyed, range⟩
  exact ⟨subject, named, keyed, provider.rangeOf_monotone _ _ _ grown range⟩

/-- The entry of a requirement is what it should be. -/
theorem requirementEntry_ensures (package : PackageRequirement) :
    Ensures provider.WellFormed (provider.requirementEntry package)
      (provider.EntryOf package) := by
  refine (Ensures.bind (fun _ _ _ _ held => held) (Ensures.ofExcept _) fun subject =>
    Ensures.bind (provider.rangeOf_monotone subject package.constraint)
      (provider.rangesForSubject_ensures subject package.constraint) fun range =>
        Ensures.pure _).weaken ?_
  rintro _ state - ⟨subject, named, range, ranged, rfl⟩
  exact ⟨subject, named, rfl, ranged⟩

/-- Entries are the dependency entries of requirements, one by one. -/
def EntriesOf (packages : List PackageRequirement) (entries : List (PackageId × VersionRange))
    (state : ProviderState) : Prop :=
  List.Forall₂ (fun package entry => provider.EntryOf package entry state) packages entries

/-- Entries stay the entries of their requirements. -/
theorem entriesOf_monotone (packages : List PackageRequirement)
    (entries : List (PackageId × VersionRange)) :
    Monotone (provider.EntriesOf packages entries) := by
  intro earlier later grown held
  exact held.imp fun package entry => provider.entryOf_monotone package entry grown

/-- A requirement with a Git source. -/
def IsGitSourced (package : PackageRequirement) : Prop :=
  ∃ repository, package.source = .git repository

/-- The edges of a release become entries, unless one of them is Git-sourced. -/
theorem edgeEntries_ensures (edges : List ResolvedDependencyEdge) :
    Ensures provider.WellFormed (provider.edgeEntries edges) (fun result state =>
      match result with
      | .ok entries => provider.EntriesOf (edges.map ResolvedDependencyEdge.package) entries state
      | .error _ => ∃ edge ∈ edges, IsGitSourced edge.package) := by
  induction edges with
  | nil =>
    refine (Ensures.pure _).weaken ?_
    rintro _ state - rfl
    exact List.Forall₂.nil
  | cons edge rest ih =>
    unfold edgeEntries
    split
    · next repository source =>
      refine (Ensures.pure _).weaken ?_
      rintro _ state - rfl
      exact ⟨edge, List.mem_cons_self, repository, source⟩
    · refine (Ensures.bind (provider.entryOf_monotone edge.package)
        (provider.requirementEntry_ensures edge.package) fun entry =>
          Ensures.bind ?_ ih fun entries => Ensures.pure _).weaken ?_
      · intro result earlier later grown held
        cases result with
        | ok entries => exact provider.entriesOf_monotone _ _ grown held
        | error message => exact held
      · rintro _ state - ⟨entry, entered, result, held, rfl⟩
        cases result with
        | ok entries => exact List.Forall₂.cons entered held
        | error message =>
          obtain ⟨other, member, git⟩ := held
          exact ⟨other, List.mem_cons_of_mem _ member, git⟩

/-- The rejections of an id are the rejections of its candidate. -/
theorem publicationRejectionsForCandidate_ensures (subject : SolverKey) (id : CandidateId) :
    Ensures provider.WellFormed (provider.publicationRejectionsForCandidate subject id)
      (fun rejections state => ∃ candidate, state.Visible subject id candidate ∧
        rejections = provider.candidateRejections subject id candidate) := by
  refine Ensures.bind (ProviderState.visible_monotone subject id)
    (provider.candidateForId_ensures subject id) fun candidate => Ensures.pure _

/-- What the answer to a dependency question says. -/
inductive DependencyAnswer (state : ProviderState) :
    PackageId → SolverVersion → Dependencies → Prop
  /-- The root requires R and every root requirement. -/
  | root (entries : List (PackageId × VersionRange))
      (entered : provider.EntriesOf (provider.request.roots.map RootRequirement.package)
        entries state) :
      DependencyAnswer state .root .root (.available (.ofList
        ((.subject .r, provider.rRange provider.request.rRequirement) :: entries)))
  /-- The R subject requires nothing. -/
  | r (version : SolverVersion) : DependencyAnswer state (.subject .r) version (.available .empty)
  /-- A candidate the cutoff admits requires its name and every effective edge. -/
  | admitted (subject : SolverKey) (id : CandidateId) (candidate : PreparedCandidate)
      (expansion : RootExpansionPolicy) (entries : List (PackageId × VersionRange))
      (differs : subject ≠ .r) (visible : state.Visible subject id candidate)
      (passes : provider.candidateRejections subject id candidate = [])
      (expanded : provider.expansionForSubject subject = .ok expansion)
      (entered : provider.EntriesOf
        ((projectDependencyEdges candidate.release expansion).map ResolvedDependencyEdge.package)
        entries state) :
      DependencyAnswer state (.subject subject) (.candidate id) (.available (.ofList
        ((.occupancy candidate.identity.name, .singleton (.candidate id)) :: entries)))
  /-- A candidate the cutoff refuses is unavailable. -/
  | rejected (subject : SolverKey) (id : CandidateId) (candidate : PreparedCandidate)
      (message : ProviderMessage) (differs : subject ≠ .r)
      (visible : state.Visible subject id candidate)
      (refused : provider.candidateRejections subject id candidate ≠ []) :
      DependencyAnswer state (.subject subject) (.candidate id) (.unavailable message)
  /-- A candidate with a Git-sourced edge is unavailable. -/
  | gitSourced (subject : SolverKey) (id : CandidateId) (candidate : PreparedCandidate)
      (expansion : RootExpansionPolicy) (edge : ResolvedDependencyEdge)
      (message : ProviderMessage) (differs : subject ≠ .r)
      (visible : state.Visible subject id candidate)
      (expanded : provider.expansionForSubject subject = .ok expansion)
      (projected : edge ∈ projectDependencyEdges candidate.release expansion)
      (git : IsGitSourced edge.package) :
      DependencyAnswer state (.subject subject) (.candidate id) (.unavailable message)
  /-- A version of another kind is unavailable. -/
  | foreign (package : PackageId) (version : SolverVersion) (message : ProviderMessage)
      (kind : package = .root ∧ version ≠ .root ∨
        (∃ subject, package = .subject subject ∧ subject ≠ .r) ∧ ∀ id, version ≠ .candidate id) :
      DependencyAnswer state package version (.unavailable message)
  /-- An installed name requires nothing. -/
  | occupancy (name : PackageName) (version : SolverVersion) :
      DependencyAnswer state (.occupancy name) version (.available .empty)

/-- What was answered to a dependency question stays true. -/
theorem dependencyAnswer_monotone (package : PackageId) (version : SolverVersion)
    (dependencies : Dependencies) :
    Monotone (fun state => provider.DependencyAnswer state package version dependencies) := by
  intro earlier later grown answered
  cases answered with
  | root entries entered => exact .root entries (provider.entriesOf_monotone _ _ grown entered)
  | r version => exact .r version
  | admitted subject id candidate expansion entries differs visible passes expanded entered =>
    exact .admitted subject id candidate expansion entries differs
      (ProviderState.visible_monotone _ _ _ grown visible) passes expanded
      (provider.entriesOf_monotone _ _ grown entered)
  | rejected subject id candidate message differs visible refused =>
    exact .rejected subject id candidate message differs
      (ProviderState.visible_monotone _ _ _ grown visible) refused
  | gitSourced subject id candidate expansion edge message differs visible expanded projected git =>
    exact .gitSourced subject id candidate expansion edge message differs
      (ProviderState.visible_monotone _ _ _ grown visible) expanded projected git
  | foreign package version message kind => exact .foreign package version message kind
  | occupancy name version => exact .occupancy name version

/-- The dependencies of an admitted candidate are what they should be. -/
theorem candidateDependencies_ensures {subject : SolverKey} (differs : subject ≠ .r)
    (id : CandidateId) (candidate : PreparedCandidate) :
    Ensures provider.WellFormed (provider.candidateDependencies subject id candidate)
      (fun dependencies state => state.Visible subject id candidate →
        provider.candidateRejections subject id candidate = [] →
        provider.DependencyAnswer state (.subject subject) (.candidate id) dependencies) := by
  refine (Ensures.bind (fun _ _ _ _ held => held) (Ensures.ofExcept _) fun expansion =>
    Ensures.bind ?_ (provider.edgeEntries_ensures _) fun result => Ensures.pure _).weaken ?_
  · intro result earlier later grown held
    cases result with
    | ok entries => exact provider.entriesOf_monotone _ _ grown held
    | error message => exact held
  · rintro _ state - ⟨expansion, expanded, result, held, rfl⟩ visible passes
    cases result with
    | ok entries =>
      exact .admitted subject id candidate expansion entries differs visible passes expanded held
    | error message =>
      obtain ⟨edge, projected, git⟩ := held
      exact .gitSourced subject id candidate expansion edge message differs visible expanded
        projected git

/-- Every dependency answer is what it should be. -/
theorem getDependencies_ensures (package : PackageId) (version : SolverVersion) :
    Ensures provider.WellFormed (provider.getDependencies package version)
      (fun dependencies state =>
        provider.DependencyAnswer state package version dependencies) := by
  unfold getDependencies
  split
  · split
    · refine (Ensures.bind ?_ (Ensures.mapM
        (fun (root : RootRequirement) entry => provider.entryOf_monotone root.package entry)
        (fun root => provider.requirementEntry_ensures root.package) _)
        fun entries => Ensures.pure _).weaken ?_
      · intro entries earlier later grown held
        exact held.imp fun (root : RootRequirement) entry =>
          provider.entryOf_monotone root.package entry grown
      · rintro _ state - ⟨entries, held, rfl⟩
        exact .root entries (List.forall₂_map_left_iff.mpr held)
    · next foreign =>
      refine (Ensures.pure _).weaken ?_
      rintro _ state - rfl
      exact .foreign _ _ _ (Or.inl ⟨rfl, foreign⟩)
  · refine (Ensures.pure _).weaken ?_
    rintro _ state - rfl
    exact .r version
  · next subject differs =>
    split
    · next id =>
      have judged : ∀ rejections, Ensures provider.WellFormed
          (if rejections ≠ [] then pure (.unavailable (.publication rejections))
            else do
              let candidate ← provider.candidateForId subject id
              provider.candidateDependencies subject id candidate : ProviderM Dependencies)
          (fun dependencies state => ∀ candidate, state.Visible subject id candidate →
            rejections = provider.candidateRejections subject id candidate →
            provider.DependencyAnswer state (.subject subject) (.candidate id) dependencies) := by
        intro rejections
        split
        · next refused =>
          refine (Ensures.pure _).weaken ?_
          rintro _ state - rfl candidate visible rfl
          exact .rejected subject id candidate _ differs visible refused
        · next admitted =>
          refine (Ensures.bind (ProviderState.visible_monotone subject id)
            (provider.candidateForId_ensures subject id)
            (provider.candidateDependencies_ensures differs id)).weaken ?_
          rintro dependencies state wellFormed ⟨candidate, visible, answered⟩ other otherVisible rfl
          obtain rfl := provider.visible_unique wellFormed visible otherVisible
          exact answered visible (not_not.mp admitted)
      refine (Ensures.bind ?_ (provider.publicationRejectionsForCandidate_ensures subject id)
        judged).weaken ?_
      · rintro rejections earlier later grown ⟨candidate, visible, rejected⟩
        exact ⟨candidate, ProviderState.visible_monotone _ _ _ grown visible, rejected⟩
      · rintro dependencies state - ⟨rejections, ⟨candidate, visible, rejected⟩, answered⟩
        exact answered candidate visible rejected
    · next foreign =>
      refine (Ensures.pure _).weaken ?_
      rintro _ state - rfl
      exact .foreign _ _ _ (Or.inr ⟨⟨subject, rfl, differs⟩, foreign⟩)
  · refine (Ensures.pure _).weaken ?_
    rintro _ state - rfl
    exact .occupancy _ _

/-- What the answer to a version question says. -/
inductive ChoiceAnswer (state : ProviderState) :
    PackageId → VersionRange → Option SolverVersion → Prop
  /-- The root has its one version. -/
  | root (range : VersionRange) :
      ChoiceAnswer state .root range (if range.has .root then some .root else none)
  /-- R has the target version. -/
  | r (range : VersionRange) : ChoiceAnswer state (.subject .r) range
      (if range.has (.r provider.rVersion) then some (.r provider.rVersion) else none)
  /-- A package subject has the preferred candidate of its range. -/
  | subject (subject : SolverKey) (range : VersionRange) (loaded : LoadedSubject)
      (differs : subject ≠ .r) (view : state.View subject loaded) :
      ChoiceAnswer state (.subject subject) range
        ((provider.preferredCandidate subject range loaded).map .candidate)
  /-- An installed name has the id of an interned candidate of that name. -/
  | occupied (name : PackageName) (range : VersionRange) (id : CandidateId)
      (candidate : PreparedCandidate) (stored : state.interner.candidates.get? id = some candidate)
      (named : candidate.identity.name = name) (within : range.has (.candidate id) = true) :
      ChoiceAnswer state (.occupancy name) range (some (.candidate id))
  /-- An installed name may have no interned candidate in range. -/
  | unoccupied (name : PackageName) (range : VersionRange) :
      ChoiceAnswer state (.occupancy name) range none

/-- What was answered to a version question stays true. -/
theorem choiceAnswer_monotone (package : PackageId) (range : VersionRange)
    (version : Option SolverVersion) :
    Monotone (fun state => provider.ChoiceAnswer state package range version) := by
  intro earlier later grown answered
  cases answered with
  | root range => exact .root range
  | r range => exact .r range
  | subject subject range loaded differs view =>
    exact .subject subject range loaded differs (ProviderState.view_monotone _ _ grown view)
  | occupied name range id candidate stored named within =>
    exact .occupied name range id candidate (grown.2.2 id candidate stored) named within
  | unoccupied name range => exact .unoccupied name range

/-- The ids of a name are the ids of interned candidates of that name. -/
theorem mem_idsForName {interner : CandidateInterner} {debug : DebugText} {name : PackageName}
    {id : CandidateId} :
    id ∈ interner.idsForName debug name ↔
      ∃ candidate, interner.candidates.get? id = some candidate ∧
        candidate.identity.name = name := by
  unfold CandidateInterner.idsForName
  simp only [List.mem_map, Sorting.mem_sortBy, List.mem_filter, beq_iff_eq]
  constructor
  · rintro ⟨entry, ⟨member, named⟩, rfl⟩
    exact ⟨entry.2, (KeyedMap.get?_eq_some_iff _ _ _).mpr ⟨entry, member, Same.refl _, rfl⟩, named⟩
  · rintro ⟨candidate, stored, named⟩
    obtain ⟨entry, member, same, rfl⟩ := (KeyedMap.get?_eq_some_iff _ _ _).mp stored
    exact ⟨entry, ⟨member, named⟩, same⟩

/-- The occupant of a name is the id of an interned candidate of that name in range. -/
theorem occupant_eq_some {name : PackageName} {range : VersionRange}
    {interner : CandidateInterner} {id : CandidateId}
    (found : provider.occupant name range interner = some id) :
    range.has (.candidate id) = true ∧ ∃ candidate, interner.candidates.get? id = some candidate ∧
      candidate.identity.name = name := by
  have within := List.find?_some found
  exact ⟨within, mem_idsForName.mp (List.mem_of_find?_eq_some found)⟩

/-- Every version answer about a subject is what it should be. -/
theorem chooseForSubject_ensures (subject : SolverKey) (range : VersionRange) :
    Ensures provider.WellFormed (provider.chooseForSubject subject range)
      (fun version state => provider.ChoiceAnswer state (.subject subject) range version) := by
  unfold chooseForSubject
  split
  · refine (Ensures.pure _).weaken ?_
    rintro _ state - rfl
    exact .r range
  · next differs =>
    refine (Ensures.bind (ProviderState.view_monotone subject) (provider.loaded_ensures subject)
      fun loaded => Ensures.pure _).weaken ?_
    rintro _ state - ⟨loaded, view, rfl⟩
    exact .subject subject range loaded differs view

/-- Every version answer is what it should be. -/
theorem chooseVersion_ensures (package : PackageId) (range : VersionRange) :
    Ensures provider.WellFormed (provider.chooseVersion package range)
      (fun version state => provider.ChoiceAnswer state package range version) := by
  cases package with
  | root =>
    refine (Ensures.pure _).weaken ?_
    rintro _ state - rfl
    exact .root range
  | subject subject => exact provider.chooseForSubject_ensures subject range
  | occupancy name =>
    intro state wellFormed
    refine ⟨le_refl _, wellFormed, fun version returned => ?_⟩
    obtain rfl := Except.ok.inj returned
    cases found : provider.occupant name range state.interner with
    | none => exact .unoccupied name range
    | some id =>
      obtain ⟨within, candidate, stored, named⟩ := provider.occupant_eq_some found
      exact .occupied name range id candidate stored named within

/-- Counting keeps the state well formed. -/
theorem versionCount_ensures (package : PackageId) (range : VersionRange) :
    Ensures provider.WellFormed (provider.versionCount package range) (fun _ _ => True) := by
  cases package with
  | root => exact (Ensures.pure _).weaken (fun _ _ _ _ => trivial)
  | occupancy name => exact (Ensures.pure _).weaken (fun _ _ _ _ => trivial)
  | subject subject =>
    simp only [versionCount, subjectCount]
    split
    · exact (Ensures.pure _).weaken (fun _ _ _ _ => trivial)
    · exact (Ensures.recover _ (Ensures.bind (ProviderState.view_monotone subject)
        (provider.loaded_ensures subject) fun loaded => Ensures.pure _)).weaken
        (fun _ _ _ _ => trivial)

/-- Prioritizing keeps the state well formed. -/
theorem prioritize_ensures (package : PackageId) (range : VersionRange) :
    Ensures provider.WellFormed (provider.prioritize package range) (fun _ _ => True) :=
  (Ensures.bind (fun _ _ _ _ => id) (provider.versionCount_ensures package range)
    fun _ => Ensures.pure _).weaken (fun _ _ _ _ => trivial)

/-- What an answer says, by question. -/
def Answered (state : ProviderState) : Call × Reply → Prop
  | (.chooseVersion package range, .chosen version) =>
    provider.ChoiceAnswer state package range version
  | (.getDependencies package version, .dependencies dependencies) =>
    provider.DependencyAnswer state package version dependencies
  | (.prioritize _ _, .priority _ _) => True
  | _ => False

/-- What was answered stays true. -/
theorem answered_monotone (record : Call × Reply) :
    Monotone (fun state => provider.Answered state record) := by
  intro earlier later grown answered
  obtain ⟨call, reply⟩ := record
  cases call <;> cases reply <;> simp only [Answered] at answered ⊢
  · exact provider.choiceAnswer_monotone _ _ _ grown answered
  · exact provider.dependencyAnswer_monotone _ _ _ grown answered

/-- Every answer is what it should be. -/
theorem answer_ensures (call : Call) :
    Ensures provider.WellFormed (provider.answer call)
      (fun reply state => provider.Answered state (call, reply)) := by
  cases call with
  | prioritize package range =>
    refine (Ensures.bind (fun _ _ _ _ => id) (provider.prioritize_ensures package range)
      fun priority => Ensures.pure _).weaken ?_
    rintro _ state - ⟨priority, -, rfl⟩
    trivial
  | chooseVersion package range =>
    refine (Ensures.bind (provider.choiceAnswer_monotone package range)
      (provider.chooseVersion_ensures package range) fun version => Ensures.pure _).weaken ?_
    rintro _ state - ⟨version, answered, rfl⟩
    exact answered
  | getDependencies package version =>
    refine (Ensures.bind (provider.dependencyAnswer_monotone package version)
      (provider.getDependencies_ensures package version) fun dependencies =>
        Ensures.pure _).weaken ?_
    rintro _ state - ⟨dependencies, answered, rfl⟩
    exact answered

/-! ### Runs -/

/-- The run of a solver up to a transcript and a state. -/
inductive Reaches (pubgrub : PubGrub) : Transcript → ProviderState → Prop
  /-- A run starts without questions. -/
  | start : Reaches pubgrub [] .initial
  /-- An answered question extends the run. -/
  | step {transcript : Transcript} {state reached : ProviderState} {call : Call} {reply : Reply}
      (before : Reaches pubgrub transcript state) (asked : pubgrub.next transcript = .ask call)
      (answered : provider.answer call state = (.ok reply, reached)) :
      Reaches pubgrub (transcript ++ [(call, reply)]) reached

/-- How a run ends: where the solver ends it, or where an answer fails. -/
def Ends (pubgrub : PubGrub) (transcript : Transcript) (state : ProviderState) : Verdict → Prop
  | .solved selected => provider.Reaches pubgrub transcript state ∧
      pubgrub.next transcript = .solved selected
  | .noSolution tree => provider.Reaches pubgrub transcript state ∧
      pubgrub.next transcript = .noSolution tree
  | .failed cause => ∃ earlier call, provider.Reaches pubgrub transcript earlier ∧
      pubgrub.next transcript = .ask call ∧ provider.answer call earlier = (.error cause, state)

/-- A driven run ends as runs end. -/
theorem drive_ends {pubgrub : PubGrub} {fuel : Nat} {transcript final : Transcript}
    {state last : ProviderState} {verdict : Verdict}
    (before : provider.Reaches pubgrub transcript state)
    (driven : provider.drive pubgrub fuel transcript state = some (verdict, final, last)) :
    provider.Ends pubgrub final last verdict := by
  induction fuel generalizing transcript state with
  | zero => simp [drive] at driven
  | succ fuel ih =>
    simp only [drive] at driven
    split at driven
    · next call asked =>
      split at driven
      · next reply reached answered => exact ih (.step before asked answered) driven
      · next cause reached failed =>
        simp only [Option.some.injEq, Prod.mk.injEq] at driven
        obtain ⟨rfl, rfl, rfl⟩ := driven
        exact ⟨state, call, before, asked, failed⟩
    · next selected ended =>
      simp only [Option.some.injEq, Prod.mk.injEq] at driven
      obtain ⟨rfl, rfl, rfl⟩ := driven
      exact ⟨before, ended⟩
    · next tree ended =>
      simp only [Option.some.injEq, Prod.mk.injEq] at driven
      obtain ⟨rfl, rfl, rfl⟩ := driven
      exact ⟨before, ended⟩

/-- In every reached state, the state is well formed and everything answered so far is true. -/
theorem Reaches.answered {pubgrub : PubGrub} {transcript : Transcript} {state : ProviderState}
    (reached : provider.Reaches pubgrub transcript state) :
    provider.WellFormed state ∧ ∀ record ∈ transcript, provider.Answered state record := by
  induction reached with
  | start => exact ⟨provider.initial_wellFormed, fun _ member => by simp at member⟩
  | @step transcript state reached call reply before asked answered ih =>
    obtain ⟨grown, wellFormed, established⟩ := provider.answer_ensures call state ih.1
    rw [answered] at grown wellFormed established
    refine ⟨wellFormed, fun record member => ?_⟩
    rcases List.mem_append.mp member with old | new
    · exact provider.answered_monotone record grown (ih.2 record old)
    · obtain rfl := List.mem_singleton.mp new
      exact established reply rfl

end Provider

end Rsolve
