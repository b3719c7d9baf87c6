import Mathlib.Data.Set.Finite.Basic
import Rsolve.Core.Unions
import Rsolve.Orchestration.Demand

/-!
# The least plan

One step of planning adds the jobs and the facts of what it walks; the worklist then adds those of
everything that is reached. What is reached is what the roots and the candidates demand, so the plan
is the one of the least closure, in every order of the roots and of the releases.
-/
open Keyed Ordered Worklist

namespace Rsolve

/-- What a plan says about a package. -/
inductive DemandFact
  | demanded (entry : Nat) (package : PackageName)
  | unrouted (package : PackageName)
  | discovered (package : PackageName)

/-- A plan says something about a package. -/
def DemandFact.HoldsIn (plan : RepositoryDemandPlan) : DemandFact → Prop
  | .demanded entry package => (entry, package) ∈ plan.entryDemands
  | .unrouted package => package ∈ plan.unrouted
  | .discovered package => package ∈ plan.discovered

namespace RepositoryDemandPlan

/-- What a plan says. -/
def facts (plan : RepositoryDemandPlan) : Set DemandFact :=
  {fact | fact.HoldsIn plan}

/-- The empty plan says nothing. -/
theorem facts_empty : empty.facts = ∅ := by
  ext fact
  cases fact <;> simp [facts, DemandFact.HoldsIn, empty]

/-- A reached package is discovered. -/
theorem facts_discover (plan : RepositoryDemandPlan) (package : PackageName) :
    (plan.discover package).facts = plan.facts ∪ {.discovered package} := by
  ext fact
  cases fact <;> simp [facts, DemandFact.HoldsIn, discover]

/-- A package without an entry is unrouted. -/
theorem facts_leaveUnrouted (plan : RepositoryDemandPlan) (package : PackageName) :
    (plan.leaveUnrouted package).facts = plan.facts ∪ {.unrouted package} := by
  ext fact
  cases fact <;> simp [facts, DemandFact.HoldsIn, leaveUnrouted]

/-- A loop that inserts a package for every entry adds their pairs. -/
theorem mem_foldl_insert {entries : List Nat} {package : PackageName}
    {demands : Finset (Nat × PackageName)} {pair : Nat × PackageName} :
    pair ∈ entries.foldl (fun demands entry => insert (entry, package) demands) demands ↔
      pair ∈ demands ∨ ∃ entry ∈ entries, pair = (entry, package) := by
  induction entries generalizing demands with
  | nil => simp
  | cons entry entries ih =>
    rw [List.foldl_cons, ih, Finset.mem_insert, List.exists_mem_cons_iff, or_comm (a := pair = _),
      or_assoc]

/-- A routed package is demanded of its entries. -/
theorem facts_demand (plan : RepositoryDemandPlan) (entries : List Nat) (package : PackageName) :
    (plan.demand entries package).facts =
      plan.facts ∪ {fact | ∃ entry ∈ entries, fact = .demanded entry package} := by
  ext fact
  cases fact <;> simp [facts, DemandFact.HoldsIn, demand, mem_foldl_insert]

/-- Plans that say the same are equal. -/
theorem eq_of_facts {left right : RepositoryDemandPlan} (same : left.facts = right.facts) :
    left = right := by
  have holds : ∀ fact : DemandFact, fact.HoldsIn left ↔ fact.HoldsIn right := fun fact =>
    Set.ext_iff.mp same fact
  exact RepositoryDemandPlan.ext (Finset.ext fun pair => holds (.demanded pair.1 pair.2))
    (Finset.ext fun package => holds (.unrouted package))
    (Finset.ext fun package => holds (.discovered package))

end RepositoryDemandPlan

section Steps

variable (repositories : List RepositorySpec) (directReleases : DirectReleases)
  (load : RepositoryDemandSource)

/-- The facts of a package that is asked in a scope. -/
def routeFacts (source : DependencySourceConstraint) (package : PackageName) : Set DemandFact :=
  {fact | (eligibleDependencyEntries repositories source package = [] ∧
      fact = .unrouted package) ∨
    ∃ entry ∈ eligibleDependencyEntries repositories source package,
      fact = .demanded entry package}

/-- The job that a followed dependency leaves. -/
def dependencyJobs (dependency : DeclaredDependency) : Set (DemandKey × Bool) :=
  {job | ¬ Overridden directReleases dependency ∧
    eligibleDependencyEntries repositories dependency.package.source dependency.package.name ≠ [] ∧
    job = (⟨dependency.package.name, dependency.package.source⟩, false)}

/-- The facts that a followed dependency adds. -/
def dependencyFacts (dependency : DeclaredDependency) : Set DemandFact :=
  {fact | fact = .discovered dependency.package.name ∨ (¬ Overridden directReleases dependency ∧
    fact ∈ routeFacts repositories dependency.package.source dependency.package.name)}

/-- The jobs that a release leaves. -/
def releaseJobs (promoteSuggests : Bool) (release : PackageRelease) : Set (DemandKey × Bool) :=
  {job | ∃ dependency ∈ release.declaredDependencies, dependency.follows promoteSuggests ∧
    job ∈ dependencyJobs repositories directReleases dependency}

/-- The facts that a release adds. -/
def releaseFacts (promoteSuggests : Bool) (release : PackageRelease) : Set DemandFact :=
  {fact | ∃ dependency ∈ release.declaredDependencies, dependency.follows promoteSuggests ∧
    fact ∈ dependencyFacts repositories directReleases dependency}

variable {repositories directReleases load}

/-- A declared dependency adds its job and its facts when it is followed. -/
theorem followDependency_adds (promoteSuggests : Bool) (work : DemandWork)
    (dependency : DeclaredDependency) :
    Adds RepositoryDemandPlan.facts work
      (followDependency repositories directReleases promoteSuggests work dependency)
      {job | dependency.follows promoteSuggests ∧
        job ∈ dependencyJobs repositories directReleases dependency}
      {fact | dependency.follows promoteSuggests ∧
        fact ∈ dependencyFacts repositories directReleases dependency} := by
  unfold followDependency
  by_cases follows : dependency.follows promoteSuggests = true
  swap
  · simpa [follows] using Adds.refl work
  simp only [follows, Bool.not_true, Bool.false_eq_true, if_false, true_and, Set.ofPred_mem_eq]
  by_cases overridden : Overridden directReleases dependency
  · have direct : directRootOverride directReleases dependency.package.name
        dependency.package.source = true := overridden
    simp only [direct, if_true]
    refine ⟨⟨[], rfl, by simp [dependencyJobs, overridden]⟩, ?_⟩
    rw [RepositoryDemandPlan.facts_discover]
    congr 1
    ext fact
    simp [dependencyFacts, overridden]
  have direct : ¬ directRootOverride directReleases dependency.package.name
      dependency.package.source = true := overridden
  simp only [direct, Bool.false_eq_true, if_false]
  split
  · next none =>
    rw [List.isEmpty_iff] at none
    refine ⟨⟨[], rfl, by simp [dependencyJobs, none]⟩, ?_⟩
    rw [RepositoryDemandPlan.facts_leaveUnrouted, RepositoryDemandPlan.facts_discover,
      Set.union_assoc]
    congr 1
    ext fact
    simp [dependencyFacts, overridden, routeFacts, none, or_comm]
  · next some =>
    rw [List.isEmpty_iff] at some
    refine ⟨⟨[(⟨dependency.package.name, dependency.package.source⟩, false)], rfl,
      by simp [dependencyJobs, overridden, some]⟩, ?_⟩
    rw [RepositoryDemandPlan.facts_demand, RepositoryDemandPlan.facts_discover, Set.union_assoc]
    congr 1
    ext fact
    simp [dependencyFacts, overridden, routeFacts, some]

/-- A release adds what its followed dependencies add. -/
theorem followRelease_adds (promoteSuggests : Bool) (work : DemandWork)
    (release : PackageRelease) :
    Adds RepositoryDemandPlan.facts work
      (followRelease repositories directReleases promoteSuggests work release)
      (releaseJobs repositories directReleases promoteSuggests release)
      (releaseFacts repositories directReleases promoteSuggests release) :=
  Adds.foldl (followDependency_adds promoteSuggests) release.declaredDependencies work

variable (repositories directReleases load) in
/-- The jobs that a key leaves. -/
def keyJobs (key : DemandKey) (promoteSuggests : Bool) : Set (DemandKey × Bool) :=
  {job | ∃ release, Candidate repositories load key.package key.constraint release ∧
    job ∈ releaseJobs repositories directReleases promoteSuggests release}

variable (repositories directReleases load) in
/-- The facts that a key adds. -/
def keyFacts (key : DemandKey) (promoteSuggests : Bool) : Set DemandFact :=
  {fact | fact = .discovered key.package ∨
    (eligibleDependencyEntries repositories key.constraint key.package = [] ∧
      fact = .unrouted key.package) ∨
    ∃ release, Candidate repositories load key.package key.constraint release ∧
      fact ∈ releaseFacts repositories directReleases promoteSuggests release}

/-- A loader fails only because a package is not there. -/
def OnlyAbsent (load : RepositoryDemandSource) : Prop :=
  ∀ entry package cause, load entry package = .error cause → cause.category = .notFound

/-- An entry adds what its releases add. -/
theorem walkEntry_adds (absent : OnlyAbsent load) (package : PackageName) (promoteSuggests : Bool)
    (work : DemandWork) (entry : Nat) :
    ∃ next, walkEntry repositories directReleases load package promoteSuggests work entry =
        .ok next ∧
      Adds RepositoryDemandPlan.facts work next
        {job | ∃ releases, load entry package = .ok releases ∧ ∃ release ∈ releases,
          job ∈ releaseJobs repositories directReleases promoteSuggests release}
        {fact | ∃ releases, load entry package = .ok releases ∧ ∃ release ∈ releases,
          fact ∈ releaseFacts repositories directReleases promoteSuggests release} := by
  unfold walkEntry
  cases loaded : load entry package with
  | error cause =>
    refine ⟨work, if_pos (absent entry package cause loaded), ?_⟩
    simpa using Adds.refl work
  | ok candidates =>
    refine ⟨_, rfl, ?_⟩
    simpa using Adds.foldl (followRelease_adds promoteSuggests) candidates work

/-- A candidate is a release of an eligible entry. -/
theorem exists_candidate_iff {package : PackageName} {constraint : DependencySourceConstraint}
    {holds : PackageRelease → Prop} :
    (∃ release, Candidate repositories load package constraint release ∧ holds release) ↔
      ∃ entry ∈ eligibleDependencyEntries repositories constraint package,
        ∃ releases, load entry package = .ok releases ∧ ∃ release ∈ releases, holds release := by
  constructor
  · rintro ⟨release, ⟨entry, eligible, releases, loaded, member⟩, property⟩
    exact ⟨entry, eligible, releases, loaded, release, member, property⟩
  · rintro ⟨entry, eligible, releases, loaded, release, member, property⟩
    exact ⟨release, ⟨entry, eligible, releases, loaded, member⟩, property⟩

/-- A key adds its jobs and its facts. -/
theorem walkPackage_adds (absent : OnlyAbsent load) (key : DemandKey) (promoteSuggests : Bool)
    (work : DemandWork) :
    ∃ next, walkPackage repositories directReleases load key promoteSuggests work = .ok next ∧
      Adds RepositoryDemandPlan.facts work next
        (keyJobs repositories directReleases load key promoteSuggests)
        (keyFacts repositories directReleases load key promoteSuggests) := by
  have entered : Adds RepositoryDemandPlan.facts work
      ⟨work.pending, work.output.discover key.package⟩ ∅ {.discovered key.package} :=
    ⟨⟨[], rfl, by simp⟩, RepositoryDemandPlan.facts_discover _ _⟩
  unfold walkPackage keyJobs keyFacts
  simp only [exists_candidate_iff]
  split
  · next none =>
    rw [List.isEmpty_iff] at none
    refine ⟨_, rfl, ⟨[], rfl, by simp [none]⟩, ?_⟩
    rw [RepositoryDemandPlan.facts_leaveUnrouted, RepositoryDemandPlan.facts_discover,
      Set.union_assoc]
    congr 1
    ext fact
    simp [none, or_comm]
  · next some =>
    rw [List.isEmpty_iff] at some
    obtain ⟨next, walked, added⟩ := Adds.foldlM
      (@walkEntry_adds repositories directReleases load absent key.package promoteSuggests)
      (eligibleDependencyEntries repositories key.constraint key.package)
      ⟨work.pending, work.output.discover key.package⟩
    refine ⟨next, walked, ?_⟩
    have both := entered.trans added
    rw [Set.empty_union] at both
    simp only [some, false_and, false_or]
    exact both

/-- A strong walk follows what a weak one does. -/
theorem DeclaredDependency.follows_mono {dependency : DeclaredDependency}
    (follows : dependency.follows false) : dependency.follows true := by
  simp only [DeclaredDependency.follows, Bool.false_and, Bool.or_false, Bool.true_and,
    Bool.and_eq_true, Bool.or_eq_true] at follows ⊢
  exact ⟨.inl follows.1, follows.2⟩

/-- Scopes of one class are routed alike. -/
theorem eligibleDependencyEntries_congr {left right : DependencySourceConstraint}
    (same : Same left right) (package : PackageName) :
    eligibleDependencyEntries repositories left package =
      eligibleDependencyEntries repositories right package := by
  cases left <;> cases right <;> simp_all [Same, representative, eligibleDependencyEntries]

/-- Keys of one class have the same candidates. -/
theorem candidate_congr {left right : DemandKey} (same : Same left right) :
    Candidate repositories load left.package left.constraint =
      Candidate repositories load right.package right.constraint := by
  obtain ⟨packages, constraints⟩ := DemandKey.mk.inj same
  unfold Candidate
  rw [packages, eligibleDependencyEntries_congr constraints]

/-- The walk of a package is a round of the worklist. -/
theorem walkPackage_expands (absent : OnlyAbsent load) :
    Expands (walkPackage repositories directReleases load) RepositoryDemandPlan.facts
      (keyJobs repositories directReleases load) (keyFacts repositories directReleases load) where
  works := walkPackage_adds absent
  jobsMono := by
    rintro key job ⟨release, candidate, dependency, declared, follows, left⟩
    exact ⟨release, candidate, dependency, declared, DeclaredDependency.follows_mono follows, left⟩
  gainMono := by
    rintro key fact (entered | unrouted | ⟨release, candidate, dependency, declared, follows, added⟩)
    · exact .inl entered
    · exact .inr (.inl unrouted)
    · exact .inr (.inr ⟨release, candidate, dependency, declared,
        DeclaredDependency.follows_mono follows, added⟩)
  jobsCongr left right strong same := by
    simp only [keyJobs, candidate_congr same]
  gainCongr left right strong same := by
    obtain ⟨packages, constraints⟩ := DemandKey.mk.inj same
    unfold keyFacts
    rw [candidate_congr same, packages, eligibleDependencyEntries_congr constraints]

variable (repositories directReleases) in
/-- The jobs that a root leaves. -/
def rootJobs (root : ComposedRootIntent) : Set (DemandKey × Bool) :=
  {job | (∃ repository, root.source = .registry repository ∧ isRemoteRoot root ∧
      eligibleDependencyEntries repositories (rootScope repository) root.name ≠ [] ∧
      job = (⟨root.name, rootScope repository⟩, root.promotesSuggests)) ∨
    ∃ url selector subdirectory, root.source = .git url selector subdirectory ∧
      ∃ release, directReleases.get? root.name = some release ∧
        job ∈ releaseJobs repositories directReleases root.promotesSuggests release}

variable (repositories directReleases) in
/-- The facts that a root adds. -/
def rootFacts (root : ComposedRootIntent) : Set DemandFact :=
  {fact | (∃ repository, root.source = .registry repository ∧ isRemoteRoot root ∧
      (fact ∈ routeFacts repositories (rootScope repository) root.name ∨
        (eligibleDependencyEntries repositories (rootScope repository) root.name = [] ∧
          fact = .discovered root.name))) ∨
    ∃ url selector subdirectory, root.source = .git url selector subdirectory ∧
      ∃ release, directReleases.get? root.name = some release ∧
        fact ∈ releaseFacts repositories directReleases root.promotesSuggests release}

/-- A root adds its jobs and its facts. -/
theorem seedRoot_adds (work : DemandWork) (root : ComposedRootIntent) :
    Adds RepositoryDemandPlan.facts work (seedRoot repositories directReleases work root)
      (rootJobs repositories directReleases root) (rootFacts repositories directReleases root) := by
  unfold seedRoot rootJobs rootFacts
  cases source : root.source with
  | url => simpa using Adds.refl work
  | path => simpa using Adds.refl work
  | git url selector subdirectory =>
    cases direct : directReleases.get? root.name with
    | none => simpa using Adds.refl work
    | some release => simpa using followRelease_adds root.promotesSuggests work release
  | registry repository =>
    by_cases remote : isRemoteRoot root = true
    swap
    · simpa [remote] using Adds.refl work
    simp only [remote, Bool.not_true, Bool.false_eq_true, if_false, true_and,
      ManifestSource.registry.injEq, exists_eq_left', reduceCtorEq, false_and, exists_false, or_false]
    split
    · next none =>
      rw [List.isEmpty_iff] at none
      refine ⟨⟨[], rfl, by simp [none]⟩, ?_⟩
      rw [RepositoryDemandPlan.facts_leaveUnrouted, RepositoryDemandPlan.facts_discover,
        Set.union_assoc]
      congr 1
      ext fact
      simp [routeFacts, none, or_comm]
    · next some =>
      rw [List.isEmpty_iff] at some
      refine ⟨⟨[(⟨root.name, rootScope repository⟩, root.promotesSuggests)], rfl,
        by simp [some]⟩, ?_⟩
      rw [RepositoryDemandPlan.facts_demand]
      congr 1
      ext fact
      simp [routeFacts, some]

end Steps

section Plans

variable {repositories : List RepositorySpec} {roots : List ComposedRootIntent}
  {directReleases : DirectReleases} {load : RepositoryDemandSource}

variable (repositories roots directReleases load) in
/-- What the least closure says. -/
def closureFacts : Set DemandFact :=
  {fact | (∃ package constraint strong,
      DemandedPackage repositories roots directReleases load package constraint strong ∧
      (fact = .discovered package ∨ fact ∈ routeFacts repositories constraint package)) ∨
    ∃ dependency, Followed repositories roots directReleases load dependency ∧
      Overridden directReleases dependency ∧ fact = .discovered dependency.package.name}

/-- A plan that says what the closure says is the least one. -/
theorem RepositoryDemandPlan.least_of_facts {plan : RepositoryDemandPlan}
    (equal : plan.facts = closureFacts repositories roots directReleases load) :
    plan.Least repositories roots directReleases load where
  entryDemands entry package := by
    have fact := Set.ext_iff.mp equal (.demanded entry package)
    simpa [facts, DemandFact.HoldsIn, closureFacts, routeFacts, and_comm] using fact
  unrouted package := by
    have fact := Set.ext_iff.mp equal (.unrouted package)
    simpa [facts, DemandFact.HoldsIn, closureFacts, routeFacts, and_comm] using fact
  discovered package := by
    have fact := Set.ext_iff.mp equal (.discovered package)
    simpa [facts, DemandFact.HoldsIn, closureFacts, routeFacts, @eq_comm _ package] using fact

/-- A followed dependency that is not a direct root is demanded. -/
theorem Followed.demanded {dependency : DeclaredDependency}
    (followed : Followed repositories roots directReleases load dependency)
    (routed : ¬ Overridden directReleases dependency) :
    DemandedPackage repositories roots directReleases load dependency.package.name
      dependency.package.source false := by
  rcases followed with followed | ⟨package, constraint, strong, release, demanded, candidate,
    declared, follows⟩
  · exact .directDependency followed routed
  · exact .dependency demanded candidate declared follows routed

/-- What a followed dependency adds is said by the closure. -/
theorem Followed.facts_subset {dependency : DeclaredDependency}
    (followed : Followed repositories roots directReleases load dependency) :
    dependencyFacts repositories directReleases dependency ⊆
      closureFacts repositories roots directReleases load := by
  intro fact member
  by_cases overridden : Overridden directReleases dependency
  · rcases member with rfl | ⟨routed, -⟩
    · exact .inr ⟨dependency, followed, overridden, rfl⟩
    · exact absurd overridden routed
  · exact .inl ⟨_, _, _, followed.demanded overridden, member.imp_right And.right⟩

variable (repositories roots directReleases) in
/-- The jobs and the plan after the loop over the roots. -/
def seeded : DemandWork :=
  roots.foldl (seedRoot repositories directReleases) ⟨[], .empty⟩

/-- The jobs after the loop over the roots are those of the roots. -/
theorem mem_seeded_pending {job : DemandKey × Bool} :
    job ∈ (seeded repositories roots directReleases).pending ↔
      ∃ root ∈ roots, job ∈ rootJobs repositories directReleases root := by
  obtain ⟨pushed, extended, members⟩ :=
    (Adds.foldl (@seedRoot_adds repositories directReleases) roots ⟨[], .empty⟩).pushes
  rw [seeded, extended, List.append_nil]
  exact members job

/-- The plan after the loop over the roots says what the roots add. -/
theorem facts_seeded : (seeded repositories roots directReleases).output.facts =
    {fact | ∃ root ∈ roots, fact ∈ rootFacts repositories directReleases root} := by
  have added := (Adds.foldl (@seedRoot_adds repositories directReleases) roots ⟨[], .empty⟩).gains
  rw [RepositoryDemandPlan.facts_empty, Set.empty_union] at added
  exact added

/-- A job of a followed dependency demands the package. -/
theorem Followed.demanded_of_job {dependency : DeclaredDependency} {job : DemandKey × Bool}
    (followed : Followed repositories roots directReleases load dependency)
    (left : job ∈ dependencyJobs repositories directReleases dependency) :
    DemandedPackage repositories roots directReleases load job.1.package job.1.constraint job.2 := by
  obtain ⟨routed, -, rfl⟩ := left
  exact followed.demanded routed

/-- The jobs that are reached are demanded. -/
theorem demanded_of_reached {job : DemandKey × Bool}
    (reached : Reached (seeded repositories roots directReleases).pending
      (keyJobs repositories directReleases load) job) :
    DemandedPackage repositories roots directReleases load job.1.package job.1.constraint job.2 := by
  induction reached with
  | seed member =>
    obtain ⟨root, isRoot, ⟨repository, source, remote, -, rfl⟩ | ⟨url, selector, subdirectory,
      source, release, direct, dependency, declared, follows, left⟩⟩ := mem_seeded_pending.mp member
    · exact .registryRoot isRoot source remote
    · exact Followed.demanded_of_job (.inl ⟨root, isRoot, url, selector, subdirectory, source,
        release, direct, declared, follows⟩) left
  | step _ pushed ih =>
    obtain ⟨release, candidate, dependency, declared, follows, left⟩ := pushed
    exact Followed.demanded_of_job
      (.inr ⟨_, _, _, release, ih, candidate, declared, follows⟩) left

/-- A candidate is there only when an entry is eligible. -/
theorem Candidate.eligible {package : PackageName} {constraint : DependencySourceConstraint}
    {release : PackageRelease} (candidate : Candidate repositories load package constraint release) :
    eligibleDependencyEntries repositories constraint package ≠ [] := by
  obtain ⟨entry, eligible, -⟩ := candidate
  exact List.ne_nil_of_mem eligible

/-- What is demanded of an entry is reached. -/
theorem reached_of_demanded {package : PackageName} {constraint : DependencySourceConstraint}
    {strong : Bool}
    (demanded : DemandedPackage repositories roots directReleases load package constraint strong)
    (eligible : eligibleDependencyEntries repositories constraint package ≠ []) :
    Reached (seeded repositories roots directReleases).pending
      (keyJobs repositories directReleases load) (⟨package, constraint⟩, strong) := by
  induction demanded with
  | registryRoot member source remote =>
    exact .seed (mem_seeded_pending.mpr ⟨_, member, .inl ⟨_, source, remote, eligible, rfl⟩⟩)
  | directDependency followed routed =>
    obtain ⟨root, isRoot, url, selector, subdirectory, source, release, direct, declared, follows⟩ :=
      followed
    exact .seed (mem_seeded_pending.mpr ⟨root, isRoot, .inr ⟨url, selector, subdirectory, source,
      release, direct, _, declared, follows, routed, eligible, rfl⟩⟩)
  | dependency _ candidate declared follows routed ih =>
    exact .step (ih candidate.eligible)
      ⟨_, candidate, _, declared, follows, routed, eligible, rfl⟩

/-- What a followed dependency adds is said by the plan. -/
theorem Followed.facts_gained {dependency : DeclaredDependency} {fact : DemandFact}
    (followed : Followed repositories roots directReleases load dependency)
    (member : fact ∈ dependencyFacts repositories directReleases dependency) :
    fact ∈ (seeded repositories roots directReleases).output.facts ∪
      gains (seeded repositories roots directReleases).pending
        (keyJobs repositories directReleases load) (keyFacts repositories directReleases load) := by
  rcases followed with ⟨root, isRoot, url, selector, subdirectory, source, release, direct, declared,
    follows⟩ | ⟨package, constraint, strong, release, demanded, candidate, declared, follows⟩
  · rw [facts_seeded]
    exact .inl ⟨root, isRoot, .inr ⟨url, selector, subdirectory, source, release, direct, dependency,
      declared, follows, member⟩⟩
  · exact .inr ⟨_, reached_of_demanded demanded candidate.eligible,
      .inr (.inr ⟨release, candidate, dependency, declared, follows, member⟩)⟩

/-- The roots and the reached packages add what the closure says. -/
theorem facts_eq_closureFacts :
    (seeded repositories roots directReleases).output.facts ∪
      gains (seeded repositories roots directReleases).pending
        (keyJobs repositories directReleases load) (keyFacts repositories directReleases load) =
      closureFacts repositories roots directReleases load := by
  apply Set.Subset.antisymm
  · rw [facts_seeded]
    rintro fact (⟨root, isRoot, ⟨repository, source, remote, added⟩ | ⟨url, selector, subdirectory,
      source, release, direct, dependency, declared, follows, added⟩⟩ | ⟨job, reached, added⟩)
    · refine .inl ⟨_, _, _, .registryRoot isRoot source remote, ?_⟩
      rcases added with routed | ⟨-, entered⟩
      · exact .inr routed
      · exact .inl entered
    · exact Followed.facts_subset (.inl ⟨root, isRoot, url, selector, subdirectory, source, release,
        direct, declared, follows⟩) added
    · have demanded := demanded_of_reached reached
      rcases added with entered | unrouted | ⟨release, candidate, dependency, declared, follows, added⟩
      · exact .inl ⟨_, _, _, demanded, .inl entered⟩
      · exact .inl ⟨_, _, _, demanded, .inr (.inl unrouted)⟩
      · exact Followed.facts_subset
          (.inr ⟨_, _, _, release, demanded, candidate, declared, follows⟩) added
  · rintro fact (⟨package, constraint, strong, demanded, added⟩ | ⟨dependency, followed, -, rfl⟩)
    · cases demanded with
      | @registryRoot root repository isRoot source remote =>
        by_cases eligible :
          eligibleDependencyEntries repositories (rootScope repository) root.name = []
        · rw [facts_seeded]
          refine .inl ⟨root, isRoot, .inl ⟨repository, source, remote, ?_⟩⟩
          rcases added with entered | routed
          · exact .inr ⟨eligible, entered⟩
          · exact .inl routed
        · rcases added with entered | routed
          · exact .inr ⟨_, reached_of_demanded (.registryRoot isRoot source remote) eligible,
              .inl entered⟩
          · rw [facts_seeded]
            exact .inl ⟨root, isRoot, .inl ⟨repository, source, remote, .inl routed⟩⟩
      | directDependency followed routed =>
        exact Followed.facts_gained (.inl followed) (added.imp_right fun facts => ⟨routed, facts⟩)
      | dependency demanded candidate declared follows routed =>
        exact Followed.facts_gained (.inr ⟨_, _, _, _, demanded, candidate, declared, follows⟩)
          (added.imp_right fun facts => ⟨routed, facts⟩)
    · exact followed.facts_gained (.inl rfl)

/-- A loader has releases of finitely many packages. -/
def FinitelyMany (load : RepositoryDemandSource) : Prop :=
  {package | ∃ entry releases, load entry package = .ok releases ∧ releases ≠ []}.Finite

/-- Eligible entries are entries. -/
theorem lt_of_eligible {source : DependencySourceConstraint} {package : PackageName} {entry : Nat}
    (eligible : entry ∈ eligibleDependencyEntries repositories source package) :
    entry < repositories.length := by
  have bound : ∀ keep : RepositorySpec × Nat → Bool,
      entry ∈ (repositories.zipIdx.filter keep).map Prod.snd → entry < repositories.length := by
    intro keep member
    obtain ⟨pair, kept, rfl⟩ := List.mem_map.mp member
    have indexed := List.mem_zipIdx (List.mem_of_mem_filter kept)
    omega
  unfold eligibleDependencyEntries eligibleEntries at eligible
  split at eligible
  · exact bound _ eligible
  · exact bound _ eligible
  · exact bound _ eligible
  all_goals simp at eligible

/-- The keys of the dependencies of finitely many packages are finitely many. -/
theorem exists_keys (finite : FinitelyMany load) :
    ∃ keys : List DemandKey, ∀ key strong job,
      job ∈ keyJobs repositories directReleases load key strong →
      ∃ known ∈ keys, Same job.1 known := by
  unfold FinitelyMany at finite
  let releasesOf (entry : Nat) (package : PackageName) : List PackageRelease :=
    (load entry package).toOption.getD []
  let keyOf (dependency : DeclaredDependency) : DemandKey :=
    ⟨dependency.package.name, dependency.package.source⟩
  refine ⟨finite.toFinset.toList.flatMap (fun package =>
    (List.range repositories.length).flatMap (fun entry => (releasesOf entry package).flatMap
      (fun release => release.declaredDependencies.map keyOf))), ?_⟩
  rintro key strong job ⟨release, ⟨entry, eligible, releases, loaded, member⟩, dependency, declared,
    -, -, -, rfl⟩
  refine ⟨keyOf dependency, ?_, Same.refl _⟩
  have named : key.package ∈ finite.toFinset.toList := by
    rw [Finset.mem_toList, Set.Finite.mem_toFinset]
    exact ⟨entry, releases, loaded, List.ne_nil_of_mem member⟩
  refine List.mem_flatMap.mpr ⟨key.package, named, List.mem_flatMap.mpr
    ⟨entry, List.mem_range.mpr (lt_of_eligible eligible), List.mem_flatMap.mpr
      ⟨release, ?_, List.mem_map_of_mem declared⟩⟩⟩
  simpa [releasesOf, loaded, Except.toOption] using member

/-- Planning ends with the least plan. -/
theorem exists_least_plan (absent : OnlyAbsent load) (finite : FinitelyMany load) :
    ∃ plan enough, (∀ fuel, enough ≤ fuel →
      resolveRepositoryDemandsWithDirect repositories directReleases load fuel roots =
        some (.ok plan)) ∧
      plan.facts = closureFacts repositories roots directReleases load := by
  obtain ⟨keys, closed⟩ := @exists_keys repositories directReleases load finite
  let seeds := (seeded repositories roots directReleases).pending
  have closed' : ∀ key strong job, job ∈ keyJobs repositories directReleases load key strong →
      ∃ known ∈ keys ++ seeds.map Prod.fst, Same job.1 known := by
    intro key strong job member
    obtain ⟨known, inside, same⟩ := closed key strong job member
    exact ⟨known, List.mem_append_left _ inside, same⟩
  have known : Known (keys ++ seeds.map Prod.fst) seeds := fun job member =>
    ⟨job.1, List.mem_append_right _ (List.mem_map_of_mem member), Same.refl _⟩
  obtain ⟨plan, enough, ended, facts⟩ := drain_closure (walkPackage_expands absent) closed' known
    (seeded repositories roots directReleases).output
  exact ⟨plan, enough, ended, facts.trans facts_eq_closureFacts⟩

/-- Two loads fail alike, or have the same releases in some order. -/
def LoadsAlike : Except CandidateLoadError (List PackageRelease) →
    Except CandidateLoadError (List PackageRelease) → Prop
  | .ok left, .ok right => left.Perm right
  | .error left, .error right => left = right
  | .ok _, .error _ => False
  | .error _, .ok _ => False

/-- Loads that are alike have the same releases. -/
theorem LoadsAlike.exists_mem_iff {left right : Except CandidateLoadError (List PackageRelease)}
    (alike : LoadsAlike left right) (release : PackageRelease) :
    (∃ releases, left = .ok releases ∧ release ∈ releases) ↔
      ∃ releases, right = .ok releases ∧ release ∈ releases := by
  cases left with
  | error => cases right <;> simp_all [LoadsAlike]
  | ok left =>
    cases right with
    | error => exact absurd alike (by simp [LoadsAlike])
    | ok right =>
      have order : left.Perm right := alike
      simpa using order.mem_iff

section Orders

variable {roots' : List ComposedRootIntent} {load' : RepositoryDemandSource}

/-- Loaders that are alike have the same candidates. -/
theorem candidate_eq (alike : ∀ entry package, LoadsAlike (load entry package) (load' entry package)) :
    Candidate repositories load = Candidate repositories load' := by
  funext package constraint release
  unfold Candidate
  simp only [(alike _ package).exists_mem_iff release]

/-- The order of the roots does not decide what they follow. -/
theorem followedByRoot_eq (order : roots.Perm roots') :
    FollowedByRoot roots directReleases = FollowedByRoot roots' directReleases := by
  funext dependency
  unfold FollowedByRoot
  simp only [order.mem_iff]

/-- Neither the order of the roots nor the order of the releases decides what is demanded. -/
theorem DemandedPackage.reorder (order : roots.Perm roots')
    (alike : ∀ entry package, LoadsAlike (load entry package) (load' entry package))
    {package : PackageName} {constraint : DependencySourceConstraint} {strong : Bool}
    (demanded : DemandedPackage repositories roots directReleases load package constraint strong) :
    DemandedPackage repositories roots' directReleases load' package constraint strong := by
  induction demanded with
  | registryRoot member source remote => exact .registryRoot (order.mem_iff.mp member) source remote
  | directDependency followed routed =>
    exact .directDependency (followedByRoot_eq order ▸ followed) routed
  | dependency _ candidate declared follows routed ih =>
    exact .dependency ih (candidate_eq alike ▸ candidate) declared follows routed

/-- Loads are alike in both directions. -/
theorem LoadsAlike.symm {left right : Except CandidateLoadError (List PackageRelease)}
    (alike : LoadsAlike left right) : LoadsAlike right left := by
  cases left <;> cases right
  · exact Eq.symm alike
  · exact alike
  · exact alike
  · exact List.Perm.symm alike

/-- Neither order decides what the closure says. -/
theorem closureFacts_eq (order : roots.Perm roots')
    (alike : ∀ entry package, LoadsAlike (load entry package) (load' entry package)) :
    closureFacts repositories roots directReleases load =
      closureFacts repositories roots' directReleases load' := by
  have demanded : DemandedPackage repositories roots directReleases load =
      DemandedPackage repositories roots' directReleases load' := by
    funext package constraint strong
    exact propext ⟨DemandedPackage.reorder order alike,
      DemandedPackage.reorder order.symm (fun entry package => (alike entry package).symm)⟩
  unfold closureFacts Followed
  rw [demanded, followedByRoot_eq order, candidate_eq alike]

/-- Loaders that are alike have releases of the same packages and fail for the same reasons. -/
theorem LoadsAlike.finite (finite : FinitelyMany load)
    (alike : ∀ entry package, LoadsAlike (load entry package) (load' entry package)) :
    FinitelyMany load' := by
  refine Set.Finite.subset finite ?_
  rintro package ⟨entry, releases, loaded, some⟩
  obtain ⟨release, member⟩ := List.exists_mem_of_ne_nil releases some
  obtain ⟨others, found, inside⟩ :=
    ((alike entry package).exists_mem_iff release).mpr ⟨releases, loaded, member⟩
  exact ⟨entry, others, found, List.ne_nil_of_mem inside⟩

/-- Loaders that are alike fail alike. -/
theorem LoadsAlike.onlyAbsent (absent : OnlyAbsent load)
    (alike : ∀ entry package, LoadsAlike (load entry package) (load' entry package)) :
    OnlyAbsent load' := by
  intro entry package cause failed
  have equal := alike entry package
  rw [failed] at equal
  cases loaded : load entry package with
  | ok releases =>
    rw [loaded] at equal
    exact absurd equal (by simp [LoadsAlike])
  | error other =>
    rw [loaded] at equal
    obtain rfl : other = cause := equal
    exact absent entry package other loaded

end Orders

/-- What a loop has put into a set was there before or was added by a round. -/
theorem exists_of_mem_foldl {α β : Type*} {round : Finset α → β → Finset α} {value : α}
    {adds : β → Prop}
    (rounds : ∀ set item, value ∈ round set item → value ∈ set ∨ adds item) {items : List β}
    {set : Finset α} (member : value ∈ items.foldl round set) :
    value ∈ set ∨ ∃ item ∈ items, adds item := by
  induction items generalizing set with
  | nil => exact .inl member
  | cons item items ih =>
    rcases ih member with before | ⟨later, inside, added⟩
    · rcases rounds set item before with old | added
      · exact .inl old
      · exact .inr ⟨item, List.mem_cons_self, added⟩
    · exact .inr ⟨later, List.mem_cons_of_mem _ inside, added⟩

/-- The pairs that a root adds first are among those it adds. -/
theorem mem_initialRootDemands {demands : Finset (Nat × PackageName)} {root : ComposedRootIntent}
    {pair : Nat × PackageName}
    (member : pair ∈ initialRootDemands repositories directReleases demands root) :
    pair ∈ demands ∨ .demanded pair.1 pair.2 ∈ rootFacts repositories directReleases root := by
  unfold initialRootDemands at member
  split at member
  · next repository source =>
    by_cases remote : isRemoteRoot root = true
    swap
    · exact .inl (by simpa [remote] using member)
    rw [if_neg (by simp [remote]), RepositoryDemandPlan.mem_foldl_insert] at member
    refine member.imp_right ?_
    rintro ⟨entry, eligible, rfl⟩
    refine .inl ⟨repository, source, remote, .inl (.inr ⟨entry, ?_, rfl⟩)⟩
    cases repository <;> exact eligible
  · next url selector subdirectory source =>
    split at member
    · exact .inl member
    · next release direct =>
      have rounds : ∀ (set : Finset (Nat × PackageName)) (dependency : DeclaredDependency),
          pair ∈ (if !dependency.follows root.promotesSuggests then set
            else if directRootOverride directReleases dependency.package.name
              dependency.package.source then set
            else (eligibleDependencyEntries repositories dependency.package.source
              dependency.package.name).foldl
                (fun demands entry => insert (entry, dependency.package.name) demands) set) →
          pair ∈ set ∨ (dependency.follows root.promotesSuggests ∧
            .demanded pair.1 pair.2 ∈ dependencyFacts repositories directReleases dependency) := by
        intro set dependency inside
        split at inside
        · exact .inl inside
        · next follows =>
          split at inside
          · exact .inl inside
          · next routed =>
            refine (RepositoryDemandPlan.mem_foldl_insert.mp inside).imp_right ?_
            rintro ⟨entry, eligible, rfl⟩
            exact ⟨by simpa using follows, .inr ⟨routed, .inr ⟨entry, eligible, rfl⟩⟩⟩
      refine (exists_of_mem_foldl rounds member).imp_right ?_
      rintro ⟨dependency, declared, follows, added⟩
      exact .inr ⟨url, selector, subdirectory, source, release, direct, dependency, declared,
        follows, added⟩
  · exact .inl member
  · exact .inl member

/-- The initial demands are demanded. -/
theorem mem_initialRepositoryDemandsWithDirect {pair : Nat × PackageName}
    (member : pair ∈ initialRepositoryDemandsWithDirect repositories directReleases roots) :
    .demanded pair.1 pair.2 ∈ closureFacts repositories roots directReleases load := by
  rw [← facts_eq_closureFacts, facts_seeded]
  have rounds : ∀ (set : Finset (Nat × PackageName)) (root : ComposedRootIntent),
      pair ∈ initialRootDemands repositories directReleases set root →
        pair ∈ set ∨ .demanded pair.1 pair.2 ∈ rootFacts repositories directReleases root :=
    fun _ _ => mem_initialRootDemands
  rcases exists_of_mem_foldl rounds member with none | added
  · simp at none
  · exact .inl added

end Plans

/-- Planning ends with the least plan, for every loader that has releases of finitely many packages
and fails only because a package is not there. The plan holds the initial demands, and is the same
for every order of the roots and of the releases. -/
theorem resolveRepositoryDemandsWithDirect_least (repositories : List RepositorySpec)
    (roots : List ComposedRootIntent) (directReleases : DirectReleases)
    (load : RepositoryDemandSource) (absent : OnlyAbsent load) (finite : FinitelyMany load) :
    ∃ plan : RepositoryDemandPlan,
      (∃ enough, ∀ fuel, enough ≤ fuel →
        resolveRepositoryDemandsWithDirect repositories directReleases load fuel roots =
          some (.ok plan)) ∧
      plan.Least repositories roots directReleases load ∧
      initialRepositoryDemandsWithDirect repositories directReleases roots ⊆ plan.entryDemands ∧
      ∀ (roots' : List ComposedRootIntent) (load' : RepositoryDemandSource), roots.Perm roots' →
        (∀ entry package, LoadsAlike (load entry package) (load' entry package)) →
        ∃ enough, ∀ fuel, enough ≤ fuel →
          resolveRepositoryDemandsWithDirect repositories directReleases load' fuel roots' =
            some (.ok plan) := by
  obtain ⟨plan, enough, ended, facts⟩ :=
    @exists_least_plan repositories roots directReleases load absent finite
  refine ⟨plan, ⟨enough, ended⟩, RepositoryDemandPlan.least_of_facts facts, ?_, ?_⟩
  · intro pair member
    have demanded : .demanded pair.1 pair.2 ∈ plan.facts :=
      facts ▸ mem_initialRepositoryDemandsWithDirect member
    exact demanded
  · intro roots' load' order alike
    obtain ⟨other, enough', ended', facts'⟩ := @exists_least_plan repositories roots' directReleases
      load' (LoadsAlike.onlyAbsent absent alike) (LoadsAlike.finite finite alike)
    have equal : other = plan := RepositoryDemandPlan.eq_of_facts
      (facts'.trans ((closureFacts_eq order alike).symm.trans facts.symm))
    exact ⟨enough', fun fuel more => equal ▸ ended' fuel more⟩

namespace Small

/-- No allowlist is well formed. -/
theorem unlisted : ∀ names, (none : Option (List PackageName)) = some names → Allowlist names := by
  simp

/-- The specification of a repository. -/
def cran : RepositorySpec where
  id := repository
  registry := .cran
  manifestEndpoint := ⟨"https://cran.example.org/", by decide⟩
  packages := none
  named := by decide
  unreserved := by decide
  listed := unlisted

/-- A registry root. -/
def registryRoot (name : PackageName) (scope : Option RepositoryId)
    (expansion : RootExpansionPolicy) : ComposedRootIntent :=
  ⟨name, .unconstrained, .registry scope, expansion⟩

/-- A dependency without a scope. -/
def declares (kind : DependencyKind) (name : PackageName) : DeclaredDependency :=
  ⟨kind, ⟨name, .any, .unconstrained, namesPackage_any name⟩⟩

/-- A package that is suggested. -/
def zoo : PackageName := ⟨"zoo", by decide⟩

/-- A loader of two packages: one imports the other, which suggests a third and requires R. -/
def demandSource : RepositoryDemandSource := fun entry package =>
  if entry = 0 ∧ package = alpha then .ok [release alpha newer [declares .imports rcpp]]
  else if entry = 0 ∧ package = rcpp then
    .ok [release rcpp newer [declares .suggests zoo, declares .depends ⟨"R", by decide⟩]]
  else .error ⟨.notFound, "package is absent"⟩

/-- A package of R itself. -/
def stats : PackageName := ⟨"stats", by decide⟩

end Small

/-- A root that was walked as a dependency first is walked again for its suggested packages, in both
orders of the roots. -/
theorem resolveRepositoryDemandsWithDirect_least_revisit :
    let roots := [Small.registryRoot Small.rcpp none .directSuggests,
      Small.registryRoot Small.alpha none .hardOnly]
    ∃ enough, ∀ fuel, enough ≤ fuel →
      resolveRepositoryDemandsWithDirect [Small.cran] .empty Small.demandSource fuel roots =
          some (.ok ⟨{(0, Small.zoo), (0, Small.alpha), (0, Small.rcpp)}, ∅,
            {Small.zoo, Small.rcpp, Small.alpha}⟩) ∧
      resolveRepositoryDemandsWithDirect [Small.cran] .empty Small.demandSource fuel roots.reverse =
        resolveRepositoryDemandsWithDirect [Small.cran] .empty Small.demandSource fuel roots := by
  intro roots
  have absent : OnlyAbsent Small.demandSource := by
    intro entry package cause failed
    unfold Small.demandSource at failed
    split at failed
    · cases failed
    · split at failed
      · cases failed
      · obtain rfl := Except.error.inj failed
        rfl
  have finite : FinitelyMany Small.demandSource := by
    refine Set.Finite.subset (Set.toFinite {Small.alpha, Small.rcpp}) ?_
    rintro package ⟨entry, releases, loaded, -⟩
    unfold Small.demandSource at loaded
    split at loaded
    · next found => exact .inl found.2
    · split at loaded
      · next found => exact .inr found.2
      · cases loaded
  have alike : ∀ entry package, LoadsAlike (Small.demandSource entry package)
      (Small.demandSource entry package) := by
    intro entry package
    cases Small.demandSource entry package with
    | ok releases => exact List.Perm.refl releases
    | error cause => rfl
  obtain ⟨plan, ⟨enough, ended⟩, -, -, reordered⟩ :=
    resolveRepositoryDemandsWithDirect_least [Small.cran] roots .empty Small.demandSource absent
      finite
  obtain ⟨enough', ended'⟩ := reordered roots.reverse Small.demandSource
    (List.reverse_perm roots).symm alike
  have evaluated : resolveRepositoryDemandsWithDirect [Small.cran] .empty Small.demandSource 10
      roots = some (.ok ⟨{(0, Small.zoo), (0, Small.alpha), (0, Small.rcpp)}, ∅,
        {Small.zoo, Small.rcpp, Small.alpha}⟩) := by decide +kernel
  refine ⟨max 10 (max enough enough'), fun fuel more => ?_⟩
  have settled := drain_mono evaluated (le_of_max_le_left more)
  have later := ended fuel (le_trans (le_max_left _ _) (le_of_max_le_right more))
  refine ⟨settled, ?_⟩
  rw [ended' fuel (le_trans (le_max_right _ _) (le_of_max_le_right more)), later]

/-- A root that names a package of R is not demanded of the entries that are eligible for it, but it
is demanded when it is scoped to a repository. -/
theorem resolveRepositoryDemandsWithDirect_base_roots :
    isRBasePackageName Small.stats ∧
    eligibleDependencyEntries [Small.cran] .any Small.stats = [0] ∧
    resolveRepositoryDemandsWithDirect [Small.cran] .empty Small.demandSource 5
        [Small.registryRoot Small.stats none .hardOnly] = some (.ok ⟨∅, ∅, ∅⟩) ∧
    resolveRepositoryDemandsWithDirect [Small.cran] .empty Small.demandSource 5
        [Small.registryRoot Small.stats (some Small.repository) .hardOnly] =
      some (.ok ⟨{(0, Small.stats)}, ∅, {Small.stats}⟩) := by
  refine ⟨by decide, by decide +kernel, by decide +kernel, by decide +kernel⟩

end Rsolve
