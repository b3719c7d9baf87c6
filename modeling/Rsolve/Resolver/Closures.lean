import Rsolve.Resolver.Plans

/-!
# Closed sets of subjects

A set of subjects is closed when it holds the subjects of the roots and of the effective edges of
every candidate it sees. A disciplined solver never leaves a closed set, so a run over a closed set
that loads without conflicts is free of failures.
-/
open Keyed Checked Growth Intervals

namespace Rsolve

namespace Provider

variable (provider : Provider)

/-- A set of subjects that holds everything a run may ask about. -/
structure Closed (touched : SolverKey → Prop) : Prop where
  /-- The set does not depend on spelling. -/
  spelled : ∀ left right, Same left right → touched left → touched right
  /-- The roots can be answered within the set. -/
  roots : ∀ root ∈ provider.request.roots, provider.Answerable touched root.package
  /-- The effective edges of a candidate of the set can be answered within it. -/
  edges : ∀ key subject visible candidate expansion, Same key subject → touched subject →
    provider.Shows key visible → candidate ∈ visible →
    provider.expansionForSubject subject = .ok expansion →
    ∀ edge ∈ projectDependencyEdges candidate.release expansion,
      provider.Answerable touched edge.package

variable {provider} {touched : SolverKey → Prop}

/-- A loaded candidate is one its subject shows. -/
theorem shows_of_visible {state : ProviderState} (wellFormed : provider.WellFormed state)
    {subject : SolverKey} {id : CandidateId} {candidate : PreparedCandidate}
    (visible : state.Visible subject id candidate) :
    ∃ key shown, Same key subject ∧ provider.Shows key shown ∧ candidate ∈ shown := by
  obtain ⟨loaded, view, member⟩ := visible
  obtain ⟨key, same, loads⟩ := wellFormed.cached subject loaded view
  obtain ⟨result, shown, offered, shows, listed, -⟩ := loads.prepared
  refine ⟨key, shown, same, ⟨result, offered, shows⟩, ?_⟩
  rw [← listed]
  exact List.mem_map.mpr ⟨_, member, rfl⟩

section Closure

variable (closed : provider.Closed touched)
include closed

/-- The entries of requirements that can be answered within the set are about subjects of it. -/
theorem Closed.touches {packages : List PackageRequirement}
    {entries : List (PackageId × VersionRange)} {state : ProviderState}
    (entered : provider.EntriesOf packages entries state)
    (answerable : ∀ package ∈ packages, provider.Answerable touched package)
    {entry : PackageId × VersionRange} (member : entry ∈ entries) {package : PackageId}
    (same : Same entry.1 package) : Touches touched package := by
  obtain ⟨requirement, requirementIn, subject, found, keyed, -⟩ := entered.subject member
  rw [keyed] at same
  obtain ⟨key, rfl, sameKey⟩ := eq_subject_of_same same.symm
  rintro other ⟨⟩ differs
  have ordinary : subject ≠ .r := fun runtime => differs (eq_r_of_same (runtime ▸ sameKey))
  exact closed.spelled subject _ sameKey.symm
    (answerable requirement requirementIn subject found ordinary).1

/-- What a recorded answer of the set mentions is in the set. -/
theorem Closed.mentioned {state : ProviderState} (wellFormed : provider.WellFormed state)
    {asked : PackageId} {version : SolverVersion} {constraints : KeyedMap PackageId VersionRange}
    (answered : provider.DependencyAnswer state asked version (.available constraints))
    (within : Touches touched asked) {entry : PackageId × VersionRange}
    (entryIn : entry ∈ constraints.entries) {package : PackageId} (same : Same entry.1 package) :
    Touches touched package := by
  cases answered with
  | r version => simp [KeyedMap.empty] at entryIn
  | occupancy name version => simp [KeyedMap.empty] at entryIn
  | root entries entered =>
    obtain ⟨source, sourceIn, sameSource, -⟩ := KeyedMap.mem_ofList entryIn
    rcases List.mem_cons.mp sourceIn with rfl | sourceIn
    · obtain ⟨key, rfl, sameKey⟩ := eq_subject_of_same (sameSource.trans same).symm
      rintro other ⟨⟩ differs
      exact absurd (eq_r_of_same sameKey) differs
    · refine closed.touches entered (fun requirement requirementIn => ?_) sourceIn
        (sameSource.trans same)
      obtain ⟨root, rootIn, rfl⟩ := List.mem_map.mp requirementIn
      exact closed.roots root rootIn
  | admitted subject id candidate expansion entries differs visible passes expanded entered =>
    obtain ⟨source, sourceIn, sameSource, -⟩ := KeyedMap.mem_ofList entryIn
    rcases List.mem_cons.mp sourceIn with rfl | sourceIn
    · rintro other rfl
      have named := sameSource.trans same
      simp [Same, representative] at named
    · obtain ⟨key, shown, sameKey, shows, candidateIn⟩ := shows_of_visible wellFormed visible
      refine closed.touches entered (fun requirement requirementIn => ?_) sourceIn
        (sameSource.trans same)
      obtain ⟨edge, edgeIn, rfl⟩ := List.mem_map.mp requirementIn
      exact closed.edges key subject shown candidate expansion sameKey (within subject rfl differs)
        shows candidateIn expanded edge edgeIn

/-- A disciplined run mentions and chooses only packages of the set. -/
theorem Closed.within {pubgrub : PubGrub} (disciplined : pubgrub.DisciplinedFor provider)
    {transcript : Transcript} {state : ProviderState}
    (reached : provider.Reaches pubgrub transcript state) :
    (∀ package, Mentioned transcript package → Touches touched package) ∧
      ∀ package version, Chosen transcript package version → Touches touched package := by
  have rootTouches : Touches touched .root := by rintro subject ⟨⟩
  induction reached with
  | start =>
    constructor
    · rintro package ⟨_, _, _, recorded, -⟩
      simp at recorded
    · rintro package version ⟨_, recorded⟩
      simp at recorded
  | @step transcript state later call reply before asked answered ih =>
    obtain ⟨mentioned, chosen⟩ := ih
    have reachedLater : provider.Reaches pubgrub (transcript ++ [(call, reply)]) later :=
      .step before asked answered
    constructor
    · rintro package ⟨about, version, constraints, recorded, entry, entryIn, same⟩
      have held := reachedLater.answered.2 _ recorded
      rcases List.mem_append.mp recorded with old | new
      · exact mentioned package ⟨about, version, constraints, old, entry, entryIn, same⟩
      · obtain ⟨rfl, rfl⟩ := Prod.mk.inj (List.mem_singleton.mp new)
        refine closed.mentioned reachedLater.answered.1 held ?_ entryIn same
        rcases disciplined.dependencies _ _ _ _ before asked with ⟨rfl, -⟩ | picked
        · exact rootTouches
        · exact chosen _ _ picked
    · rintro package version ⟨range, recorded⟩
      rcases List.mem_append.mp recorded with old | new
      · exact chosen package version ⟨range, old⟩
      · obtain ⟨rfl, rfl⟩ := Prod.mk.inj (List.mem_singleton.mp new)
        rcases disciplined.packages _ _ _ _ before asked with rfl | named
        · exact rootTouches
        · exact mentioned package named

/-- Every question of a disciplined run stays within a closed set. -/
theorem Closed.asks {pubgrub : PubGrub} (disciplined : pubgrub.DisciplinedFor provider)
    {transcript : Transcript} {state : ProviderState}
    (reached : provider.Reaches pubgrub transcript state) {call : Call}
    (asked : pubgrub.next transcript = .ask call) : provider.Asks touched state call := by
  obtain ⟨mentioned, chosen⟩ := closed.within disciplined reached
  have rootTouches : Touches touched .root := by rintro subject ⟨⟩
  unfold Asks
  split
  · next package range =>
    rcases disciplined.prioritized _ _ _ _ reached asked with rfl | named
    · exact rootTouches
    · exact mentioned package named
  · next package range =>
    rcases disciplined.packages _ _ _ _ reached asked with rfl | named
    · exact rootTouches
    · exact mentioned package named
  · exact closed.roots
  · next subject id =>
    intro differs
    rcases disciplined.dependencies _ _ _ _ reached asked with ⟨impossible, -⟩ | picked
    · simp at impossible
    · have inside := chosen _ _ picked subject rfl differs
      obtain ⟨range, recorded⟩ := picked
      have answered := reached.answered.2 _ recorded
      change provider.ChoiceAnswer state _ _ _ at answered
      generalize returned : some (SolverVersion.candidate id) = version at answered
      cases answered with
      | r range => exact absurd rfl differs
      | subject _ range loaded _ view =>
        obtain ⟨found, preferred, equal⟩ := Option.map_eq_some_iff.mp returned.symm
        obtain rfl : found = id := by simpa using equal
        obtain ⟨candidate, kept⟩ := provider.preferredCandidate_eq_some preferred
        have member := (List.mem_filter.mp (provider.mem_of_mem_withinCutoff kept)).1
        have visible : state.Visible subject found candidate := ⟨loaded, view, member⟩
        refine ⟨candidate, visible, fun _ expansion expanded edge projected => ?_⟩
        obtain ⟨key, shown, same, shows, candidateIn⟩ :=
          shows_of_visible reached.answered.1 visible
        exact closed.edges key subject shown candidate expansion same inside shows candidateIn
          expanded edge projected
  · trivial

end Closure

/-- A run whose questions stay within a set that loads without conflicts is free of failures. -/
theorem Reaches.healthy_of_asks (loadable : provider.Loadable touched)
    (plain : ∀ root ∈ provider.request.roots, ¬ IsGitSourced root.package) {pubgrub : PubGrub}
    (asks : ∀ transcript state call, provider.Reaches pubgrub transcript state →
      pubgrub.next transcript = .ask call → provider.Asks touched state call)
    {transcript : Transcript} {state : ProviderState}
    (reached : provider.Reaches pubgrub transcript state) :
    provider.Healthy touched state ∧ ∀ call, pubgrub.next transcript = .ask call →
      ∃ reply later, provider.answer call state = (.ok reply, later) ∧
        provider.Healthy touched later := by
  have keyed : provider.RootsKeyed := fun root member =>
    provider.subjectForPackage_of_not_git (plain root member)
  have healthy : provider.Healthy touched state := by
    induction reached with
    | start => exact provider.initial_healthy _
    | step before asked answered ih =>
      obtain ⟨reply, later, returned, kept⟩ := answer_succeeds loadable keyed plain ih
        (asks _ _ _ before asked)
      rw [answered] at returned
      obtain ⟨-, rfl⟩ := Prod.mk.inj returned
      exact kept
  exact ⟨healthy, fun call asked => answer_succeeds loadable keyed plain healthy
    (asks _ _ call reached asked)⟩

end Provider

end Rsolve
