import Rsolve.Resolver.Closures

/-!
# Completeness

A loader without failures that agrees with itself never stops a run. If some finite choice of
releases meets the roots and the effective edges of everything chosen, the run ends in a resolution.
-/
open Keyed Checked Growth Intervals

namespace Rsolve

/-- A loader never fails, quarantines nothing, and agrees on the facts of every identity. -/
structure CandidateLoader.Agrees (loader : CandidateLoader) : Prop where
  /-- Every subject is loaded, without quarantined versions. -/
  loads : ∀ subject, ∃ candidates, loader subject = .ok ⟨candidates, []⟩
  /-- Candidates of one identity have the same facts under every subject. -/
  facts : ∀ left right leftResult rightResult, loader left = .ok leftResult →
    loader right = .ok rightResult → ∀ candidate ∈ leftResult.candidates,
    ∀ other ∈ rightResult.candidates, Same candidate.identity other.identity →
    candidate.SameFacts other

/-- Observations that agree are collected without failure: every observation is represented by one
of them. -/
theorem uniqueCandidates_of_agreeing {releases : List PreparedCandidate}
    (agree : ∀ left ∈ releases, ∀ right ∈ releases, Same left.identity right.identity →
      left.SameFacts right) :
    ∃ unique, uniqueCandidates releases = .ok unique ∧ (∀ candidate ∈ unique, candidate ∈ releases) ∧
      ∀ candidate ∈ releases, ∃ kept ∈ unique, Same kept.identity candidate.identity := by
  have general : ∀ (rest seen start : List PreparedCandidate),
      (∀ left ∈ seen ++ rest, ∀ right ∈ seen ++ rest, Same left.identity right.identity →
        left.SameFacts right) →
      (∀ candidate ∈ start, candidate ∈ seen) →
      (∀ candidate ∈ seen, ∃ kept ∈ start, Same kept.identity candidate.identity) →
      ∃ unique, rest.foldlM observeCandidate start = .ok unique ∧
        (∀ candidate ∈ unique, candidate ∈ seen ++ rest) ∧
        ∀ candidate ∈ seen ++ rest, ∃ kept ∈ unique, Same kept.identity candidate.identity := by
    intro rest
    induction rest with
    | nil =>
      intro seen start _ within represented
      exact ⟨start, rfl, by simpa using within, by simpa using represented⟩
    | cons release rest ih =>
      intro seen start agree within represented
      obtain ⟨joined, observed, joinedWithin, joinedRepresented⟩ : ∃ joined,
          observeCandidate start release = .ok joined ∧
          (∀ candidate ∈ joined, candidate ∈ seen ++ [release]) ∧
          ∀ candidate ∈ seen ++ [release], ∃ kept ∈ joined,
            Same kept.identity candidate.identity := by
        unfold observeCandidate
        split
        · next existing found =>
          have existingIn := List.mem_of_find?_eq_some found
          have same : Same existing.identity release.identity := by
            simpa using List.find?_some found
          have facts := agree existing (by simp [within existing existingIn]) release (by simp) same
          rw [PreparedCandidate.merge_of_sameFacts facts]
          refine ⟨_, rfl, ?_, ?_⟩
          · intro candidate member
            rcases List.mem_append.mp member with kept | single
            · exact List.mem_append_left _ (within candidate (List.mem_of_mem_eraseP kept))
            · obtain rfl := List.mem_singleton.mp single
              exact List.mem_append_left _ (within _ existingIn)
          · intro candidate member
            by_cases isSame : Same existing.identity candidate.identity
            · exact ⟨existing, by simp, isSame⟩
            · have seenIn : candidate ∈ seen := by
                rcases List.mem_append.mp member with old | new
                · exact old
                · obtain rfl := List.mem_singleton.mp new
                  exact absurd same isSame
              obtain ⟨kept, keptIn, keptSame⟩ := represented candidate seenIn
              refine ⟨kept, List.mem_append_left _ ?_, keptSame⟩
              refine (List.mem_eraseP_of_neg ?_).mpr keptIn
              simp only [decide_eq_true_eq]
              exact fun keptRelease => isSame (same.trans (keptRelease.symm.trans keptSame))
        · refine ⟨_, rfl, ?_, ?_⟩
          · intro candidate member
            rcases List.mem_append.mp member with old | new
            · exact List.mem_append_left _ (within candidate old)
            · exact List.mem_append_right _ new
          · intro candidate member
            rcases List.mem_append.mp member with old | new
            · obtain ⟨kept, keptIn, same⟩ := represented candidate old
              exact ⟨kept, List.mem_append_left _ keptIn, same⟩
            · exact ⟨candidate, List.mem_append_right _ new, Same.refl _⟩
      obtain ⟨unique, folded, uniqueWithin, uniqueRepresented⟩ := ih (seen ++ [release]) joined
        (by simpa using agree) joinedWithin joinedRepresented
      refine ⟨unique, ?_, by simpa using uniqueWithin, by simpa using uniqueRepresented⟩
      rw [List.foldlM_cons, observed]
      exact folded
  simpa [uniqueCandidates] using general releases [] [] (by simpa using agree) (by simp) (by simp)

namespace Provider

variable (provider : Provider)

/-- What an agreeing loader offers is visible where it is eligible, and nothing else is. -/
theorem shows_of_agrees (agrees : provider.loader.Agrees) (subject : SolverKey) :
    ∃ candidates visible, provider.loader subject = .ok ⟨candidates, []⟩ ∧
      provider.visibleCandidates subject candidates = .ok visible ∧
      (∀ candidate ∈ visible, candidate ∈ candidates) ∧
      ∀ candidate ∈ candidates, candidate.isEligibleFor subject = true →
        ∃ shown ∈ visible, shown.SameFacts candidate := by
  obtain ⟨candidates, offered⟩ := agrees.loads subject
  obtain ⟨unique, collected, within, represented⟩ := uniqueCandidates_of_agreeing
    (fun left leftIn right rightIn => agrees.facts subject subject _ _ offered offered left leftIn
      right rightIn)
  refine ⟨candidates, _, offered, by rw [visibleCandidates, collected]; rfl, ?_, ?_⟩
  · intro candidate member
    exact within candidate (Sorting.mem_sortBy.mp (List.mem_filter.mp member).1)
  · intro candidate member eligible
    obtain ⟨kept, keptIn, same⟩ := represented candidate member
    have facts := agrees.facts subject subject _ _ offered offered kept (within kept keptIn)
      candidate member same
    refine ⟨kept, List.mem_filter.mpr ⟨Sorting.mem_sortBy.mpr keptIn, ?_⟩, facts⟩
    rw [facts.isEligibleFor subject]
    exact eligible

/-- The subjects of an agreeing loader load without conflicts. -/
theorem loadable_of_agrees (agrees : provider.loader.Agrees) :
    provider.Loadable (fun _ => True) := by
  constructor
  · intro subject _
    obtain ⟨candidates, visible, offered, shown, -⟩ := provider.shows_of_agrees agrees subject
    exact ⟨visible, _, offered, shown⟩
  · intro left right leftVisible rightVisible _ _ leftShows rightShows candidate member other
      otherIn same
    obtain ⟨leftOffered, leftShown, offeredLeft, shownLeft, withinLeft, -⟩ :=
      provider.shows_of_agrees agrees left
    obtain ⟨rightOffered, rightShown, offeredRight, shownRight, withinRight, -⟩ :=
      provider.shows_of_agrees agrees right
    obtain rfl := leftShows.unique ⟨_, offeredLeft, shownLeft⟩
    obtain rfl := rightShows.unique ⟨_, offeredRight, shownRight⟩
    exact agrees.facts left right _ _ offeredLeft offeredRight candidate
      (withinLeft candidate member) other (withinRight other otherIn) same

/-- No constraint fails on quarantined versions of an agreeing loader. -/
theorem unquarantined_of_agrees (agrees : provider.loader.Agrees) (subject : SolverKey)
    (constraint : VersionConstraint) : provider.Unquarantined subject constraint := by
  intro key loaded interner _ loads
  obtain ⟨result, visible, offered, -, -, quarantined⟩ := loads.prepared
  obtain ⟨candidates, clean⟩ := agrees.loads key
  obtain rfl := Except.ok.inj (offered.symm.trans clean)
  refine ⟨admittedRange constraint loaded, ?_⟩
  unfold rangeWithin admittedQuarantine
  rw [quarantined]
  simp

/-- All subjects together are closed when the loader agrees. -/
theorem closed_of_agrees (agrees : provider.loader.Agrees) : provider.Closed (fun _ => True) := by
  have answerable : ∀ package, provider.Answerable (fun _ => True) package :=
    fun package subject _ _ => ⟨trivial, provider.unquarantined_of_agrees agrees subject _⟩
  exact ⟨fun _ _ _ _ => trivial, fun root _ => answerable root.package,
    fun _ _ _ _ _ _ _ _ _ _ edge _ => answerable edge.package⟩

/-- A disciplined run over an agreeing loader is free of failures. -/
theorem Reaches.healthy {provider : Provider} (agrees : provider.loader.Agrees)
    (plain : ∀ root ∈ provider.request.roots, ¬ IsGitSourced root.package) {pubgrub : PubGrub}
    (disciplined : pubgrub.DisciplinedFor provider) {transcript : Transcript}
    {state : ProviderState} (reached : provider.Reaches pubgrub transcript state) :
    provider.Healthy (fun _ => True) state ∧ ∀ call, pubgrub.next transcript = .ask call →
      ∃ reply later, provider.answer call state = (.ok reply, later) ∧
        provider.Healthy (fun _ => True) later :=
  reached.healthy_of_asks (provider.loadable_of_agrees agrees) plain
    fun _ _ _ before asked => (provider.closed_of_agrees agrees).asks disciplined before asked

/-! ### Choices -/

/-- A release may be selected by a subject, however the subject is spelled. -/
structure Offered (subject : SolverKey) (candidate : PreparedCandidate) : Prop where
  /-- The loader offers it. -/
  loads : ∀ key, Same key subject → ∃ result, provider.loader key = .ok result ∧
    ∃ offered ∈ result.candidates, offered.SameFacts candidate
  /-- It is eligible. -/
  eligible : candidate.isEligibleFor subject = true
  /-- It is what the lock decision requires. -/
  required : ∀ key, Same key subject → meetsRequired (provider.lockDecision key) candidate = true
  /-- The cutoff admits it. -/
  passes : ∀ key, Same key subject → provider.PassesCutoff key candidate

/-- A choice of releases meets a requirement. -/
def ChoiceMeets (chosen : List PreparedCandidate) (package : PackageRequirement) : Prop :=
  ¬ IsGitSourced package ∧
    if package.name.text = "R" then package.constraint.satisfies provider.rVersion = true
    else ∃ subject candidate, provider.subjectForPackage package = .ok subject ∧
      candidate ∈ chosen ∧ candidate.identity.name = package.name ∧
      package.constraint.satisfies candidate.release.version = true ∧
      provider.Offered subject candidate

/-- The expansion of a package: direct when a direct root names it. -/
def expansionOf (name : PackageName) : RootExpansionPolicy :=
  if provider.request.roots.any (fun root => root.expansion == .directSuggests &&
    root.package.name == name) then .directSuggests else .hardOnly

/-- A finite choice of one release for each package name that meets the roots and the effective
edges of every chosen release. -/
structure Choice (chosen : List PreparedCandidate) : Prop where
  /-- One release is chosen for a package name. -/
  distinct : chosen.Pairwise (fun left right => left.identity.name ≠ right.identity.name)
  /-- The target satisfies the root constraint on R. -/
  runtime : provider.request.rRequirement.satisfies provider.rVersion = true
  /-- Every root is met. -/
  roots : ∀ root ∈ provider.request.roots, provider.ChoiceMeets chosen root.package
  /-- Every effective edge of a chosen release is met. -/
  edges : ∀ candidate ∈ chosen, ∀ edge ∈ projectDependencyEdges candidate.release
    (provider.expansionOf candidate.identity.name), provider.ChoiceMeets chosen edge.package

/-- Requirements that are each settled are settled after merging. -/
theorem settled_of_forall {touched : SolverKey → Prop} {chosen : List PreparedCandidate}
    (closed : ∀ left right, Same left right → touched left → touched right)
    {requirements : List (SolverKey × VersionConstraint)}
    (each : ∀ requirement ∈ requirements,
      (requirement.1 = .r → requirement.2.satisfies provider.rVersion = true) ∧
      (requirement.1 ≠ .r → touched requirement.1 ∧ ∀ candidate ∈ chosen,
        requirement.1.subjectName = some candidate.identity.name →
        requirement.2.satisfies candidate.release.version = true)) :
    provider.Settled touched chosen requirements := by
  intro subject last stored
  rw [KeyedMap.get?_ofList] at stored
  obtain ⟨requirement, found, rfl⟩ := Option.map_eq_some_iff.mp stored
  have same : Same requirement.1 subject := by simpa using List.find?_some found
  obtain ⟨runtime, ordinary⟩ := each requirement
    (List.mem_reverse.mp (List.mem_of_find?_eq_some found))
  constructor
  · rintro rfl
    exact runtime (eq_r_of_same same)
  · intro differs
    obtain ⟨within, satisfied⟩ := ordinary fun equal => differs (eq_r_of_same (equal ▸ same.symm))
    refine ⟨closed _ _ same within, fun candidate member named => satisfied candidate member ?_⟩
    rw [SolverKey.subjectName_congr same]
    exact named

/-- A subject that expands directly is the subject of a direct root. -/
theorem exists_root_of_direct {subject : SolverKey}
    (direct : provider.expansionForSubject subject = .ok .directSuggests) :
    ∃ root ∈ provider.request.roots, root.expansion = .directSuggests ∧
      ∃ key, provider.subjectForPackage root.package = .ok key ∧ Same key subject := by
  have general : ∀ roots, provider.expansionAmong subject roots = .ok .directSuggests →
      ∃ root ∈ roots, root.expansion = .directSuggests ∧
        ∃ key, provider.subjectForPackage root.package = .ok key ∧ Same key subject := by
    intro roots
    induction roots with
    | nil => intro found; simp [expansionAmong] at found
    | cons root rest ih =>
      intro found
      obtain ⟨key, keyed, found⟩ := bind_eq_ok.mp found
      split at found
      · next here => exact ⟨root, List.mem_cons_self, here.2, key, keyed, here.1⟩
      · obtain ⟨other, member, held⟩ := ih found
        exact ⟨other, List.mem_cons_of_mem _ member, held⟩
  exact general provider.request.roots direct

/-- The subjects for which a chosen release is offered. -/
def Covers (chosen : List PreparedCandidate) (subject : SolverKey) : Prop :=
  ∃ candidate ∈ chosen, provider.Offered subject candidate

/-- Coverage does not depend on spelling. -/
theorem covers_congr {chosen : List PreparedCandidate} {left right : SolverKey}
    (same : Same left right) (covers : provider.Covers chosen left) :
    provider.Covers chosen right := by
  obtain ⟨candidate, member, offered⟩ := covers
  refine ⟨candidate, member, ⟨fun key sameKey => offered.loads key (sameKey.trans same.symm), ?_,
    fun key sameKey => offered.required key (sameKey.trans same.symm),
    fun key sameKey => offered.passes key (sameKey.trans same.symm)⟩⟩
  rw [← candidate.isEligibleFor_congr same]
  exact offered.eligible

section Choosing

variable {provider} {chosen : List PreparedCandidate} (choice : provider.Choice chosen)
include choice

/-- A keyed requirement that a choice meets is settled. -/
theorem Choice.settles {package : PackageRequirement} {subject : SolverKey}
    (found : provider.subjectForPackage package = .ok subject)
    (meets : provider.ChoiceMeets chosen package) :
    (subject = .r → package.constraint.satisfies provider.rVersion = true) ∧
      (subject ≠ .r → provider.Covers chosen subject ∧ ∀ candidate ∈ chosen,
        subject.subjectName = some candidate.identity.name →
        package.constraint.satisfies candidate.release.version = true) := by
  have about := provider.subjectForPackage_eq_ok found
  obtain ⟨-, met⟩ := meets
  split at met
  · next runtime =>
    rw [if_pos runtime] at about
    exact ⟨fun _ => met, fun differs => absurd about differs⟩
  · next ordinary =>
    rw [if_neg ordinary] at about
    refine ⟨fun runtime => absurd runtime about.1, fun _ => ?_⟩
    obtain ⟨key, candidate, keyed, member, named, satisfied, offered⟩ := met
    obtain rfl := Except.ok.inj (found.symm.trans keyed)
    refine ⟨⟨candidate, member, offered⟩, fun other otherIn otherNamed => ?_⟩
    have names : other.identity.name = candidate.identity.name := by
      rw [named]
      exact Option.some.inj (otherNamed.symm.trans about.2)
    have symmetric : Std.Symm (fun first second : PreparedCandidate =>
        first.identity.name ≠ second.identity.name) := ⟨fun _ _ differs => differs.symm⟩
    have equal : other = candidate := by
      by_contra differs
      exact choice.distinct.forall otherIn member differs names
    rw [equal]
    exact satisfied

/-- Requirements that a choice meets are settled. -/
theorem Choice.settled {packages : List PackageRequirement}
    (meets : ∀ package ∈ packages, provider.ChoiceMeets chosen package) :
    provider.Settled (provider.Covers chosen) chosen (provider.keyedRequirements packages) := by
  refine provider.settled_of_forall (fun _ _ => provider.covers_congr) fun requirement member => ?_
  obtain ⟨package, packageIn, keyed⟩ := List.mem_filterMap.mp member
  obtain ⟨subject, found, rfl⟩ := Option.map_eq_some_iff.mp keyed
  have found : provider.subjectForPackage package = .ok subject := by
    cases key : provider.subjectForPackage package <;> simp_all [Except.toOption]
  exact choice.settles found (meets package packageIn)

/-- The edges of a chosen release under the expansion of a subject of its name are effective. -/
theorem Choice.edge_met {subject : SolverKey} {candidate : PreparedCandidate}
    {expansion : RootExpansionPolicy} (member : candidate ∈ chosen)
    (named : subject.subjectName = some candidate.identity.name)
    (expanded : provider.expansionForSubject subject = .ok expansion)
    {edge : ResolvedDependencyEdge}
    (projected : edge ∈ projectDependencyEdges candidate.release expansion) :
    provider.ChoiceMeets chosen edge.package := by
  refine choice.edges candidate member edge ?_
  cases expansion with
  | hardOnly =>
    cases provider.expansionOf candidate.identity.name with
    | hardOnly => exact projected
    | directSuggests => exact projectDependencyEdges_directSuggests projected
  | directSuggests =>
    obtain ⟨root, rootIn, direct, key, keyed, same⟩ := provider.exists_root_of_direct expanded
    have rootNamed : root.package.name = candidate.identity.name := by
      have about := provider.subjectForPackage_eq_ok keyed
      split at about
      · obtain rfl := about
        rw [eq_r_of_same same.symm] at named
        simp [SolverKey.subjectName] at named
      · rw [SolverKey.subjectName_congr same, named] at about
        exact (Option.some.inj about.2).symm
    have effective : provider.expansionOf candidate.identity.name = .directSuggests := by
      unfold expansionOf
      rw [if_pos]
      refine List.any_eq_true.mpr ⟨root, rootIn, ?_⟩
      simp [direct, rootNamed]
    rw [effective]
    exact projected

/-- A choice over an agreeing loader is a plan. -/
theorem Choice.plan (agrees : provider.loader.Agrees) :
    provider.Plan (provider.Covers chosen) chosen where
  distinct := choice.distinct
  closed := fun _ _ => provider.covers_congr
  selectable := by
    rintro subject ⟨candidate, member, offered⟩
    refine ⟨candidate, member, PreparedCandidate.name_of_isEligibleFor offered.eligible, ?_,
      offered.required subject (Same.refl _), offered.passes subject (Same.refl _)⟩
    intro visible shows
    obtain ⟨candidates, shown, loads, visibleIs, -, represented⟩ :=
      provider.shows_of_agrees agrees subject
    obtain rfl := shows.unique ⟨_, loads, visibleIs⟩
    obtain ⟨result, loadsResult, source, sourceIn, facts⟩ := offered.loads subject (Same.refl _)
    obtain rfl := Except.ok.inj (loads.symm.trans loadsResult)
    obtain ⟨found, foundIn, foundFacts⟩ := represented source sourceIn
      (by rw [facts.isEligibleFor]; exact offered.eligible)
    exact ⟨found, foundIn, foundFacts.trans facts⟩
  roots := by
    refine provider.settled_of_forall (fun _ _ => provider.covers_congr)
      fun requirement member => ?_
    rcases List.mem_cons.mp member with rfl | member
    · exact ⟨fun _ => choice.runtime, fun differs => absurd rfl differs⟩
    · obtain ⟨package, packageIn, keyed⟩ := List.mem_filterMap.mp member
      obtain ⟨root, rootIn, rfl⟩ := List.mem_map.mp packageIn
      obtain ⟨subject, found, rfl⟩ := Option.map_eq_some_iff.mp keyed
      have found : provider.subjectForPackage root.package = .ok subject := by
        cases key : provider.subjectForPackage root.package <;> simp_all [Except.toOption]
      exact choice.settles found (choice.roots root rootIn)
  plain := fun _ _ _ _ member named expanded _ projected =>
    (choice.edge_met member named expanded projected).1
  edges := by
    intro subject candidate expansion _ member named expanded
    refine choice.settled fun package packageIn => ?_
    obtain ⟨edge, projected, rfl⟩ := List.mem_map.mp packageIn
    exact choice.edge_met member named expanded projected

end Choosing

/-- A run only extends its transcript, and a question it asked comes next in it. -/
theorem drive_extends {pubgrub : PubGrub} {fuel : Nat} {transcript final : Transcript}
    {state last : ProviderState} {selected : List (PackageId × SolverVersion)}
    (driven : provider.drive pubgrub fuel transcript state =
      some (.solved selected, final, last)) :
    ∃ rest, final = transcript ++ rest ∧ ∀ call, pubgrub.next transcript = .ask call →
      ∃ reply after, rest = (call, reply) :: after := by
  induction fuel generalizing transcript state with
  | zero => simp [drive] at driven
  | succ fuel ih =>
    simp only [drive] at driven
    split at driven
    · next call asked =>
      split at driven
      · next reply reached answered =>
        obtain ⟨rest, extended, -⟩ := ih driven
        refine ⟨(call, reply) :: rest, by simp [extended], fun other askedOther => ?_⟩
        rw [asked] at askedOther
        obtain rfl := Move.ask.inj askedOther
        exact ⟨reply, rest, rfl⟩
      · simp at driven
    · next ended =>
      simp only [Option.some.injEq, Prod.mk.injEq] at driven
      obtain ⟨-, rfl, -⟩ := driven
      refine ⟨[], by simp, fun call asked => ?_⟩
      rw [ended] at asked
      simp at asked
    · simp at driven

/-- A reached transcript starts the final one, and the question asked there comes next in it. -/
theorem Reaches.starts {provider : Provider} {pubgrub : PubGrub} {transcript final : Transcript}
    {state last : ProviderState} {selected : List (PackageId × SolverVersion)} {fuel : Nat}
    (reached : provider.Reaches pubgrub transcript state)
    (driven : provider.drive pubgrub fuel [] .initial = some (.solved selected, final, last)) :
    ∃ rest, final = transcript ++ rest ∧ ∀ call, pubgrub.next transcript = .ask call →
      ∃ reply after, rest = (call, reply) :: after := by
  have continued : provider.drive pubgrub fuel transcript state =
      some (.solved selected, final, last) := by
    rw [← provider.drive_of_reaches reached fuel, Nat.add_comm]
    exact provider.drive_add driven transcript.length
  exact provider.drive_extends continued

end Provider

namespace Small

/-- Whether a dependency answer demanded a version. -/
def demandedBy (transcript : Transcript) (package : PackageId) (version : SolverVersion) : Bool :=
  transcript.any (fun record =>
    match record with
    | (.getDependencies _ _, .dependencies (.available constraints)) =>
      constraints.entries.any (fun entry =>
        decide (Same entry.1 package) && VersionRange.has entry.2 version)
    | _ => false)

/-- A demand found by the test is a demand. -/
theorem demanded_of_demandedBy {transcript : Transcript} {package : PackageId}
    {version : SolverVersion} (found : demandedBy transcript package version = true) :
    Demanded transcript package version := by
  obtain ⟨record, member, tested⟩ := List.any_eq_true.mp found
  split at tested
  · next asked given constraints =>
    obtain ⟨entry, entryIn, held⟩ := List.any_eq_true.mp tested
    simp only [Bool.and_eq_true, decide_eq_true_eq] at held
    exact ⟨asked, given, constraints, member, entry, entryIn, held.1, held.2⟩
  · simp at tested

/-- Whether a question of a script follows from the answers before it. -/
def follows (selected : List (PackageId × SolverVersion)) (before : Transcript) : Call → Bool
  | .prioritize _ _ => false
  | .chooseVersion package range => selected.any (fun item =>
      item.1 == package && range == .singleton item.2 && demandedBy before package item.2)
  | .getDependencies package version => (package == .root && version == .root) ||
      before.any (recordsChoice package version)

/-- Whether all questions of a transcript follow from the answers before them. -/
def followsAll (selected : List (PackageId × SolverVersion)) : Transcript → Transcript → Bool
  | _, [] => true
  | before, record :: after =>
    follows selected before record.1 && followsAll selected (before ++ [record]) after

/-- A question of a checked transcript follows from the answers before it. -/
theorem follows_of_followsAll {selected : List (PackageId × SolverVersion)}
    {start before after : Transcript} {record : Call × Reply}
    (checked : followsAll selected start (before ++ record :: after) = true) :
    follows selected (start ++ before) record.1 = true := by
  induction before generalizing start with
  | nil =>
    simp only [List.nil_append, followsAll, Bool.and_eq_true] at checked
    simpa using checked.1
  | cons head rest ih =>
    simp only [List.cons_append, followsAll, Bool.and_eq_true] at checked
    simpa using ih checked.2

/-- A script whose questions follow from the answers is a disciplined solver. -/
theorem disciplinedFor_of_followsAll {provider : Provider} {pubgrub : PubGrub} {fuel : Nat}
    {selected : List (PackageId × SolverVersion)} {transcript : Transcript} {state : ProviderState}
    (driven : provider.drive pubgrub fuel [] .initial = some (.solved selected, transcript, state))
    (checked : followsAll selected [] transcript = true) : pubgrub.DisciplinedFor provider := by
  have following : ∀ before earlier call, provider.Reaches pubgrub before earlier →
      pubgrub.next before = .ask call → follows selected before call = true := by
    intro before earlier call reached asked
    obtain ⟨rest, rfl, next⟩ := reached.starts driven
    obtain ⟨reply, after, rfl⟩ := next call asked
    simpa using follows_of_followsAll checked
  have demands : ∀ before earlier package range, provider.Reaches pubgrub before earlier →
      pubgrub.next before = .ask (.chooseVersion package range) →
      ∃ version, range = .singleton version ∧ Demanded before package version := by
    intro before earlier package range reached asked
    obtain ⟨item, -, held⟩ := List.any_eq_true.mp (following before earlier _ reached asked)
    simp only [Bool.and_eq_true, beq_iff_eq] at held
    exact ⟨item.2, held.1.2, demanded_of_demandedBy held.2⟩
  refine ⟨?_, ?_, ?_, ?_⟩
  · intro before earlier package range reached asked
    simpa [follows] using following before earlier _ reached asked
  · intro before earlier package range reached asked
    obtain ⟨version, -, given, found, constraints, recorded, entry, entryIn, same, -⟩ :=
      demands before earlier package range reached asked
    exact Or.inr ⟨given, found, constraints, recorded, entry, entryIn, same⟩
  · intro before earlier package range reached asked _ version inside
    obtain ⟨own, rfl, given, found, constraints, recorded, entry, entryIn, same, within⟩ :=
      demands before earlier package range reached asked
    refine ⟨given, found, constraints, recorded, entry, entryIn, same, ?_⟩
    rw [← VersionRange.has_congr entry.2 (VersionRange.has_singleton.mp inside)]
    exact within
  · intro before earlier package version reached asked
    have held := following before earlier _ reached asked
    simp only [follows, Bool.or_eq_true, Bool.and_eq_true, beq_iff_eq] at held
    rcases held with root | chosen
    · exact Or.inl root
    · obtain ⟨record, member, tested⟩ := List.any_eq_true.mp chosen
      unfold recordsChoice at tested
      split at tested
      · next asked range version' =>
        simp only [Bool.and_eq_true, beq_iff_eq] at tested
        obtain ⟨rfl, rfl⟩ := tested
        exact Or.inr ⟨range, member⟩
      · simp at tested

/-- A scripted solver never reports that there is no solution. -/
theorem scripted_completeFor (calls : List Call) (selected : List (PackageId × SolverVersion))
    (provider : Provider) : (PubGrub.scripted calls selected).CompleteFor provider := by
  intro transcript state tree _ ended
  unfold PubGrub.scripted at ended
  dsimp only at ended
  split at ended <;> simp at ended

/-- The loader of a small universe agrees with itself when its candidates do. -/
theorem agrees {offered : List PreparedCandidate} {roots : List PackageRequirement}
    {cutoff : Option PublicationCutoff}
    (distinct : ∀ left ∈ offered, ∀ right ∈ offered, Same left.identity right.identity →
      left.SameFacts right) : (provider offered roots cutoff).loader.Agrees := by
  refine ⟨fun subject => ⟨_, rfl⟩, ?_⟩
  rintro left right _ _ ⟨⟩ ⟨⟩ candidate member other otherIn same
  exact distinct candidate (List.mem_filter.mp member).1 other (List.mem_filter.mp otherIn).1 same

/-- An unqualified requirement on an offered candidate is met by choosing it. -/
theorem choiceMeets {offered : List PreparedCandidate} {roots : List PackageRequirement}
    {name : PackageName} {constraint : VersionConstraint} {candidate : PreparedCandidate}
    (member : candidate ∈ offered) (named : candidate.identity.name = name)
    (ordinary : name.text ≠ "R")
    (free : (provider offered roots none).request.exactRootIdentity name = none)
    (satisfied : constraint.satisfies candidate.release.version = true)
    (eligible : candidate.isEligibleFor (.installedName name) = true) :
    (provider offered roots none).ChoiceMeets offered (requirement name constraint) := by
  refine ⟨by rintro ⟨_, source⟩; simp [requirement] at source, ?_⟩
  rw [if_neg (show ¬ (requirement name constraint).name.text = "R" from ordinary)]
  refine ⟨.installedName name, candidate, ?_, member, named, satisfied, ?_, eligible, ?_, ?_⟩
  · simp only [Provider.subjectForPackage, requirement, if_neg ordinary, free]
  · intro key same
    obtain rfl : key = .installedName name := by
      cases key <;> simp_all [Same, representative]
    refine ⟨_, rfl, candidate, List.mem_filter.mpr ⟨member, ?_⟩,
      PreparedCandidate.SameFacts.refl _⟩
    simp [SolverKey.subjectName, named]
  · exact fun _ _ => rfl
  · exact fun _ _ cutoff given => by simp [provider] at given

end Small

namespace Provider

end Provider

end Rsolve
