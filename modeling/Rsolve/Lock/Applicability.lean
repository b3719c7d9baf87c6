import Rsolve.Lock.Build
import Rsolve.Lock.Canonical
import Rsolve.Lock.Spelling

/-!
# A resolved lock fits its own input

A lock that is built from a resolution is consumed against the input of the resolution. The lock
holds the canonical form of the constraint on R and the input holds the constraint as it was
written, and the two are compared clause by clause, so the lock fits exactly when the constraint was
canonical.
-/
open Keyed Checked

namespace Rsolve

namespace RPackageVersion

/-- A version that is not bare is read back from its own spelling. -/
theorem exists_parse_raw {version : RPackageVersion} (many : ¬ version.Bare) :
    ∃ parsed, parse version.raw = .ok parsed ∧ Same parsed version := by
  have positive := List.length_pos_of_ne_nil version.values_bounds.1
  have enough : ¬ version.values.length < 2 := by
    unfold Bare at many
    omega
  unfold parse parseWithMinimum
  split
  · next failed => rw [version.spelled] at failed; cases failed
  · next values read =>
    obtain rfl : version.values = values := Except.ok.inj (version.spelled.symm.trans read)
    rw [if_neg enough]
    refine ⟨_, rfl, same_iff.mpr ?_⟩
    rw [key_eq, key_eq]
    simp [RPackageVersion.values]

/-- A bare version is not read as the version of a package. -/
theorem parse_raw_of_bare {version : RPackageVersion} (bare : version.Bare) :
    ∃ cause, parse version.raw = .error cause := by
  unfold parse parseWithMinimum
  split
  · next cause _ => exact ⟨cause, rfl⟩
  · next values read =>
    obtain rfl : version.values = values := Except.ok.inj (version.spelled.symm.trans read)
    rw [if_pos (by unfold Bare at bare; omega)]
    exact ⟨_, rfl⟩

end RPackageVersion

/-- The published version is the version of the release. -/
theorem publishedVersion_same (release : PackageRelease) :
    Same (publishedVersion release) release.version := by
  unfold publishedVersion
  split
  · next provenance => exact release.versioned _ (by rw [provenance]; rfl)
  · next provenance => exact release.versioned _ (by rw [provenance]; rfl)
  · exact Same.refl _

/-- The spelling of a release can be locked: one component is spelled as it is printed. -/
def PackageRelease.Spelled (release : PackageRelease) : Prop :=
  (publishedVersion release).Bare → (publishedVersion release).raw = canonicalVersion release.version

section Locked

variable {sha256 : List UInt8 → Sha256Digest} {names : List PackageName}

/-- A selected package that is not an R base package is locked exactly when its version is spelled
well. -/
theorem validate_fromResolved {selected : ResolvedPackage}
    (released : selected.release.isRBasePackage = false) :
    ((LockedPackage.fromResolved sha256 selected).retain names).validate = .ok () ↔
      selected.release.Spelled := by
  have agrees : ((LockedPackage.fromResolved sha256 selected).retain names).versionAgrees = true := by
    have versioned := selected.release.versioned
    simp only [LockedPackage.versionAgrees, LockedPackage.retain, LockedPackage.fromResolved]
    split
    · next provenance => exact decide_eq_true (versioned _ (by rw [provenance]; rfl))
    · next provenance => exact decide_eq_true (versioned _ (by rw [provenance]; rfl))
    · rfl
  have reduced : ((LockedPackage.fromResolved sha256 selected).retain names).validate =
      ((LockedPackage.fromResolved sha256 selected).retain names).validateSpelling := by
    have base : ((LockedPackage.fromResolved sha256 selected).retain
        names).identity.provenance.isRBasePackage = false := released
    rw [LockedPackage.validate, ensure_of base, ok_bind, ensure_of agrees, ok_bind]
    rfl
  rw [reduced]
  have same := publishedVersion_same selected.release
  simp only [LockedPackage.validateSpelling, LockedPackage.retain, LockedPackage.fromResolved,
    PackageRelease.Spelled]
  by_cases canonical : (publishedVersion selected.release).raw =
      canonicalVersion selected.release.version
  · simp [canonical]
  · simp only [ne_eq, canonical, not_false_eq_true, if_true, imp_false]
    by_cases bare : (publishedVersion selected.release).Bare
    · obtain ⟨cause, failed⟩ := RPackageVersion.parse_raw_of_bare bare
      rw [failed]
      simp [bare, Except.mapError]
    · obtain ⟨parsed, read, parsedSame⟩ := RPackageVersion.exists_parse_raw bare
      rw [read]
      simp [bare, Except.mapError, parsedSame.trans same]

/-- Locked edges increase strictly. -/
theorem edges_fromResolved (selected : ResolvedPackage) :
    ((LockedPackage.fromResolved sha256 selected).retain names).dependencies.Pairwise
      (fun left right => compareEdges left right = .lt) :=
  (canonicalizeDependencyEdges_strict selected.lockedEdges).filter _

/-- The locked edges of a selected package are its edges to selected packages other than R. -/
theorem mem_edges_fromResolved {selected : ResolvedPackage} {edge : LockedDependencyEdge} :
    edge ∈ ((LockedPackage.fromResolved sha256 selected).retain names).dependencies ↔
      edge.package ∈ names ∧ edge.package.text ≠ "R" ∧
        ∃ dependency ∈ selected.effectiveDependencies, dependency.kind = edge.kind ∧
          dependency.package.name = edge.package := by
  simp only [LockedPackage.retain, LockedPackage.fromResolved, List.mem_filter,
    decide_eq_true_eq]
  have canonical : edge ∈ canonicalizeDependencyEdges selected.lockedEdges ↔
      edge ∈ selected.lockedEdges := by
    rw [canonicalizeDependencyEdges_eq]
    constructor
    · exact Sorting.mem_of_mem_canonical compareEdges Sorting.noTie
    · intro member
      obtain ⟨kept, keptIn, equal⟩ :=
        Sorting.exists_mem_canonical compareEdges Sorting.noTie member
      rwa [compareEdges_eq_iff.mp equal]
  rw [canonical, ResolvedPackage.lockedEdges, List.mem_map]
  constructor
  · rintro ⟨⟨dependency, member, rfl⟩, selectedIn⟩
    obtain ⟨member, other⟩ := List.mem_filter.mp member
    exact ⟨selectedIn, by simpa using other, dependency, member, rfl, rfl⟩
  · rintro ⟨selectedIn, other, dependency, member, kind, named⟩
    refine ⟨⟨dependency, List.mem_filter.mpr ⟨member, ?_⟩, ?_⟩, selectedIn⟩
    · rw [named]
      simpa using other
    · rw [kind, named]

end Locked

section Drafts

variable {sha256 : List UInt8 → Sha256Digest} {resolution : Resolution}
  {environment : EnvironmentId} {publicationCutoff : Option PublicationDate}
  {resolutionIntentSha256 : Sha256Digest} {rRequirement : VersionConstraint} {lock : Lockfile}

/-- What a lock takes from a resolution. -/
structure Lockfile.Drafts (sha256 : List UInt8 → Sha256Digest) (resolution : Resolution)
    (lock : Lockfile) : Prop where
  /-- The target is that of the resolution. -/
  target : lock.resolution.target = resolution.target
  /-- The packages are normal. -/
  normal : NormalPackages lock.resolution.packages
  /-- Every package is one of the resolution. -/
  drawn : ∀ package ∈ lock.resolution.packages, package ∈ resolution.lockedPackages sha256
  /-- Every package of the resolution is there. -/
  covers : ∀ package ∈ resolution.lockedPackages sha256,
    ∃ other ∈ lock.resolution.packages, Same other package

/-- What a resolution needs to be locked with a constraint on R. -/
structure Resolution.Lockable (sha256 : List UInt8 → Sha256Digest) (resolution : Resolution)
    (rRequirement : VersionConstraint) : Prop where
  /-- The target satisfies the constraint. -/
  requirement : rRequirement.satisfies resolution.target.rVersion = true
  /-- The versions are spelled well. -/
  spelled : ∀ selected ∈ resolution.packages, selected.release.Spelled
  /-- Packages of one name are locked alike. -/
  single : ∀ first ∈ resolution.lockedPackages sha256,
    ∀ second ∈ resolution.lockedPackages sha256, first.name = second.name → Same first second
  /-- No repository is repeated. -/
  visible : ∀ selected ∈ resolution.packages, selected.visibleRepositoryIds.Nodup

/-- The names of the locked packages are those of the resolution. -/
theorem names_lockedPackages :
    (resolution.lockedPackages sha256).map LockedPackage.name =
      resolution.packages.map ResolvedPackage.name := by
  simp only [Resolution.lockedPackages, List.map_map]
  rfl

/-- The edges of the locked packages increase strictly. -/
theorem edges_lockedPackages {package : LockedPackage}
    (member : package ∈ resolution.lockedPackages sha256) :
    package.dependencies.Pairwise (fun left right => compareEdges left right = .lt) := by
  obtain ⟨selected, _, rfl⟩ := List.mem_map.mp member
  exact edges_fromResolved selected

/-- A lock that is built from a resolution drafts it. -/
theorem Lockfile.Drafts.of_built
    (built : Lockfile.fromResolutionWithApplicability sha256 resolution environment
      publicationCutoff resolutionIntentSha256 rRequirement = .ok lock) :
    lock.Drafts sha256 resolution ∧ lock.resolutionIntentSha256 = resolutionIntentSha256 ∧
      lock.rRequirement = canonicalizeConstraint rRequirement ∧
      lock.resolution.environment = environment ∧
      lock.resolution.publicationCutoff = publicationCutoff ∧ lock.validate = .ok () := by
  obtain ⟨_, valid, built⟩ := bind_eq_ok.mp built
  obtain ⟨unique, kept, built⟩ := bind_eq_ok.mp built
  obtain ⟨packages, normalized, built⟩ := bind_eq_ok.mp built
  obtain ⟨_, checked, finished⟩ := bind_eq_ok.mp built
  obtain rfl := Except.ok.inj finished
  obtain ⟨part, apart⟩ := uniquePackages_spec kept
  have drawn : ∀ package ∈ unique, package ∈ resolution.lockedPackages sha256 :=
    fun package member => Sorting.mem_sortBy.mp (part.mem member)
  have sorted := (Sorting.sortBy_pairwise (fun left right : LockedPackage =>
    compareIdentities left.identity right.identity)
      (resolution.lockedPackages sha256)).sublist part
  obtain rfl := normalizeContents_of_sorted (fun package member => edges_lockedPackages
    (drawn package member)) sorted apart normalized
  refine ⟨⟨rfl, NormalPackages.of_normalizeContents normalized, drawn, ?_⟩, rfl,
    canonicalizeConstraint_idem rRequirement, rfl, rfl, checked⟩
  exact fun package member => uniquePackages_represents kept (Sorting.mem_sortBy.mpr member)

/-- A resolution without R base packages that can be locked is locked. -/
theorem Resolution.Lockable.exists_built (lockable : resolution.Lockable sha256 rRequirement)
    (released : ∀ selected ∈ resolution.packages, selected.release.isRBasePackage = false) :
    ∃ lock, Lockfile.fromResolutionWithApplicability sha256 resolution environment
      publicationCutoff resolutionIntentSha256 rRequirement = .ok lock := by
  have valid : ∀ package ∈ resolution.lockedPackages sha256, package.validate = .ok () := by
    intro package member
    obtain ⟨selected, selectedIn, rfl⟩ := List.mem_map.mp member
    exact (validate_fromResolved (released selected selectedIn)).mpr
      (lockable.spelled selected selectedIn)
  have single : ∀ first ∈ sortPackages (resolution.lockedPackages sha256),
      ∀ second ∈ sortPackages (resolution.lockedPackages sha256),
      Same first.identity second.identity → Same first second := by
    intro first firstIn second secondIn same
    exact lockable.single first (Sorting.mem_sortBy.mp firstIn) second
      (Sorting.mem_sortBy.mp secondIn) (ReleaseIdentity.same_iff.mp same).1
  obtain ⟨unique, kept⟩ := exists_uniquePackages single
  obtain ⟨part, apart⟩ := uniquePackages_spec kept
  have drawn : ∀ package ∈ unique, package ∈ resolution.lockedPackages sha256 :=
    fun package member => Sorting.mem_sortBy.mp (part.mem member)
  have normal : NormalPackages unique := by
    refine ⟨fun package member => ⟨valid package (drawn package member), ?_,
      edges_lockedPackages (drawn package member)⟩, ?_, apart, ?_, ?_⟩
    · obtain ⟨selected, selectedIn, rfl⟩ := List.mem_map.mp (drawn package member)
      exact lockable.visible selected selectedIn
    · exact (Sorting.sortBy_pairwise (fun left right : LockedPackage =>
        compareIdentities left.identity right.identity)
          (resolution.lockedPackages sha256)).sublist part
    · refine ensureInstalledNames_of_agree fun first firstIn second secondIn named => ?_
      have same := lockable.single first (drawn first firstIn) second (drawn second secondIn) named
      exact (LockedPackage.same_iff.mp same).1
    · -- an edge leads to a name of the resolution, and every name has a package
      refine forM_eq_ok.mpr fun package member => forM_eq_ok.mpr fun edge edgeIn => ensure_of ?_
      obtain ⟨selected, _, rfl⟩ := List.mem_map.mp (drawn package member)
      have named := (mem_edges_fromResolved.mp edgeIn).1
      rw [← names_lockedPackages] at named
      obtain ⟨target, targetIn, targetNamed⟩ := List.mem_map.mp named
      obtain ⟨other, otherIn, same⟩ :=
        uniquePackages_represents kept (Sorting.mem_sortBy.mpr targetIn)
      have names := (ReleaseIdentity.same_iff.mp (LockedPackage.same_iff.mp same).1).1
      exact List.mem_map.mpr ⟨other, otherIn, by rw [← targetNamed]; exact names⟩
  have satisfied : (canonicalizeConstraint (canonicalizeConstraint rRequirement)).satisfies
      resolution.target.rVersion = true := by
    rw [canonicalizeConstraint_idem, satisfies_canonicalizeConstraint, lockable.requirement]
  refine ⟨_, bind_eq_ok.mpr ⟨(), forM_eq_ok.mpr valid, bind_eq_ok.mpr ⟨unique, kept,
    bind_eq_ok.mpr ⟨unique, normal.normalizeContents, bind_eq_ok.mpr ⟨(), ?_, rfl⟩⟩⟩⟩⟩
  exact normal.validate_iff.mpr satisfied

/-- A resolution that is locked can be locked. -/
theorem Resolution.Lockable.of_built
    (released : ∀ selected ∈ resolution.packages, selected.release.isRBasePackage = false)
    (built : Lockfile.fromResolutionWithApplicability sha256 resolution environment
      publicationCutoff resolutionIntentSha256 rRequirement = .ok lock) :
    resolution.Lockable sha256 rRequirement := by
  obtain ⟨drafts, -, requirement, -, -, checked⟩ := Lockfile.Drafts.of_built built
  obtain ⟨_, valid, built⟩ := bind_eq_ok.mp built
  obtain ⟨unique, kept, _⟩ := bind_eq_ok.mp built
  have satisfied := drafts.normal.validate_iff.mp checked
  have agree := ensureInstalledNames_agree drafts.normal.installed
  refine ⟨?_, fun selected member => ?_, fun first firstIn second secondIn named => ?_,
    fun selected member => ?_⟩
  · rwa [requirement, satisfies_canonicalizeConstraint, drafts.target] at satisfied
  · have checked := forM_eq_ok.mp valid _ (List.mem_map_of_mem member)
    exact (validate_fromResolved (released selected member)).mp checked
  · obtain ⟨one, oneIn, oneSame⟩ := drafts.covers first firstIn
    obtain ⟨two, twoIn, twoSame⟩ := drafts.covers second secondIn
    obtain ⟨oneIdentity, _⟩ := LockedPackage.same_iff.mp oneSame
    obtain ⟨twoIdentity, _⟩ := LockedPackage.same_iff.mp twoSame
    have names : one.name = two.name :=
      ((ReleaseIdentity.same_iff.mp oneIdentity).1.trans named).trans
        (ReleaseIdentity.same_iff.mp twoIdentity).1.symm
    have identities := agree one oneIn two twoIn names
    exact same_of_uniquePackages kept firstIn secondIn
      ((oneIdentity.symm.trans identities).trans twoIdentity)
  · obtain ⟨other, otherIn, same⟩ := drafts.covers _ (List.mem_map_of_mem member)
    have visible := (LockedPackage.same_iff.mp same).2.2.2.2.1
    have distinct := (drafts.normal.normal other otherIn).visible
    rwa [visible] at distinct

end Drafts

/-- One effective edge between selected packages. -/
def EffectiveEdge (packages : List ResolvedPackage) (parent child : ResolvedPackage) : Prop :=
  child ∈ packages ∧ ∃ edge ∈ parent.effectiveDependencies, edge.package.name = child.name

/-- What a resolution for a list of roots is: every package is reached from the roots, and every
root that R does not provide is present, satisfied and visible in its repository. -/
structure Resolution.Fits (resolution : Resolution) (roots : List RootCheck) : Prop where
  /-- Every package is on a path of effective edges from the package of a root. -/
  reached : ∀ package ∈ resolution.packages, ∃ start ∈ resolution.packages,
    (∃ root ∈ roots, root.skipped = false ∧ root.name = start.name) ∧
      Relation.ReflTransGen (EffectiveEdge resolution.packages) start package
  /-- Every root that R does not provide is located. -/
  located : ∀ root ∈ roots, root.skipped = false → ∃ package ∈ resolution.packages,
    package.name = root.name ∧ root.constraint.satisfies package.version = true ∧
      ∀ repository, root.repository = some repository → repository ∈ package.visibleRepositoryIds

/-- The roots that R provides are satisfied by it, and a package of the name of R is there only for
a root that R does not provide. -/
structure Resolution.RuntimeFits (resolution : Resolution) (roots : List RootCheck) : Prop where
  /-- R satisfies the roots it provides. -/
  provided : ∀ root ∈ roots, root.skipped = true →
    root.constraint.satisfies resolution.target.rVersion = true
  /-- Nothing but a root leads to a package of the name of R. -/
  named : ∀ package ∈ resolution.packages, package.name.text = "R" →
    ∃ root ∈ roots, root.skipped = false ∧ root.name = package.name

section Graphs

variable {sha256 : List UInt8 → Sha256Digest} {resolution : Resolution} {lock : Lockfile}
  {roots : List RootCheck}

/-- Every selected package has a locked one. -/
theorem Lockfile.Drafts.exists_locked (drafts : lock.Drafts sha256 resolution)
    {selected : ResolvedPackage} (member : selected ∈ resolution.packages) :
    ∃ package ∈ lock.resolution.packages, package.name = selected.name ∧
      Same package ((LockedPackage.fromResolved sha256 selected).retain
        (resolution.packages.map ResolvedPackage.name)) := by
  obtain ⟨package, packageIn, same⟩ := drafts.covers _ (List.mem_map_of_mem member)
  exact ⟨package, packageIn,
    (ReleaseIdentity.same_iff.mp (LockedPackage.same_iff.mp same).1).1, same⟩

/-- Every locked package is the locked form of a selected one. -/
theorem Lockfile.Drafts.exists_selected (drafts : lock.Drafts sha256 resolution)
    {package : LockedPackage} (member : package ∈ lock.resolution.packages) :
    ∃ selected ∈ resolution.packages, package =
      (LockedPackage.fromResolved sha256 selected).retain
        (resolution.packages.map ResolvedPackage.name) := by
  obtain ⟨selected, selectedIn, equal⟩ := List.mem_map.mp (drafts.drawn package member)
  exact ⟨selected, selectedIn, equal.symm⟩

/-- A lock has one package of every name. -/
theorem Lockfile.Drafts.closed (drafts : lock.Drafts sha256 resolution)
    (valid : lock.validate = .ok ()) : Closed lock.resolution.packages :=
  Closed.of_checked valid drafts.normal.canonical

/-- The locked package of a selected one is reached when the selected one is. -/
theorem Lockfile.Drafts.reachable (drafts : lock.Drafts sha256 resolution) (fits : resolution.Fits roots)
    (runtime : resolution.RuntimeFits roots) {package : LockedPackage}
    (member : package ∈ lock.resolution.packages) :
    Reachable lock.resolution.packages roots package := by
  suffices general : ∀ (start selected : ResolvedPackage), start ∈ resolution.packages →
      (∃ root ∈ roots, root.skipped = false ∧ root.name = start.name) →
      Relation.ReflTransGen (EffectiveEdge resolution.packages) start selected →
      selected ∈ resolution.packages ∧ ∀ locked ∈ lock.resolution.packages,
        locked.name = selected.name → Reachable lock.resolution.packages roots locked by
    obtain ⟨selected, selectedIn, equal⟩ := drafts.exists_selected member
    obtain ⟨start, startIn, root, path⟩ := fits.reached selected selectedIn
    exact (general start selected startIn root path).2 package member (by rw [equal]; rfl)
  intro start selected startIn root path
  induction path with
  | refl =>
    refine ⟨startIn, fun locked lockedIn named => ?_⟩
    rw [← named] at root
    exact ⟨locked, lockedIn, root, .refl⟩
  | @tail parent child _ edge ih =>
    obtain ⟨parentIn, parentReached⟩ := ih
    obtain ⟨childIn, dependency, dependencyIn, leads⟩ := edge
    refine ⟨childIn, fun locked lockedIn named => ?_⟩
    by_cases isR : child.name.text = "R"
    · -- the lock drops the edge, but the package has a root of its own
      obtain ⟨root, rootIn, provided, rootNamed⟩ := runtime.named child childIn isR
      exact ⟨locked, lockedIn, ⟨root, rootIn, provided, by rw [rootNamed, named]⟩, .refl⟩
    · obtain ⟨parentLocked, parentLockedIn, parentNamed, same⟩ := drafts.exists_locked parentIn
      obtain ⟨origin, originIn, rooted, toParent⟩ :=
        parentReached parentLocked parentLockedIn parentNamed
      have kept : (⟨dependency.kind, dependency.package.name⟩ : LockedDependencyEdge) ∈
          parentLocked.dependencies := by
        rw [(LockedPackage.same_iff.mp same).2.2.2.1]
        refine mem_edges_fromResolved.mpr ⟨?_, ?_, dependency, dependencyIn, rfl, rfl⟩
        · rw [leads]
          exact List.mem_map_of_mem childIn
        · rw [leads]
          exact isR
      have step : DependsOn lock.resolution.packages parentLocked locked :=
        ⟨lockedIn, _, kept, by rw [named]; exact leads⟩
      exact ⟨origin, originIn, rooted, toParent.tail step⟩

/-- When everything is reached in the lock, a package of the name of R has a root. -/
theorem Lockfile.Drafts.root_of_r (drafts : lock.Drafts sha256 resolution)
    (reached : ∀ package ∈ lock.resolution.packages,
      Reachable lock.resolution.packages roots package) {selected : ResolvedPackage}
    (member : selected ∈ resolution.packages) (isR : selected.name.text = "R") :
    ∃ root ∈ roots, root.skipped = false ∧ root.name = selected.name := by
  obtain ⟨package, packageIn, named, _⟩ := drafts.exists_locked member
  obtain ⟨start, startIn, ⟨root, rootIn, provided, rootNamed⟩, path⟩ := reached package packageIn
  cases path with
  | refl => exact ⟨root, rootIn, provided, by rw [rootNamed, named]⟩
  | @tail parent _ before edge =>
    -- no locked edge leads to R
    have parentIn : parent ∈ lock.resolution.packages := by
      cases before with
      | refl => exact startIn
      | tail _ last => exact last.1
    obtain ⟨parentSelected, _, equal⟩ := drafts.exists_selected parentIn
    obtain ⟨_, dependency, dependencyIn, leads⟩ := edge
    rw [equal] at dependencyIn
    have other := (mem_edges_fromResolved.mp dependencyIn).2.1
    rw [leads, named] at other
    exact absurd isR other

/-- The roots pass in the lock when R satisfies those it provides. -/
theorem Lockfile.Drafts.passes (drafts : lock.Drafts sha256 resolution)
    (closed : Closed lock.resolution.packages) (fits : resolution.Fits roots) {root : RootCheck}
    (member : root ∈ roots) (provided : root.skipped = true →
      root.constraint.satisfies resolution.target.rVersion = true) :
    root.Passes lock.resolution := by
  refine ⟨fun skipped => by rw [drafts.target]; exact provided skipped, fun looked => ?_⟩
  obtain ⟨selected, selectedIn, named, satisfied, visible⟩ := fits.located root member looked
  obtain ⟨package, packageIn, packageNamed, same⟩ := drafts.exists_locked selectedIn
  obtain ⟨_, versions, _, _, visibles, _⟩ := LockedPackage.same_iff.mp same
  refine ⟨package, ?_, ?_, ?_⟩
  · rw [← named, ← packageNamed, closed.found package packageIn]
  · rw [VersionConstraint.satisfies_congr root.constraint versions]
    exact satisfied
  · rw [visibles]
    exact visible

end Graphs

section Identities

/-- The keys of an identity are about its package. -/
theorem subjectName_identitySolverKeys {identity : ReleaseIdentity}
    {visibleRepositoryIds : List RepositoryId} {key : SolverKey}
    (member : key ∈ identitySolverKeys identity visibleRepositoryIds) :
    key.subjectName = some identity.name := by
  simp only [identitySolverKeys, List.mem_cons, List.mem_append, List.mem_map] at member
  rcases member with rfl | ⟨repository, _, rfl⟩ | provenance
  · rfl
  · rfl
  · split at provenance <;> simp only [List.mem_cons, List.not_mem_nil, or_false] at provenance
    · rcases provenance with rfl | rfl <;> rfl
    · rcases provenance with rfl | rfl <;> rfl
    · subst provenance
      rfl
    · subst provenance
      rfl

/-- Identities are stored under keys of their packages. -/
def StoredFrom (packages : List LockedPackage) (identities : LockedIdentities) : Prop :=
  ∀ key identity, identities.get? key = some identity →
    ∃ package ∈ packages, package.identity = identity ∧ key.subjectName = some package.name

/-- The identity of a package can be stored among those of packages with distinct names. -/
theorem exists_insertPackage {packages : List LockedPackage} {package : LockedPackage}
    {identities : LockedIdentities}
    (agree : ∀ first ∈ packages, ∀ second ∈ packages, first.name = second.name →
      Same first.identity second.identity)
    (member : package ∈ packages) (stored : StoredFrom packages identities) :
    ∃ extended, insertPackage identities package = .ok extended ∧ StoredFrom packages extended := by
  unfold insertPackage
  have named : ∀ key ∈ identitySolverKeys package.identity package.visibleRepositoryIds,
      key.subjectName = some package.name :=
    fun key keyIn => subjectName_identitySolverKeys keyIn
  generalize identitySolverKeys package.identity package.visibleRepositoryIds = keys at named
  induction keys generalizing identities with
  | nil => exact ⟨identities, rfl, stored⟩
  | cons key rest ih =>
    have subject := named key List.mem_cons_self
    have fresh : (identities.get? key).all
        (fun previous => decide (Same previous package.identity)) = true := by
      cases found : identities.get? key with
      | none => rfl
      | some previous =>
        obtain ⟨other, otherIn, rfl, otherSubject⟩ := stored key previous found
        have names : other.name = package.name := Option.some.inj (otherSubject.symm.trans subject)
        exact decide_eq_true (agree other otherIn package member names)
    have extended : StoredFrom packages (identities.insert key package.identity) := by
      intro query identity found
      rw [KeyedMap.get?_insert] at found
      split at found
      · next same =>
        refine ⟨package, member, Option.some.inj found, ?_⟩
        rw [← SolverKey.subjectName_congr same, subject]
      · exact stored query identity found
    rw [List.foldlM_cons, insertIdentity, ensure_of fresh, ok_bind]
    exact ih extended fun other otherIn => named other (List.mem_cons_of_mem _ otherIn)

/-- A valid lock has an identity map. -/
theorem Lockfile.exists_lockedIdentities {lock : Lockfile} (valid : lock.validate = .ok ())
    (agree : ∀ first ∈ lock.resolution.packages, ∀ second ∈ lock.resolution.packages,
      first.name = second.name → Same first.identity second.identity) :
    ∃ identities, lock.lockedIdentities = .ok identities := by
  rw [Lockfile.lockedIdentities, valid, ok_bind]
  suffices general : ∀ (rest : List LockedPackage) (identities : LockedIdentities),
      (∀ package ∈ rest, package ∈ lock.resolution.packages) →
      StoredFrom lock.resolution.packages identities →
      ∃ extended, rest.foldlM insertPackage identities = .ok extended from
    general _ .empty (fun _ member => member) fun key identity found => by simp at found
  intro rest
  induction rest with
  | nil => exact fun identities _ _ => ⟨identities, rfl⟩
  | cons package rest ih =>
    intro identities inside stored
    obtain ⟨extended, inserted, extendedStored⟩ :=
      exists_insertPackage agree (inside package List.mem_cons_self) stored
    rw [List.foldlM_cons, inserted, ok_bind]
    exact ih extended (fun other member => inside other (List.mem_cons_of_mem _ member))
      extendedStored

end Identities

/-- The visible repositories of a package are configured, allow it, and are in the order of the
manifest. -/
structure VisibleInOrder (repositories : List RepositorySpec) (name : PackageName)
    (visibleRepositoryIds : List RepositoryId) : Prop where
  /-- They are configured. -/
  configured : ∀ repository ∈ visibleRepositoryIds, repository ∈ repositories.map RepositorySpec.id
  /-- They allow the package. -/
  allowed : ∀ repository ∈ visibleRepositoryIds, ∀ spec,
    repositories.find? (fun candidate => candidate.id == repository) = some spec →
      spec.packageAllowed name = true
  /-- Their places increase. -/
  ordered : (visibleRepositoryIds.map fun repository =>
    (repositoryRank repositories repository).getD 0).IsChain (· < ·)

/-- The loop over ranks passes increasing ranks. -/
theorem checkRanks_eq_ok {repositories : List RepositorySpec} {package : LockedPackage}
    {previousRank : Option Nat} {visible : List RepositoryId} :
    checkRanks repositories package previousRank visible = .ok () ↔
      (previousRank.toList ++ visible.map fun repository =>
        (repositoryRank repositories repository).getD 0).IsChain (· < ·) := by
  induction visible generalizing previousRank with
  | nil =>
    cases previousRank <;> simp [checkRanks]
  | cons repository rest ih =>
    rw [checkRanks, bind_eq_ok]
    simp only [ensure_eq_ok, ih, exists_const]
    cases previousRank with
    | none => simp
    | some previous =>
      simp [List.isChain_cons_cons]

/-- The check of visible repositories passes those that are visible in order. -/
theorem checkVisible_eq_ok {repositories : List RepositorySpec} {package : LockedPackage} :
    checkVisible repositories package = .ok () ↔
      VisibleInOrder repositories package.name package.visibleRepositoryIds := by
  have ranks := @checkRanks_eq_ok repositories package none package.visibleRepositoryIds
  constructor
  · intro checked
    obtain ⟨_, configured, checked⟩ := bind_eq_ok.mp checked
    obtain ⟨_, allowed, ordered⟩ := bind_eq_ok.mp checked
    refine ⟨fun repository member => ensure_eq_ok.mp (forM_eq_ok.mp configured repository member),
      fun repository member spec found => ?_, by simpa using ranks.mp ordered⟩
    have passed := ensure_eq_ok.mp (forM_eq_ok.mp allowed repository member)
    simpa [found] using passed
  · intro visible
    refine bind_eq_ok.mpr ⟨(), forM_eq_ok.mpr fun repository member =>
      ensure_of (visible.configured repository member), bind_eq_ok.mpr ⟨(), ?_,
        ranks.mpr (by simpa using visible.ordered)⟩⟩
    refine forM_eq_ok.mpr fun repository member => ensure_of ?_
    cases found : repositories.find? (fun candidate => candidate.id == repository) with
    | none => rfl
    | some spec => exact visible.allowed repository member spec found

/-- Without direct sources, a package whose repositories are visible in order can be acquired
exactly when it has one. -/
theorem acquirable_iff {roots : List RootCheck} {repositories : List RepositorySpec}
    {package : LockedPackage} (indirect : ∀ root ∈ roots, root.directSource = false)
    (visible : VisibleInOrder repositories package.name package.visibleRepositoryIds) :
    acquirable roots (some repositories) package = true ↔ package.visibleRepositoryIds ≠ [] := by
  have noDirect : roots.any (fun root => root.directSource && root.name == package.name) = false := by
    rw [List.any_eq_false]
    intro root member
    simp [indirect root member]
  simp only [acquirable, noDirect, Bool.false_or]
  constructor
  · intro acquired empty
    rw [empty] at acquired
    cases acquired
  · intro some
    obtain ⟨repository, member⟩ := List.exists_mem_of_ne_nil _ some
    obtain ⟨spec, specIn, named⟩ := List.mem_map.mp (visible.configured repository member)
    cases found : repositories.find? (fun candidate => candidate.id == repository) with
    | none =>
      have differs := List.find?_eq_none.mp found spec specIn
      simp [named] at differs
    | some first =>
      have firstNamed := List.find?_some found
      refine List.any_eq_true.mpr ⟨repository, member, List.any_eq_true.mpr
        ⟨first, List.mem_of_find?_eq_some found, ?_⟩⟩
      simp [visible.allowed repository member first found, beq_iff_eq.mp firstNamed]

section Inputs

variable {sha256 : List UInt8 → Sha256Digest} {resolution : Resolution} {lock : Lockfile}
  {roots : List RootCheck}

/-- A drafted lock is consumed for the roots of its resolution exactly when these fit R and its
packages can be acquired. -/
theorem Lockfile.Drafts.consumeRoots_iff (drafts : lock.Drafts sha256 resolution)
    (valid : lock.validate = .ok ()) (fits : resolution.Fits roots) {target : ResolutionTarget}
    {environment : EnvironmentId} {rRequirement : VersionConstraint}
    {configuredRepositories : Option (List RepositorySpec)}
    (targets : Same resolution.target target) (environments : lock.resolution.environment = environment)
    (satisfied : rRequirement.satisfies resolution.target.rVersion = true)
    (visible : ∀ repositories, configuredRepositories = some repositories →
      ∀ selected ∈ resolution.packages,
        VisibleInOrder repositories selected.name selected.visibleRepositoryIds) :
    (∃ graph, lock.consumeRoots target environment rRequirement roots configuredRepositories =
        some (.ok graph)) ↔
      resolution.RuntimeFits roots ∧ ∀ package ∈ lock.resolution.packages,
        acquirable roots configuredRepositories package = true := by
  have closed := drafts.closed valid
  have request : lock.checkRequest target environment rRequirement configuredRepositories =
      .ok () := by
    unfold Lockfile.checkRequest
    rw [valid, ok_bind, drafts.normal.canonical, ok_bind,
      ensure_of (by rw [drafts.target]; exact targets), ok_bind, ensure_of environments, ok_bind,
      ensure_of (by rw [drafts.target]; exact satisfied), ok_bind]
    cases configuredRepositories with
    | none => rfl
    | some repositories =>
      refine forM_eq_ok.mpr fun package member => checkVisible_eq_ok.mpr ?_
      obtain ⟨selected, selectedIn, rfl⟩ := drafts.exists_selected member
      exact visible repositories rfl selected selectedIn
  rw [Lockfile.consumeRoots_isOk_iff]
  constructor
  · rintro ⟨others, reached⟩
    refine ⟨⟨fun root member skipped => ?_, fun selected member isR =>
      drafts.root_of_r reached member isR⟩, others.acquired⟩
    have passes := RootCheck.start_ne_error_iff.mp (others.located root member)
    rw [← drafts.target]
    exact passes.provided skipped
  · rintro ⟨runtime, acquired⟩
    refine ⟨⟨request, fun root member => ?_, acquired⟩, fun package member =>
      drafts.reachable fits runtime member⟩
    exact RootCheck.start_ne_error_iff.mpr
      (drafts.passes closed fits member (runtime.provided root member))

/-- With registry roots, the lock of a composed environment is the lock of its fields. -/
theorem draftForComposed_eq {composed : ComposedEnvironment}
    (registry : ∀ root ∈ composed.roots, ∃ repository, root.source = .registry repository)
    (targets : Same resolution.target composed.target) :
    Lockfile.draftForComposed sha256 resolution composed =
      Lockfile.fromResolutionWithApplicability sha256 resolution composed.environment
        composed.publishedBefore (composed.resolutionIntentDigest sha256)
        composed.rRequirement := by
  have unchanged : ∀ package : LockedPackage, package.withRequestedSource composed = .ok package := by
    intro package
    unfold LockedPackage.withRequestedSource
    split
    · rfl
    · next root found =>
      obtain ⟨repository, source⟩ := registry root (List.mem_of_find?_eq_some found)
      rw [source]
  rw [Lockfile.draftForComposed, ensure_of targets, ok_bind]
  cases Lockfile.fromResolutionWithApplicability sha256 resolution composed.environment
      composed.publishedBefore (composed.resolutionIntentDigest sha256)
      composed.rRequirement with
  | error cause => rfl
  | ok lock =>
    have mapped : lock.resolution.packages.mapM (LockedPackage.withRequestedSource composed) =
        .ok lock.resolution.packages :=
      mapM_eq_ok.mpr (List.forall₂_same.mpr fun package _ => unchanged package)
    rw [ok_bind, mapped]
    rfl

/-- The lock of a resolution for registry roots is built and consumed exactly when the constraint
on R is canonical and the resolution can be locked. -/
theorem fromResolutionWithComposedEnvironment_iff {composed : ComposedEnvironment}
    (released : ∀ selected ∈ resolution.packages, selected.release.isRBasePackage = false)
    (registry : ∀ root ∈ composed.roots, ∃ repository, root.source = .registry repository)
    (targets : Same resolution.target composed.target)
    (fits : resolution.Fits (composed.roots.map ComposedRootIntent.rootCheck))
    (visible : ∀ selected ∈ resolution.packages,
      VisibleInOrder composed.repositories selected.name selected.visibleRepositoryIds) :
    (∃ lock, Lockfile.fromResolutionWithComposedEnvironment sha256 resolution composed =
        some (.ok lock)) ↔
      Same (canonicalizeConstraint composed.rRequirement) composed.rRequirement ∧
        resolution.Lockable sha256 composed.rRequirement ∧
        resolution.RuntimeFits (composed.roots.map ComposedRootIntent.rootCheck) ∧
        ∀ selected ∈ resolution.packages, selected.visibleRepositoryIds ≠ [] := by
  have indirect : ∀ root ∈ composed.roots.map ComposedRootIntent.rootCheck,
      root.directSource = false := by
    intro root member
    obtain ⟨intent, intentIn, rfl⟩ := List.mem_map.mp member
    obtain ⟨repository, source⟩ := registry intent intentIn
    simp [ComposedRootIntent.rootCheck, source]
  -- the lock that is drafted is consumed exactly under the other conditions
  have consumed : ∀ lock, Lockfile.fromResolutionWithApplicability sha256 resolution
      composed.environment composed.publishedBefore (composed.resolutionIntentDigest sha256)
      composed.rRequirement = .ok lock →
      ((∃ graph, lock.consumeComposedEnvironment sha256 composed = some (.ok graph)) ↔
        Same (canonicalizeConstraint composed.rRequirement) composed.rRequirement ∧
          resolution.RuntimeFits (composed.roots.map ComposedRootIntent.rootCheck) ∧
          ∀ selected ∈ resolution.packages, selected.visibleRepositoryIds ≠ []) := by
    intro lock built
    obtain ⟨drafts, intents, requirement, environments, cutoffs, valid⟩ :=
      Lockfile.Drafts.of_built built
    have lockable := Resolution.Lockable.of_built released built
    have acquired : (∀ package ∈ lock.resolution.packages, acquirable
        (composed.roots.map ComposedRootIntent.rootCheck) (some composed.repositories) package =
          true) ↔ ∀ selected ∈ resolution.packages, selected.visibleRepositoryIds ≠ [] := by
      constructor
      · intro acquired selected member
        obtain ⟨package, packageIn, _, same⟩ := drafts.exists_locked member
        obtain ⟨origin, originIn, rfl⟩ := drafts.exists_selected packageIn
        have visibles := (LockedPackage.same_iff.mp same).2.2.2.2.1
        have some := (acquirable_iff indirect (visible origin originIn)).mp (acquired _ packageIn)
        rw [visibles] at some
        exact some
      · intro some package packageIn
        obtain ⟨selected, selectedIn, rfl⟩ := drafts.exists_selected packageIn
        exact (acquirable_iff indirect (visible selected selectedIn)).mpr (some selected selectedIn)
    have roots := drafts.consumeRoots_iff valid fits targets environments lockable.requirement
      (fun repositories configured => by
        obtain rfl := Option.some.inj configured
        exact visible)
    rw [acquired] at roots
    have checks : lock.checkComposed sha256 composed = .ok () ↔
        Same (canonicalizeConstraint composed.rRequirement) composed.rRequirement := by
      have satisfied : lock.rRequirement.satisfies composed.target.rVersion = true := by
        rw [requirement, satisfies_canonicalizeConstraint,
          ← VersionConstraint.satisfies_congr composed.rRequirement
            (congrArg ResolutionTarget.rVersion targets)]
        exact lockable.requirement
      have rooted : composed.roots.forM (lock.checkRootSource sha256 composed) = .ok () := by
        refine forM_eq_ok.mpr fun root member => ?_
        obtain ⟨repository, source⟩ := registry root member
        rw [Lockfile.checkRootSource, source]
      rw [Lockfile.checkComposed, valid, ok_bind, ensure_of (by rw [drafts.target]; exact targets),
        ok_bind, ensure_of environments, ok_bind, ensure_of satisfied, ok_bind, bind_eq_ok,
        requirement]
      simp only [ensure_eq_ok, ensure_of cutoffs, ensure_of intents, ok_bind, rooted, and_true,
        exists_const]
    unfold Lockfile.consumeComposedEnvironment
    constructor
    · rintro ⟨graph, ended⟩
      split at ended
      · cases ended
      · next passed => exact ⟨checks.mp passed, roots.mp ⟨graph, ended⟩⟩
    · rintro ⟨canonical, rest⟩
      rw [checks.mpr canonical]
      exact roots.mpr rest
  unfold Lockfile.fromResolutionWithComposedEnvironment
  rw [draftForComposed_eq registry targets]
  constructor
  · rintro ⟨lock, ended⟩
    split at ended
    · cases ended
    · next drafted built =>
      obtain ⟨result, consumption, finished⟩ := Option.map_eq_some_iff.mp ended
      obtain ⟨graph, rfl⟩ : ∃ graph, result = .ok graph := by
        cases result with
        | ok graph => exact ⟨graph, rfl⟩
        | error cause => cases finished
      obtain ⟨canonical, runtime, some⟩ := (consumed drafted built).mp ⟨graph, consumption⟩
      exact ⟨canonical, Resolution.Lockable.of_built released built, runtime, some⟩
  · rintro ⟨canonical, lockable, runtime, some⟩
    obtain ⟨lock, built⟩ := lockable.exists_built released
    obtain ⟨graph, consumption⟩ := (consumed lock built).mpr ⟨canonical, runtime, some⟩
    refine ⟨lock, ?_⟩
    rw [built]
    simp only [consumption, Option.map_some]
    rfl

/-- A lock with the constraint on R of a manifest is built and consumed with the manifest exactly
when the constraint is canonical and the resolution can be locked. -/
theorem consumeLockedGraph_iff {manifest : Manifest} {environment : EnvironmentId}
    {publicationCutoff : Option PublicationDate} {resolutionIntentSha256 : Sha256Digest}
    (released : ∀ selected ∈ resolution.packages, selected.release.isRBasePackage = false)
    (accepted : manifest.validate = .ok ()) (targets : Same resolution.target ⟨manifest.target⟩)
    (fits : resolution.Fits ((manifest.requirements.map Manifest.root).map
      RootRequirement.rootCheck)) :
    (∃ lock graph, Lockfile.fromResolutionWithApplicability sha256 resolution environment
        publicationCutoff resolutionIntentSha256 manifest.rRequirement = .ok lock ∧
        lock.consumeLockedGraph manifest environment = some (.ok graph)) ↔
      Same (canonicalizeConstraint manifest.rRequirement) manifest.rRequirement ∧
        resolution.Lockable sha256 manifest.rRequirement ∧
        resolution.RuntimeFits ((manifest.requirements.map Manifest.root).map
          RootRequirement.rootCheck) := by
  have consumed : ∀ lock, Lockfile.fromResolutionWithApplicability sha256 resolution environment
      publicationCutoff resolutionIntentSha256 manifest.rRequirement = .ok lock →
      ((∃ graph, lock.consumeLockedGraph manifest environment = some (.ok graph)) ↔
        Same (canonicalizeConstraint manifest.rRequirement) manifest.rRequirement ∧
          resolution.RuntimeFits ((manifest.requirements.map Manifest.root).map
            RootRequirement.rootCheck)) := by
    intro lock built
    obtain ⟨drafts, -, requirement, environments, -, valid⟩ := Lockfile.Drafts.of_built built
    have lockable := Resolution.Lockable.of_built released built
    have noRepositories : ∀ repositories : List RepositorySpec, none = some repositories →
        ∀ selected ∈ resolution.packages,
          VisibleInOrder repositories selected.name selected.visibleRepositoryIds := by
      intro repositories configured
      cases configured
    have roots := drafts.consumeRoots_iff valid fits targets environments lockable.requirement
      noRepositories
    obtain ⟨identities, mapped⟩ := Lockfile.exists_lockedIdentities valid
      (ensureInstalledNames_agree drafts.normal.installed)
    have satisfied : manifest.rRequirement.satisfies lock.resolution.target.rVersion = true := by
      rw [drafts.target]
      exact lockable.requirement
    have request : lock.resolutionRequest manifest environment =
        ensure (Same manifest.rRequirement (canonicalizeConstraint manifest.rRequirement))
          LockError.rRequirementIntentMismatch >>= fun _ =>
        .ok ⟨manifest.requirements.map Manifest.root, ⟨manifest.target⟩, manifest.rRequirement,
          identities, lock.resolution.publicationCutoff.map PublicationCutoff.mk⟩ := by
      unfold Lockfile.resolutionRequest Manifest.intoResolutionRequest
      rw [valid, ok_bind, ensure_of environments, ok_bind, accepted, ok_bind]
      simp only [pure, Except.pure, Except.mapError, ok_bind]
      rw [ensure_of (by rw [drafts.target]; exact targets.symm), ok_bind, ensure_of satisfied,
        ok_bind, mapped, requirement]
      rfl
    unfold Lockfile.consumeLockedGraph
    rw [request]
    by_cases canonical : Same manifest.rRequirement (canonicalizeConstraint manifest.rRequirement)
    · rw [ensure_of canonical, ok_bind]
      refine roots.trans ⟨fun both => ⟨canonical.symm, both.1⟩, fun both => ⟨both.2, ?_⟩⟩
      exact fun _ _ => rfl
    · rw [ensure_of_not canonical]
      refine iff_of_false ?_ fun both => canonical both.1.symm
      rintro ⟨graph, ended⟩
      cases ended
  constructor
  · rintro ⟨lock, graph, built, ended⟩
    obtain ⟨canonical, runtime⟩ := (consumed lock built).mp ⟨graph, ended⟩
    exact ⟨canonical, Resolution.Lockable.of_built released built, runtime⟩
  · rintro ⟨canonical, lockable, runtime⟩
    obtain ⟨lock, built⟩ := lockable.exists_built released
    obtain ⟨graph, ended⟩ := (consumed lock built).mpr ⟨canonical, runtime⟩
    exact ⟨lock, graph, built, ended⟩

end Inputs

/-- A resolution holds no R base packages. -/
theorem Resolution.released (target : ResolutionTarget) (packages : List ResolvedPackage) :
    ∀ selected ∈ (Resolution.new target packages).packages,
      selected.release.isRBasePackage = false := by
  intro selected member
  have kept := List.mem_filter.mp (Sorting.mem_sortBy.mp member)
  simpa using kept.2

/-- A resolved lock fits its own input exactly when the constraint on R is canonical: for a composed
environment with registry roots, building the lock consumes it, and for a manifest, the lock built
with its constraint on R is consumed with it. The other conditions are those under which the
resolution can be locked at all. -/
theorem resolved_lock_fits_iff (sha256 : List UInt8 → Sha256Digest) (target : ResolutionTarget)
    (packages : List ResolvedPackage) :
    (∀ composed : ComposedEnvironment,
      (∀ root ∈ composed.roots, ∃ repository, root.source = .registry repository) →
      Same (Resolution.new target packages).target composed.target →
      (Resolution.new target packages).Fits (composed.roots.map ComposedRootIntent.rootCheck) →
      (∀ selected ∈ (Resolution.new target packages).packages,
        VisibleInOrder composed.repositories selected.name selected.visibleRepositoryIds) →
      ((∃ lock, Lockfile.fromResolutionWithComposedEnvironment sha256
          (Resolution.new target packages) composed = some (.ok lock)) ↔
        Same (canonicalizeConstraint composed.rRequirement) composed.rRequirement ∧
          (Resolution.new target packages).Lockable sha256 composed.rRequirement ∧
          (Resolution.new target packages).RuntimeFits
            (composed.roots.map ComposedRootIntent.rootCheck) ∧
          ∀ selected ∈ (Resolution.new target packages).packages,
            selected.visibleRepositoryIds ≠ [])) ∧
    ∀ (manifest : Manifest) (environment : EnvironmentId)
      (publicationCutoff : Option PublicationDate) (resolutionIntentSha256 : Sha256Digest),
      manifest.validate = .ok () →
      Same (Resolution.new target packages).target ⟨manifest.target⟩ →
      (Resolution.new target packages).Fits ((manifest.requirements.map Manifest.root).map
        RootRequirement.rootCheck) →
      ((∃ lock graph, Lockfile.fromResolutionWithApplicability sha256
          (Resolution.new target packages) environment publicationCutoff resolutionIntentSha256
          manifest.rRequirement = .ok lock ∧
          lock.consumeLockedGraph manifest environment = some (.ok graph)) ↔
        Same (canonicalizeConstraint manifest.rRequirement) manifest.rRequirement ∧
          (Resolution.new target packages).Lockable sha256 manifest.rRequirement ∧
          (Resolution.new target packages).RuntimeFits
            ((manifest.requirements.map Manifest.root).map RootRequirement.rootCheck)) :=
  ⟨fun _ registry targets fits visible => fromResolutionWithComposedEnvironment_iff
      (Resolution.released target packages) registry targets fits visible,
    fun _ _ _ _ accepted targets fits => consumeLockedGraph_iff
      (Resolution.released target packages) accepted targets fits⟩

namespace Small

/-- A selected package without dependencies. -/
def selected : ResolvedPackage :=
  ⟨.installedName alpha, release alpha newer [], [], [repository]⟩

/-- A manifest that requires it under a constraint on R. -/
def manifest (rRequirement : VersionConstraint) : Manifest :=
  ⟨rRequirement, newer, [⟨alpha, .unconstrained⟩]⟩

/-- Between two versions, the lower bound first. -/
def between : VersionConstraint := ⟨[⟨.ge, older⟩, ⟨.le, newer⟩]⟩

/-- The resolution of one package fits the manifest. -/
theorem fits (rRequirement : VersionConstraint) :
    (Resolution.new ⟨newer⟩ [selected]).Fits
      (((manifest rRequirement).requirements.map Manifest.root).map RootRequirement.rootCheck) := by
  have packages : (Resolution.new ⟨newer⟩ [selected]).packages = [selected] := rfl
  constructor
  · intro package member
    obtain rfl := List.mem_singleton.mp (packages ▸ member)
    exact ⟨selected, member, ⟨_, List.mem_singleton_self _, by decide +kernel, rfl⟩, .refl⟩
  · intro root member _
    obtain rfl := List.mem_singleton.mp member
    exact ⟨selected, packages ▸ List.mem_singleton_self _, rfl, rfl, by rintro _ ⟨⟩⟩

end Small

/-- A lock built with a constraint on R whose clauses are not sorted is refused with the manifest it
was built for. -/
theorem resolved_lock_refused_unsorted :
    let manifest := Small.manifest Small.between
    let resolution := Resolution.new ⟨Small.newer⟩ [Small.selected]
    manifest.validate = .ok () ∧ Same resolution.target ⟨manifest.target⟩ ∧
      resolution.Fits ((manifest.requirements.map Manifest.root).map RootRequirement.rootCheck) ∧
      ∃ lock, Lockfile.fromResolutionWithApplicability (fun _ => Small.digest) resolution
          Small.environment none Small.digest manifest.rRequirement = .ok lock ∧
        lock.consumeLockedGraph manifest Small.environment =
          some (.error .rRequirementIntentMismatch) := by
  intro manifest resolution
  refine ⟨by decide +kernel, Same.refl _, Small.fits Small.between,
    ⟨Small.digest, canonicalizeConstraint Small.between, ⟨Small.newer⟩, Small.environment, none,
      [Small.locked Small.alpha Small.newer []]⟩, by decide +kernel, by decide +kernel⟩

/-- The sorted constraint is accepted. -/
theorem resolved_lock_fits_sorted :
    let manifest := Small.manifest (canonicalizeConstraint Small.between)
    ∃ lock graph, Lockfile.fromResolutionWithApplicability (fun _ => Small.digest)
        (Resolution.new ⟨Small.newer⟩ [Small.selected]) Small.environment none Small.digest
        manifest.rRequirement = .ok lock ∧
      lock.consumeLockedGraph manifest Small.environment = some (.ok graph) := by
  intro manifest
  have packages : (Resolution.new ⟨Small.newer⟩ [Small.selected]).packages = [Small.selected] := rfl
  refine ((resolved_lock_fits_iff (fun _ => Small.digest) ⟨Small.newer⟩ [Small.selected]).2 manifest
    Small.environment none Small.digest (by decide +kernel) (Same.refl _)
    (Small.fits (canonicalizeConstraint Small.between))).mpr ⟨by decide +kernel, ?_, ?_⟩
  · refine ⟨by decide +kernel, fun selected member => ?_, fun first firstIn second secondIn _ => ?_,
      fun selected member => ?_⟩
    · obtain rfl := List.mem_singleton.mp (packages ▸ member)
      intro bare
      exact absurd bare (by decide +kernel)
    · obtain rfl := List.mem_singleton.mp firstIn
      obtain rfl := List.mem_singleton.mp secondIn
      exact Same.refl _
    · obtain rfl := List.mem_singleton.mp (packages ▸ member)
      exact List.nodup_singleton _
  · refine ⟨fun root member skipped => ?_, fun selected member isR => ?_⟩
    · obtain rfl := List.mem_singleton.mp member
      rfl
    · obtain rfl := List.mem_singleton.mp (packages ▸ member)
      exact absurd isR (by decide)

end Rsolve
