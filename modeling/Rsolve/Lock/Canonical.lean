import Rsolve.Lock.Reachability

/-!
# A built lock is canonical

Building a lock normalizes its packages: the edges of each are sorted without repetition, and the
packages are sorted by identity with one of every identity. Normalizing again changes nothing, so a
built lock is rebuilt as it is.
-/
open Keyed Checked

namespace Rsolve

/-- The same packages agree on all but the spelling of their versions. -/
theorem LockedPackage.same_iff {left right : LockedPackage} :
    Same left right ↔ Same left.identity right.identity ∧ Same left.version right.version ∧
      left.publishedVersionSpelling = right.publishedVersionSpelling ∧
      left.dependencies = right.dependencies ∧
      left.visibleRepositoryIds = right.visibleRepositoryIds ∧
      left.metadataSha256 = right.metadataSha256 ∧
      Same left.requestedGitSource right.requestedGitSource := by
  simp only [Same, Representative.representative, LockedPackage.mk.injEq]

/-- Edges that compare equal are equal. -/
theorem compareEdges_eq_iff {left right : LockedDependencyEdge} :
    compareEdges left right = .eq ↔ left = right := by
  have kinds : dependencyKindRank left.kind = dependencyKindRank right.kind ↔
      left.kind = right.kind := by
    constructor
    · cases left.kind <;> cases right.kind <;> simp [dependencyKindRank]
    · exact congrArg dependencyKindRank
  rw [compareEdges, compareLex_eq_eq, compareOn, compareOn, Std.LawfulEqOrd.compare_eq_iff_eq,
    Std.LawfulEqOrd.compare_eq_iff_eq, kinds]
  cases left
  cases right
  simp [and_comm]

/-- The order of edges is a lawful comparator. -/
instance : Std.TransCmp compareEdges :=
  inferInstanceAs (Std.TransCmp (compareLex (compareOn LockedDependencyEdge.package)
    (compareOn (fun edge : LockedDependencyEdge => dependencyKindRank edge.kind))))

/-- Canonical edges are the canonical list of the edge order. -/
theorem canonicalizeDependencyEdges_eq (edges : List LockedDependencyEdge) :
    canonicalizeDependencyEdges edges = Sorting.canonical compareEdges Sorting.noTie edges := by
  have tested : (fun left right : LockedDependencyEdge => left == right) =
      fun left right => compareEdges left right == .eq := by
    funext left right
    rw [Bool.eq_iff_iff, beq_iff_eq, beq_iff_eq, compareEdges_eq_iff]
  rw [canonicalizeDependencyEdges, Sorting.canonical, Sorting.compareLex_noTie, tested]

/-- Canonical edges increase strictly. -/
theorem canonicalizeDependencyEdges_strict (edges : List LockedDependencyEdge) :
    (canonicalizeDependencyEdges edges).Pairwise
      (fun left right => compareEdges left right = .lt) := by
  rw [canonicalizeDependencyEdges_eq]
  exact Sorting.canonical_strict compareEdges Sorting.noTie edges

/-- Strictly increasing edges are canonical. -/
theorem canonicalizeDependencyEdges_of_strict {edges : List LockedDependencyEdge}
    (strict : edges.Pairwise (fun left right => compareEdges left right = .lt)) :
    canonicalizeDependencyEdges edges = edges := by
  rw [canonicalizeDependencyEdges_eq]
  exact Sorting.canonical_eq_self compareEdges Sorting.noTie strict

/-- The loop passes repositories that are new and distinct. -/
theorem validateVisibleFrom_eq_ok {package : LockedPackage} {seen repositories : List RepositoryId} :
    validateVisibleFrom package seen repositories = .ok () ↔
      repositories.Nodup ∧ ∀ repository ∈ repositories, repository ∉ seen := by
  induction repositories generalizing seen with
  | nil => simp [validateVisibleFrom]
  | cons repository rest ih =>
    rw [validateVisibleFrom, bind_eq_ok]
    simp only [ensure_eq_ok, ih, List.mem_cons, not_or, List.nodup_cons, forall_eq_or_imp]
    constructor
    · rintro ⟨_, fresh, distinct, later⟩
      refine ⟨⟨fun member => (later repository member).1 rfl, distinct⟩, fresh, ?_⟩
      exact fun other member => (later other member).2
    · rintro ⟨⟨once, distinct⟩, fresh, later⟩
      refine ⟨(), fresh, distinct, fun other member => ⟨?_, later other member⟩⟩
      rintro rfl
      exact once member

/-- The check passes distinct repositories. -/
@[simp]
theorem validateVisibleRepositoryIds_eq_ok {package : LockedPackage} :
    validateVisibleRepositoryIds package = .ok () ↔ package.visibleRepositoryIds.Nodup := by
  rw [validateVisibleRepositoryIds, validateVisibleFrom_eq_ok]
  simp

/-- What normalizing a package does. -/
theorem normalizePackage_eq_ok {package normalized : LockedPackage} :
    normalizePackage package = .ok normalized ↔
      package.validate = .ok () ∧ package.visibleRepositoryIds.Nodup ∧
        normalized =
          { package with dependencies := canonicalizeDependencyEdges package.dependencies } := by
  rw [normalizePackage, bind_eq_ok]
  constructor
  · rintro ⟨_, valid, continued⟩
    obtain ⟨_, visible, finished⟩ := bind_eq_ok.mp continued
    have distinct := validateVisibleRepositoryIds_eq_ok.mp visible
    exact ⟨valid, distinct, (Except.ok.inj finished).symm⟩
  · rintro ⟨valid, visible, rfl⟩
    exact ⟨(), valid, bind_eq_ok.mpr ⟨(), validateVisibleRepositoryIds_eq_ok.mpr visible, rfl⟩⟩

/-- A package that is normal: valid, with canonical edges. -/
structure LockedPackage.Normal (package : LockedPackage) : Prop where
  /-- The package passes its own check. -/
  valid : package.validate = .ok ()
  /-- No repository is repeated. -/
  visible : package.visibleRepositoryIds.Nodup
  /-- The edges increase strictly. -/
  edges : package.dependencies.Pairwise (fun left right => compareEdges left right = .lt)

/-- A normalized package is normal. -/
theorem LockedPackage.Normal.of_normalizePackage {package normalized : LockedPackage}
    (accepted : normalizePackage package = .ok normalized) : normalized.Normal := by
  obtain ⟨valid, visible, rfl⟩ := normalizePackage_eq_ok.mp accepted
  exact ⟨valid, visible, canonicalizeDependencyEdges_strict package.dependencies⟩

/-- A normal package is normalized to itself. -/
theorem LockedPackage.Normal.normalizePackage {package : LockedPackage} (normal : package.Normal) :
    normalizePackage package = .ok package := by
  refine normalizePackage_eq_ok.mpr ⟨normal.valid, normal.visible, ?_⟩
  rw [canonicalizeDependencyEdges_of_strict normal.edges]

/-- Packages without neighbours of one identity are kept after one of another identity. -/
theorem uniqueAfter_of_apart {previous : LockedPackage} {packages : List LockedPackage}
    (apart : (previous :: packages).IsChain
      (fun first second => ¬ Same first.identity second.identity)) :
    uniqueAfter previous packages = .ok packages := by
  induction packages generalizing previous with
  | nil => rfl
  | cons package rest ih =>
    rw [List.isChain_cons_cons] at apart
    rw [uniqueAfter, if_neg apart.1, ih apart.2]
    rfl

/-- The packages kept after one are a part of the list, and no neighbours are of one identity. -/
theorem uniqueAfter_spec {previous : LockedPackage} {packages kept : List LockedPackage}
    (accepted : uniqueAfter previous packages = .ok kept) :
    kept.Sublist packages ∧ (previous :: kept).IsChain
      (fun first second => ¬ Same first.identity second.identity) := by
  induction packages generalizing previous kept with
  | nil =>
    obtain rfl : [] = kept := Except.ok.inj accepted
    exact ⟨List.Sublist.slnil, .singleton previous⟩
  | cons package rest ih =>
    rw [uniqueAfter] at accepted
    split at accepted
    · obtain ⟨_, _, accepted⟩ := bind_eq_ok.mp accepted
      obtain ⟨part, chain⟩ := ih accepted
      exact ⟨part.cons package, chain⟩
    · next apart =>
      obtain ⟨later, continued, finished⟩ := bind_eq_ok.mp accepted
      obtain rfl : package :: later = kept := Except.ok.inj finished
      obtain ⟨part, chain⟩ := ih continued
      exact ⟨part.cons_cons package, List.isChain_cons_cons.mpr ⟨apart, chain⟩⟩

/-- The packages kept are a part of the list, and no neighbours are of one identity. -/
theorem uniquePackages_spec {packages kept : List LockedPackage}
    (accepted : uniquePackages packages = .ok kept) :
    kept.Sublist packages ∧
      kept.IsChain (fun first second => ¬ Same first.identity second.identity) := by
  cases packages with
  | nil =>
    obtain rfl : [] = kept := Except.ok.inj accepted
    exact ⟨List.Sublist.slnil, .nil⟩
  | cons package rest =>
    rw [uniquePackages] at accepted
    obtain ⟨later, continued, finished⟩ := bind_eq_ok.mp accepted
    obtain rfl : package :: later = kept := Except.ok.inj finished
    obtain ⟨part, chain⟩ := uniqueAfter_spec continued
    exact ⟨part.cons_cons package, chain⟩

/-- Packages without neighbours of one identity are all kept. -/
theorem uniquePackages_of_apart {packages : List LockedPackage}
    (apart : packages.IsChain (fun first second => ¬ Same first.identity second.identity)) :
    uniquePackages packages = .ok packages := by
  cases packages with
  | nil => rfl
  | cons package rest =>
    rw [uniquePackages, uniqueAfter_of_apart apart]
    rfl

/-- The order of packages by identity is a lawful comparator. -/
instance : Std.TransCmp (fun left right : LockedPackage =>
    compareIdentities left.identity right.identity) where
  eq_swap := Std.OrientedCmp.eq_swap
  isLE_trans := Std.TransCmp.isLE_trans

/-- Every package is the same as one that is kept, or as the one before. -/
theorem uniqueAfter_represents {previous : LockedPackage} {packages kept : List LockedPackage}
    (accepted : uniqueAfter previous packages = .ok kept) {package : LockedPackage}
    (member : package ∈ packages) : ∃ other ∈ previous :: kept, Same other package := by
  induction packages generalizing previous kept with
  | nil => exact absurd member List.not_mem_nil
  | cons head rest ih =>
    rw [uniqueAfter] at accepted
    split at accepted
    · obtain ⟨_, checked, continued⟩ := bind_eq_ok.mp accepted
      rcases List.mem_cons.mp member with rfl | later
      · exact ⟨previous, List.mem_cons_self, ensure_eq_ok.mp checked⟩
      · exact ih continued later
    · obtain ⟨others, continued, finished⟩ := bind_eq_ok.mp accepted
      obtain rfl : head :: others = kept := Except.ok.inj finished
      rcases List.mem_cons.mp member with rfl | later
      · exact ⟨package, List.mem_cons_of_mem _ List.mem_cons_self, Same.refl _⟩
      · obtain ⟨other, otherIn, agree⟩ := ih continued later
        exact ⟨other, List.mem_cons_of_mem _ otherIn, agree⟩

/-- Every package is the same as one that is kept. -/
theorem uniquePackages_represents {packages kept : List LockedPackage}
    (accepted : uniquePackages packages = .ok kept) {package : LockedPackage}
    (member : package ∈ packages) : ∃ other ∈ kept, Same other package := by
  cases packages with
  | nil => exact absurd member List.not_mem_nil
  | cons head rest =>
    rw [uniquePackages] at accepted
    obtain ⟨others, continued, finished⟩ := bind_eq_ok.mp accepted
    obtain rfl : head :: others = kept := Except.ok.inj finished
    rcases List.mem_cons.mp member with rfl | later
    · exact ⟨package, List.mem_cons_self, Same.refl _⟩
    · exact uniqueAfter_represents continued later

/-- Packages of which those of one identity are the same are deduplicated. -/
theorem exists_uniquePackages {packages : List LockedPackage}
    (agree : ∀ first ∈ packages, ∀ second ∈ packages, Same first.identity second.identity →
      Same first second) : ∃ kept, uniquePackages packages = .ok kept := by
  have after : ∀ (rest : List LockedPackage) (previous : LockedPackage),
      (∀ first ∈ previous :: rest, ∀ second ∈ previous :: rest,
        Same first.identity second.identity → Same first second) →
      ∃ kept, uniqueAfter previous rest = .ok kept := by
    intro rest
    induction rest with
    | nil => exact fun _ _ => ⟨[], rfl⟩
    | cons head rest ih =>
      intro previous agree
      rw [uniqueAfter]
      split
      · next same =>
        have checked := agree previous List.mem_cons_self head (by simp) same
        obtain ⟨kept, continued⟩ := ih previous fun first firstIn second secondIn =>
          agree first (List.cons_subset_cons previous (List.subset_cons_self head rest) firstIn)
            second (List.cons_subset_cons previous (List.subset_cons_self head rest) secondIn)
        exact ⟨kept, bind_eq_ok.mpr ⟨(), ensure_of checked, continued⟩⟩
      · obtain ⟨kept, continued⟩ := ih head fun first firstIn second secondIn =>
          agree first (List.mem_cons_of_mem _ firstIn) second (List.mem_cons_of_mem _ secondIn)
        exact ⟨head :: kept, bind_eq_ok.mpr ⟨kept, continued, rfl⟩⟩
  cases packages with
  | nil => exact ⟨[], rfl⟩
  | cons head rest =>
    obtain ⟨kept, continued⟩ := after rest head agree
    exact ⟨head :: kept, bind_eq_ok.mpr ⟨kept, continued, rfl⟩⟩

/-- Packages in strict order of their identities. -/
theorem identities_strict {packages : List LockedPackage}
    (sorted : packages.Pairwise (fun left right =>
      (compareIdentities left.identity right.identity).isLE = true))
    (apart : packages.IsChain (fun first second => ¬ Same first.identity second.identity)) :
    packages.Pairwise (fun left right => compareIdentities left.identity right.identity = .lt) := by
  have transitive : IsTrans LockedPackage (fun left right =>
      compareIdentities left.identity right.identity = .lt) :=
    ⟨fun _ _ _ first second => Std.TransCmp.lt_trans first second⟩
  refine (Sorting.isChain_of_both sorted.isChain apart ?_).pairwise
  intro left right below differs
  cases relation : compareIdentities left.identity right.identity with
  | lt => rfl
  | eq => exact absurd (compareIdentities_eq_iff.mp relation) differs
  | gt => rw [relation] at below; cases below

/-- Packages that are deduplicated are the same when they are of one identity. -/
theorem same_of_uniquePackages {packages kept : List LockedPackage}
    (accepted : uniquePackages (sortPackages packages) = .ok kept) {first second : LockedPackage}
    (firstIn : first ∈ packages) (secondIn : second ∈ packages)
    (identities : Same first.identity second.identity) : Same first second := by
  obtain ⟨part, apart⟩ := uniquePackages_spec accepted
  have sorted := (Sorting.sortBy_pairwise (fun left right : LockedPackage =>
    compareIdentities left.identity right.identity) packages).sublist part
  have strict := identities_strict sorted apart
  obtain ⟨one, oneIn, oneSame⟩ :=
    uniquePackages_represents accepted (Sorting.mem_sortBy.mpr firstIn)
  obtain ⟨two, twoIn, twoSame⟩ :=
    uniquePackages_represents accepted (Sorting.mem_sortBy.mpr secondIn)
  have equal : compareIdentities one.identity two.identity = .eq := by
    refine compareIdentities_eq_iff.mpr ?_
    exact ((LockedPackage.same_iff.mp oneSame).1.trans identities).trans
      (LockedPackage.same_iff.mp twoSame).1.symm
  obtain rfl := Sorting.eq_of_strict strict oneIn twoIn equal
  exact oneSame.symm.trans twoSame

/-- Packages of which those of one name are of one identity pass the check of names. -/
theorem ensureInstalledNames_of_agree {packages : List LockedPackage}
    (agree : ∀ first ∈ packages, ∀ second ∈ packages, first.name = second.name →
      Same first.identity second.identity) : ensureInstalledNames packages = .ok () := by
  suffices general : ∀ (rest seen : List LockedPackage),
      (∀ first ∈ seen ++ rest, ∀ second ∈ seen ++ rest, first.name = second.name →
        Same first.identity second.identity) → ensureInstalledNamesFrom seen rest = .ok () from
    general packages [] agree
  intro rest
  induction rest with
  | nil => exact fun _ _ => rfl
  | cons package rest ih =>
    intro seen agree
    have continued := ih (package :: seen) fun first firstIn second secondIn =>
      agree first (by simp at firstIn ⊢; tauto) second (by simp at secondIn ⊢; tauto)
    rw [ensureInstalledNamesFrom]
    split
    · next previous found =>
      have named : previous.name = package.name := by simpa using List.find?_some found
      have same := agree previous (List.mem_append_left _ (List.mem_of_find?_eq_some found))
        package (by simp) named
      exact bind_eq_ok.mpr ⟨(), ensure_of same, continued⟩
    · exact continued

/-- The packages of a built lock. -/
structure NormalPackages (packages : List LockedPackage) : Prop where
  /-- Every package is normal. -/
  normal : ∀ package ∈ packages, package.Normal
  /-- The packages are sorted. -/
  sorted : packages.Pairwise (fun left right =>
    (compareIdentities left.identity right.identity).isLE = true)
  /-- No neighbours are of one identity. -/
  apart : packages.IsChain (fun first second => ¬ Same first.identity second.identity)
  /-- Packages of one name are of one identity. -/
  installed : ensureInstalledNames packages = .ok ()
  /-- Every edge ends at a package. -/
  exist : ensureDependenciesExist packages = .ok ()

/-- Normalized packages are normal. -/
theorem NormalPackages.of_normalizeContents {packages normalized : List LockedPackage}
    (accepted : normalizeContents packages = .ok normalized) : NormalPackages normalized := by
  obtain ⟨each, mapped, accepted⟩ := bind_eq_ok.mp accepted
  obtain ⟨unique, kept, accepted⟩ := bind_eq_ok.mp accepted
  obtain ⟨_, installed, accepted⟩ := bind_eq_ok.mp accepted
  obtain ⟨_, exist, finished⟩ := bind_eq_ok.mp accepted
  obtain rfl : unique = normalized := Except.ok.inj finished
  obtain ⟨part, apart⟩ := uniquePackages_spec kept
  refine ⟨fun package member => ?_, ?_, apart, installed, exist⟩
  · have eachIn : package ∈ each := Sorting.mem_sortBy.mp (part.mem member)
    obtain ⟨source, _, accepted⟩ := (mem_of_mapM_eq_ok mapped).mp eachIn
    exact LockedPackage.Normal.of_normalizePackage accepted
  · exact (Sorting.sortBy_pairwise (fun left right : LockedPackage =>
      compareIdentities left.identity right.identity) each).sublist part

/-- Normal packages are normalized to themselves. -/
theorem NormalPackages.normalizeContents {packages : List LockedPackage}
    (normal : NormalPackages packages) : normalizeContents packages = .ok packages := by
  have mapped : packages.mapM normalizePackage = .ok packages := by
    refine mapM_eq_ok.mpr (List.forall₂_same.mpr fun package member => ?_)
    exact (normal.normal package member).normalizePackage
  have sorted : sortPackages packages = packages := Sorting.sortBy_eq_self normal.sorted
  rw [Rsolve.normalizeContents, mapped, ok_bind, sorted, uniquePackages_of_apart normal.apart,
    ok_bind, normal.installed, ok_bind, normal.exist]
  rfl

/-- Packages that are sorted already are normalized to themselves or not at all. -/
theorem normalizeContents_of_sorted {packages normalized : List LockedPackage}
    (edges : ∀ package ∈ packages,
      package.dependencies.Pairwise (fun left right => compareEdges left right = .lt))
    (sorted : packages.Pairwise (fun left right =>
      (compareIdentities left.identity right.identity).isLE = true))
    (apart : packages.IsChain (fun first second => ¬ Same first.identity second.identity))
    (accepted : normalizeContents packages = .ok normalized) : normalized = packages := by
  obtain ⟨each, mapped, continued⟩ := bind_eq_ok.mp accepted
  have unchanged : each = packages := by
    have related := mapM_eq_ok.mp mapped
    clear mapped accepted continued sorted apart
    induction related with
    | nil => rfl
    | @cons package other _ _ normalizes _ ih =>
      obtain ⟨_, _, rfl⟩ := normalizePackage_eq_ok.mp normalizes
      rw [canonicalizeDependencyEdges_of_strict (edges package List.mem_cons_self),
        ih fun package member => edges package (List.mem_cons_of_mem _ member)]
  rw [unchanged, show sortPackages packages = packages from Sorting.sortBy_eq_self sorted,
    uniquePackages_of_apart apart, ok_bind] at continued
  obtain ⟨_, _, continued⟩ := bind_eq_ok.mp continued
  obtain ⟨_, _, finished⟩ := bind_eq_ok.mp continued
  exact (Except.ok.inj finished).symm

/-- A canonical constraint is canonical. -/
@[simp]
theorem canonicalizeConstraint_idem (constraint : VersionConstraint) :
    canonicalizeConstraint (canonicalizeConstraint constraint) =
      canonicalizeConstraint constraint := by
  simp only [canonicalizeConstraint, canonicalClauses_eq]
  rw [Sorting.canonical_eq_self _ _ (Sorting.canonical_strict compareClauses compareClauseSpelling
    constraint.clauses)]

/-- Neighbours of different identities agree. -/
theorem neighboursAgree_of_apart {packages : List LockedPackage}
    (apart : packages.IsChain (fun first second => ¬ Same first.identity second.identity)) :
    neighboursAgree packages = .ok () := by
  induction packages with
  | nil => rfl
  | cons first rest ih =>
    cases rest with
    | nil => rfl
    | cons second rest =>
      rw [List.isChain_cons_cons] at apart
      rw [neighboursAgree, ensure_of fun same => absurd same apart.1, ok_bind]
      exact ih apart.2

/-- A lock of normal packages is valid exactly when its target satisfies its constraint. -/
theorem NormalPackages.validate_iff {lock : Lockfile}
    (normal : NormalPackages lock.resolution.packages) :
    lock.validate = .ok () ↔
      lock.rRequirement.satisfies lock.resolution.target.rVersion = true := by
  have sorted : sortPackages lock.resolution.packages = lock.resolution.packages :=
    Sorting.sortBy_eq_self normal.sorted
  have each : (lock.resolution.packages.forM fun package => do
      package.validate
      validateVisibleRepositoryIds package) = .ok () := by
    refine forM_eq_ok.mpr fun package member => ?_
    have packageNormal := normal.normal package member
    rw [packageNormal.valid, ok_bind]
    exact validateVisibleRepositoryIds_eq_ok.mpr packageNormal.visible
  constructor
  · intro valid
    obtain ⟨_, satisfied, _⟩ := bind_eq_ok.mp valid
    exact ensure_eq_ok.mp satisfied
  · intro satisfied
    simp only [Lockfile.validate, sorted]
    rw [ensure_of satisfied, ok_bind, each, ok_bind, neighboursAgree_of_apart normal.apart,
      ok_bind, normal.installed, ok_bind, normal.exist]

/-- Normal packages are canonical. -/
theorem NormalPackages.canonical {packages : List LockedPackage} (normal : NormalPackages packages) :
    validateCanonicalResolution packages = .ok () := by
  have sorted : sortPackages packages = packages := Sorting.sortBy_eq_self normal.sorted
  have edges : ∀ package ∈ packages, package.dependencies.IsChain
      (fun first second => compareEdges first second = .lt) :=
    fun package member => (normal.normal package member).edges.isChain
  rw [validateCanonicalResolution, ensure_of (Same.of_eq sorted), ok_bind,
    ensure_of normal.apart, ok_bind, ensure_of edges]

namespace Lockfile

/-- A built lock has normal packages and a canonical constraint, and it is valid. -/
structure Built (lock : Lockfile) : Prop where
  /-- The packages are normal. -/
  packages : NormalPackages lock.resolution.packages
  /-- The constraint is canonical. -/
  requirement : canonicalizeConstraint lock.rRequirement = lock.rRequirement
  /-- The lock is valid. -/
  valid : lock.validate = .ok ()

/-- What `new` returns is built. -/
theorem Built.of_new {resolutionIntentSha256 : Sha256Digest} {rRequirement : VersionConstraint}
    {resolution : LockedResolution} {lock : Lockfile}
    (accepted : new resolutionIntentSha256 rRequirement resolution = .ok lock) : lock.Built := by
  obtain ⟨packages, normalized, accepted⟩ := bind_eq_ok.mp accepted
  obtain ⟨_, valid, finished⟩ := bind_eq_ok.mp accepted
  obtain rfl := Except.ok.inj finished
  exact ⟨NormalPackages.of_normalizeContents normalized, canonicalizeConstraint_idem rRequirement,
    valid⟩

/-- A built lock is rebuilt as it is. -/
theorem Built.new_eq {lock : Lockfile} (built : lock.Built) :
    new lock.resolutionIntentSha256 lock.rRequirement lock.resolution = .ok lock := by
  rw [new, built.packages.normalizeContents, ok_bind, built.requirement]
  exact bind_eq_ok.mpr ⟨(), built.valid, rfl⟩

end Lockfile

end Rsolve
