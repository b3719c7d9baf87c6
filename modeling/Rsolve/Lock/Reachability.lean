import Rsolve.Lock.Consume

/-!
# A consumed lock is the closure of its roots

A valid canonical lock has one package of every name, so looking packages up by name follows the
dependency edges. The marks left by the roots are then the names of the packages they reach, and
consuming a lock refuses a package exactly when it is not reached.
-/
open Keyed Checked Traversal

namespace Rsolve

/-- Looking a name up finds a package of that name. -/
theorem byName_eq_some {packages : List LockedPackage} {name : PackageName}
    {package : LockedPackage} (found : byName packages name = some package) :
    package ∈ packages ∧ package.name = name := by
  refine ⟨List.mem_reverse.mp (List.mem_of_find?_eq_some found), ?_⟩
  simpa using List.find?_some found

/-- A name that some package has is found. -/
theorem exists_byName {packages : List LockedPackage} {package : LockedPackage}
    (member : package ∈ packages) : ∃ found, byName packages package.name = some found := by
  cases looked : byName packages package.name with
  | none =>
    have missing := List.find?_eq_none.mp looked package (List.mem_reverse.mpr member)
    simp at missing
  | some found => exact ⟨found, rfl⟩

/-- A child of the walk is the package that an edge names. -/
theorem child_dependencyPackages {packages : List LockedPackage} {parent child : LockedPackage} :
    Child (dependencyPackages packages) parent child ↔
      ∃ edge ∈ parent.dependencies, byName packages edge.package = some child := by
  simp only [Child, dependencyPackages, List.mem_map]
  constructor
  · rintro ⟨edge, member, leads⟩
    split at leads
    · next found looked => exact ⟨edge, member, by rw [looked, Except.ok.inj leads]⟩
    · cases leads
  · rintro ⟨edge, member, looked⟩
    exact ⟨edge, member, by rw [looked]⟩

/-- An error of the walk is an edge to a name that no package has. -/
theorem error_mem_dependencyPackages {packages : List LockedPackage} {parent : LockedPackage}
    {cause : LockError} (member : .error cause ∈ dependencyPackages packages parent) :
    ∃ edge ∈ parent.dependencies, byName packages edge.package = none := by
  simp only [dependencyPackages, List.mem_map] at member
  obtain ⟨edge, edgeIn, leads⟩ := member
  split at leads
  · cases leads
  · next looked => exact ⟨edge, edgeIn, looked⟩

/-- The packages that are found under their own names are told apart by these. -/
theorem indexed_byName (packages : List LockedPackage) :
    Indexed LockedPackage.name (dependencyPackages packages)
      (fun package => byName packages package.name = some package) where
  unique first second firstFound secondFound same := by
    rw [same, secondFound] at firstFound
    exact (Option.some.inj firstFound).symm
  child parent child _ edge := by
    obtain ⟨named, _, looked⟩ := child_dependencyPackages.mp edge
    rw [(byName_eq_some looked).2, looked]

/-- `mark_reachable` ends on every list of packages. -/
theorem markReachable_ends (packages : List LockedPackage) (reachable : List PackageName)
    {package : LockedPackage} (found : byName packages package.name = some package) :
    ∃ result, markReachable packages reachable package = some result := by
  have bounded : unmarked (packages.map LockedPackage.name) reachable < packages.length + 1 := by
    have filtered := List.length_filter_le (fun name => decide (name ∉ reachable))
      (packages.map LockedPackage.name)
    rw [List.length_map] at filtered
    unfold unmarked
    omega
  refine visit_ends (indexed_byName packages) (fun parent valid => ?_) found bounded
  exact List.mem_map_of_mem (byName_eq_some valid).1

section Names

/-- A package that is let in agrees with every earlier one of its name. -/
theorem ensureInstalledNamesFrom_cons {seen rest : List LockedPackage} {package : LockedPackage}
    (agree : ∀ first ∈ seen, ∀ second ∈ seen, first.name = second.name →
      Same first.identity second.identity)
    (checked : ensureInstalledNamesFrom seen (package :: rest) = .ok ()) :
    (∀ other ∈ seen, other.name = package.name → Same other.identity package.identity) ∧
      ensureInstalledNamesFrom (package :: seen) rest = .ok () := by
  simp only [ensureInstalledNamesFrom] at checked
  split at checked
  · next previous found =>
    obtain ⟨_, same, continued⟩ := bind_eq_ok.mp checked
    refine ⟨fun other member named => ?_, continued⟩
    have previousIn := List.mem_of_find?_eq_some found
    have previousNamed : previous.name = package.name := by simpa using List.find?_some found
    exact (agree other member previous previousIn (named.trans previousNamed.symm)).trans
      (ensure_eq_ok.mp same)
  · next missing =>
    refine ⟨fun other member named => ?_, checked⟩
    have differs := List.find?_eq_none.mp missing other member
    simp [named] at differs

/-- Packages of one name are of one identity. -/
theorem ensureInstalledNamesFrom_agree {seen packages : List LockedPackage}
    (checked : ensureInstalledNamesFrom seen packages = .ok ())
    (agree : ∀ first ∈ seen, ∀ second ∈ seen, first.name = second.name →
      Same first.identity second.identity) :
    ∀ first ∈ packages.reverse ++ seen, ∀ second ∈ packages.reverse ++ seen,
      first.name = second.name → Same first.identity second.identity := by
  induction packages generalizing seen with
  | nil => simpa using agree
  | cons package rest ih =>
    obtain ⟨joins, continued⟩ := ensureInstalledNamesFrom_cons agree checked
    have extended := ih continued (by
      intro first firstIn second secondIn same
      rcases List.mem_cons.mp firstIn with rfl | early
      · rcases List.mem_cons.mp secondIn with rfl | late
        · exact Same.refl _
        · exact (joins second late same.symm).symm
      · rcases List.mem_cons.mp secondIn with rfl | late
        · exact joins first early same
        · exact agree first early second late same)
    simpa [List.append_assoc] using extended

/-- Packages of one name are of one identity. -/
theorem ensureInstalledNames_agree {packages : List LockedPackage}
    (checked : ensureInstalledNames packages = .ok ()) :
    ∀ first ∈ packages, ∀ second ∈ packages, first.name = second.name →
      Same first.identity second.identity := by
  have agree := ensureInstalledNamesFrom_agree checked (by simp)
  simpa using agree

/-- The representative of a package has its name. -/
@[simp]
theorem LockedPackage.name_representative (package : LockedPackage) :
    (representative package).name = package.name :=
  rfl

/-- Sorted packages are in the order of their names. -/
theorem sortPackages_names (packages : List LockedPackage) :
    (sortPackages packages).Pairwise (fun first second =>
      (compare first.name second.name).isLE = true) := by
  have lawful : Std.TransCmp (fun left right : LockedPackage =>
      compareIdentities left.identity right.identity) :=
    { eq_swap := Std.OrientedCmp.eq_swap
      isLE_trans := Std.TransCmp.isLE_trans }
  refine (Sorting.sortBy_pairwise _ packages).imp (fun {first second} ordered => ?_)
  rw [compareIdentities] at ordered
  change ((compare first.name second.name).then _).isLE = true at ordered
  cases named : compare first.name second.name with
  | lt => rfl
  | eq => rfl
  | gt => rw [named] at ordered; cases ordered

/-- A list that is the same as its sorted list is in the order of its names. -/
theorem names_pairwise_of_canonical {packages : List LockedPackage}
    (sorted : Same (sortPackages packages) packages) :
    (packages.map LockedPackage.name).Pairwise (fun first second =>
      (compare first second).isLE = true) := by
  have names : (sortPackages packages).map LockedPackage.name =
      packages.map LockedPackage.name := by
    have mapped : ((sortPackages packages).map representative).map LockedPackage.name =
        (packages.map representative).map LockedPackage.name :=
      congrArg (List.map LockedPackage.name) sorted
    rw [List.map_map, List.map_map] at mapped
    exact mapped
  rw [← names, List.pairwise_map]
  exact sortPackages_names packages

/-- A canonical list whose packages of one name are of one identity has one package of every
name. -/
theorem names_strict_of_canonical {packages : List LockedPackage}
    (sorted : Same (sortPackages packages) packages)
    (apart : packages.IsChain (fun first second => ¬ Same first.identity second.identity))
    (agree : ∀ first ∈ packages, ∀ second ∈ packages, first.name = second.name →
      Same first.identity second.identity) :
    packages.Pairwise (fun first second => compare first.name second.name = .lt) := by
  have ordered := (List.pairwise_map.mp (names_pairwise_of_canonical sorted)).isChain
  have transitive : IsTrans LockedPackage
      (fun first second => compare first.name second.name = .lt) :=
    ⟨fun _ _ _ first second => Std.TransCmp.lt_trans first second⟩
  refine List.isChain_iff_pairwise.mp ?_
  clear sorted
  induction packages with
  | nil => exact .nil
  | cons first rest ih =>
    cases rest with
    | nil => exact .singleton first
    | cons second rest =>
      rw [List.isChain_cons_cons] at ordered apart ⊢
      refine ⟨?_, ih apart.2 (fun one oneIn two twoIn => agree one (List.mem_cons_of_mem _ oneIn)
        two (List.mem_cons_of_mem _ twoIn)) ordered.2⟩
      cases named : compare first.name second.name with
      | lt => rfl
      | eq =>
        have same := agree first List.mem_cons_self second (by simp)
          (PackageName.eq_of_compare_eq named)
        exact absurd same apart.1
      | gt => rw [named] at ordered; exact absurd ordered.1 (by decide)

end Names

/-- What the walk needs of a lock: every package is found under its name, and so is the package of
every edge. -/
structure Closed (packages : List LockedPackage) : Prop where
  /-- A name has one package. -/
  found : ∀ package ∈ packages, byName packages package.name = some package
  /-- An edge ends at a package. -/
  edges : ∀ package ∈ packages, ∀ edge ∈ package.dependencies,
    ∃ child ∈ packages, child.name = edge.package

/-- A valid canonical lock is closed. -/
theorem Closed.of_checked {lock : Lockfile} (valid : lock.validate = .ok ())
    (canonical : validateCanonicalResolution lock.resolution.packages = .ok ()) :
    Closed lock.resolution.packages := by
  obtain ⟨_, _, valid⟩ := bind_eq_ok.mp valid
  obtain ⟨_, _, valid⟩ := bind_eq_ok.mp valid
  obtain ⟨_, _, valid⟩ := bind_eq_ok.mp valid
  obtain ⟨_, installed, exist⟩ := bind_eq_ok.mp valid
  obtain ⟨_, sorted, canonical⟩ := bind_eq_ok.mp canonical
  obtain ⟨_, apart, _⟩ := bind_eq_ok.mp canonical
  have agree := ensureInstalledNames_agree installed
  simp only [sortPackages, Sorting.mem_sortBy] at agree
  have strict := names_strict_of_canonical (ensure_eq_ok.mp sorted) (ensure_eq_ok.mp apart) agree
  refine ⟨fun package member => ?_, fun package member edge edgeIn => ?_⟩
  · obtain ⟨found, looked⟩ := exists_byName member
    obtain ⟨foundIn, named⟩ := byName_eq_some looked
    have distinct : (lock.resolution.packages.map LockedPackage.name).Nodup := by
      rw [List.Nodup, List.pairwise_map]
      refine strict.imp fun ordered same => ?_
      exact Ordering.noConfusion (ordered.symm.trans (Std.LawfulEqOrd.compare_eq_iff_eq.mpr same))
    rw [looked, List.inj_on_of_nodup_map distinct foundIn member named]
  · have ended := forM_eq_ok.mp exist package (by simpa [sortPackages] using member)
    have listed := ensure_eq_ok.mp (forM_eq_ok.mp ended edge edgeIn)
    simpa [sortPackages] using listed

variable {packages : List LockedPackage}

/-- In a closed list the walk follows the dependency edges. -/
theorem Closed.child_eq (closed : Closed packages) :
    Child (dependencyPackages packages) = DependsOn packages := by
  funext parent child
  apply propext
  rw [child_dependencyPackages]
  constructor
  · rintro ⟨edge, member, looked⟩
    obtain ⟨childIn, named⟩ := byName_eq_some looked
    exact ⟨childIn, edge, member, named.symm⟩
  · rintro ⟨childIn, edge, member, named⟩
    exact ⟨edge, member, by rw [named, closed.found child childIn]⟩

/-- In a closed list the walk meets no error. -/
theorem Closed.markReachable_ne_error (closed : Closed packages) {reachable : List PackageName}
    {package : LockedPackage} (found : byName packages package.name = some package)
    (cause : LockError) : markReachable packages reachable package ≠ some (.error cause) := by
  intro failed
  obtain ⟨parent, valid, member⟩ := visit_error (indexed_byName packages) found failed
  obtain ⟨edge, edgeIn, missing⟩ := error_mem_dependencyPackages member
  obtain ⟨child, childIn, named⟩ := closed.edges parent (byName_eq_some valid).1 edge edgeIn
  rw [← named, closed.found child childIn] at missing
  cases missing

/-- A root leads to the package of its name, which satisfies it. -/
theorem RootCheck.locate_eq_ok {root : RootCheck} {package : LockedPackage}
    (located : root.locate packages = .ok package) :
    byName packages root.name = some package ∧
      root.constraint.satisfies package.version = true := by
  unfold RootCheck.locate at located
  split at located
  · cases located
  · next found looked =>
    obtain ⟨_, satisfied, located⟩ := bind_eq_ok.mp located
    obtain ⟨_, _, located⟩ := bind_eq_ok.mp located
    obtain rfl : found = package := by simpa [pure, Except.pure] using located
    exact ⟨looked, ensure_eq_ok.mp satisfied⟩

/-- A root that leads to a package is not provided by R. -/
theorem RootCheck.start_eq_ok {root : RootCheck} {resolution : LockedResolution}
    {package : LockedPackage} (starts : root.start resolution = some (.ok package)) :
    root.skipped = false ∧ root.locate resolution.packages = .ok package := by
  unfold RootCheck.start at starts
  split at starts
  · split at starts
    · cases starts
    · cases starts
  · next provided => exact ⟨by simpa using provided, by simpa using starts⟩

/-- A root of the first kind is satisfied by R; one of the second kind has its package, at a
satisfying version and visible in its repository. -/
structure RootCheck.Passes (root : RootCheck) (resolution : LockedResolution) : Prop where
  /-- R satisfies a root that it provides. -/
  provided : root.skipped = true → root.constraint.satisfies resolution.target.rVersion = true
  /-- The package of any other root satisfies it. -/
  looked : root.skipped = false → ∃ package, byName resolution.packages root.name = some package ∧
    root.constraint.satisfies package.version = true ∧
    ∀ repository, root.repository = some repository → repository ∈ package.visibleRepositoryIds

/-- A root passes exactly when it leads to no error. -/
theorem RootCheck.start_ne_error_iff {root : RootCheck} {resolution : LockedResolution} :
    (∀ cause, root.start resolution ≠ some (.error cause)) ↔ root.Passes resolution := by
  unfold RootCheck.start
  by_cases skipped : root.skipped = true
  · rw [if_pos skipped]
    by_cases satisfied : root.constraint.satisfies resolution.target.rVersion = true
    · rw [if_pos satisfied]
      exact iff_of_true (by simp) ⟨fun _ => satisfied, fun other => by simp [skipped] at other⟩
    · rw [if_neg satisfied]
      exact iff_of_false (fun passes => passes _ rfl) fun passes => satisfied (passes.provided skipped)
  · rw [if_neg skipped]
    have looked : root.skipped = false := by simpa using skipped
    have located : (∀ cause, root.locate resolution.packages ≠ .error cause) ↔
        ∃ package, byName resolution.packages root.name = some package ∧
          root.constraint.satisfies package.version = true ∧
          ∀ repository, root.repository = some repository →
            repository ∈ package.visibleRepositoryIds := by
      unfold RootCheck.locate
      split
      · next missing => simp [missing]
      · next package found =>
        simp only [found, Option.some.injEq, exists_eq_left', RootCheck.visibleIn]
        constructor
        · intro passes
          by_cases satisfied : root.constraint.satisfies package.version = true
          · refine ⟨satisfied, fun repository named => ?_⟩
            by_contra hidden
            refine passes (.rootRepositoryNotVisible root.name.text repository.text) ?_
            rw [ensure_of satisfied, ok_bind, named]
            simp [hidden, ensure_of_not]
          · exact absurd (by rw [ensure_of_not satisfied]; rfl)
              (passes (.directRootVersionMismatch root.name.text))
        · rintro ⟨satisfied, visible⟩ cause failed
          rw [ensure_of satisfied, ok_bind] at failed
          cases named : root.repository with
          | none => rw [named] at failed; cases failed
          | some repository =>
            rw [named] at failed
            simp [visible repository named, ensure_of, pure, Except.pure] at failed
    rw [show (∀ cause, some (root.locate resolution.packages) ≠ some (.error cause)) ↔
      ∀ cause, root.locate resolution.packages ≠ .error cause from by simp, located]
    exact ⟨fun passes => ⟨fun other => absurd other skipped, fun _ => passes⟩,
      fun passes => passes.looked looked⟩

/-- A root that is not provided by R is looked up. -/
theorem RootCheck.start_of_not_skipped {root : RootCheck} {resolution : LockedResolution}
    (looked : root.skipped = false) :
    root.start resolution = some (root.locate resolution.packages) := by
  simp [RootCheck.start, looked]

namespace Lockfile

variable {lock : Lockfile} {roots : List RootCheck} {reachable : List PackageName}

/-- A package that a root leads to is the package of its name. -/
theorem start_found {child : LockedPackage}
    (member : .ok child ∈ roots.filterMap (fun root => root.start lock.resolution)) :
    byName lock.resolution.packages child.name = some child ∧
      ∃ root ∈ roots, root.skipped = false ∧ root.name = child.name := by
  obtain ⟨root, rootIn, starts⟩ := List.mem_filterMap.mp member
  obtain ⟨provided, located⟩ := RootCheck.start_eq_ok starts
  have looked := (RootCheck.locate_eq_ok located).1
  have named := (byName_eq_some looked).2
  exact ⟨by rw [named, looked], root, rootIn, provided, named.symm⟩

/-- The loop over the roots ends. -/
theorem markRoots_ends (lock : Lockfile) (roots : List RootCheck) :
    ∃ result, lock.markRoots roots = some result := by
  refine visitEach_ends (fun marked child member (_ : True) => ?_) trivial
  obtain ⟨result, ended⟩ :=
    markReachable_ends lock.resolution.packages marked (start_found member).1
  exact ⟨result, ended, fun _ _ => trivial⟩

/-- An error of the loop over the roots is the error of one of them. -/
theorem markRoots_error (closed : Closed lock.resolution.packages) {cause : LockError}
    (failed : lock.markRoots roots = some (.error cause)) :
    ∃ root ∈ roots, root.start lock.resolution = some (.error cause) := by
  rcases visitEach_error failed with member | ⟨marked, child, member, stepped⟩
  · exact List.mem_filterMap.mp member
  · exact absurd stepped (closed.markReachable_ne_error (start_found member).1 cause)

/-- Roots that leave marks met no error. -/
theorem markRoots_start_ne_error (marked : lock.markRoots roots = some (.ok reachable)) :
    ∀ root ∈ roots, ∀ cause, root.start lock.resolution ≠ some (.error cause) := by
  intro root member cause failed
  have indexed := indexed_byName lock.resolution.packages
  obtain ⟨_, visited⟩ := visitEach_covers
    (fun _ _ _ valid ran => visit_covers indexed valid ran)
    (fun child member => (start_found member).1) marked
  obtain ⟨package, located, _⟩ := visited _ (List.mem_filterMap.mpr ⟨root, member, failed⟩)
  cases located

/-- The loop over the roots covers what they lead to. -/
theorem markRoots_covers (marked : lock.markRoots roots = some (.ok reachable)) :
    Covers LockedPackage.name (dependencyPackages lock.resolution.packages)
        (fun package => byName lock.resolution.packages package.name = some package) [] reachable
        (fun found => ∃ child,
          .ok child ∈ roots.filterMap (fun root => root.start lock.resolution) ∧
          Relation.ReflTransGen (Child (dependencyPackages lock.resolution.packages)) child
            found) ∧
      ∀ root ∈ roots, root.skipped = false → ∃ package,
        root.locate lock.resolution.packages = .ok package ∧ package.name ∈ reachable := by
  have indexed := indexed_byName lock.resolution.packages
  obtain ⟨covers, visited⟩ := visitEach_covers
    (fun _ _ _ valid ran => visit_covers indexed valid ran)
    (fun child member => (start_found member).1) marked
  refine ⟨covers, fun root member provided => ?_⟩
  have item : root.locate lock.resolution.packages ∈
      roots.filterMap (fun root => root.start lock.resolution) := by
    refine List.mem_filterMap.mpr ⟨root, member, ?_⟩
    exact RootCheck.start_of_not_skipped provided
  obtain ⟨package, located, mark⟩ := visited _ item
  exact ⟨package, located, mark⟩

/-- Every root that is looked up was found at a satisfying version. -/
theorem markRoots_located (marked : lock.markRoots roots = some (.ok reachable)) {root : RootCheck}
    (member : root ∈ roots) (provided : root.skipped = false) :
    ∃ package ∈ lock.resolution.packages,
      package.name = root.name ∧ root.constraint.satisfies package.version = true := by
  obtain ⟨package, located, _⟩ := (markRoots_covers marked).2 root member provided
  obtain ⟨looked, satisfied⟩ := RootCheck.locate_eq_ok located
  obtain ⟨packageIn, named⟩ := byName_eq_some looked
  exact ⟨package, packageIn, named, satisfied⟩

/-- The marks left by the roots are the names of the packages they reach. -/
theorem markRoots_marks (closed : Closed lock.resolution.packages)
    (marked : lock.markRoots roots = some (.ok reachable)) {package : LockedPackage}
    (member : package ∈ lock.resolution.packages) :
    package.name ∈ reachable ↔ Reachable lock.resolution.packages roots package := by
  have indexed := indexed_byName lock.resolution.packages
  obtain ⟨covers, located⟩ := markRoots_covers marked
  constructor
  · intro mark
    rcases covers.sound _ mark with old | ⟨found, ⟨start, startIn, path⟩, named⟩
    · exact absurd old List.not_mem_nil
    · obtain ⟨startFound, root⟩ := start_found startIn
      obtain rfl : found = package := indexed.unique found package
        (indexed.path startFound path) (closed.found package member) named
      rw [closed.child_eq] at path
      exact ⟨start, (byName_eq_some startFound).1, root, path⟩
  · rintro ⟨start, startIn, ⟨root, rootIn, provided, named⟩, path⟩
    obtain ⟨found, ok, mark⟩ := located root rootIn provided
    have foundNamed := (byName_eq_some (RootCheck.locate_eq_ok ok).1).2
    rw [foundNamed, named] at mark
    rw [← closed.child_eq] at path
    exact covers.mem_of_path indexed (closed.found start startIn) mark path

variable {target : ResolutionTarget} {environment : EnvironmentId}
  {rRequirement : VersionConstraint} {configuredRepositories : Option (List RepositorySpec)}

/-- A lock that passes the checks before the roots is closed. -/
theorem closed_of_checkRequest
    (checked : lock.checkRequest target environment rRequirement configuredRepositories = .ok ()) :
    Closed lock.resolution.packages := by
  obtain ⟨_, valid, checked⟩ := bind_eq_ok.mp checked
  obtain ⟨_, canonical, _⟩ := bind_eq_ok.mp checked
  exact Closed.of_checked valid canonical

/-- The last loop passes exactly when every package is marked and can be acquired. -/
theorem checkReached_eq_ok :
    lock.checkReached roots configuredRepositories reachable = .ok () ↔
      ∀ package ∈ lock.resolution.packages, package.name ∈ reachable ∧
        acquirable roots configuredRepositories package = true := by
  rw [checkReached, forM_eq_ok]
  refine forall₂_congr fun package _ => ?_
  simp [bind_eq_ok]

/-- The checks of `consume_roots` other than reachability. -/
structure OtherChecks (lock : Lockfile) (target : ResolutionTarget) (environment : EnvironmentId)
    (rRequirement : VersionConstraint) (roots : List RootCheck)
    (configuredRepositories : Option (List RepositorySpec)) : Prop where
  /-- The lock is valid and canonical and fits the request and the configured repositories. -/
  request : lock.checkRequest target environment rRequirement configuredRepositories = .ok ()
  /-- No root is missing, at a version that does not satisfy it, or hidden from its repository. -/
  located : ∀ root ∈ roots, ∀ cause, root.start lock.resolution ≠ some (.error cause)
  /-- Every package can be acquired. -/
  acquired : ∀ package ∈ lock.resolution.packages,
    acquirable roots configuredRepositories package = true

/-- When the other checks pass, the roots leave marks. -/
theorem OtherChecks.exists_marks
    (others : OtherChecks lock target environment rRequirement roots configuredRepositories) :
    ∃ reachable, lock.markRoots roots = some (.ok reachable) := by
  obtain ⟨result, ended⟩ := markRoots_ends lock roots
  cases result with
  | ok reachable => exact ⟨reachable, ended⟩
  | error cause =>
    obtain ⟨root, member, failed⟩ := markRoots_error (closed_of_checkRequest others.request) ended
    exact absurd failed (others.located root member cause)

/-- A result of consuming a lock comes from the marks of its roots. -/
theorem consumeRoots_eq_ok {graph : ConsumedLockedGraph}
    (consumed : lock.consumeRoots target environment rRequirement roots configuredRepositories =
      some (.ok graph)) :
    lock.checkRequest target environment rRequirement configuredRepositories = .ok () ∧
      ∃ reachable, lock.markRoots roots = some (.ok reachable) ∧
        lock.checkReached roots configuredRepositories reachable = .ok () := by
  unfold consumeRoots at consumed
  split at consumed
  · cases consumed
  · next checked =>
    obtain ⟨marked, ended, finished⟩ := Option.map_eq_some_iff.mp consumed
    obtain ⟨reachable, rfl, continued⟩ := bind_eq_ok.mp finished
    obtain ⟨_, reached, _⟩ := bind_eq_ok.mp continued
    exact ⟨checked, reachable, ended, reached⟩

/-- When the other checks pass, the last loop decides. -/
theorem OtherChecks.consumeRoots_eq
    (others : OtherChecks lock target environment rRequirement roots configuredRepositories)
    (marked : lock.markRoots roots = some (.ok reachable)) :
    lock.consumeRoots target environment rRequirement roots configuredRepositories =
      some (lock.checkReached roots configuredRepositories reachable >>= fun _ =>
        .ok ⟨lock.resolution.target, lock.resolution.environment,
          lock.resolution.publicationCutoff, lock.resolution.packages⟩) := by
  simp only [consumeRoots, others.request, marked, Option.map_some]
  rfl

/-- When the other checks pass, consuming a lock fails for a package that is not reached exactly
when there is one. -/
theorem OtherChecks.unreachable_iff
    (others : OtherChecks lock target environment rRequirement roots configuredRepositories) :
    (∃ package, lock.consumeRoots target environment rRequirement roots configuredRepositories =
        some (.error (.unreachablePackage package))) ↔
      ∃ package ∈ lock.resolution.packages, ¬ Reachable lock.resolution.packages roots package := by
  have closed := closed_of_checkRequest others.request
  obtain ⟨reachable, marked⟩ := others.exists_marks
  rw [others.consumeRoots_eq marked]
  constructor
  · rintro ⟨name, failed⟩
    rcases bind_eq_error.mp (Option.some.inj failed) with stopped | ⟨_, _, impossible⟩
    · obtain ⟨package, member, stopped⟩ := exists_of_forM_eq_error stopped
      refine ⟨package, member, fun reached => ?_⟩
      have mark := (markRoots_marks closed marked member).mpr reached
      simp [mark, others.acquired package member, ensure_of] at stopped
    · cases impossible
  · rintro ⟨package, member, unreached⟩
    have unmarked : package.name ∉ reachable :=
      fun mark => unreached ((markRoots_marks closed marked member).mp mark)
    cases checked : lock.checkReached roots configuredRepositories reachable with
    | ok value => exact absurd (checkReached_eq_ok.mp checked package member).1 unmarked
    | error cause =>
      obtain ⟨stopped, stoppedIn, failed⟩ := exists_of_forM_eq_error checked
      rcases bind_eq_error.mp failed with missing | ⟨_, _, hidden⟩
      · exact ⟨stopped.name.text, by rw [← (ensure_eq_error.mp missing).2]; rfl⟩
      · exact absurd (others.acquired stopped stoppedIn) (ensure_eq_error.mp hidden).1

/-- Consuming a lock succeeds exactly when the other checks pass and everything is reached. -/
theorem consumeRoots_isOk_iff :
    (∃ graph, lock.consumeRoots target environment rRequirement roots configuredRepositories =
        some (.ok graph)) ↔
      OtherChecks lock target environment rRequirement roots configuredRepositories ∧
        ∀ package ∈ lock.resolution.packages, Reachable lock.resolution.packages roots package := by
  constructor
  · rintro ⟨graph, consumed⟩
    obtain ⟨checked, reachable, marked, reached⟩ := consumeRoots_eq_ok consumed
    have closed := closed_of_checkRequest checked
    refine ⟨⟨checked, ?_, fun package member => (checkReached_eq_ok.mp reached package member).2⟩,
      fun package member => (markRoots_marks closed marked member).mp
        (checkReached_eq_ok.mp reached package member).1⟩
    exact markRoots_start_ne_error marked
  · rintro ⟨others, reached⟩
    have closed := closed_of_checkRequest others.request
    obtain ⟨reachable, marked⟩ := others.exists_marks
    have finished : lock.checkReached roots configuredRepositories reachable = .ok () :=
      checkReached_eq_ok.mpr fun package member =>
        ⟨(markRoots_marks closed marked member).mpr (reached package member),
          others.acquired package member⟩
    rw [others.consumeRoots_eq marked, finished]
    exact ⟨_, rfl⟩

/-- Consuming a lock accepts exactly the closure of its roots: the walk ends, an accepted lock
holds every root at a satisfying version and nothing the roots do not reach, its edges end at its
packages, and when the other checks pass the lock is refused for an unreachable package exactly
when it has one. -/
theorem consumeRoots_accepts_closure (lock : Lockfile) (target : ResolutionTarget)
    (environment : EnvironmentId) (rRequirement : VersionConstraint) (roots : List RootCheck)
    (configuredRepositories : Option (List RepositorySpec)) :
    (∀ packages package reachable, byName packages package.name = some package →
      ∃ result, markReachable packages reachable package = some result) ∧
    (∃ outcome, lock.consumeRoots target environment rRequirement roots configuredRepositories =
      some outcome) ∧
    (∀ graph, lock.consumeRoots target environment rRequirement roots configuredRepositories =
        some (.ok graph) →
      (∀ root ∈ roots, (root.runtimeProvided && isRBaseName root.name) = false →
        ∃ package ∈ lock.resolution.packages, package.name = root.name ∧
          root.constraint.satisfies package.version = true) ∧
      (∀ package ∈ lock.resolution.packages,
        Reachable lock.resolution.packages roots package) ∧
      ∀ package ∈ lock.resolution.packages, ∀ edge ∈ package.dependencies,
        ∃ child ∈ lock.resolution.packages, child.name = edge.package) ∧
    (OtherChecks lock target environment rRequirement roots configuredRepositories →
      ((∃ package, lock.consumeRoots target environment rRequirement roots
          configuredRepositories = some (.error (.unreachablePackage package))) ↔
        ∃ package ∈ lock.resolution.packages,
          ¬ Reachable lock.resolution.packages roots package)) := by
  refine ⟨fun packages package reachable found => markReachable_ends packages reachable found,
    ?_, ?_, OtherChecks.unreachable_iff⟩
  · unfold consumeRoots
    split
    · exact ⟨_, rfl⟩
    · obtain ⟨result, ended⟩ := markRoots_ends lock roots
      exact ⟨_, by rw [ended]; rfl⟩
  · intro graph consumed
    obtain ⟨checked, reachable, marked, reached⟩ := consumeRoots_eq_ok consumed
    have closed := closed_of_checkRequest checked
    refine ⟨fun root member provided => markRoots_located marked member provided, ?_,
      closed.edges⟩
    intro package member
    exact (markRoots_marks closed marked member).mp (checkReached_eq_ok.mp reached package member).1

/-- A package that imports one that imports it back is consumed by a root on either of them, and
refused without roots. -/
theorem consumeRoots_accepts_closure_cycle :
    let alpha := Small.locked Small.alpha Small.newer [⟨.imports, Small.rcpp⟩]
    let rcpp := Small.locked Small.rcpp Small.newer [⟨.imports, Small.alpha⟩]
    let lock := Small.lockOf [rcpp, alpha]
    let root : RootCheck := ⟨Small.rcpp, .unconstrained, none, true, false⟩
    (∃ graph, lock.consumeRoots ⟨Small.newer⟩ Small.environment .unconstrained [root] none =
      some (.ok graph) ∧ Reachable lock.resolution.packages [root] alpha) ∧
    lock.consumeRoots ⟨Small.newer⟩ Small.environment .unconstrained [] none =
      some (.error (.unreachablePackage "Rcpp")) ∧
    ∃ package ∈ lock.resolution.packages, ¬ Reachable lock.resolution.packages [] package := by
  intro alpha rcpp lock root
  refine ⟨?_, ?_⟩
  · have run : lock.consumeRoots ⟨Small.newer⟩ Small.environment .unconstrained [root] none =
        some (.ok ⟨⟨Small.newer⟩, Small.environment, none, [rcpp, alpha]⟩) := by decide +kernel
    exact ⟨_, run, ((consumeRoots_accepts_closure lock ⟨Small.newer⟩ Small.environment
      .unconstrained [root] none).2.2.1 _ run).2.1 alpha (by decide +kernel)⟩
  · have others : OtherChecks lock ⟨Small.newer⟩ Small.environment .unconstrained [] none :=
      ⟨by decide +kernel, by simp, fun _ _ => rfl⟩
    have refused : lock.consumeRoots ⟨Small.newer⟩ Small.environment .unconstrained [] none =
        some (.error (.unreachablePackage "Rcpp")) := by decide +kernel
    exact ⟨refused, ((consumeRoots_accepts_closure lock ⟨Small.newer⟩ Small.environment
      .unconstrained [] none).2.2.2 others).mp ⟨_, refused⟩⟩

end Lockfile

end Rsolve
