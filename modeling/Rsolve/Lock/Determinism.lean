import Rsolve.Lock.Canonical
import Rsolve.Lock.Wire

/-!
# Equal locks and their texts

Equality of locks ignores the spelling of versions, and a lock prints its versions in a spelling
that depends on little else. It depends on one thing: a version of one component keeps it. Equal
locks are written alike exactly when they agree on which of their printed versions have one
component.
-/
open Keyed Checked

namespace Rsolve

/-- The printed clauses of two constraints agree on which versions have one component. -/
def VersionConstraint.Alike (left right : VersionConstraint) : Prop :=
  List.Forall₂ (fun first second => first.version.Bare ↔ second.version.Bare)
    (canonicalClauses left.clauses) (canonicalClauses right.clauses)

/-- Two packages agree on which of their printed versions have one component. -/
structure LockedPackage.Alike (left right : LockedPackage) : Prop where
  /-- The versions, when they are printed without a published spelling. -/
  version : left.publishedVersionSpelling = none → (left.version.Bare ↔ right.version.Bare)
  /-- The requested versions. -/
  requested : Option.Rel (fun first second => first.versionConstraint.Alike second.versionConstraint)
    left.requestedGitSource right.requestedGitSource

/-- Two locks agree on which of their printed versions have one component. -/
structure Lockfile.Alike (left right : Lockfile) : Prop where
  /-- The R versions. -/
  target : left.resolution.target.rVersion.Bare ↔ right.resolution.target.rVersion.Bare
  /-- The constraints on R. -/
  requirement : left.rRequirement.Alike right.rRequirement
  /-- The packages. -/
  packages : List.Forall₂ LockedPackage.Alike left.resolution.packages right.resolution.packages

/-- The text of a clause. -/
def clauseText (clause : VersionClause) : String :=
  rRequirementRelationTag clause.op ++ canonicalVersion clause.version

/-- A printed component sequence has digits and periods. -/
theorem mem_joinComponents {values : List Nat} {character : Char}
    (member : character ∈ (joinComponents values).toList) :
    character.isDigit = true ∨ character = '.' := by
  have characters : (joinComponents values).toList =
      ['.'].intercalate (values.map (Nat.toDigits 10)) := by
    simp [joinComponents, String.toList_intercalate, Function.comp_def, Nat.toList_repr]
  rw [characters] at member
  rcases Decimal.mem_intercalate member with period | ⟨part, partIn, digit⟩
  · exact .inr period
  · obtain ⟨value, _, rfl⟩ := List.mem_map.mp partIn
    exact .inl (Nat.isDigit_of_mem_toDigits (by decide) (by decide) digit)

/-- The text of a clause has no comma. -/
theorem comma_notMem_clauseText (clause : VersionClause) : ',' ∉ (clauseText clause).toList := by
  intro member
  rw [clauseText, String.toList_append, List.mem_append] at member
  rcases member with tag | version
  · cases op : clause.op <;> rw [op] at tag <;> revert tag <;> decide
  · rcases mem_joinComponents version with digit | period
    · revert digit
      decide
    · revert period
      decide

/-- Clauses that are joined are split at the commas. -/
theorem splitOnP_joined {clauses : List VersionClause} (some : clauses ≠ []) :
    (String.intercalate "," (clauses.map clauseText)).toList.splitOnP (· == ',') =
      clauses.map (fun clause => (clauseText clause).toList) := by
  rw [String.toList_intercalate, List.map_map]
  refine Decimal.splitOnP_intercalate _ ',' rfl (by simpa using some) ?_
  intro part partIn character characterIn
  obtain ⟨clause, _, rfl⟩ := List.mem_map.mp partIn
  have differs : character ≠ ',' := by
    rintro rfl
    exact comma_notMem_clauseText clause characterIn
  simpa using differs

/-- Clauses that are joined are told apart by their texts. -/
theorem clauseTexts_of_joined {left right : List VersionClause} (leftSome : left ≠ [])
    (rightSome : right ≠ [])
    (equal : String.intercalate "," (left.map clauseText) =
      String.intercalate "," (right.map clauseText)) :
    left.map clauseText = right.map clauseText := by
  have parts : left.map (fun clause => (clauseText clause).toList) =
      right.map (fun clause => (clauseText clause).toList) := by
    rw [← splitOnP_joined leftSome, ← splitOnP_joined rightSome, equal]
  have texts := congrArg (List.map String.ofList) parts
  simpa [Function.comp_def] using texts

/-- A canonical list is empty only without clauses. -/
theorem canonicalClauses_eq_nil {clauses : List VersionClause} :
    canonicalClauses clauses = [] ↔ clauses = [] := by
  constructor
  · intro none
    by_contra some
    obtain ⟨clause, member⟩ := List.exists_mem_of_ne_nil clauses some
    rw [canonicalClauses_eq] at none
    obtain ⟨kept, keptIn, _⟩ :=
      Sorting.exists_mem_canonical compareClauses compareClauseSpelling member
    rw [none] at keptIn
    exact absurd keptIn List.not_mem_nil
  · rintro rfl
    rfl

/-- The same clauses have the same text exactly when their versions are bare alike. -/
theorem clauseText_eq_iff {left right : VersionClause} (same : Same left right) :
    clauseText left = clauseText right ↔ (left.version.Bare ↔ right.version.Bare) := by
  obtain ⟨ops, versions⟩ := VersionClause.same_iff.mp same
  rw [← RPackageVersion.canonicalVersion_eq_iff versions, clauseText, clauseText, ops]
  exact ⟨fun equal => String.append_right_inj _ |>.mp equal, fun equal => by rw [equal]⟩

/-- The same constraints print alike exactly when their clauses are bare alike. -/
theorem canonicalRRequirement_eq_iff {left right : VersionConstraint} (same : Same left right) :
    canonicalRRequirement left = canonicalRRequirement right ↔ left.Alike right := by
  have clauses : List.Forall₂ Same left.clauses right.clauses :=
    same_list.mp (congrArg VersionConstraint.clauses same)
  have canonical := canonicalClauses_forall₂_iff.mpr (Sorting.matches_of_forall₂ clauses)
  have texts : (canonicalClauses left.clauses).map clauseText =
      (canonicalClauses right.clauses).map clauseText ↔ left.Alike right := by
    rw [VersionConstraint.Alike, ← List.forall₂_eq_eq_eq, List.forall₂_map_left_iff,
      List.forall₂_map_right_iff]
    generalize canonicalClauses left.clauses = first at canonical
    generalize canonicalClauses right.clauses = second at canonical
    induction canonical with
    | nil => simp
    | cons head _ ih => simp only [List.forall₂_cons, clauseText_eq_iff head, ih]
  rw [← texts]
  by_cases none : left.clauses = []
  · have other : right.clauses = [] := by
      rw [none] at clauses
      exact List.forall₂_nil_left_iff.mp clauses
    simp [canonicalRRequirement, none, other]
  · have other : right.clauses ≠ [] := by
      intro empty
      rw [empty] at clauses
      exact none (List.forall₂_nil_right_iff.mp clauses)
    rw [canonicalRRequirement, canonicalRRequirement, if_neg none, if_neg other]
    constructor
    · exact clauseTexts_of_joined (mt canonicalClauses_eq_nil.mp none)
        (mt canonicalClauses_eq_nil.mp other)
    · intro equal
      exact congrArg (String.intercalate ",") equal

/-- The same requested sources agree on all but the spelling of their versions. -/
theorem LockedGitSource.same_iff {left right : LockedGitSource} :
    Same left right ↔ left.url = right.url ∧ left.selector = right.selector ∧
      left.subdirectory = right.subdirectory ∧
      Same left.versionConstraint right.versionConstraint := by
  simp only [Same, Representative.representative, LockedGitSource.mk.injEq]

/-- The same requested sources are written alike exactly when their versions are bare alike. -/
theorem encodeRequestedGitSource_eq_iff {left right : LockedGitSource} (same : Same left right) :
    encodeRequestedGitSource left = encodeRequestedGitSource right ↔
      left.versionConstraint.Alike right.versionConstraint := by
  obtain ⟨urls, selectors, subdirectories, constraints⟩ := LockedGitSource.same_iff.mp same
  rw [← canonicalRRequirement_eq_iff constraints]
  simp [encodeRequestedGitSource, urls, selectors, subdirectories]

/-- The same provenances are written alike. -/
theorem encodeProvenance_congr {left right : Provenance} (same : Same left right) :
    encodeProvenance left = encodeProvenance right := by
  cases left <;> cases right <;>
    simp_all [Same, Representative.representative, encodeProvenance]

/-- A provenance that is not of an R base package is written. -/
theorem exists_encodeProvenance {provenance : Provenance}
    (released : provenance.isRBasePackage = false) :
    ∃ source, encodeProvenance provenance = .ok source := by
  cases provenance with
  | rBasePackage => cases released
  | registryRelease => exact ⟨_, rfl⟩
  | gitCommit => exact ⟨_, rfl⟩
  | bioconductorRelease => exact ⟨_, rfl⟩
  | immutableSource => exact ⟨_, rfl⟩

/-- A valid package is not an R base package. -/
theorem LockedPackage.not_rBase_of_validate {package : LockedPackage}
    (valid : package.validate = .ok ()) : package.identity.provenance.isRBasePackage = false := by
  obtain ⟨_, released, _⟩ := bind_eq_ok.mp valid
  exact ensure_eq_ok.mp released

/-- The same packages are written alike exactly when their printed versions are bare alike. -/
theorem encodePackage_eq_iff {left right : LockedPackage} (names : List PackageName)
    (released : left.identity.provenance.isRBasePackage = false) (same : Same left right) :
    encodePackage names left = encodePackage names right ↔ left.Alike right := by
  obtain ⟨identities, versions, spellings, edges, visible, digests, requested⟩ :=
    LockedPackage.same_iff.mp same
  obtain ⟨named, provenances⟩ := ReleaseIdentity.same_iff.mp identities
  obtain ⟨source, encoded⟩ := exists_encodeProvenance released
  have other : encodeProvenance right.identity.provenance = .ok source := by
    rw [← encodeProvenance_congr provenances, encoded]
  have names : left.name = right.name := named
  have printed : left.publishedVersionSpelling.getD (canonicalVersion left.version) =
      right.publishedVersionSpelling.getD (canonicalVersion right.version) ↔
        (left.publishedVersionSpelling = none → (left.version.Bare ↔ right.version.Bare)) := by
    rw [← spellings, ← RPackageVersion.canonicalVersion_eq_iff versions]
    cases left.publishedVersionSpelling <;> simp
  have sources : left.requestedGitSource.map encodeRequestedGitSource =
      right.requestedGitSource.map encodeRequestedGitSource ↔
        Option.Rel (fun first second =>
          first.versionConstraint.Alike second.versionConstraint)
          left.requestedGitSource right.requestedGitSource := by
    cases first : left.requestedGitSource <;> cases second : right.requestedGitSource <;>
      rw [first, second] at requested
    · simp
    · cases requested
    · cases requested
    · rw [Option.map_some, Option.map_some, Option.some.injEq, Option.rel_some_some,
        encodeRequestedGitSource_eq_iff (same_some.mp requested)]
  rw [encodePackage, encodePackage, encoded, other]
  simp only [ok_bind, pure, Except.pure, Except.ok.injEq, WirePackage.mk.injEq, names, edges,
    visible, digests, true_and, printed, sources]
  exact ⟨fun both => ⟨both.1, both.2⟩, fun alike => ⟨alike.version, alike.requested⟩⟩

/-- The same locks agree on all but the spelling of their versions. -/
theorem Lockfile.same_iff {left right : Lockfile} :
    Same left right ↔ left.resolutionIntentSha256 = right.resolutionIntentSha256 ∧
      Same left.rRequirement right.rRequirement ∧
      Same left.resolution.target.rVersion right.resolution.target.rVersion ∧
      left.resolution.environment = right.resolution.environment ∧
      left.resolution.publicationCutoff = right.resolution.publicationCutoff ∧
      List.Forall₂ Same left.resolution.packages right.resolution.packages := by
  rw [← same_list]
  simp only [Same, Representative.representative, Lockfile.mk.injEq, LockedResolution.mk.injEq,
    ResolutionTarget.mk.injEq]

/-- A package that is not an R base package is written. -/
theorem exists_encodePackage (names : List PackageName) {package : LockedPackage}
    (released : package.identity.provenance.isRBasePackage = false) :
    ∃ wire, encodePackage names package = .ok wire := by
  obtain ⟨source, encoded⟩ := exists_encodeProvenance released
  exact ⟨_, by rw [encodePackage, encoded]; rfl⟩

/-- The same lists of packages are lists of released packages. -/
theorem released_congr {left right : List LockedPackage} (same : List.Forall₂ Same left right)
    (released : ∀ package ∈ left, package.identity.provenance.isRBasePackage = false) :
    ∀ package ∈ right, package.identity.provenance.isRBasePackage = false := by
  intro package member
  obtain ⟨source, sourceIn, agree⟩ := (Sorting.matches_of_forall₂ same).2 package member
  have provenances := (ReleaseIdentity.same_iff.mp (LockedPackage.same_iff.mp agree).1).2
  rw [← Provenance.isRBasePackage_congr provenances, released source sourceIn]

/-- The same lists of packages are written alike exactly when their printed versions are bare
alike. -/
theorem encodePackages_eq_iff {left right : List LockedPackage} (names : List PackageName)
    (released : ∀ package ∈ left, package.identity.provenance.isRBasePackage = false)
    (same : List.Forall₂ Same left right) :
    left.mapM (encodePackage names) = right.mapM (encodePackage names) ↔
      List.Forall₂ LockedPackage.Alike left right := by
  induction same with
  | nil => simp
  | @cons first second lefts rights head tail ih =>
    have firstReleased := released first List.mem_cons_self
    have restReleased := fun package member => released package (List.mem_cons_of_mem _ member)
    have others := released_congr (List.Forall₂.cons head tail) released
    have rightsReleased := fun package member => others package (List.mem_cons_of_mem _ member)
    obtain ⟨wire, encoded⟩ := exists_encodePackage names firstReleased
    obtain ⟨otherWire, otherEncoded⟩ :=
      exists_encodePackage names (others second List.mem_cons_self)
    obtain ⟨wires, mapped⟩ := exists_mapM_eq_ok fun package member =>
      exists_encodePackage names (restReleased package member)
    obtain ⟨otherWires, otherMapped⟩ := exists_mapM_eq_ok fun package member =>
      exists_encodePackage names (rightsReleased package member)
    rw [List.forall₂_cons, ← encodePackage_eq_iff names firstReleased head, ← ih restReleased,
      List.mapM_cons, List.mapM_cons, encoded, otherEncoded, mapped, otherMapped]
    simp [pure, Except.pure]

/-- The packages of a built lock are not R base packages. -/
theorem Lockfile.Built.released {lock : Lockfile} (built : lock.Built) :
    ∀ package ∈ lock.resolution.packages,
      package.identity.provenance.isRBasePackage = false :=
  fun package member =>
    LockedPackage.not_rBase_of_validate (built.packages.normal package member).valid

/-- Equal built locks have equal records exactly when their printed versions are bare alike. -/
theorem encodeLock_eq_iff {left right : Lockfile} (built : left.Built) (same : Same left right) :
    encodeLock left = encodeLock right ↔ left.Alike right := by
  obtain ⟨digests, requirements, targets, environments, cutoffs, packages⟩ :=
    Lockfile.same_iff.mp same
  have names : left.resolution.packages.map LockedPackage.name =
      right.resolution.packages.map LockedPackage.name := by
    rw [← List.forall₂_eq_eq_eq, List.forall₂_map_left_iff, List.forall₂_map_right_iff]
    exact packages.imp fun _ _ agree =>
      (ReleaseIdentity.same_iff.mp (LockedPackage.same_iff.mp agree).1).1
  have written := encodePackages_eq_iff (right.resolution.packages.map LockedPackage.name)
    built.released packages
  obtain ⟨wires, mapped⟩ := exists_mapM_eq_ok fun package member =>
    exists_encodePackage (right.resolution.packages.map LockedPackage.name)
      (built.released package member)
  obtain ⟨otherWires, otherMapped⟩ := exists_mapM_eq_ok fun package member =>
    exists_encodePackage (right.resolution.packages.map LockedPackage.name)
      (released_congr packages built.released package member)
  rw [mapped, otherMapped, Except.ok.injEq] at written
  simp only [encodeLock, names, mapped, otherMapped, ok_bind, pure, Except.pure, Except.ok.injEq,
    WireLockfile.mk.injEq, digests, environments, cutoffs, true_and, written,
    RPackageVersion.canonicalVersion_eq_iff targets, canonicalRRequirement_eq_iff requirements]
  exact ⟨fun both => ⟨both.1, both.2.1, both.2.2⟩,
    fun alike => ⟨alike.target, alike.requirement, alike.packages⟩⟩

/-- A built lock is written from its own record. -/
theorem Lockfile.Built.toToml_eq {lock : Lockfile} (built : lock.Built) (toml : TomlWriter) :
    lock.toToml toml = encodeLock lock >>= toml.serializeWire := by
  rw [Lockfile.toToml, built.new_eq]
  rfl

/-- Two equal locks that `new` accepted have equal records exactly when they agree on which of
their printed versions have one component, and then their texts are equal. -/
theorem toToml_eq_of_alike {leftIntent rightIntent : Sha256Digest}
    {leftRequirement rightRequirement : VersionConstraint}
    {leftResolution rightResolution : LockedResolution} {left right : Lockfile}
    (leftNew : Lockfile.new leftIntent leftRequirement leftResolution = .ok left)
    (rightNew : Lockfile.new rightIntent rightRequirement rightResolution = .ok right)
    (same : Same left right) :
    (encodeLock left = encodeLock right ↔ left.Alike right) ∧
      (left.Alike right → ∀ toml, left.toToml toml = right.toToml toml) := by
  have leftBuilt := Lockfile.Built.of_new leftNew
  have rightBuilt := Lockfile.Built.of_new rightNew
  have records := encodeLock_eq_iff leftBuilt same
  refine ⟨records, fun alike toml => ?_⟩
  rw [leftBuilt.toToml_eq, rightBuilt.toToml_eq, records.mpr alike]

namespace Small

/-- What the TOML library writes for strings without special characters. -/
def toml : TomlWriter where
  scalar value := .ok ("value = \"" ++ value ++ "\"\n")
  array values := .ok ("values = [" ++
    String.intercalate ", " (values.map fun value => "\"" ++ value ++ "\"") ++ "]\n")

/-- An R version of one component. -/
def four : RPackageVersion := ⟨"4", .fromVec [4], by decide⟩

/-- The same R version with two components. -/
def fourZero : RPackageVersion := ⟨"4.0", .fromVec [4, 0], by decide⟩

/-- The resolution without packages for an R version. -/
def resolutionFor (rVersion : RPackageVersion) : LockedResolution :=
  ⟨⟨rVersion⟩, environment, none, []⟩

end Small

/-- Locks for R 4 and for R 4.0 are equal and have different texts. -/
theorem toToml_ne_of_bare :
    ∃ left right, Lockfile.new Small.digest .unconstrained (Small.resolutionFor Small.four) =
        .ok left ∧
      Lockfile.new Small.digest .unconstrained (Small.resolutionFor Small.fourZero) = .ok right ∧
      Same left right ∧ left.toToml Small.toml ≠ right.toToml Small.toml :=
  ⟨⟨Small.digest, .unconstrained, Small.resolutionFor Small.four⟩,
    ⟨Small.digest, .unconstrained, Small.resolutionFor Small.fourZero⟩,
    by decide +kernel, by decide +kernel, by decide +kernel, by decide +kernel⟩

/-- Locks for R 4.0 and for R 4.0.0 have one text. -/
theorem toToml_eq_of_alike_zeros :
    ∃ left right : Lockfile, Same left right ∧ left ≠ right ∧
      left.toToml Small.toml = right.toToml Small.toml := by
  let fourZeroZero : RPackageVersion := ⟨"4.0.0", .fromVec [4, 0, 0], by decide⟩
  let left : Lockfile := ⟨Small.digest, .unconstrained, Small.resolutionFor Small.fourZero⟩
  let right : Lockfile := ⟨Small.digest, .unconstrained, Small.resolutionFor fourZeroZero⟩
  have leftNew : Lockfile.new Small.digest .unconstrained (Small.resolutionFor Small.fourZero) =
      .ok left := by decide +kernel
  have rightNew : Lockfile.new Small.digest .unconstrained (Small.resolutionFor fourZeroZero) =
      .ok right := by decide +kernel
  have same : Same left right := by decide +kernel
  refine ⟨left, right, same, by decide +kernel, ?_⟩
  refine (toToml_eq_of_alike leftNew rightNew same).2 ⟨by decide +kernel, ?_, .nil⟩ Small.toml
  exact List.Forall₂.nil

end Rsolve
