import Rsolve.Lib.Ordered
import Rsolve.Manifest.Repository

/-!
# Composing an environment of a manifest

An environment is the base dependencies of a manifest and the dependency groups it names. Roots with
one name are merged; the constraints of merged roots are joined and their sources must agree.
-/
open Keyed Checked Ordered

namespace Rsolve

/-- `EnvironmentIdError`. -/
inductive EnvironmentIdError
  | empty
  | tooLong
  | invalidFirstCharacter
  | invalidCharacter
  | controlOrWhitespace
deriving Repr, DecidableEq

/-- The check of `EnvironmentId::new`. -/
def EnvironmentId.check (value : String) : Except EnvironmentIdError Unit :=
  match value.toList with
  | [] => .error .empty
  | first :: rest =>
    if (first :: rest).any (fun character => isControl character || isWhitespace character) then
      .error .controlOrWhitespace
    else if !first.isLower && !first.isDigit then .error .invalidFirstCharacter
    else if !(first :: rest).all isNamedIdCharacter then .error .invalidCharacter
    else if byteLength value > 64 then .error .tooLong
    else .ok ()

/-- `EnvironmentId` — a shared environment coordinate. -/
@[ext]
structure EnvironmentId where
  /-- The id. -/
  text : String
  /-- The id passed its check. -/
  valid : EnvironmentId.check text = .ok ()
deriving DecidableEq

/-- `EnvironmentId::new`. -/
def EnvironmentId.new (value : String) : Except EnvironmentIdError EnvironmentId :=
  match accepted : EnvironmentId.check value with
  | .error cause => .error cause
  | .ok () => .ok ⟨value, accepted⟩

/-- `GitSelector`. -/
inductive GitSelector
  | defaultBranch
  | branch (value : String)
  | tag (value : String)
  | rev (value : String)
deriving DecidableEq

/-- `DirectUrl` — a direct source URL, as the URL library serializes it. -/
@[ext]
structure DirectUrl where
  /-- The URL. -/
  text : String
deriving DecidableEq

/-- `ManifestSource` — where a root comes from. -/
inductive ManifestSource
  | registry (repository : Option RepositoryId)
  | git (url : NormalizedGitUrl) (selector : GitSelector) (subdirectory : Option String)
  | url (url : DirectUrl) (sha256 : Option Sha256Digest)
  | path (path : String) (sha256 : Option Sha256Digest)
deriving DecidableEq

/-- `ManifestDependencySpec`. -/
structure ManifestDependencySpec where
  /-- The version constraint as written. -/
  version : String
  /-- The source. -/
  source : ManifestSource
  /-- Whether suggested packages are required. -/
  includeSuggests : Bool
deriving DecidableEq

/-- A table of dependencies. -/
abbrev DependencyTable := OrderedMap PackageName ManifestDependencySpec

/-- `ManifestDocument` — the fields that composition reads. -/
structure ManifestDocument where
  /-- The schema. -/
  schema : Nat
  /-- The R constraint as written. -/
  rRequirement : String
  /-- The publication cutoff. -/
  publishedBefore : Option PublicationDate
  /-- The configured repositories. -/
  repositories : List RepositorySpec
  /-- The base dependencies. -/
  dependencies : DependencyTable
  /-- The dependency groups. -/
  groups : OrderedMap String DependencyTable
  /-- The groups of every environment. -/
  environments : OrderedMap String (List String)

/-- `ComposedRootIntent` — a root of an environment. -/
structure ComposedRootIntent where
  /-- The package. -/
  name : PackageName
  /-- The versions it may have. -/
  constraint : VersionConstraint
  /-- Where it comes from. -/
  source : ManifestSource
  /-- The expansion of its dependencies. -/
  expansion : RootExpansionPolicy
deriving DecidableEq

/-- `ComposedEnvironment` — one selected and composed environment. -/
structure ComposedEnvironment where
  /-- The environment. -/
  environment : EnvironmentId
  /-- The R constraint. -/
  rRequirement : VersionConstraint
  /-- The publication cutoff. -/
  publishedBefore : Option PublicationDate
  /-- The exact R version. -/
  target : ResolutionTarget
  /-- The configured repositories. -/
  repositories : List RepositorySpec
  /-- The roots, by name. -/
  roots : List ComposedRootIntent
  /-- The locked identities. -/
  locked : LockedIdentities

/-- `str::trim`. -/
def trim (characters : List Char) : List Char :=
  ((characters.dropWhile isWhitespace).reverse.dropWhile isWhitespace).reverse

/-- `ConstraintVersionKind`. -/
inductive ConstraintVersionKind
  | r
  | package
deriving Repr, DecidableEq

/-- The relation and the version text of a conjunction term. -/
def splitRelation : List Char → RelationOp × List Char
  | '>' :: '=' :: version => (.ge, version)
  | '<' :: '=' :: version => (.le, version)
  | '!' :: '=' :: version => (.ne, version)
  | '=' :: '=' :: version => (.eq, version)
  | '>' :: version => (.gt, version)
  | '<' :: version => (.lt, version)
  | '=' :: version => (.eq, version)
  | version => (.eq, version)

/-- The version of a conjunction term. -/
def parseConstraintVersion (kind : ConstraintVersionKind) (version : String) :
    Except RPackageVersionError RPackageVersion :=
  match kind with
  | .r => RPackageVersion.parseBare version
  | .package => RPackageVersion.parse version

/-- One term of `parse_constraint`. -/
def parseConstraintTerm (field : String) (kind : ConstraintVersionKind) (term : List Char) :
    Except ManifestError VersionClause := do
  let term := trim term
  ensure (term ≠ [])
    (.invalidVersionConstraint field "constraint contains an empty conjunction term")
  let relation := splitRelation term
  let version := trim relation.2
  ensure (version ≠ [] ∧ version ≠ ['*'])
    (.invalidVersionConstraint field "relation must have a numeric version")
  let version ← (parseConstraintVersion kind (String.ofList version)).mapError
    (fun cause => .invalidVersionConstraint field cause.message)
  return ⟨relation.1, version⟩

/-- `relation_rank`. -/
def relationRank : RelationOp → Nat
  | .lt => 0
  | .le => 1
  | .eq => 2
  | .ne => 3
  | .ge => 4
  | .gt => 5

/-- The order of clauses by relation and version. -/
def compareClauses : VersionClause → VersionClause → Ordering :=
  compareLex (compareOn (fun clause => relationRank clause.op))
    (fun left right => left.version.cmp right.version)

/-- The order of clauses by the spelling of their versions. -/
def compareClauseSpelling : VersionClause → VersionClause → Ordering :=
  compareOn (fun clause => clause.version.raw)

/-- The order of clauses is lawful. -/
instance : Std.TransCmp compareClauses :=
  have _versions : Std.TransCmp (fun left right : VersionClause =>
      left.version.cmp right.version) :=
    inferInstanceAs (Std.TransCmp (compareOn (fun clause : VersionClause => clause.version.key)))
  inferInstanceAs (Std.TransCmp (compareLex
    (compareOn (fun clause : VersionClause => relationRank clause.op)) _))

/-- The order of spellings is lawful. -/
instance : Std.TransCmp compareClauseSpelling :=
  inferInstanceAs (Std.TransCmp (compareOn (fun clause : VersionClause => clause.version.raw)))

/-- Clauses sorted, with one clause of every relation and version. -/
def canonicalClauses (clauses : List VersionClause) : List VersionClause :=
  Sorting.dedupBy (fun left right => left.op == right.op && decide (Same left.version right.version))
    (Sorting.sortBy (compareLex compareClauses compareClauseSpelling) clauses)

/-- Clauses compare equal exactly when they are the same. -/
theorem compareClauses_eq_iff {left right : VersionClause} :
    compareClauses left right = .eq ↔ Same left right := by
  have ranks : relationRank left.op = relationRank right.op ↔ left.op = right.op := by
    constructor
    · cases left.op <;> cases right.op <;> simp [relationRank]
    · exact congrArg relationRank
  rw [VersionClause.same_iff, compareClauses, compareLex_eq_eq, compareOn,
    Std.LawfulEqOrd.compare_eq_iff_eq, ranks, RPackageVersion.cmp_eq_iff_same]

/-- The canonical clauses are the canonical list of the clause order. -/
theorem canonicalClauses_eq (clauses : List VersionClause) :
    canonicalClauses clauses = Sorting.canonical compareClauses compareClauseSpelling clauses := by
  have tested : (fun left right : VersionClause =>
      left.op == right.op && decide (Same left.version right.version)) =
        fun left right => compareClauses left right == .eq := by
    funext left right
    rw [Bool.eq_iff_iff, Bool.and_eq_true, beq_iff_eq, decide_eq_true_eq, beq_iff_eq,
      compareClauses_eq_iff, VersionClause.same_iff]
  rw [canonicalClauses, Sorting.canonical, tested]

/-- Clauses with the same canonical list up to spelling are the same set of clauses. -/
theorem canonicalClauses_forall₂_iff {left right : List VersionClause} :
    List.Forall₂ Same (canonicalClauses left) (canonicalClauses right) ↔
      Sorting.Matches Same left right := by
  have related : (fun first second : VersionClause => compareClauses first second = .eq) = Same := by
    funext first second
    exact propext compareClauses_eq_iff
  rw [canonicalClauses_eq, canonicalClauses_eq, ← related]
  exact Sorting.canonical_forall₂_iff compareClauses compareClauseSpelling

/-- `canonicalize_constraint`. -/
def canonicalizeConstraint (constraint : VersionConstraint) : VersionConstraint :=
  ⟨canonicalClauses constraint.clauses⟩

/-- A canonical constraint admits the versions of the constraint. -/
theorem satisfies_canonicalizeConstraint (constraint : VersionConstraint)
    (version : RPackageVersion) :
    (canonicalizeConstraint constraint).satisfies version = constraint.satisfies version := by
  have holds : ∀ {first second : VersionClause}, Same first second →
      first.op.holds (version.cmp first.version) = second.op.holds (version.cmp second.version) := by
    intro first second same
    obtain ⟨ops, versions⟩ := VersionClause.same_iff.mp same
    rw [ops, RPackageVersion.cmp_congr_right version versions]
  rw [Bool.eq_iff_iff]
  simp only [VersionConstraint.satisfies, List.all_eq_true, canonicalizeConstraint,
    canonicalClauses_eq]
  constructor
  · intro satisfied clause member
    obtain ⟨kept, keptIn, equal⟩ :=
      Sorting.exists_mem_canonical compareClauses compareClauseSpelling member
    rw [holds (compareClauses_eq_iff.mp equal)]
    exact satisfied kept keptIn
  · intro satisfied clause member
    exact satisfied clause (Sorting.mem_of_mem_canonical compareClauses compareClauseSpelling member)

/-- `parse_constraint`. -/
def parseConstraint (input field : String) (kind : ConstraintVersionKind) :
    Except ManifestError VersionConstraint := do
  ensure (input.toList ≠ [] ∧ input.toList.all (fun character => !isControl character) = true)
    (.invalidVersionConstraint field
      "constraint must be non-empty and contain no control characters")
  if trim input.toList = ['*'] then return VersionConstraint.unconstrained
  else
    let clauses ← (input.toList.splitOnP (· == ',')).mapM (parseConstraintTerm field kind)
    return canonicalizeConstraint ⟨clauses⟩

/-- `parse_r_constraint`. -/
def parseRConstraint (input field : String) : Except ManifestError VersionConstraint :=
  parseConstraint input field .r

/-- `parse_package_constraint`. -/
def parsePackageConstraint (input field : String) : Except ManifestError VersionConstraint :=
  parseConstraint input field .package

/-- Join path components with slashes. -/
def joinPath (parts : List (List Char)) : String :=
  String.intercalate "/" (parts.map String.ofList)

/-- The component loop of `normalize_relative_subdirectory`; `parts` are the components so far, last
first. -/
def subdirectoryParts (parts : List (List Char)) :
    List (List Char) → Except String (List (List Char))
  | [] => .ok parts.reverse
  | component :: rest =>
    if component = [] ∨ component = ['.'] then subdirectoryParts parts rest
    else if component = ['.', '.'] then
      match parts with
      | [] => .error "subdirectory escapes the source root"
      | _ :: parts => subdirectoryParts parts rest
    else subdirectoryParts (component :: parts) rest

/-- `normalize_relative_subdirectory`. -/
def normalizeRelativeSubdirectory (value : String) : Except String String := do
  let characters := value.toList
  ensure (characters ≠ [] ∧ characters.head? ≠ some '/' ∧ '\\' ∉ characters)
    "subdirectory must be a non-empty relative slash path"
  ensure (characters.all (fun character => !isControl character) = true)
    "subdirectory contains a control character"
  let parts ← subdirectoryParts [] (characters.splitOnP (· == '/'))
  ensure (parts ≠ []) "subdirectory must contain a path component"
  return joinPath parts

/-- The component loop of `normalize_requested_path`; `parts` are the components so far, last
first. -/
def requestedPathParts (parts : List (List Char)) : List (List Char) → List (List Char)
  | [] => parts
  | component :: rest =>
    if component = [] ∨ component = ['.'] then requestedPathParts parts rest
    else if component = ['.', '.'] then
      match parts with
      | [] => requestedPathParts [['.', '.']] rest
      | last :: others =>
        if last = ['.', '.'] then requestedPathParts (['.', '.'] :: parts) rest
        else requestedPathParts others rest
    else requestedPathParts (component :: parts) rest

/-- A colon is the second byte. -/
def hasSecondColon : List Char → Bool
  | first :: second :: _ => first.utf8Size == 1 && second == ':'
  | _ => false

/-- `normalize_requested_path`. -/
def normalizeRequestedPath (value : String) : Except String String := do
  let characters := value.toList.map (fun character => if character = '\\' then '/' else character)
  ensure (characters.head? ≠ some '/' ∧ hasSecondColon characters = false)
    "path must not be absolute or use a drive/UNC prefix"
  ensure (characters.all (fun character => !isControl character) = true)
    "path contains a control character"
  let parts := requestedPathParts [] (characters.splitOnP (· == '/'))
  ensure (parts ≠ [] ∧ parts.head? ≠ some ['.', '.'])
    "path must have a non-empty final component"
  return joinPath parts.reverse

/-- `normalize_source`. -/
def normalizeSource (name : PackageName) : ManifestSource → Except ManifestError ManifestSource
  | .git url selector (some subdirectory) => do
    let normalized ← (normalizeRelativeSubdirectory subdirectory).mapError
      (fun reason => .invalidDependencyField name.text reason)
    return .git url selector (some normalized)
  | .path path sha256 => do
    let normalized ← (normalizeRequestedPath path).mapError
      (fun reason => .invalidDependencyField name.text reason)
    return .path normalized sha256
  | source => .ok source

/-- `merge_sources`. -/
def mergeSources (name : PackageName) (left right : ManifestSource) :
    Except ManifestError ManifestSource :=
  if left = right then .ok left
  else
    match left, right with
    | .registry none, .registry (some repository) => .ok (.registry (some repository))
    | .registry (some repository), .registry none => .ok (.registry (some repository))
    | _, _ => .error (.sourceConflict name.text)

/-- `merge_roots`. -/
def mergeRoots (left right : ComposedRootIntent) : Except ManifestError ComposedRootIntent := do
  let source ← mergeSources left.name left.source right.source
  return {
    name := left.name
    constraint := canonicalizeConstraint (left.constraint.conjunction right.constraint)
    source
    expansion :=
      if left.expansion = .directSuggests ∨ right.expansion = .directSuggests then .directSuggests
      else .hardOnly }

/-- The roots collected so far, by name. -/
abbrev RootTable := OrderedMap PackageName ComposedRootIntent

/-- The root of one dependency. -/
def rootIntent (name : PackageName) (dependency : ManifestDependencySpec) :
    Except ManifestError ComposedRootIntent := do
  ensure (name.text ≠ "R") .rIsNotAPackageRequirement
  let constraint ← parsePackageConstraint dependency.version name.text
  let source ← normalizeSource name dependency.source
  return {
    name
    constraint
    source
    expansion := if dependency.includeSuggests then .directSuggests else .hardOnly }

/-- One pass of the loop of `append_dependencies`. -/
def appendDependency (roots : RootTable) (entry : PackageName × ManifestDependencySpec) :
    Except ManifestError RootTable := do
  let candidate ← rootIntent entry.1 entry.2
  match roots.get? entry.1 with
  | some existing =>
    let merged ← mergeRoots existing candidate
    return roots.insert entry.1 merged
  | none => return roots.insert entry.1 candidate

/-- `append_dependencies`. -/
def appendDependencies (roots : RootTable) (dependencies : DependencyTable) :
    Except ManifestError RootTable :=
  dependencies.entries.foldlM appendDependency roots

/-- The selector check of `validate_dependency_maps`: `validate_selector`. -/
def validateSelector (value context : String) : Except ManifestError Unit :=
  ensure (value.toList ≠ [] ∧ byteLength value ≤ 1024 ∧
      value.toList.all (fun character => !isControl character) = true)
    (.invalidDependencyField context
      "Git selector must be a non-empty, bounded, non-control string")

/-- The value of a selector. -/
def GitSelector.value : GitSelector → Option String
  | .defaultBranch => none
  | .branch value => some value
  | .tag value => some value
  | .rev value => some value

/-- The source checks of `validate_dependency_maps`. -/
def validateSource (name : PackageName) (repositories : List RepositoryId) :
    ManifestSource → Except ManifestError Unit
  | .registry none => .ok ()
  | .registry (some repository) => do
    validateRepositoryId repository
    ensure (repository ∈ repositories) (.unknownRepositoryReference repository name.text)
  | .git _ selector subdirectory => do
    match selector.value with
    | some value => validateSelector value name.text
    | none => pure ()
    match subdirectory with
    | some value =>
      let _ ← (normalizeRelativeSubdirectory value).mapError
        (fun reason => ManifestError.invalidDependencyField name.text reason)
      return ()
    | none => pure ()
  | .url _ _ => .ok ()
  | .path path _ => do
    let _ ← (normalizeRequestedPath path).mapError
      (fun reason => ManifestError.invalidDependencyField name.text reason)
    return ()

/-- `validate_dependency_maps`. -/
def validateDependencyMaps (dependencies : DependencyTable) (repositories : List RepositoryId) :
    Except ManifestError Unit :=
  dependencies.entries.forM fun entry => do
    let _ ← parsePackageConstraint entry.2.version entry.1.text
    ensure (entry.1.text ≠ "R") .rIsNotAPackageRequirement
    validateSource entry.1 repositories entry.2.source

/-- The repository loop of `validate_document`; `ids` are the ids seen so far. -/
def validateRepositories (ids : List RepositoryId) :
    List RepositorySpec → Except ManifestError Unit
  | [] => .ok ()
  | repository :: rest => do
    validateRepositoryId repository.id
    ensure (repository.id ∉ ids) (.duplicateRepository repository.id)
    ensure repository.registry.Unreserved RegistrySpec.reserved
    validateRepositories (repository.id :: ids) rest

/-- The group loop of `validate_document` for one environment. -/
def validateGroups (groups : OrderedMap String DependencyTable) (environment : String)
    (seen : List String) : List String → Except ManifestError Unit
  | [] => .ok ()
  | group :: rest => do
    ensure ((groups.get? group).isSome = true) (.unknownEnvironmentGroup environment group)
    ensure (group ∉ seen) (.duplicateEnvironmentGroup environment group)
    validateGroups groups environment (group :: seen) rest

/-- `validate_document`. -/
def validateDocument (document : ManifestDocument) : Except ManifestError Unit := do
  ensure (document.schema = 1) (.unknownSchema document.schema)
  let _ ← parseRConstraint document.rRequirement "r.version"
  validateRepositories [] document.repositories
  document.environments.entries.forM fun entry => do
    let _ ← (EnvironmentId.new entry.1).mapError
      (fun _ => ManifestError.invalidIdentifier "environment" entry.1)
    validateGroups document.groups entry.1 [] entry.2
  document.groups.keys.forM fun id => validateNamedId id "group"
  let repositories := document.repositories.map RepositorySpec.id
  validateDependencyMaps document.dependencies repositories
  document.groups.values.forM fun dependencies => validateDependencyMaps dependencies repositories

/-- `validate_repository_package_allowlists`. Every repository that a root names is configured, so
the lookup succeeds. -/
def validateRepositoryPackageAllowlists (roots : List ComposedRootIntent)
    (repositories : List RepositorySpec) : Except ManifestError Unit :=
  roots.forM fun root =>
    match root.source with
    | .registry (some repository) =>
      match repositories.find? (fun candidate => candidate.id == repository) with
      | some spec => ensure (spec.packageAllowed root.name = true)
          (.repositoryPackageNotAllowed repository root.name)
      | none => .ok ()
    | _ => .ok ()

/-- The groups of an environment; the default environment may be undeclared. -/
def environmentGroups (document : ManifestDocument) (environment : EnvironmentId) :
    Except ManifestError (List String) :=
  match document.environments.get? environment.text with
  | some groups => .ok groups
  | none =>
    if environment.text = "default" then .ok []
    else .error (.unknownEnvironment environment.text)

/-- One group of the loop of `compose_environment_with_locked`. -/
def appendGroup (document : ManifestDocument) (environment : EnvironmentId) (roots : RootTable)
    (group : String) : Except ManifestError RootTable :=
  match document.groups.get? group with
  | some dependencies => appendDependencies roots dependencies
  | none => .error (.unknownEnvironmentGroup environment.text group)

/-- `compose_environment_with_locked`. -/
def composeEnvironmentWithLocked (document : ManifestDocument) (input : String)
    (target : ResolutionTarget) (locked : LockedIdentities) :
    Except ManifestError ComposedEnvironment := do
  validateDocument document
  let environment ← (EnvironmentId.new input).mapError
    (fun _ => ManifestError.invalidIdentifier "environment" input)
  let groups ← environmentGroups document environment
  let rRequirement ← parseRConstraint document.rRequirement "r.version"
  ensure (rRequirement.satisfies target.rVersion = true)
    (.targetOutsideRConstraint target.rVersion.raw document.rRequirement)
  let base ← appendDependencies OrderedMap.empty document.dependencies
  let roots ← groups.foldlM (appendGroup document environment) base
  validateRepositoryPackageAllowlists roots.values document.repositories
  return {
    environment
    rRequirement
    publishedBefore := document.publishedBefore
    target
    repositories := document.repositories
    roots := roots.values
    locked }

/-- `compose_environment`. -/
def composeEnvironment (document : ManifestDocument) (input : String)
    (target : ResolutionTarget) : Except ManifestError ComposedEnvironment :=
  composeEnvironmentWithLocked document input target KeyedMap.empty

end Rsolve
