import Rsolve.Lib.Joins
import Rsolve.Lock.ConstraintText
import Rsolve.Manifest.ResolutionIntent

/-!
# Composition in any order of the groups

The dependencies that an environment selects are those of the manifest and those of its groups. Each is
a root of its own, and roots of one name are merged one after another. Whether this succeeds and what
it comes to is said of all entries of a name at once, so the order of the groups does not matter.
-/
open Keyed Checked Ordered Joins

namespace Rsolve

/-- Sources that can be merged: they are equal, or they are registry sources of which one names no
repository. -/
def ManifestSource.Compatible (left right : ManifestSource) : Prop :=
  left = right ∨ (left = .registry none ∧ ∃ repository, right = .registry (some repository)) ∨
    ((∃ repository, left = .registry (some repository)) ∧ right = .registry none)

/-- A source is one that another one stands for. -/
def ManifestSource.StoodFor (source total : ManifestSource) : Prop :=
  source = total ∨ (source = .registry none ∧ ∃ repository, total = .registry (some repository))

/-- Compatibility is symmetric. -/
theorem ManifestSource.Compatible.symm {left right : ManifestSource}
    (compatible : left.Compatible right) : right.Compatible left := by
  rcases compatible with equal | ⟨none, some⟩ | ⟨some, none⟩
  · exact .inl equal.symm
  · exact .inr (.inr ⟨some, none⟩)
  · exact .inr (.inl ⟨none, some⟩)

/-- Sources that stand for each other are equal. -/
theorem ManifestSource.StoodFor.antisymm {left right : ManifestSource} (first : left.StoodFor right)
    (second : right.StoodFor left) : left = right := by
  rcases first with equal | ⟨none, -⟩
  · exact equal
  · rcases second with equal | ⟨-, repository, some⟩
    · exact equal.symm
    · rw [none] at some
      cases some

/-- Sources are merged exactly when they are compatible, to the one that names a repository if one
does. -/
theorem mergeSources_eq_ok_iff {name : PackageName} {left right source : ManifestSource} :
    mergeSources name left right = .ok source ↔
      left.Compatible right ∧ source = if left = .registry none then right else left := by
  unfold mergeSources ManifestSource.Compatible
  by_cases same : left = right
  · subst same
    simp [eq_comm]
  · rw [if_neg same]
    split
    · simp [eq_comm]
    · simp [eq_comm]
    · next noLeft noRight =>
      refine iff_of_false nofun ?_
      rintro ⟨equal | ⟨none, repository, some⟩ | ⟨⟨repository, some⟩, none⟩, -⟩
      · exact same equal
      · exact noLeft repository none some
      · exact noRight repository some none

/-- What compatible sources are merged to stands for the first one. -/
theorem ManifestSource.Compatible.stoodFor {left right : ManifestSource}
    (compatible : left.Compatible right) :
    left.StoodFor (if left = .registry none then right else left) := by
  split
  · next none =>
    rcases compatible with equal | ⟨-, some⟩ | ⟨⟨repository, some⟩, -⟩
    · exact .inl equal
    · exact .inr ⟨none, some⟩
    · rw [none] at some
      cases some
  · exact .inl rfl

/-- What compatible sources are merged to stands for the second one. -/
theorem ManifestSource.Compatible.stoodFor_right {left right : ManifestSource}
    (compatible : left.Compatible right) :
    right.StoodFor (if left = .registry none then right else left) := by
  split
  · exact .inl rfl
  · next named =>
    rcases compatible with equal | ⟨none, -⟩ | ⟨some, none⟩
    · exact .inl equal.symm
    · exact absurd none named
    · exact .inr ⟨none, some⟩

/-- What merging two roots comes to. -/
structure ComposedRootIntent.Merged (left right merged : ComposedRootIntent) : Prop where
  name : merged.name = left.name
  constraint : merged.constraint =
    canonicalizeConstraint (left.constraint.conjunction right.constraint)
  source : merged.source = if left.source = .registry none then right.source else left.source
  expansion : merged.expansion = .directSuggests ↔
    left.expansion = .directSuggests ∨ right.expansion = .directSuggests

/-- Roots are merged exactly when their sources are compatible. -/
theorem mergeRoots_spec (left right : ComposedRootIntent) :
    ((∃ merged, mergeRoots left right = .ok merged) ↔ left.source.Compatible right.source) ∧
    ∀ merged, mergeRoots left right = .ok merged → left.Merged right merged := by
  constructor
  · constructor
    · rintro ⟨merged, done⟩
      obtain ⟨source, chosen, -⟩ := bind_eq_ok.mp done
      exact (mergeSources_eq_ok_iff.mp chosen).1
    · intro compatible
      have chosen := (@mergeSources_eq_ok_iff left.name _ _ _).mpr ⟨compatible, rfl⟩
      unfold mergeRoots
      rw [chosen]
      exact ⟨_, rfl⟩
  · intro merged done
    obtain ⟨source, chosen, made⟩ := bind_eq_ok.mp done
    obtain rfl := Except.ok.inj made
    refine ⟨rfl, rfl, (mergeSources_eq_ok_iff.mp chosen).2, ?_⟩
    dsimp only
    split <;> simp_all

/-- A constraint is in canonical form. -/
def VersionConstraint.Canonical (constraint : VersionConstraint) : Prop :=
  canonicalizeConstraint constraint = constraint

/-- What stands for some roots of one name. -/
structure IntentsSum (items : List ComposedRootIntent) (total : ComposedRootIntent) : Prop where
  name : ∃ item ∈ items, item.name = total.name
  clauses : Sorting.Matches Same total.constraint.clauses
    (items.flatMap fun item => item.constraint.clauses)
  canonical : (∀ item ∈ items, item.constraint.Canonical) → total.constraint.Canonical
  source : ∀ item ∈ items, item.source.StoodFor total.source
  chosen : ∃ item ∈ items, item.source = total.source
  expansion : total.expansion = .directSuggests ↔ ∃ item ∈ items, item.expansion = .directSuggests

/-- The canonical clauses are the same set of clauses. -/
theorem matches_canonicalClauses (clauses : List VersionClause) :
    Sorting.Matches Same (canonicalClauses clauses) clauses := by
  rw [canonicalClauses_eq]
  constructor
  · intro clause member
    exact ⟨clause, Sorting.mem_of_mem_canonical compareClauses compareClauseSpelling member, .refl _⟩
  · intro clause member
    obtain ⟨kept, keptIn, same⟩ :=
      Sorting.exists_mem_canonical compareClauses compareClauseSpelling member
    exact ⟨kept, keptIn, (compareClauses_eq_iff.mp same).symm⟩

/-- Constraints with the same clauses admit the same versions. -/
theorem satisfies_of_matches {left right : VersionConstraint}
    (matched : Sorting.Matches Same left.clauses right.clauses) (version : RPackageVersion) :
    left.satisfies version = right.satisfies version := by
  rw [← satisfies_canonicalizeConstraint left, ← satisfies_canonicalizeConstraint right]
  exact VersionConstraint.satisfies_congr_constraint (canonicalizeConstraint_same matched) version

/-- The clauses of several constraints admit the versions that all constraints admit. -/
theorem satisfies_flatMap {items : List ComposedRootIntent} (version : RPackageVersion) :
    (VersionConstraint.mk (items.flatMap fun item => item.constraint.clauses)).satisfies version =
        true ↔ ∀ item ∈ items, item.constraint.satisfies version = true := by
  simp only [VersionConstraint.satisfies, List.all_flatMap, List.all_eq_true]

/-- Roots merge when their sources are compatible. -/
theorem merges_mergeRoots : Merges mergeRoots
    (fun left right => left.source.Compatible right.source) IntentsSum where
  single item := by
    refine ⟨⟨item, by simp, rfl⟩, ?_, by simp, ?_, by simp, by simp⟩
    · rw [List.flatMap_singleton]
      exact Sorting.matches_of_mem_iff Same.refl fun _ => Iff.rfl
    · intro other member
      rw [List.mem_singleton.mp member]
      exact .inl rfl
  succeeds := by
    intro items total item sums
    rw [(mergeRoots_spec total item).1]
    constructor
    · intro compatible other member
      rcases sums.source other member with equal | ⟨none, repository, some⟩
      · rwa [equal]
      · -- What stands for a registry source without a repository names a repository.
        rw [none]
        rcases compatible with same | ⟨absurd, -⟩ | ⟨-, same⟩
        · exact .inr (.inl ⟨rfl, repository, same ▸ some⟩)
        · rw [some] at absurd
          cases absurd
        · exact .inl same.symm
    · intro compatible
      obtain ⟨chosen, chosenIn, source⟩ := sums.chosen
      rw [← source]
      exact compatible chosen chosenIn
  merged := by
    intro items total item next sums done
    have compatible := (mergeRoots_spec total item).1.mp ⟨next, done⟩
    obtain ⟨name, constraint, source, expansion⟩ := (mergeRoots_spec total item).2 next done
    refine ⟨?_, ?_, ?_, ?_, ?_, ?_⟩
    · obtain ⟨other, member, named⟩ := sums.name
      exact ⟨other, List.mem_append_left _ member, named.trans name.symm⟩
    · rw [constraint, List.flatMap_append, List.flatMap_singleton]
      exact (matches_canonicalClauses _).trans (fun _ _ _ => Same.trans)
        (sums.clauses.append (Sorting.matches_of_mem_iff Same.refl fun _ => Iff.rfl))
    · intro _
      rw [constraint, VersionConstraint.Canonical, canonicalizeConstraint_idempotent]
    · intro other member
      rw [source]
      rcases List.mem_append.mp member with old | new
      · rcases sums.source other old with equal | ⟨none, some⟩
        · rw [equal]
          exact compatible.stoodFor
        · obtain ⟨repository, some⟩ := some
          rw [if_neg (by rw [some]; nofun)]
          exact .inr ⟨none, repository, some⟩
      · rw [List.mem_singleton.mp new]
        exact compatible.stoodFor_right
    · rw [source]
      split
      · exact ⟨item, by simp, rfl⟩
      · obtain ⟨chosen, chosenIn, same⟩ := sums.chosen
        exact ⟨chosen, List.mem_append_left _ chosenIn, same⟩
    · rw [expansion, sums.expansion]
      simp [or_and_right, exists_or]

section Valid

variable {document : ManifestDocument}

/-- The constructor accepts exactly the texts of environments. -/
theorem EnvironmentId.new_eq_ok {input : String} {environment : EnvironmentId} :
    EnvironmentId.new input = .ok environment ↔ environment.text = input := by
  unfold EnvironmentId.new
  split
  · next refused =>
    simp only [reduceCtorEq, false_iff]
    rintro rfl
    rw [environment.valid] at refused
    cases refused
  · rw [Except.ok.injEq, EnvironmentId.ext_iff]
    exact eq_comm

/-- The dependencies of the manifest and of its groups, in the order in which they are read. -/
def ManifestDocument.selectedEntries (document : ManifestDocument) (groups : List String) :
    List (PackageName × ManifestDependencySpec) :=
  document.dependencies.entries ++ groups.flatMap fun group =>
    ((document.groups.get? group).map OrderedMap.entries).getD []

/-- A source that was checked is normalized. -/
theorem exists_normalizeSource {name : PackageName} {repositories : List RepositoryId}
    {source : ManifestSource} (checked : validateSource name repositories source = .ok ()) :
    ∃ normalized, normalizeSource name source = .ok normalized := by
  cases source with
  | registry repository => exact ⟨_, rfl⟩
  | url url sha256 => exact ⟨_, rfl⟩
  | path path sha256 =>
    obtain ⟨normalized, read, -⟩ := bind_eq_ok.mp checked
    rw [mapError_eq_ok] at read
    exact ⟨.path normalized sha256, by rw [normalizeSource, read]; rfl⟩
  | git url selector subdirectory =>
    cases subdirectory with
    | none => exact ⟨_, rfl⟩
    | some subdirectory =>
      have relative : ∃ normalized, (normalizeRelativeSubdirectory subdirectory).mapError
          (fun reason => ManifestError.invalidDependencyField name.text reason) = .ok normalized := by
        dsimp only [validateSource] at checked
        split at checked
        · obtain ⟨_, -, checked⟩ := bind_eq_ok.mp checked
          obtain ⟨normalized, read, -⟩ := bind_eq_ok.mp checked
          exact ⟨normalized, read⟩
        · obtain ⟨normalized, read, -⟩ := bind_eq_ok.mp checked
          exact ⟨normalized, read⟩
      obtain ⟨normalized, read⟩ := relative
      rw [mapError_eq_ok] at read
      exact ⟨.git url selector (some normalized), by rw [normalizeSource, read]; rfl⟩

/-- Dependencies that were checked are roots. -/
theorem exists_rootIntent {dependencies : DependencyTable} {repositories : List RepositoryId}
    (checked : validateDependencyMaps dependencies repositories = .ok ())
    {entry : PackageName × ManifestDependencySpec} (member : entry ∈ dependencies.entries) :
    ∃ intent, rootIntent entry.1 entry.2 = .ok intent := by
  have each := forM_eq_ok.mp checked entry member
  obtain ⟨constraint, read, each⟩ := bind_eq_ok.mp each
  obtain ⟨_, named, each⟩ := bind_eq_ok.mp each
  obtain ⟨source, normalized⟩ := exists_normalizeSource each
  unfold rootIntent
  rw [named, ok_bind, read, ok_bind, normalized]
  exact ⟨_, rfl⟩

/-- What a valid document has been checked for. -/
structure ManifestDocument.Checked (document : ManifestDocument) : Prop where
  required : ∃ constraint, parseRConstraint document.rRequirement "r.version" = .ok constraint
  environments : ∀ id groups, document.environments.get? id = some groups →
    (∃ environment : EnvironmentId, environment.text = id) ∧
      validateGroups document.groups id [] groups = .ok ()
  intents : ∀ entry, entry ∈ document.dependencies.entries ∨
    (∃ dependencies ∈ document.groups.values, entry ∈ dependencies.entries) →
      ∃ intent, rootIntent entry.1 entry.2 = .ok intent

/-- A valid document has been checked. -/
theorem ManifestDocument.checked_of_valid (valid : validateDocument document = .ok ()) :
    document.Checked := by
  obtain ⟨_, -, valid⟩ := bind_eq_ok.mp valid
  obtain ⟨constraint, required, valid⟩ := bind_eq_ok.mp valid
  obtain ⟨_, -, valid⟩ := bind_eq_ok.mp valid
  obtain ⟨_, environments, valid⟩ := bind_eq_ok.mp valid
  obtain ⟨_, -, valid⟩ := bind_eq_ok.mp valid
  obtain ⟨_, base, groups⟩ := bind_eq_ok.mp valid
  refine ⟨⟨constraint, required⟩, fun id groups declared => ?_, fun entry member => ?_⟩
  · have each := forM_eq_ok.mp environments _ (OrderedMap.get?_eq_some_iff.mp declared)
    obtain ⟨environment, named, selected⟩ := bind_eq_ok.mp each
    rw [mapError_eq_ok] at named
    exact ⟨⟨environment, EnvironmentId.new_eq_ok.mp named⟩, selected⟩
  · rcases member with member | ⟨dependencies, inGroups, member⟩
    · exact exists_rootIntent base member
    · exact exists_rootIntent (forM_eq_ok.mp groups dependencies inGroups) member

/-- The groups of an environment are checked when they are known and no two are the same. -/
theorem validateGroups_eq_ok_iff {groups : OrderedMap String DependencyTable} {environment : String}
    {seen selected : List String} : validateGroups groups environment seen selected = .ok () ↔
      (∀ group ∈ selected, (groups.get? group).isSome = true) ∧ selected.Nodup ∧
        ∀ group ∈ selected, group ∉ seen := by
  induction selected generalizing seen with
  | nil => simp [validateGroups]
  | cons group rest ih =>
    rw [List.forall_mem_cons, List.forall_mem_cons, List.nodup_cons]
    simp only [validateGroups, bind_eq_ok, ensure_eq_ok, ih, List.mem_cons, not_or]
    constructor
    · rintro ⟨_, known, _, fresh, others, distinct, apart⟩
      exact ⟨⟨known, others⟩, ⟨fun member => (apart group member).1 rfl, distinct⟩, fresh,
        fun other member => (apart other member).2⟩
    · rintro ⟨⟨known, others⟩, ⟨absent, distinct⟩, fresh, apart⟩
      refine ⟨(), known, (), fresh, others, distinct, fun other member => ⟨?_, apart other member⟩⟩
      rintro rfl
      exact absent member

/-- The entries that a valid document selects are roots. -/
theorem ManifestDocument.Checked.exists_intents (checked : document.Checked) (groups : List String) :
    ∃ intents, (document.selectedEntries groups).mapM (fun entry => rootIntent entry.1 entry.2) =
      .ok intents := by
  refine exists_mapM_eq_ok fun entry member => checked.intents entry ?_
  rcases List.mem_append.mp member with base | grouped
  · exact .inl base
  · obtain ⟨group, -, inGroup⟩ := List.mem_flatMap.mp grouped
    cases found : document.groups.get? group with
    | none =>
      rw [found] at inGroup
      cases inGroup
    | some dependencies =>
      rw [found] at inGroup
      have entry := OrderedMap.get?_eq_some_iff.mp found
      exact .inr ⟨dependencies, List.mem_map.mpr ⟨_, entry, rfl⟩, inGroup⟩

end Valid

section Folding

variable {document : ManifestDocument}

/-- The roots of a document with groups, put together in the order in which they are read. -/
theorem foldlM_appendGroup (environment : EnvironmentId) {groups : List String}
    (known : ∀ group ∈ groups, (document.groups.get? group).isSome = true) :
    (do
      let base ← appendDependencies OrderedMap.empty document.dependencies
      groups.foldlM (appendGroup document environment) base) =
        (document.selectedEntries groups).foldlM appendDependency OrderedMap.empty := by
  rw [ManifestDocument.selectedEntries, List.foldlM_append]
  refine congrArg (_ >>= ·) (funext fun base => ?_)
  induction groups generalizing base with
  | nil => rfl
  | cons group rest ih =>
    obtain ⟨dependencies, found⟩ := Option.isSome_iff_exists.mp (known group List.mem_cons_self)
    rw [List.foldlM_cons, List.flatMap_cons, List.foldlM_append, found, appendGroup, found]
    exact congrArg (_ >>= ·) (funext fun next =>
      ih (fun group member => known group (List.mem_cons_of_mem _ member)) next)

/-- Roots are put into a table by their names. -/
theorem foldlM_appendDependency {entries : List (PackageName × ManifestDependencySpec)}
    {intents : List ComposedRootIntent}
    (read : entries.mapM (fun entry => rootIntent entry.1 entry.2) = .ok intents) (roots : RootTable) :
    entries.foldlM appendDependency roots =
      intents.foldlM (Joins.add ComposedRootIntent.name mergeRoots) roots := by
  have related := mapM_eq_ok.mp read
  clear read
  induction related generalizing roots with
  | nil => rfl
  | @cons entry intent entries intents made _ ih =>
    have named : intent.name = entry.1 := by
      obtain ⟨_, -, made⟩ := bind_eq_ok.mp made
      obtain ⟨_, -, made⟩ := bind_eq_ok.mp made
      obtain ⟨_, -, made⟩ := bind_eq_ok.mp made
      rw [← Except.ok.inj made]
    have step : appendDependency roots entry =
        Joins.add ComposedRootIntent.name mergeRoots roots intent := by
      rw [appendDependency, made, ok_bind, Joins.add, named]
      cases roots.get? entry.1 <;> rfl
    rw [List.foldlM_cons, List.foldlM_cons, step]
    exact congrArg (_ >>= ·) (funext ih)

/-- Roots that cannot be merged have conflicting sources. -/
theorem sourceConflict_of_foldlM {intents : List ComposedRootIntent} {roots : RootTable}
    {cause : ManifestError}
    (failed : intents.foldlM (Joins.add ComposedRootIntent.name mergeRoots) roots = .error cause) :
    ∃ field, cause = .sourceConflict field := by
  induction intents generalizing roots with
  | nil => cases failed
  | cons intent rest ih =>
    rw [List.foldlM_cons] at failed
    rcases bind_eq_error.mp failed with stopped | ⟨_, _, later⟩
    · unfold Joins.add at stopped
      split at stopped
      · rcases bind_eq_error.mp stopped with merged | ⟨_, _, inserted⟩
        · rcases bind_eq_error.mp merged with sources | ⟨_, _, made⟩
          · unfold mergeSources at sources
            split at sources
            · cases sources
            · split at sources
              · cases sources
              · cases sources
              · exact ⟨_, (Except.error.inj sources).symm⟩
          · cases made
        · cases inserted
      · cases stopped
    · exact ih later

end Folding

section Composed

variable {document : ManifestDocument} {input : String} {target : ResolutionTarget}
  {locked : LockedIdentities} {groups : List String} {intents : List ComposedRootIntent}
  {rRequirement : VersionConstraint}

/-- The groups of an environment; the default environment may be undeclared. -/
def ManifestDocument.selectedGroups (document : ManifestDocument) (input : String) :
    Option (List String) :=
  match document.environments.get? input with
  | some groups => some groups
  | none => if input = "default" then some [] else none

/-- What composing a valid document puts together. -/
structure ManifestDocument.Composes (document : ManifestDocument) (input : String)
    (target : ResolutionTarget) (locked : LockedIdentities) (rRequirement : VersionConstraint)
    (intents : List ComposedRootIntent) : Prop where
  composed : ∃ environment : EnvironmentId, environment.text = input ∧
    composeEnvironmentWithLocked document input target locked = do
      ensure (rRequirement.satisfies target.rVersion = true)
        (ManifestError.targetOutsideRConstraint target.rVersion.raw document.rRequirement)
      let roots ← intents.foldlM (Joins.add ComposedRootIntent.name mergeRoots) OrderedMap.empty
      validateRepositoryPackageAllowlists roots.values document.repositories
      return {
        environment
        rRequirement
        publishedBefore := document.publishedBefore
        target
        repositories := document.repositories
        roots := roots.values
        locked }

/-- The groups that a valid document selects are known, and the environment has a name. -/
theorem ManifestDocument.Checked.selected (checked : document.Checked)
    (selected : document.selectedGroups input = some groups) :
    (∃ environment : EnvironmentId, environment.text = input ∧
      environmentGroups document environment = .ok groups) ∧
    ∀ group ∈ groups, (document.groups.get? group).isSome = true := by
  unfold ManifestDocument.selectedGroups at selected
  split at selected
  · next declared found =>
    obtain rfl := Option.some.inj selected
    obtain ⟨⟨environment, named⟩, valid⟩ := checked.environments input declared found
    refine ⟨⟨environment, named, ?_⟩, (validateGroups_eq_ok_iff.mp valid).1⟩
    rw [environmentGroups, named, found]
  · next found =>
    split at selected
    · next default =>
      obtain rfl := Option.some.inj selected
      refine ⟨⟨⟨"default", by decide⟩, default.symm, ?_⟩, by simp⟩
      rw [default] at found
      rw [environmentGroups, found]
      rfl
    · cases selected

/-- Composing a valid document puts its roots together. -/
theorem ManifestDocument.composes (valid : validateDocument document = .ok ())
    (required : parseRConstraint document.rRequirement "r.version" = .ok rRequirement)
    (selected : document.selectedGroups input = some groups)
    (read : (document.selectedEntries groups).mapM (fun entry => rootIntent entry.1 entry.2) =
      .ok intents) : document.Composes input target locked rRequirement intents := by
  obtain ⟨⟨environment, named, found⟩, known⟩ := (checked_of_valid valid).selected selected
  refine ⟨environment, named, ?_⟩
  have folded := foldlM_appendGroup environment known
  rw [foldlM_appendDependency read] at folded
  rw [composeEnvironmentWithLocked, valid, ok_bind, EnvironmentId.new_eq_ok.mpr named]
  simp only [Except.mapError, ok_bind, found, required]
  refine congrArg (_ >>= ·) (funext fun _ => ?_)
  rw [← folded]
  simp only [bind_assoc]

/-- Without groups a valid document does not compose, and no sources are in conflict. -/
theorem ManifestDocument.not_composes (valid : validateDocument document = .ok ())
    (unselected : document.selectedGroups input = none) :
    ∃ cause, composeEnvironmentWithLocked document input target locked = .error cause ∧
      ∀ field, cause ≠ .sourceConflict field := by
  rw [composeEnvironmentWithLocked, valid, ok_bind]
  cases read : EnvironmentId.new input with
  | error cause =>
    refine ⟨_, rfl, fun field conflict => ?_⟩
    cases conflict
  | ok environment =>
    rw [EnvironmentId.new_eq_ok] at read
    have unknown : environmentGroups document environment =
        .error (.unknownEnvironment environment.text) := by
      unfold selectedGroups at unselected
      rw [← read] at unselected
      split at unselected
      · cases unselected
      · next absent =>
        split at unselected
        · cases unselected
        · next other => rw [environmentGroups, absent, if_neg other]
    simp only [Except.mapError, ok_bind, unknown]
    refine ⟨_, rfl, fun field conflict => ?_⟩
    cases conflict

/-- A root that is not allowed is no conflict of sources. -/
theorem not_sourceConflict_of_allowlists {roots : List ComposedRootIntent}
    {repositories : List RepositorySpec} {cause : ManifestError}
    (failed : validateRepositoryPackageAllowlists roots repositories = .error cause) :
    ∀ field, cause ≠ .sourceConflict field := by
  obtain ⟨root, -, stopped⟩ := exists_of_forM_eq_error failed
  split at stopped
  · split at stopped
    · rw [← (ensure_eq_error.mp stopped).2]
      exact nofun
    · cases stopped
  · cases stopped

namespace ManifestDocument.Composes

/-- Composition succeeds when the R version is admitted, the roots merge and all are allowed. -/
theorem exists_iff (composes : document.Composes input target locked rRequirement intents) :
    (∃ composed, composeEnvironmentWithLocked document input target locked = .ok composed) ↔
      rRequirement.satisfies target.rVersion = true ∧
        ∃ table, intents.foldlM (Joins.add ComposedRootIntent.name mergeRoots) OrderedMap.empty =
            .ok table ∧
          validateRepositoryPackageAllowlists table.values document.repositories = .ok () := by
  obtain ⟨environment, -, composed⟩ := composes.composed
  rw [composed]
  constructor
  · rintro ⟨_, done⟩
    obtain ⟨_, admits, done⟩ := bind_eq_ok.mp done
    obtain ⟨table, folded, done⟩ := bind_eq_ok.mp done
    obtain ⟨_, allowed, -⟩ := bind_eq_ok.mp done
    exact ⟨ensure_eq_ok.mp admits, table, folded, allowed⟩
  · rintro ⟨admits, table, folded, allowed⟩
    rw [ensure_of admits, ok_bind, folded, ok_bind, allowed]
    exact ⟨_, rfl⟩

/-- What a composed environment is made of. -/
theorem made (composes : document.Composes input target locked rRequirement intents)
    {composed : ComposedEnvironment}
    (done : composeEnvironmentWithLocked document input target locked = .ok composed) :
    ∃ table, intents.foldlM (Joins.add ComposedRootIntent.name mergeRoots) OrderedMap.empty =
        .ok table ∧ composed.roots = table.values ∧ composed.environment.text = input ∧
      composed.rRequirement = rRequirement ∧ composed.publishedBefore = document.publishedBefore ∧
      composed.repositories = document.repositories := by
  obtain ⟨environment, named, equal⟩ := composes.composed
  rw [equal] at done
  obtain ⟨_, -, done⟩ := bind_eq_ok.mp done
  obtain ⟨table, folded, done⟩ := bind_eq_ok.mp done
  obtain ⟨_, -, done⟩ := bind_eq_ok.mp done
  obtain rfl := Except.ok.inj done
  exact ⟨table, folded, rfl, named, rfl, rfl, rfl⟩

/-- Sources are in conflict when the R version is admitted and the roots do not merge. -/
theorem conflict_iff (composes : document.Composes input target locked rRequirement intents) :
    (∃ field, composeEnvironmentWithLocked document input target locked =
        .error (.sourceConflict field)) ↔
      rRequirement.satisfies target.rVersion = true ∧
        ¬ ∃ table, intents.foldlM (Joins.add ComposedRootIntent.name mergeRoots) OrderedMap.empty =
          .ok table := by
  obtain ⟨environment, -, composed⟩ := composes.composed
  rw [composed]
  by_cases admits : rRequirement.satisfies target.rVersion = true
  · rw [ensure_of admits, ok_bind, and_iff_right admits]
    cases folded : intents.foldlM (Joins.add ComposedRootIntent.name mergeRoots)
        OrderedMap.empty with
    | error cause =>
      obtain ⟨field, rfl⟩ := sourceConflict_of_foldlM folded
      exact iff_of_true ⟨field, rfl⟩ nofun
    | ok table =>
      refine iff_of_false ?_ fun none => none ⟨table, rfl⟩
      rintro ⟨field, failed⟩
      rw [ok_bind] at failed
      rcases bind_eq_error.mp failed with allowed | ⟨_, _, made⟩
      · exact not_sourceConflict_of_allowlists allowed field rfl
      · cases made
  · rw [ensure_of_not admits]
    exact iff_of_false nofun fun both => admits both.1

end ManifestDocument.Composes

end Composed

section Order

/-- Roots that mean the same: they differ in the spelling of versions at most. -/
structure ComposedRootIntent.Alike (left right : ComposedRootIntent) : Prop where
  name : left.name = right.name
  constraint : Same left.constraint right.constraint
  source : left.source = right.source
  expansion : left.expansion = right.expansion

/-- What stands for the same roots is alike. -/
theorem IntentsSum.alike {items others : List ComposedRootIntent} {left right : ComposedRootIntent}
    (first : IntentsSum items left) (second : IntentsSum others right) (name : left.name = right.name)
    (same : ∀ item, item ∈ items ↔ item ∈ others)
    (canonical : ∀ item ∈ items, item.constraint.Canonical) : left.Alike right := by
  refine ⟨name, ?_, ?_, ?_⟩
  · have clauses : Sorting.Matches Same left.constraint.clauses right.constraint.clauses := by
      have spread : ∀ clause, clause ∈ items.flatMap (fun item => item.constraint.clauses) ↔
          clause ∈ others.flatMap fun item => item.constraint.clauses := by
        intro clause
        simp only [List.mem_flatMap, same]
      refine first.clauses.trans (fun _ _ _ => Same.trans)
        ((Sorting.matches_of_mem_iff Same.refl spread).trans (fun _ _ _ => Same.trans) ?_)
      exact ⟨fun clause member => (second.clauses.2 clause member).imp
          fun other both => ⟨both.1, both.2.symm⟩,
        fun clause member => (second.clauses.1 clause member).imp
          fun other both => ⟨both.1, both.2.symm⟩⟩
    rw [← first.canonical canonical,
      ← second.canonical fun item member => canonical item ((same item).mpr member)]
    exact canonicalizeConstraint_same clauses
  · obtain ⟨item, member, chosen⟩ := first.chosen
    obtain ⟨other, otherMember, otherChosen⟩ := second.chosen
    refine ManifestSource.StoodFor.antisymm ?_ ?_
    · rw [← chosen]
      exact second.source item ((same item).mp member)
    · rw [← otherChosen]
      exact first.source other ((same other).mpr otherMember)
  · have directs : left.expansion = .directSuggests ↔ right.expansion = .directSuggests := by
      rw [first.expansion, second.expansion]
      simp only [same]
    cases leftExpansion : left.expansion <;> cases rightExpansion : right.expansion <;>
      simp_all

/-- Alike roots have the same fields. -/
theorem rootFields_congr {left right : ComposedRootIntent} (alike : left.Alike right) :
    rootFields left = rootFields right := by
  have clauses : List.Forall₂ Same left.constraint.clauses right.constraint.clauses :=
    same_list.mp (congrArg VersionConstraint.clauses alike.constraint)
  rw [rootFields, rootFields, alike.name, alike.source, alike.expansion,
    constraintFields_congr (Sorting.matches_of_forall₂ clauses)]

/-- Lists of alike roots have the same fields. -/
theorem flatMap_rootFields_congr {left right : List ComposedRootIntent}
    (alike : List.Forall₂ ComposedRootIntent.Alike left right) :
    left.flatMap rootFields = right.flatMap rootFields := by
  induction alike with
  | nil => rfl
  | cons head _ ih => rw [List.flatMap_cons, List.flatMap_cons, rootFields_congr head, ih]

/-- Alike roots are allowed alike. -/
theorem validateRepositoryPackageAllowlists_congr {left right : List ComposedRootIntent}
    (repositories : List RepositorySpec) (alike : List.Forall₂ ComposedRootIntent.Alike left right) :
    validateRepositoryPackageAllowlists left repositories =
      validateRepositoryPackageAllowlists right repositories := by
  induction alike with
  | nil => rfl
  | cons head _ ih =>
    simp only [validateRepositoryPackageAllowlists, List.forM_eq_forM] at ih ⊢
    rw [List.forM_cons, List.forM_cons, ih, head.source, head.name]

variable {document : ManifestDocument} {input : String} {target : ResolutionTarget}
  {locked : LockedIdentities} {groups permuted : List String}

/-- The document in which an environment has other groups. -/
def ManifestDocument.regrouped (document : ManifestDocument) (input : String)
    (groups : List String) : ManifestDocument :=
  { document with environments := document.environments.insert input groups }

/-- A document stays valid when the groups of an environment are permuted. -/
theorem ManifestDocument.validateDocument_regrouped (valid : validateDocument document = .ok ())
    (declared : document.environments.get? input = some groups) (perm : groups.Perm permuted) :
    validateDocument (document.regrouped input permuted) = .ok () := by
  obtain ⟨_, schema, valid⟩ := bind_eq_ok.mp valid
  obtain ⟨constraint, required, valid⟩ := bind_eq_ok.mp valid
  obtain ⟨_, repositories, valid⟩ := bind_eq_ok.mp valid
  obtain ⟨_, environments, valid⟩ := bind_eq_ok.mp valid
  have each := forM_eq_ok.mp environments
  refine bind_eq_ok.mpr ⟨_, schema, bind_eq_ok.mpr ⟨constraint, required,
    bind_eq_ok.mpr ⟨_, repositories, bind_eq_ok.mpr ⟨(), forM_eq_ok.mpr ?_, valid⟩⟩⟩⟩
  intro entry member
  rcases OrderedMap.mem_insert.mp member with rfl | ⟨old, -⟩
  · obtain ⟨environment, named, selected⟩ :=
      bind_eq_ok.mp (each _ (OrderedMap.get?_eq_some_iff.mp declared))
    obtain ⟨known, distinct, fresh⟩ := validateGroups_eq_ok_iff.mp selected
    refine bind_eq_ok.mpr ⟨environment, named, validateGroups_eq_ok_iff.mpr ⟨?_, ?_, ?_⟩⟩
    · exact fun group member => known group (perm.mem_iff.mpr member)
    · exact perm.nodup_iff.mp distinct
    · exact fun group member => fresh group (perm.mem_iff.mpr member)
  · exact each entry old

/-- The entries that permuted groups select are the same. -/
theorem ManifestDocument.mem_selectedEntries_regrouped (perm : groups.Perm permuted)
    (entry : PackageName × ManifestDependencySpec) :
    entry ∈ (document.regrouped input permuted).selectedEntries permuted ↔
      entry ∈ document.selectedEntries groups := by
  simp only [selectedEntries, regrouped, List.mem_append, List.mem_flatMap, perm.mem_iff]

/-- A root of the manifest has a constraint in canonical form. -/
theorem canonical_of_rootIntent {name : PackageName} {dependency : ManifestDependencySpec}
    {intent : ComposedRootIntent} (made : rootIntent name dependency = .ok intent) :
    intent.constraint.Canonical := by
  obtain ⟨_, -, made⟩ := bind_eq_ok.mp made
  obtain ⟨constraint, read, made⟩ := bind_eq_ok.mp made
  obtain ⟨_, -, made⟩ := bind_eq_ok.mp made
  obtain rfl := Except.ok.inj made
  obtain ⟨_, -, read⟩ := bind_eq_ok.mp read
  split at read
  · obtain rfl := Except.ok.inj read
    rfl
  · obtain ⟨clauses, -, read⟩ := bind_eq_ok.mp read
    obtain rfl := Except.ok.inj read
    exact canonicalizeConstraint_idempotent _

/-- What roots come to in a table of their names. -/
theorem merges_run (intents : List ComposedRootIntent) :
    ((∃ table, intents.foldlM (Joins.add ComposedRootIntent.name mergeRoots) OrderedMap.empty =
        .ok table) ↔
      ∀ left ∈ intents, ∀ right ∈ intents, left.name = right.name →
        left.source.Compatible right.source) ∧
    ∀ table, intents.foldlM (Joins.add ComposedRootIntent.name mergeRoots) OrderedMap.empty =
        .ok table → Holds ComposedRootIntent.name IntentsSum intents table :=
  merges_mergeRoots.run (fun _ _ => ManifestSource.Compatible.symm) (fun _ => .inl rfl) intents

/-- The name of a root is its key. -/
theorem name_of_entry {intents : List ComposedRootIntent} {table : RootTable}
    (holds : Holds ComposedRootIntent.name IntentsSum intents table) {name : PackageName}
    {root : ComposedRootIntent} (entry : (name, root) ∈ table.entries) : root.name = name := by
  obtain ⟨item, member, named⟩ := (holds.entry entry).2.name
  rw [← named]
  exact of_decide_eq_true (List.mem_filter.mp member).2

/-- Tables of the same roots have alike roots in the same order. -/
theorem alike_of_holds {intents others : List ComposedRootIntent} {table other : RootTable}
    (holds : Holds ComposedRootIntent.name IntentsSum intents table)
    (holds' : Holds ComposedRootIntent.name IntentsSum others other)
    (same : ∀ intent, intent ∈ intents ↔ intent ∈ others)
    (canonical : ∀ intent ∈ intents, intent.constraint.Canonical) :
    List.Forall₂ ComposedRootIntent.Alike table.values other.values := by
  refine holds.aligned_values holds' (fun name => by simp only [same])
    fun name left right here there => ?_
  refine (holds.entry here).2.alike (holds'.entry there).2
    ((name_of_entry holds here).trans (name_of_entry holds' there).symm) (fun item => ?_)
    fun item member => canonical item (List.mem_filter.mp member).1
  rw [List.mem_filter, List.mem_filter, same]

/-- What the root of a dependency is made of. -/
structure RootIntentOf (entry : PackageName × ManifestDependencySpec)
    (intent : ComposedRootIntent) : Prop where
  name : intent.name = entry.1
  constraint : parsePackageConstraint entry.2.version entry.1.text = .ok intent.constraint
  source : normalizeSource entry.1 entry.2.source = .ok intent.source
  expansion : intent.expansion = .directSuggests ↔ entry.2.includeSuggests = true

/-- The root of a dependency is made of its parts. -/
theorem rootIntentOf {entry : PackageName × ManifestDependencySpec} {intent : ComposedRootIntent}
    (made : rootIntent entry.1 entry.2 = .ok intent) : RootIntentOf entry intent := by
  obtain ⟨_, -, made⟩ := bind_eq_ok.mp made
  obtain ⟨constraint, read, made⟩ := bind_eq_ok.mp made
  obtain ⟨source, normalized, made⟩ := bind_eq_ok.mp made
  obtain rfl := Except.ok.inj made
  refine ⟨rfl, read, normalized, ?_⟩
  cases entry.2.includeSuggests <;> simp

/-- A permutation of the groups composes alike: both succeed or both fail, and then the roots are
alike and the intent has the same payload. -/
theorem composeEnvironment_regrouped (valid : validateDocument document = .ok ())
    (declared : document.environments.get? input = some groups) (perm : groups.Perm permuted) :
    ((∃ composed, composeEnvironmentWithLocked document input target locked = .ok composed) ↔
      ∃ composed, composeEnvironmentWithLocked (document.regrouped input permuted) input target
        locked = .ok composed) ∧
    ∀ composed other, composeEnvironmentWithLocked document input target locked = .ok composed →
      composeEnvironmentWithLocked (document.regrouped input permuted) input target locked =
        .ok other →
      List.Forall₂ ComposedRootIntent.Alike composed.roots other.roots ∧
        composed.intentPayload = other.intentPayload := by
  have checked := ManifestDocument.checked_of_valid valid
  have valid' := ManifestDocument.validateDocument_regrouped valid declared perm
  have selected : document.selectedGroups input = some groups := by
    rw [ManifestDocument.selectedGroups, declared]
  have selected' : (document.regrouped input permuted).selectedGroups input = some permuted := by
    rw [ManifestDocument.selectedGroups, ManifestDocument.regrouped, OrderedMap.get?_insert,
      if_pos rfl]
  obtain ⟨rRequirement, required⟩ := checked.required
  obtain ⟨intents, read⟩ := checked.exists_intents groups
  obtain ⟨others, read'⟩ := (ManifestDocument.checked_of_valid valid').exists_intents permuted
  have composes := @ManifestDocument.composes _ _ target locked _ _ _ valid required selected read
  have composes' := @ManifestDocument.composes _ _ target locked _ _ _ valid' required selected' read'
  have same : ∀ intent, intent ∈ intents ↔ intent ∈ others := by
    intro intent
    rw [mem_of_mapM_eq_ok read, mem_of_mapM_eq_ok read']
    simp only [ManifestDocument.mem_selectedEntries_regrouped perm]
  have canonical : ∀ intent ∈ intents, intent.constraint.Canonical := by
    intro intent member
    obtain ⟨entry, -, made⟩ := (mem_of_mapM_eq_ok read).mp member
    exact canonical_of_rootIntent made
  have alike : ∀ table other,
      intents.foldlM (Joins.add ComposedRootIntent.name mergeRoots) OrderedMap.empty = .ok table →
      others.foldlM (Joins.add ComposedRootIntent.name mergeRoots) OrderedMap.empty = .ok other →
      List.Forall₂ ComposedRootIntent.Alike table.values other.values := fun table other here there =>
    alike_of_holds ((merges_run intents).2 table here) ((merges_run others).2 other there) same
      canonical
  have merges : (∃ table, intents.foldlM (Joins.add ComposedRootIntent.name mergeRoots)
        OrderedMap.empty = .ok table) ↔
      ∃ table, others.foldlM (Joins.add ComposedRootIntent.name mergeRoots) OrderedMap.empty =
        .ok table := by
    rw [(merges_run intents).1, (merges_run others).1]
    simp only [same]
  constructor
  · rw [composes.exists_iff, composes'.exists_iff]
    refine and_congr_right fun _ => ⟨?_, ?_⟩
    · rintro ⟨table, folded, allowed⟩
      obtain ⟨other, folded'⟩ := merges.mp ⟨table, folded⟩
      rw [validateRepositoryPackageAllowlists_congr _ (alike table other folded folded')] at allowed
      exact ⟨other, folded', allowed⟩
    · rintro ⟨other, folded', allowed⟩
      obtain ⟨table, folded⟩ := merges.mpr ⟨other, folded'⟩
      refine ⟨table, folded, ?_⟩
      rw [validateRepositoryPackageAllowlists_congr _ (alike table other folded folded')]
      exact allowed
  · intro composed other here there
    obtain ⟨table, folded, roots, named, requirement, cutoff, repositories⟩ := composes.made here
    obtain ⟨table', folded', roots', named', requirement', cutoff', repositories'⟩ :=
      composes'.made there
    have alike := alike table table' folded folded'
    rw [← roots, ← roots'] at alike
    refine ⟨alike, ?_⟩
    have fields := flatMap_rootFields_congr alike
    rw [ComposedEnvironment.intentPayload, ComposedEnvironment.intentPayload,
      ComposedEnvironment.intentFields, ComposedEnvironment.intentFields, named, named', requirement,
      requirement', cutoff, cutoff', repositories, repositories', fields]
    rfl

/-- Two dependencies of one name have sources that cannot be merged, as they are normalized. -/
def Conflicting (entries : List (PackageName × ManifestDependencySpec)) : Prop :=
  ∃ left ∈ entries, ∃ right ∈ entries, left.1 = right.1 ∧ ∃ source other,
    normalizeSource left.1 left.2.source = .ok source ∧
    normalizeSource right.1 right.2.source = .ok other ∧ ¬ source.Compatible other

/-- Roots do not merge exactly when two dependencies conflict. -/
theorem conflicting_iff {entries : List (PackageName × ManifestDependencySpec)}
    {intents : List ComposedRootIntent}
    (read : entries.mapM (fun entry => rootIntent entry.1 entry.2) = .ok intents) :
    Conflicting entries ↔ ¬ ∃ table, intents.foldlM (Joins.add ComposedRootIntent.name mergeRoots)
      OrderedMap.empty = .ok table := by
  rw [(merges_run intents).1]
  push Not
  constructor
  · rintro ⟨left, leftIn, right, rightIn, named, source, other, normalized, normalized', apart⟩
    obtain ⟨first, firstIn, made⟩ := exists_mem_of_mapM_eq_ok read leftIn
    obtain ⟨second, secondIn, made'⟩ := exists_mem_of_mapM_eq_ok read rightIn
    have parts := rootIntentOf made
    have parts' := rootIntentOf made'
    refine ⟨first, firstIn, second, secondIn, by rw [parts.name, parts'.name, named], ?_⟩
    rwa [Except.ok.inj (parts.source.symm.trans normalized),
      Except.ok.inj (parts'.source.symm.trans normalized')]
  · rintro ⟨first, firstIn, second, secondIn, named, apart⟩
    obtain ⟨left, leftIn, made⟩ := (mem_of_mapM_eq_ok read).mp firstIn
    obtain ⟨right, rightIn, made'⟩ := (mem_of_mapM_eq_ok read).mp secondIn
    have parts := rootIntentOf made
    have parts' := rootIntentOf made'
    exact ⟨left, leftIn, right, rightIn, by rw [← parts.name, ← parts'.name, named], _, _,
      parts.source, parts'.source, apart⟩

/-- What a composed root means for the dependencies of its name. -/
structure ComposedRootIntent.Joins (entries : List (PackageName × ManifestDependencySpec))
    (root : ComposedRootIntent) : Prop where
  /-- A version is admitted when all dependencies of the name admit it. -/
  satisfies : ∀ version, root.constraint.satisfies version = true ↔
    ∀ entry ∈ entries, entry.1 = root.name → ∃ constraint,
      parsePackageConstraint entry.2.version entry.1.text = .ok constraint ∧
      constraint.satisfies version = true
  /-- Suggested packages are required when one dependency of the name requires them. -/
  expansion : root.expansion = .directSuggests ↔
    ∃ entry ∈ entries, entry.1 = root.name ∧ entry.2.includeSuggests = true

/-- A root of a table means what the dependencies of its name mean together. -/
theorem joins_of_holds {entries : List (PackageName × ManifestDependencySpec)}
    {intents : List ComposedRootIntent} {table : RootTable}
    (read : entries.mapM (fun entry => rootIntent entry.1 entry.2) = .ok intents)
    (holds : Holds ComposedRootIntent.name IntentsSum intents table) {name : PackageName}
    {root : ComposedRootIntent} (entry : (name, root) ∈ table.entries) : root.Joins entries := by
  obtain rfl := name_of_entry holds entry
  obtain ⟨-, sums⟩ := holds.entry entry
  have mem_items : ∀ item, item ∈ intents.filter (fun item => item.name = root.name) ↔
      item ∈ intents ∧ item.name = root.name := by
    intro item
    rw [List.mem_filter, decide_eq_true_eq]
  constructor
  · intro version
    have joined : root.constraint.satisfies version =
        (VersionConstraint.mk ((intents.filter fun item => item.name = root.name).flatMap
          fun item => item.constraint.clauses)).satisfies version :=
      satisfies_of_matches sums.clauses version
    rw [joined, satisfies_flatMap]
    simp only [mem_items, and_imp]
    constructor
    · intro all entry entryIn named
      obtain ⟨item, itemIn, made⟩ := exists_mem_of_mapM_eq_ok read entryIn
      have parts := rootIntentOf made
      exact ⟨item.constraint, parts.constraint, all item itemIn (parts.name.trans named)⟩
    · intro all item itemIn named
      obtain ⟨entry, entryIn, made⟩ := (mem_of_mapM_eq_ok read).mp itemIn
      have parts := rootIntentOf made
      obtain ⟨constraint, parsed, admits⟩ := all entry entryIn (parts.name.symm.trans named)
      rwa [Except.ok.inj (parts.constraint.symm.trans parsed)]
  · rw [sums.expansion]
    constructor
    · rintro ⟨item, member, direct⟩
      obtain ⟨inIntents, named⟩ := (mem_items item).mp member
      obtain ⟨entry, entryIn, made⟩ := (mem_of_mapM_eq_ok read).mp inIntents
      have parts := rootIntentOf made
      exact ⟨entry, entryIn, parts.name.symm.trans named, parts.expansion.mp direct⟩
    · rintro ⟨entry, entryIn, named, direct⟩
      obtain ⟨item, itemIn, made⟩ := exists_mem_of_mapM_eq_ok read entryIn
      have parts := rootIntentOf made
      exact ⟨item, (mem_items item).mpr ⟨itemIn, parts.name.trans named⟩,
        parts.expansion.mpr direct⟩

end Order

/-- A valid document composes alike in every order of the groups of an environment. Its sources are in
conflict exactly when the R version is admitted and two dependencies of one name have normalized
sources that differ and are not registry sources of which one names no repository. Otherwise there is
one root for each name, which joins the dependencies of the name. -/
theorem composeEnvironment_order (document : ManifestDocument)
    (valid : validateDocument document = .ok ()) (input : String) (target : ResolutionTarget)
    (locked : LockedIdentities) :
    (∀ groups permuted, document.environments.get? input = some groups → groups.Perm permuted →
      ((∃ composed, composeEnvironmentWithLocked document input target locked = .ok composed) ↔
        ∃ composed, composeEnvironmentWithLocked (document.regrouped input permuted) input target
          locked = .ok composed) ∧
      ∀ composed other, composeEnvironmentWithLocked document input target locked = .ok composed →
        composeEnvironmentWithLocked (document.regrouped input permuted) input target locked =
          .ok other →
        List.Forall₂ ComposedRootIntent.Alike composed.roots other.roots ∧
          composed.intentPayload = other.intentPayload) ∧
    ((∃ field, composeEnvironmentWithLocked document input target locked =
        .error (.sourceConflict field)) ↔
      ∃ groups, document.selectedGroups input = some groups ∧
        (∃ constraint, parseRConstraint document.rRequirement "r.version" = .ok constraint ∧
          constraint.satisfies target.rVersion = true) ∧
        Conflicting (document.selectedEntries groups)) ∧
    ∀ composed, composeEnvironmentWithLocked document input target locked = .ok composed →
      ∃ groups, document.selectedGroups input = some groups ∧
        (∀ name, (∃ root ∈ composed.roots, root.name = name) ↔
          ∃ entry ∈ document.selectedEntries groups, entry.1 = name) ∧
        ∀ root ∈ composed.roots, root.Joins (document.selectedEntries groups) := by
  refine ⟨fun groups permuted declared perm => composeEnvironment_regrouped valid declared perm, ?_⟩
  have checked := ManifestDocument.checked_of_valid valid
  cases selected : document.selectedGroups input with
  | none =>
    obtain ⟨cause, failed, other⟩ :=
      @ManifestDocument.not_composes _ _ target locked valid selected
    rw [failed]
    constructor
    · refine iff_of_false ?_ ?_
      · rintro ⟨field, equal⟩
        exact other field (Except.error.inj equal)
      · rintro ⟨_, equal, -⟩
        cases equal
    · intro composed done
      cases done
  | some groups =>
    obtain ⟨rRequirement, required⟩ := checked.required
    obtain ⟨intents, read⟩ := checked.exists_intents groups
    have composes := @ManifestDocument.composes _ _ target locked _ _ _ valid required selected read
    constructor
    · rw [composes.conflict_iff, ← conflicting_iff read]
      constructor
      · rintro ⟨admits, conflicting⟩
        exact ⟨groups, rfl, ⟨rRequirement, required, admits⟩, conflicting⟩
      · rintro ⟨_, equal, ⟨constraint, parsed, admits⟩, conflicting⟩
        obtain rfl := Option.some.inj equal
        rw [Except.ok.inj (required.symm.trans parsed)]
        exact ⟨admits, conflicting⟩
    · intro composed done
      obtain ⟨table, folded, roots, -⟩ := composes.made done
      have holds := (merges_run intents).2 table folded
      have mem_roots : ∀ root, root ∈ composed.roots ↔ ∃ name, (name, root) ∈ table.entries := by
        intro root
        simp only [roots, OrderedMap.values, List.mem_map, Prod.exists, exists_eq_right]
      refine ⟨groups, rfl, fun name => ⟨?_, ?_⟩, fun root member => ?_⟩
      · rintro ⟨root, member, rfl⟩
        obtain ⟨name, entry⟩ := (mem_roots root).mp member
        obtain ⟨item, itemIn, named⟩ := (holds.entry entry).1
        obtain ⟨dependency, dependencyIn, made⟩ := (mem_of_mapM_eq_ok read).mp itemIn
        refine ⟨dependency, dependencyIn, ?_⟩
        rw [← (rootIntentOf made).name, named, name_of_entry holds entry]
      · rintro ⟨dependency, dependencyIn, rfl⟩
        obtain ⟨item, itemIn, made⟩ := exists_mem_of_mapM_eq_ok read dependencyIn
        obtain ⟨root, entry⟩ := holds.exists_entry itemIn
        refine ⟨root, (mem_roots root).mpr ⟨_, entry⟩, ?_⟩
        rw [name_of_entry holds entry, (rootIntentOf made).name]
      · obtain ⟨name, entry⟩ := (mem_roots root).mp member
        exact joins_of_holds read holds entry

namespace Small

/-- The name of a package. -/
theorem glue_named : PackageName.check "glue" = .ok () := by decide

/-- The package. -/
def gluePackage : PackageName := ⟨"glue", glue_named⟩

/-- A table with one dependency on the package. -/
def glueTable (version : String) (source : ManifestSource) : DependencyTable :=
  OrderedMap.empty.insert gluePackage ⟨version, source, false⟩

/-- A document whose default environment selects the groups `dev` and `test`. -/
def glueDocument (rRequirement : String) (base dev test : DependencyTable) : ManifestDocument where
  schema := 1
  rRequirement
  publishedBefore := none
  repositories := []
  dependencies := base
  groups := (OrderedMap.empty.insert "dev" dev).insert "test" test
  environments := OrderedMap.empty.insert "default" ["dev", "test"]

/-- A target. -/
def glueTarget : ResolutionTarget := ⟨⟨"4.4.1", .fromVec [4, 4, 1], by decide⟩⟩

end Small

/-- Sources that differ only before they are normalized are merged, and sources that differ are not
looked at when the R version is not admitted. -/
theorem composeEnvironment_spellings :
    (∃ document, validateDocument document = .ok () ∧
      (∃ groups, document.selectedGroups "default" = some groups ∧
        ∃ left ∈ document.selectedEntries groups, ∃ right ∈ document.selectedEntries groups,
          left.1 = right.1 ∧ ¬ left.2.source.Compatible right.2.source) ∧
      (composeEnvironmentWithLocked document "default" Small.glueTarget KeyedMap.empty).isOk =
        true) ∧
    ∃ document, validateDocument document = .ok () ∧
      (∃ groups, document.selectedGroups "default" = some groups ∧
        ∃ left ∈ document.selectedEntries groups, ∃ right ∈ document.selectedEntries groups,
          left.1 = right.1 ∧ ¬ left.2.source.Compatible right.2.source) ∧
      ∃ target constraint, composeEnvironmentWithLocked document "default" Small.glueTarget
        KeyedMap.empty = .error (.targetOutsideRConstraint target constraint) := by
  have apart : ¬ (ManifestSource.path "./glue" none).Compatible (.path "glue" none) := by
    rintro (equal | ⟨none, -⟩ | ⟨-, none⟩)
    · exact absurd equal (by decide)
    · cases none
    · cases none
  constructor
  · refine ⟨Small.glueDocument "*" OrderedMap.empty (Small.glueTable "*" (.path "./glue" none))
      (Small.glueTable "*" (.path "glue" none)), by decide +kernel, ⟨["dev", "test"], rfl,
      (Small.gluePackage, ⟨"*", .path "./glue" none, false⟩), by decide +kernel,
      (Small.gluePackage, ⟨"*", .path "glue" none, false⟩), by decide +kernel, rfl, apart⟩,
      by decide +kernel⟩
  · refine ⟨Small.glueDocument ">= 5.0" OrderedMap.empty (Small.glueTable "*" (.path "./glue" none))
      (Small.glueTable "*" (.path "glue" none)), by decide +kernel, ⟨["dev", "test"], rfl,
      (Small.gluePackage, ⟨"*", .path "./glue" none, false⟩), by decide +kernel,
      (Small.gluePackage, ⟨"*", .path "glue" none, false⟩), by decide +kernel, rfl, apart⟩,
      "4.4.1", ">= 5.0", ?_⟩
    have failed : (composeEnvironmentWithLocked (Small.glueDocument ">= 5.0" OrderedMap.empty
        (Small.glueTable "*" (.path "./glue" none)) (Small.glueTable "*" (.path "glue" none)))
        "default" Small.glueTarget KeyedMap.empty).map (fun _ => ()) =
          .error (.targetOutsideRConstraint "4.4.1" ">= 5.0") := by
      decide +kernel
    generalize composeEnvironmentWithLocked _ _ _ _ = result at failed
    cases result with
    | ok composed => cases failed
    | error cause => exact congrArg Except.error (Except.error.inj failed)

/-- Two groups with constraints on one package compose alike in both orders. -/
theorem composeEnvironment_order_glue :
    ∃ document composed other, validateDocument document = .ok () ∧
      document.environments.get? "default" = some ["dev", "test"] ∧
      composeEnvironmentWithLocked document "default" Small.glueTarget KeyedMap.empty =
        .ok composed ∧
      composeEnvironmentWithLocked (document.regrouped "default" ["test", "dev"]) "default"
        Small.glueTarget KeyedMap.empty = .ok other ∧
      List.Forall₂ ComposedRootIntent.Alike composed.roots other.roots ∧
      composed.intentPayload = other.intentPayload ∧
      ∃ root ∈ composed.roots, root.name = Small.gluePackage := by
  have valid : validateDocument (Small.glueDocument ">= 4.0" (Small.glueTable ">= 1.0" (.registry none))
      (Small.glueTable "< 2.0" (.registry none)) (Small.glueTable "!= 1.5.0" (.registry none))) =
        .ok () := by
    decide +kernel
  obtain ⟨composed, done⟩ := exists_of_isOk (show (composeEnvironmentWithLocked (Small.glueDocument
    ">= 4.0" (Small.glueTable ">= 1.0" (.registry none)) (Small.glueTable "< 2.0" (.registry none))
    (Small.glueTable "!= 1.5.0" (.registry none))) "default" Small.glueTarget KeyedMap.empty).isOk =
      true by decide +kernel)
  obtain ⟨orders, -, meaning⟩ := composeEnvironment_order _ valid "default" Small.glueTarget
    KeyedMap.empty
  obtain ⟨alike, equal⟩ := orders ["dev", "test"] ["test", "dev"] rfl (List.Perm.swap _ _ _)
  obtain ⟨other, there⟩ := alike.mp ⟨composed, done⟩
  obtain ⟨roots, payload⟩ := equal composed other done there
  obtain ⟨groups, selected, names, -⟩ := meaning composed done
  obtain rfl := Option.some.inj selected
  refine ⟨_, composed, other, valid, rfl, done, there, roots, payload, (names _).mpr ?_⟩
  exact ⟨(Small.gluePackage, ⟨">= 1.0", .registry none, false⟩), by decide +kernel, rfl⟩

end Rsolve
