import Mathlib.Data.Finset.Card
import Mathlib.Data.Finset.Union
import Rsolve.Acquisition.Providers

/-!
# Acquisition ends with a plan that its snapshots cover

Every round that goes on either gives CRAN a new root, of finitely many packages that can be
mentioned, or opens a group of R-universe entries that was not open, of finitely many groups. The
state keeps a record of the calls, from which the last round reads off what was acquired.
-/
open Keyed Checked Ordered

namespace Rsolve

namespace AcquisitionTask

variable {task : AcquisitionTask} {state next : AcquisitionState}

/-- A loader that the providers of a task can return. -/
inductive Produces (task : AcquisitionTask) (loader : RawCandidateLoader) : Prop
  | cran {calls : List ProviderCall} {repository : RepositorySpec} {roots : List RootRequirement}
      {optional : List PackageName} {refresh : Bool}
      (prepared : task.factories.prepare calls repository roots optional refresh =
        .ok (some loader))
  | rUniverse {calls : List ProviderCall} {endpoint : String} {registry : RegistryId}
      {session : RUniverseSession} {scope : Option (List PackageName)}
      (created : task.factories.create calls endpoint registry = .ok session)
      (acquired : session.acquire task.offline task.refreshMetadata scope = .ok loader)

/-- A snapshot mentions no other packages than some, and fails only because a package is not
there. -/
structure Mentions (names : Finset PackageName) (loader : RawCandidateLoader) : Prop where
  /-- A package that is not there is reported as absent. -/
  absent : ∀ package cause, loader (.installedName package) = .error cause →
    cause.category = .notFound
  /-- A package with observations is one of them. -/
  listed : ∀ package result, loader (.installedName package) = .ok result →
    result.observations ≠ [] → package ∈ names
  /-- A package that a release depends on is one of them. -/
  declared : ∀ package result, loader (.installedName package) = .ok result →
    ∀ observation ∈ result.observations,
      ∀ dependency ∈ observation.release.declaredDependencies, dependency.package.name ∈ names

/-- A package is covered by a snapshot. -/
def Covers (loader : Option RawCandidateLoader) (package : PackageName) : Prop :=
  ∃ current, loader = some current ∧ rawPackageIsCovered current package = .ok true

/-- The packages of some roots. -/
def namesOf (roots : List RootRequirement) : List PackageName :=
  roots.map (fun root => root.package.name)

/-- The packages of the roots made for some packages. -/
@[simp]
theorem namesOf_rootRequirement (packages : List PackageName) :
    namesOf (packages.map rootRequirement) = packages := by
  simp [namesOf, Function.comp_def, rootRequirement]

/-- The packages of two lists of roots. -/
@[simp]
theorem namesOf_append (left right : List RootRequirement) :
    namesOf (left ++ right) = namesOf left ++ namesOf right := List.map_append

/-- A package is demanded of an entry when its pair is demanded. -/
@[simp]
theorem mem_demandsOf {demands : Finset (Nat × PackageName)} {entry : Nat} {package : PackageName} :
    package ∈ demandsOf demands entry ↔ (entry, package) ∈ demands := by
  simp [demandsOf]

/-- The roots that are added are demanded packages that were no roots; every demanded package is then
covered or a root. -/
theorem addCranRoots_spec {current : Option RawCandidateLoader} {packages : List PackageName}
    {roots roots' : List RootRequirement} {missing missing' : Bool}
    (run : packages.foldlM (addCranRoot current) (roots, missing) = .ok (roots', missing')) :
    ∃ added : List PackageName, roots' = roots ++ added.map rootRequirement ∧
      missing' = (missing || !added.isEmpty) ∧
      (∀ package ∈ added, package ∈ packages ∧ package ∉ namesOf roots) ∧
      ∀ package ∈ packages, Covers current package ∨ package ∈ namesOf roots' := by
  induction packages generalizing roots missing with
  | nil =>
    obtain ⟨rfl, rfl⟩ := Prod.mk.inj (Except.ok.inj run)
    exact ⟨[], by simp, by simp, by simp, by simp⟩
  | cons first rest ih =>
    rw [List.foldlM_cons] at run
    obtain ⟨⟨between, flag⟩, head, tail⟩ := bind_eq_ok.mp run
    obtain ⟨added, grown, flagged, new, settled⟩ := ih tail
    obtain ⟨covered, asked, head⟩ := bind_eq_ok.mp head
    by_cases root : first ∈ namesOf roots
    · have kept : (!covered && roots.all (fun root => root.package.name != first)) = false := by
        obtain ⟨requirement, member, same⟩ := List.mem_map.mp root
        have listed : roots.all (fun root => root.package.name != first) = false := by
          rw [List.all_eq_false]
          exact ⟨requirement, member, by simp [same]⟩
        rw [listed, Bool.and_false]
      simp only [kept, Bool.false_eq_true, if_false] at head
      obtain ⟨rfl, rfl⟩ := Prod.mk.inj (Except.ok.inj head)
      refine ⟨added, grown, flagged, fun package member => ?_, fun package member => ?_⟩
      · exact ⟨List.mem_cons_of_mem _ (new package member).1, (new package member).2⟩
      · rcases List.mem_cons.mp member with rfl | member
        · right
          rw [grown, namesOf_append]
          exact List.mem_append_left _ root
        · exact settled package member
    · cases covered with
      | true =>
        obtain ⟨rfl, rfl⟩ := Prod.mk.inj (Except.ok.inj head)
        have covers : Covers current first := by
          cases current with
          | none => cases asked
          | some loader => exact ⟨loader, rfl, mapError_eq_ok.mp asked⟩
        refine ⟨added, grown, flagged, fun package member => ?_, fun package member => ?_⟩
        · exact ⟨List.mem_cons_of_mem _ (new package member).1, (new package member).2⟩
        · rcases List.mem_cons.mp member with rfl | member
          · exact .inl covers
          · exact settled package member
      | false =>
        have missed : (!false && roots.all (fun root => root.package.name != first)) = true := by
          simp only [Bool.not_false, Bool.true_and, List.all_eq_true, bne_iff_ne, ne_eq]
          intro requirement member same
          exact root (List.mem_map.mpr ⟨requirement, member, same⟩)
        simp only [missed, if_true] at head
        obtain ⟨rfl, rfl⟩ := Prod.mk.inj (Except.ok.inj head)
        refine ⟨first :: added, ?_, ?_, ?_, ?_⟩
        · rw [grown, List.map_cons, List.append_assoc]
          rfl
        · simp [flagged]
        · intro package member
          rcases List.mem_cons.mp member with rfl | member
          · exact ⟨List.mem_cons_self, root⟩
          · refine ⟨List.mem_cons_of_mem _ (new package member).1, fun old => ?_⟩
            refine (new package member).2 ?_
            rw [namesOf_append]
            exact List.mem_append_left _ old
        · intro package member
          rcases List.mem_cons.mp member with rfl | member
          · right
            rw [grown]
            simp [namesOf, rootRequirement]
          · exact settled package member

/-- What a state keeps from round to round. -/
structure Sound (task : AcquisitionTask) (state : AcquisitionState) : Prop where
  /-- The providers have returned the snapshots. -/
  produced : ∀ loader ∈ state.snapshots, task.Produces loader
  /-- The snapshot of an entry is there. -/
  indexed : ∀ entry index, state.snapshotIndices entry = some index →
    index < state.snapshots.length
  /-- No R-universe entry has the snapshot of the CRAN entry. -/
  apart : ∀ entry repository index, task.repositories[entry]? = some repository →
    repository.registry = .rUniverse → state.snapshotIndices entry = some index →
      ∀ cran ∈ task.cranEntry, state.snapshotIndices cran.2 ≠ some index
  /-- A group that is open was opened once, and its entries have its snapshot. -/
  opened : ∀ entry repository registry, task.repositories[entry]? = some repository →
    task.inGroup registry repository.manifestEndpoint.text repository = true →
    (registry.text, repository.manifestEndpoint.text) ∈ state.preparedGroups →
      ∃ loader, state.loaderOf entry = some loader ∧
        state.calls.filter (ProviderCall.opens registry repository.manifestEndpoint.text) =
          [.openGroup registry repository.manifestEndpoint.text
            (task.rUniverseGroupScope registry repository.manifestEndpoint.text) loader]
  /-- A group that is not open was not opened. -/
  unopened : ∀ (registry : RegistryId) (endpoint : String),
    (registry.text, endpoint) ∉ state.preparedGroups → state.calls.filter (ProviderCall.opens registry endpoint) = []
  /-- CRAN was last prepared for the roots. -/
  prepared : (state.calls.filterMap ProviderCall.preparedRoots).getLast? =
    if state.cranIteration = 0 then none else some state.cranRoots
  /-- There are no roots before the first preparation. -/
  rooted : state.cranIteration = 0 → state.cranRoots = []
  /-- A refresh is forced at most once. -/
  forced : (state.calls.filter ProviderCall.isForced).length ≤ 1
  /-- Nothing is forced before the first preparation. -/
  unforced : state.cranIteration = 0 → state.calls.filter ProviderCall.isForced = []

/-- The state before any provider is opened. -/
theorem Sound.initial : task.Sound .initial where
  produced := by rintro _ ⟨⟩
  indexed := by rintro _ _ ⟨⟩
  apart := by rintro _ _ _ _ _ ⟨⟩
  opened := by rintro _ _ _ _ _ ⟨⟩
  unopened := fun _ _ _ => rfl
  prepared := rfl
  rooted := fun _ => rfl
  forced := Nat.zero_le 1
  unforced := fun _ => rfl

/-- A CRAN preparation: the calls and the roots it leaves, and the snapshot it may have brought. -/
structure Prepared (task : AcquisitionTask) (state : AcquisitionState) (index : Nat)
    (roots : List RootRequirement) (next : AcquisitionState) : Prop where
  /-- The roots are those of the preparation. -/
  cranRoots : next.cranRoots = roots
  /-- One preparation more. -/
  iteration : next.cranIteration = state.cranIteration + 1
  /-- No group was opened. -/
  groups : next.preparedGroups = state.preparedGroups
  /-- The preparation was called for the roots, and is forced only if it is the first. -/
  calls : ∃ optional, next.calls = state.calls ++
    [.prepareCran roots optional (refreshRequested task.refreshMetadata state.cranIteration)]
  /-- A snapshot was returned for the entry, or none. -/
  snapshot : (next.snapshots = state.snapshots ∧ next.snapshotIndices = state.snapshotIndices) ∨
    ∃ loader, task.Produces loader ∧
      ((∃ old, state.snapshotIndices index = some old ∧
        next.snapshots = state.snapshots.set old loader ∧
        next.snapshotIndices = state.snapshotIndices) ∨
      (state.snapshotIndices index = none ∧ next.snapshots = state.snapshots ++ [loader] ∧
        next.snapshotIndices =
          Function.update state.snapshotIndices index (some state.snapshots.length)))

/-- What a CRAN preparation does. -/
theorem prepareCran_spec {roots : List RootRequirement} {index : Nat} {repository : RepositorySpec}
    {optional : List PackageName}
    (run : task.prepareCran { state with cranRoots := roots } index repository optional =
      .ok next) : task.Prepared state index roots next := by
  obtain ⟨loader, prepared, run⟩ := bind_eq_ok.mp run
  cases loader with
  | none =>
    obtain rfl := Except.ok.inj run
    exact ⟨rfl, rfl, rfl, ⟨optional, rfl⟩, .inl ⟨rfl, rfl⟩⟩
  | some loader =>
    have produced : task.Produces loader := .cran prepared
    cases found : state.snapshotIndices index with
    | some old =>
      simp only [found] at run
      obtain rfl := Except.ok.inj run
      exact ⟨rfl, rfl, rfl, ⟨optional, rfl⟩, .inr ⟨loader, produced, .inl ⟨old, found, rfl, rfl⟩⟩⟩
    | none =>
      simp only [found] at run
      obtain rfl := Except.ok.inj run
      exact ⟨rfl, rfl, rfl, ⟨optional, rfl⟩, .inr ⟨loader, produced, .inr ⟨found, rfl, rfl⟩⟩⟩

/-- The CRAN entry is a CRAN repository of the composition. -/
theorem cranEntry_spec {cran : RepositorySpec × Nat} (found : cran ∈ task.cranEntry) :
    task.repositories[cran.2]? = some cran.1 ∧ cran.1.registry = .cran := by
  have matching := List.find?_some found
  exact ⟨List.mk_mem_zipIdx_iff_getElem?.mp (List.mem_of_find?_eq_some found),
    by simpa using matching⟩

/-- A preparation leaves the snapshots of the R-universe entries. -/
theorem Prepared.loaderOf (sound : task.Sound state) {cran : RepositorySpec × Nat}
    {roots : List RootRequirement} (found : cran ∈ task.cranEntry)
    (prepared : task.Prepared state cran.2 roots next) {entry : Nat} {repository : RepositorySpec}
    (there : task.repositories[entry]? = some repository)
    (kind : repository.registry = .rUniverse) :
    next.loaderOf entry = state.loaderOf entry := by
  obtain ⟨at', isCran⟩ := cranEntry_spec found
  have other : entry ≠ cran.2 := by
    rintro rfl
    rw [there] at at'
    obtain rfl := Option.some.inj at'
    rw [kind] at isCran
    cases isCran
  unfold AcquisitionState.loaderOf
  rcases prepared.snapshot with ⟨snapshots, indices⟩ |
    ⟨loader, -, ⟨old, has, snapshots, indices⟩ | ⟨-, snapshots, indices⟩⟩
  · rw [snapshots, indices]
  · rw [snapshots, indices]
    cases stored : state.snapshotIndices entry with
    | none => rfl
    | some index =>
      have differs : old ≠ index := by
        rintro rfl
        exact sound.apart entry repository old there kind stored cran found has
      exact List.getElem?_set_ne differs
  · rw [snapshots, indices, Function.update_of_ne other]
    cases stored : state.snapshotIndices entry with
    | none => rfl
    | some index => exact List.getElem?_append_left (sound.indexed entry index stored)

/-- A preparation keeps a state sound. -/
theorem Sound.prepare (sound : task.Sound state) {cran : RepositorySpec × Nat}
    {roots : List RootRequirement} (found : cran ∈ task.cranEntry)
    (prepared : task.Prepared state cran.2 roots next) : task.Sound next := by
  obtain ⟨optional, calls⟩ := prepared.calls
  have opens : ∀ registry endpoint, next.calls.filter (ProviderCall.opens registry endpoint) =
      state.calls.filter (ProviderCall.opens registry endpoint) := by
    intro registry endpoint
    rw [calls, List.filter_append]
    exact List.append_nil _
  refine ⟨?_, ?_, ?_, ?_, ?_, ?_, ?_, ?_, ?_⟩
  · intro loader member
    rcases prepared.snapshot with ⟨snapshots, -⟩ |
      ⟨new, produced, ⟨old, -, snapshots, -⟩ | ⟨-, snapshots, -⟩⟩
    · exact sound.produced loader (snapshots ▸ member)
    · rcases List.mem_or_eq_of_mem_set (snapshots ▸ member) with member | rfl
      · exact sound.produced loader member
      · exact produced
    · rcases List.mem_append.mp (snapshots ▸ member) with member | member
      · exact sound.produced loader member
      · obtain rfl := List.mem_singleton.mp member
        exact produced
  · intro entry index stored
    rcases prepared.snapshot with ⟨snapshots, indices⟩ |
      ⟨new, -, ⟨old, -, snapshots, indices⟩ | ⟨-, snapshots, indices⟩⟩
    · rw [snapshots]
      exact sound.indexed entry index (indices ▸ stored)
    · rw [snapshots, List.length_set]
      exact sound.indexed entry index (indices ▸ stored)
    · rw [snapshots, List.length_append, List.length_singleton]
      rw [indices] at stored
      by_cases same : entry = cran.2
      · rw [same, Function.update_self] at stored
        obtain rfl := Option.some.inj stored
        exact Nat.lt_succ_self _
      · rw [Function.update_of_ne same] at stored
        exact Nat.lt_succ_of_lt (sound.indexed entry index stored)
  · intro entry repository index there kind stored other found' shared
    obtain rfl : cran = other := Option.some.inj (found.symm.trans found')
    obtain ⟨at', isCran⟩ := cranEntry_spec found
    have apart : entry ≠ cran.2 := by
      rintro rfl
      rw [there] at at'
      obtain rfl := Option.some.inj at'
      rw [kind] at isCran
      cases isCran
    rcases prepared.snapshot with ⟨-, indices⟩ |
      ⟨new, -, ⟨old, -, -, indices⟩ | ⟨-, -, indices⟩⟩
    · rw [indices] at stored shared
      exact sound.apart entry repository index there kind stored cran found shared
    · rw [indices] at stored shared
      exact sound.apart entry repository index there kind stored cran found shared
    · rw [indices, Function.update_of_ne apart] at stored
      rw [indices, Function.update_self] at shared
      obtain rfl := Option.some.inj shared
      exact absurd (sound.indexed entry _ stored) (Nat.lt_irrefl _)
  · intro entry repository registry there grouped open'
    rw [prepared.groups] at open'
    rw [opens]
    have kind : repository.registry = .rUniverse := by
      simp only [inGroup, Bool.and_eq_true, beq_iff_eq] at grouped
      exact grouped.1.1
    rw [prepared.loaderOf sound found there kind]
    exact sound.opened entry repository registry there grouped open'
  · intro registry endpoint closed
    rw [prepared.groups] at closed
    rw [opens]
    exact sound.unopened registry endpoint closed
  · rw [prepared.iteration, prepared.cranRoots, calls, List.filterMap_append]
    simp [ProviderCall.preparedRoots]
  · intro none
    rw [prepared.iteration] at none
    cases none
  · rw [calls, List.filter_append, List.length_append]
    by_cases first : state.cranIteration = 0
    · rw [sound.unforced first, List.length_nil, Nat.zero_add]
      exact List.length_filter_le _ _
    · have unforced : refreshRequested task.refreshMetadata state.cranIteration = false := by
        simp [refreshRequested, first]
      rw [unforced]
      exact sound.forced
  · intro none
    rw [prepared.iteration] at none
    cases none

/-- The entries of a group are R-universe repositories with its registry and endpoint. -/
theorem inGroup_iff {registry : RegistryId} {endpoint : String} {repository : RepositorySpec} :
    task.inGroup registry endpoint repository = true ↔ repository.registry = .rUniverse ∧
      task.configuredRegistryId repository = .ok registry ∧
        repository.manifestEndpoint.text = endpoint := by
  unfold inGroup
  cases task.configuredRegistryId repository with
  | error cause => simp
  | ok registry' => simp [and_assoc]

/-- The snapshot of an entry after a group was opened. -/
theorem addGroup_loaderOf (sound : task.Sound state) {registry : RegistryId} {endpoint : String}
    {scope : Option (List PackageName)} {loader : RawCandidateLoader} {entry : Nat}
    {repository : RepositorySpec} (there : task.repositories[entry]? = some repository) :
    (task.addGroup state registry endpoint scope loader).loaderOf entry =
      if task.inGroup registry endpoint repository then some loader else state.loaderOf entry := by
  unfold AcquisitionState.loaderOf addGroup
  simp only [there]
  split
  · simp
  · cases stored : state.snapshotIndices entry with
    | none => rfl
    | some index => exact List.getElem?_append_left (sound.indexed entry index stored)

/-- Opening a group that is not open keeps a state sound. -/
theorem Sound.addGroup (sound : task.Sound state) {registry : RegistryId} {endpoint : String}
    {loader : RawCandidateLoader} (closed : (registry.text, endpoint) ∉ state.preparedGroups)
    (produced : task.Produces loader) :
    task.Sound (task.addGroup state registry endpoint
      (task.rUniverseGroupScope registry endpoint) loader) := by
  have opens : ∀ registry' endpoint', (task.addGroup state registry endpoint
      (task.rUniverseGroupScope registry endpoint) loader).calls.filter
        (ProviderCall.opens registry' endpoint') =
      state.calls.filter (ProviderCall.opens registry' endpoint') ++
        if registry = registry' ∧ endpoint = endpoint' then
          [.openGroup registry endpoint (task.rUniverseGroupScope registry endpoint) loader]
        else [] := by
    intro registry' endpoint'
    simp only [AcquisitionTask.addGroup, List.filter_append, List.filter_cons, List.filter_nil,
      ProviderCall.opens, Bool.and_eq_true, beq_iff_eq]
  refine ⟨?_, ?_, ?_, ?_, ?_, ?_, sound.rooted, ?_, ?_⟩
  · intro other member
    rcases List.mem_append.mp member with member | member
    · exact sound.produced other member
    · obtain rfl := List.mem_singleton.mp member
      exact produced
  · intro entry index stored
    simp only [AcquisitionTask.addGroup, List.length_append, List.length_singleton] at stored ⊢
    have old : state.snapshotIndices entry = some index → index < state.snapshots.length + 1 :=
      fun stored => Nat.lt_succ_of_lt (sound.indexed entry index stored)
    split at stored
    · split at stored
      · obtain rfl := Option.some.inj stored
        exact Nat.lt_succ_self _
      · exact old stored
    · exact old stored
  · intro entry repository index there kind stored cran found shared
    obtain ⟨at', isCran⟩ := cranEntry_spec found
    have outside : task.inGroup registry endpoint cran.1 = false := by
      rw [Bool.eq_false_iff]
      intro inside
      rw [(inGroup_iff.mp inside).1] at isCran
      cases isCran
    simp only [AcquisitionTask.addGroup, at', outside, Bool.false_eq_true, if_false] at shared
    simp only [AcquisitionTask.addGroup, there] at stored
    split at stored
    · obtain rfl := Option.some.inj stored
      exact absurd (sound.indexed cran.2 _ shared) (Nat.lt_irrefl _)
    · exact sound.apart entry repository index there kind stored cran found shared
  · intro entry repository registry' there grouped open'
    rw [addGroup_loaderOf sound there, opens]
    obtain ⟨kind, configured, named⟩ := inGroup_iff.mp grouped
    by_cases inside : task.inGroup registry endpoint repository = true
    · obtain ⟨-, configured', named'⟩ := inGroup_iff.mp inside
      have same : registry = registry' :=
        Except.ok.inj (configured'.symm.trans configured)
      subst same
      subst named'
      refine ⟨loader, if_pos inside, ?_⟩
      rw [sound.unopened registry _ closed, if_pos ⟨rfl, rfl⟩, List.nil_append]
    · have differs : ¬ (registry = registry' ∧ endpoint = repository.manifestEndpoint.text) := by
        rintro ⟨rfl, rfl⟩
        exact inside grouped
      have before : (registry'.text, repository.manifestEndpoint.text) ∈ state.preparedGroups := by
        rcases List.mem_cons.mp open' with same | before
        · obtain ⟨text, named'⟩ := Prod.mk.inj same
          exact absurd ⟨Identifier.ext text.symm, named'.symm⟩ differs
        · exact before
      rw [if_neg inside, if_neg differs, List.append_nil]
      exact sound.opened entry repository registry' there grouped before
  · intro registry' endpoint' closed'
    have differs : ¬ (registry = registry' ∧ endpoint = endpoint') := by
      rintro ⟨rfl, rfl⟩
      exact closed' List.mem_cons_self
    have before : (registry'.text, endpoint') ∉ state.preparedGroups :=
      fun old => closed' (List.mem_cons_of_mem _ old)
    rw [opens, if_neg differs, List.append_nil]
    exact sound.unopened registry' endpoint' before
  · have roots : (task.addGroup state registry endpoint (task.rUniverseGroupScope registry endpoint)
        loader).calls.filterMap ProviderCall.preparedRoots =
        state.calls.filterMap ProviderCall.preparedRoots := by
      simp [AcquisitionTask.addGroup, ProviderCall.preparedRoots]
    rw [roots]
    exact sound.prepared
  · simp only [AcquisitionTask.addGroup, List.filter_append]
    rw [show [ProviderCall.openGroup registry endpoint (task.rUniverseGroupScope registry endpoint)
      loader].filter ProviderCall.isForced = [] from rfl, List.append_nil]
    exact sound.forced
  · intro none
    simp only [AcquisitionTask.addGroup, List.filter_append]
    rw [sound.unforced none]
    rfl

/-- The registry and endpoint of an entry. -/
def groupOf (task : AcquisitionTask) (repository : RepositorySpec) : Option (String × String) :=
  match task.configuredRegistryId repository with
  | .ok registry => some (registry.text, repository.manifestEndpoint.text)
  | .error _ => none

/-- The groups of a composition. -/
def groups (task : AcquisitionTask) : Finset (String × String) :=
  (task.repositories.filterMap task.groupOf).toFinset

/-- A demanded R-universe entry has an open group. -/
def Opened (task : AcquisitionTask) (state : AcquisitionState)
    (demands : Finset (Nat × PackageName)) (entry : RepositorySpec × Nat) : Prop :=
  entry.1.registry = .rUniverse → demandsOf demands entry.2 ≠ [] →
    ∃ group, task.groupOf entry.1 = some group ∧ group ∈ state.preparedGroups

/-- What a pass over the entries leaves: nothing has changed and the entries are open, or a group was
opened. -/
structure Passed (task : AcquisitionTask) (demands : Finset (Nat × PackageName))
    (entries : List (RepositorySpec × Nat)) (before after : AcquisitionState × Bool) : Prop where
  /-- The state is sound. -/
  sound : task.Sound after.1
  /-- The CRAN roots are the same. -/
  cranRoots : after.1.cranRoots = before.1.cranRoots
  /-- No group was closed. -/
  grows : ∀ group ∈ before.1.preparedGroups, group ∈ after.1.preparedGroups
  /-- The pass reports what it opened. -/
  reported : (after = before ∧ ∀ entry ∈ entries, task.Opened before.1 demands entry) ∨
    (after.2 = true ∧ ∃ group ∈ task.groups, group ∉ before.1.preparedGroups ∧
      group ∈ after.1.preparedGroups)

/-- One entry of a pass. -/
theorem openEntry_passed {demands : Finset (Nat × PackageName)} {entry : RepositorySpec × Nat}
    {before after : AcquisitionState × Bool} (sound : task.Sound before.1)
    (member : entry.1 ∈ task.repositories)
    (run : task.openEntry demands before entry = .ok after) :
    task.Passed demands [entry] before after := by
  unfold openEntry at run
  split at run
  · next skipped =>
    obtain rfl := Except.ok.inj run
    refine ⟨sound, rfl, fun _ old => old, .inl ⟨rfl, fun other inside kind demanded => ?_⟩⟩
    obtain rfl := List.mem_singleton.mp inside
    exact absurd skipped (by simp [kind, demanded])
  · obtain ⟨registry, configured, run⟩ := bind_eq_ok.mp run
    have grouped : task.groupOf entry.1 = some (registry.text, entry.1.manifestEndpoint.text) := by
      rw [groupOf, mapError_eq_ok.mp configured]
    by_cases closed : (registry.text, entry.1.manifestEndpoint.text) ∈ before.1.preparedGroups
    · simp only [if_pos closed] at run
      obtain rfl := Except.ok.inj run
      refine ⟨sound, rfl, fun _ old => old, .inl ⟨rfl, fun other inside _ _ => ?_⟩⟩
      obtain rfl := List.mem_singleton.mp inside
      exact ⟨_, grouped, closed⟩
    · simp only [if_neg closed] at run
      obtain ⟨-, -, run⟩ := bind_eq_ok.mp run
      obtain ⟨session, created, run⟩ := bind_eq_ok.mp run
      obtain ⟨loader, acquired, run⟩ := bind_eq_ok.mp run
      obtain rfl := Except.ok.inj run
      have produced : task.Produces loader :=
        .rUniverse (mapError_eq_ok.mp created) (mapError_eq_ok.mp acquired)
      refine ⟨sound.addGroup closed produced, rfl, fun _ old => List.mem_cons_of_mem _ old,
        .inr ⟨rfl, _, ?_, closed, List.mem_cons_self⟩⟩
      exact List.mem_toFinset.mpr (List.mem_filterMap.mpr ⟨entry.1, member, grouped⟩)

/-- A pass over the entries. -/
theorem openEntries_passed {demands : Finset (Nat × PackageName)}
    {entries : List (RepositorySpec × Nat)} {before after : AcquisitionState × Bool}
    (sound : task.Sound before.1) (members : ∀ entry ∈ entries, entry.1 ∈ task.repositories)
    (run : entries.foldlM (task.openEntry demands) before = .ok after) :
    task.Passed demands entries before after := by
  induction entries generalizing before with
  | nil =>
    obtain rfl := Except.ok.inj run
    exact ⟨sound, rfl, fun _ old => old, .inl ⟨rfl, by simp⟩⟩
  | cons entry rest ih =>
    rw [List.foldlM_cons] at run
    obtain ⟨between, head, tail⟩ := bind_eq_ok.mp run
    have first := openEntry_passed sound (members entry List.mem_cons_self) head
    have later := ih first.sound (fun other inside => members other (List.mem_cons_of_mem _ inside))
      tail
    refine ⟨later.sound, later.cranRoots.trans first.cranRoots,
      fun group old => later.grows group (first.grows group old), ?_⟩
    rcases first.reported with ⟨rfl, opened⟩ | ⟨flag, group, known, closed, new⟩
    · rcases later.reported with ⟨same, opened'⟩ | grown
      · refine .inl ⟨same, fun other inside => ?_⟩
        rcases List.mem_cons.mp inside with rfl | inside
        · exact opened other List.mem_cons_self
        · exact opened' other inside
      · exact .inr grown
    · refine .inr ⟨?_, group, known, closed, later.grows group new⟩
      rcases later.reported with ⟨same, -⟩ | ⟨flag', -⟩
      · rw [same, flag]
      · exact flag'

/-- The demands of the CRAN entry are covered, or among the roots that CRAN was prepared for. -/
def CranSettled (task : AcquisitionTask) (state : AcquisitionState)
    (demands : Finset (Nat × PackageName)) : Prop :=
  ∀ cran ∈ task.cranEntry, ∀ package ∈ demandsOf demands cran.2,
    Covers (state.loaderOf cran.2) package ∨ package ∈ namesOf state.cranRoots

/-- What the CRAN part of a round leaves: nothing has changed and the demands are settled, or CRAN
was prepared for a demanded package that was no root. -/
theorem growCran_spec {demands : Finset (Nat × PackageName)} {grown : Bool}
    (sound : task.Sound state) (run : task.growCran state demands = .ok (next, grown)) :
    task.Sound next ∧ next.preparedGroups = state.preparedGroups ∧
      (∀ package ∈ namesOf state.cranRoots, package ∈ namesOf next.cranRoots) ∧
      ((grown = false ∧ next = state ∧ task.CranSettled state demands) ∨
        (grown = true ∧ ∃ pair ∈ demands, pair.2 ∉ namesOf state.cranRoots ∧
          pair.2 ∈ namesOf next.cranRoots)) := by
  unfold growCran at run
  cases found : task.cranEntry with
  | none =>
    rw [found] at run
    obtain ⟨rfl, rfl⟩ := Prod.mk.inj (Except.ok.inj run)
    refine ⟨sound, rfl, fun _ old => old, .inl ⟨rfl, rfl, ?_⟩⟩
    intro cran member
    rw [found] at member
    cases member
  | some cran =>
    rw [found] at run
    obtain ⟨⟨roots, missing⟩, asked, run⟩ := bind_eq_ok.mp run
    obtain ⟨added, rfl, rfl, new, settled⟩ := addCranRoots_spec asked
    cases added with
    | nil =>
      simp only [List.isEmpty_nil, Bool.not_true, Bool.or_false, Bool.false_eq_true, if_false] at run
      obtain ⟨rfl, rfl⟩ := Prod.mk.inj (Except.ok.inj run)
      refine ⟨sound, rfl, fun _ old => old, .inl ⟨rfl, rfl, ?_⟩⟩
      intro other member package demanded
      obtain rfl : cran = other := Option.some.inj (found.symm.trans member)
      simpa using settled package demanded
    | cons first rest =>
      simp only [List.isEmpty_cons, Bool.not_false, Bool.or_true, if_true] at run
      obtain ⟨after, prepared, run⟩ := bind_eq_ok.mp run
      obtain ⟨rfl, rfl⟩ := Prod.mk.inj (Except.ok.inj run)
      have facts := prepareCran_spec prepared
      have names : namesOf after.cranRoots = namesOf state.cranRoots ++ (first :: rest) := by
        rw [facts.cranRoots, namesOf_append, namesOf_rootRequirement]
      obtain ⟨demanded, fresh⟩ := new first List.mem_cons_self
      refine ⟨sound.prepare found facts, facts.groups, ?_, .inr ⟨rfl, (cran.2, first),
        mem_demandsOf.mp demanded, fresh, ?_⟩⟩
      · intro package old
        rw [names]
        exact List.mem_append_left _ old
      · rw [names]
        exact List.mem_append_right _ List.mem_cons_self

/-- How many items are not in a list. -/
def leftOver {α : Type*} [DecidableEq α] (items : Finset α) (done : List α) : Nat :=
  (items.filter (fun item => item ∉ done)).card

/-- A longer list leaves no more. -/
theorem leftOver_le {α : Type*} [DecidableEq α] {items : Finset α} {old new : List α}
    (grows : ∀ item ∈ old, item ∈ new) : leftOver items new ≤ leftOver items old :=
  Finset.card_le_card fun _ member => Finset.mem_filter.mpr
    ⟨(Finset.mem_filter.mp member).1, fun inside => (Finset.mem_filter.mp member).2
      (grows _ inside)⟩

/-- A list with a new item leaves less. -/
theorem leftOver_lt {α : Type*} [DecidableEq α] {items : Finset α} {old new : List α}
    (grows : ∀ item ∈ old, item ∈ new) {item : α} (member : item ∈ items) (fresh : item ∉ old)
    (gained : item ∈ new) : leftOver items new < leftOver items old := by
  refine Finset.card_lt_card (Finset.ssubset_iff_of_subset ?_ |>.mpr ⟨item, ?_, ?_⟩)
  · exact fun _ inside => Finset.mem_filter.mpr ⟨(Finset.mem_filter.mp inside).1,
      fun old => (Finset.mem_filter.mp inside).2 (grows _ old)⟩
  · exact Finset.mem_filter.mpr ⟨member, fresh⟩
  · exact fun inside => (Finset.mem_filter.mp inside).2 gained

/-- What is left to acquire: the packages that are no roots of CRAN, and the groups that are not
open. -/
def remaining (task : AcquisitionTask) (packages : Finset PackageName) (state : AcquisitionState) :
    Nat :=
  leftOver packages (namesOf state.cranRoots) + leftOver task.groups state.preparedGroups

/-- What a round leaves: nothing has changed and everything demanded is acquired, or less is left to
acquire. -/
theorem acquireDemands_spec {demands : Finset (Nat × PackageName)} {changed : Bool}
    (sound : task.Sound state)
    (run : task.acquireDemands state demands = .ok (next, changed)) :
    task.validateCranDemandCount demands = .ok () ∧ task.Sound next ∧
      ((changed = false ∧ next = state ∧ task.CranSettled state demands ∧
          ∀ entry ∈ task.repositories.zipIdx, task.Opened state demands entry) ∨
        (changed = true ∧ ∀ packages : Finset PackageName, (∀ pair ∈ demands, pair.2 ∈ packages) →
          task.remaining packages next < task.remaining packages state)) := by
  obtain ⟨⟨⟩, valid, run⟩ := bind_eq_ok.mp run
  obtain ⟨⟨middle, grown⟩, growing, run⟩ := bind_eq_ok.mp run
  obtain ⟨middleSound, groups, roots, reported⟩ := growCran_spec sound growing
  have members : ∀ entry ∈ task.repositories.zipIdx, entry.1 ∈ task.repositories := by
    intro entry member
    exact List.mem_of_getElem? (List.mk_mem_zipIdx_iff_getElem?.mp member)
  have passed := openEntries_passed middleSound members run
  have kept : namesOf next.cranRoots = namesOf middle.cranRoots := by rw [passed.cranRoots]
  have grows : ∀ group ∈ state.preparedGroups, group ∈ next.preparedGroups := by
    intro group old
    exact passed.grows group (groups ▸ old)
  refine ⟨valid, passed.sound, ?_⟩
  rcases reported with ⟨rfl, rfl, settled⟩ | ⟨rfl, pair, demanded, fresh, gained⟩
  · rcases passed.reported with ⟨same, opened⟩ | ⟨flag, group, known, closed, new⟩
    · obtain ⟨rfl, rfl⟩ := Prod.mk.inj same
      exact .inl ⟨rfl, rfl, settled, opened⟩
    · refine .inr ⟨flag, fun packages _ => ?_⟩
      have fewer := leftOver_lt grows known closed new
      unfold remaining
      rw [kept]
      exact Nat.add_lt_add_left fewer _
  · have flag : changed = true := by
      rcases passed.reported with ⟨same, -⟩ | ⟨flag, -⟩
      · exact (Prod.mk.inj same).2
      · exact flag
    refine .inr ⟨flag, fun packages all => ?_⟩
    have fewer := leftOver_lt roots (all pair demanded) fresh gained
    have still : leftOver task.groups next.preparedGroups ≤ leftOver task.groups state.preparedGroups :=
      leftOver_le grows
    unfold remaining
    rw [kept]
    exact Nat.add_lt_add_of_lt_of_le fewer still

/-- The packages that can be demanded: the roots, what the direct roots depend on, and what the
snapshots mention. -/
def mentionable (task : AcquisitionTask) (names : Finset PackageName) : Finset PackageName :=
  (task.roots.map ComposedRootIntent.name).toFinset ∪
    (task.directReleases.values.flatMap (fun release =>
      release.declaredDependencies.map (fun dependency => dependency.package.name))).toFinset ∪
    names

/-- The snapshot of an entry was returned by a provider. -/
theorem Sound.produces (sound : task.Sound state) {entry : Nat} {loader : RawCandidateLoader}
    (found : state.loaderOf entry = some loader) : task.Produces loader := by
  obtain ⟨index, -, stored⟩ := Option.bind_eq_some_iff.mp found
  exact sound.produced loader (List.mem_of_getElem? stored)

/-- What the snapshots of a state answer to the planner. -/
theorem demandSource_spec {entry : Nat} {package : PackageName}
    {answer : Except CandidateLoadError (List PackageRelease)}
    (loaded : task.demandSource state entry package = answer) :
    answer = .ok [] ∨ ∃ loader, state.loaderOf entry = some loader ∧
      answer = (loader (.installedName package)).map
        (fun result => result.observations.map RawCandidateObservation.release) := by
  subst loaded
  unfold demandSource
  split
  · exact .inl rfl
  · split
    · exact .inl rfl
    · split
      · exact .inl rfl
      · next found => exact .inr ⟨_, found, rfl⟩

section Planning

variable {names : Finset PackageName} (mentions : ∀ loader, task.Produces loader →
  Mentions names loader)

include mentions

/-- The planner is told of absent packages only. -/
theorem Sound.onlyAbsent (sound : task.Sound state) : OnlyAbsent (task.demandSource state) := by
  intro entry package cause failed
  rcases demandSource_spec failed with nothing | ⟨loader, found, answer⟩
  · cases nothing
  · cases loaded : loader (.installedName package) with
    | ok result =>
      rw [loaded] at answer
      cases answer
    | error cause' =>
      rw [loaded] at answer
      obtain rfl := Except.error.inj answer
      exact (mentions loader (sound.produces found)).absent package cause loaded

/-- The releases that the planner is given. -/
theorem Sound.releases (sound : task.Sound state) {entry : Nat} {package : PackageName}
    {releases : List PackageRelease} (loaded : task.demandSource state entry package = .ok releases)
    {release : PackageRelease} (member : release ∈ releases) :
    package ∈ names ∧
      ∀ dependency ∈ release.declaredDependencies, dependency.package.name ∈ names := by
  rcases demandSource_spec loaded with nothing | ⟨loader, found, answer⟩
  · obtain rfl := Except.ok.inj nothing
    cases member
  · cases asked : loader (.installedName package) with
    | error cause =>
      rw [asked] at answer
      cases answer
    | ok result =>
      rw [asked] at answer
      obtain rfl := Except.ok.inj answer
      obtain ⟨observation, inside, rfl⟩ := List.mem_map.mp member
      have facts := mentions loader (sound.produces found)
      exact ⟨facts.listed package result asked (List.ne_nil_of_mem inside),
        facts.declared package result asked observation inside⟩

/-- Every package of a closure can be demanded. -/
theorem Sound.mem_mentionable (sound : task.Sound state) {package : PackageName}
    {constraint : DependencySourceConstraint} {strong : Bool}
    (demanded : DemandedPackage task.repositories task.roots task.directReleases
      (task.demandSource state) package constraint strong) :
    package ∈ task.mentionable names := by
  unfold mentionable
  simp only [Finset.mem_union, List.mem_toFinset, List.mem_flatMap]
  cases demanded with
  | registryRoot member => exact .inl (.inl (List.mem_map_of_mem member))
  | directDependency followed =>
    obtain ⟨root, -, -, -, -, -, release, found, declared, -⟩ := followed
    have entry : release ∈ task.directReleases.values :=
      List.mem_map_of_mem (OrderedMap.get?_eq_some_iff.mp found)
    exact .inl (.inr ⟨release, entry, List.mem_map_of_mem declared⟩)
  | dependency _ candidate declared =>
    obtain ⟨entry, -, releases, loaded, member⟩ := candidate
    exact .inr ((sound.releases mentions loaded member).2 _ declared)

/-- A plan over the snapshots of a state ends, and demands packages that can be demanded. -/
theorem Sound.plans (sound : task.Sound state) :
    ∃ plan enough, (∀ budget, enough ≤ budget →
        resolveRepositoryDemandsWithDirect task.repositories task.directReleases
          (task.demandSource state) budget task.roots = some (.ok plan)) ∧
      ∀ pair ∈ plan.entryDemands, pair.2 ∈ task.mentionable names := by
  have finite : FinitelyMany (task.demandSource state) := by
    refine names.finite_toSet.subset ?_
    rintro package ⟨entry, releases, loaded, nonempty⟩
    obtain ⟨release, member⟩ := List.exists_mem_of_ne_nil releases nonempty
    exact (sound.releases mentions loaded member).1
  obtain ⟨plan, enough, ended, facts⟩ := @exists_least_plan task.repositories task.roots
    task.directReleases (task.demandSource state) (sound.onlyAbsent mentions) finite
  have least := RepositoryDemandPlan.least_of_facts facts
  refine ⟨plan, enough, ended, fun pair member => ?_⟩
  obtain ⟨constraint, strong, demanded, -⟩ := (least.entryDemands pair.1 pair.2).mp member
  exact sound.mem_mentionable mentions demanded

end Planning

/-- A scope restricts the entries of a group to what any of them is restricted to. -/
structure IsGroupScope (task : AcquisitionTask) (registry : RegistryId) (endpoint : String)
    (scope : Option (List PackageName)) : Prop where
  /-- The group is unrestricted when one of its entries is. -/
  unrestricted : scope = none ↔ ∃ repository ∈ task.repositories,
    task.inGroup registry endpoint repository = true ∧ repository.packages = none
  /-- A restricted group has the packages of all its allowlists. -/
  restricted : ∀ packages, scope = some packages → ∀ package, package ∈ packages ↔
    ∃ repository ∈ task.repositories, task.inGroup registry endpoint repository = true ∧
      ∃ listed, repository.packages = some listed ∧ package ∈ listed

/-- The scope of a group is the union of the allowlists of its entries. -/
theorem rUniverseGroupScope_isGroupScope (registry : RegistryId) (endpoint : String) :
    task.IsGroupScope registry endpoint (task.rUniverseGroupScope registry endpoint) := by
  unfold rUniverseGroupScope
  have free : (task.repositories.filter (task.inGroup registry endpoint)).any
      (fun repository => repository.packages.isNone) = true ↔ ∃ repository ∈ task.repositories,
        task.inGroup registry endpoint repository = true ∧ repository.packages = none := by
    simp [List.any_eq_true]
  refine ⟨?_, ?_⟩
  · simp only [← free]
    split <;> simp_all
  · intro packages found package
    simp only at found
    split at found
    · cases found
    · obtain rfl := Option.some.inj found
      rw [OrderedSet.mem_toList, OrderedSet.mem_ofList, List.mem_flatMap]
      constructor
      · rintro ⟨repository, member, inside⟩
        obtain ⟨member, grouped⟩ := List.mem_filter.mp member
        cases listed : repository.packages with
        | none =>
          rw [listed] at inside
          cases inside
        | some packages => exact ⟨repository, member, grouped, packages, listed,
            by simpa [listed] using inside⟩
      · rintro ⟨repository, member, grouped, packages, listed, inside⟩
        exact ⟨repository, List.mem_filter.mpr ⟨member, grouped⟩, by simpa [listed] using inside⟩

/-- What acquisition ends with. -/
structure Acquired (task : AcquisitionTask) (plan : RepositoryDemandPlan)
    (state : AcquisitionState) : Prop where
  /-- The plan was made over the snapshots. -/
  planned : ∃ enough, ∀ budget, enough ≤ budget →
    resolveRepositoryDemandsWithDirect task.repositories task.directReleases
      (task.demandSource state) budget task.roots = some (.ok plan)
  /-- A demanded R-universe entry has the snapshot of its group, which was opened once, with the
  scope of the group. -/
  opened : ∀ entry repository, task.repositories[entry]? = some repository →
    repository.registry = .rUniverse → (∃ package, (entry, package) ∈ plan.entryDemands) →
      ∃ registry scope loader, task.configuredRegistryId repository = .ok registry ∧
        task.IsGroupScope registry repository.manifestEndpoint.text scope ∧
        state.loaderOf entry = some loader ∧
        state.calls.filter (ProviderCall.opens registry repository.manifestEndpoint.text) =
          [.openGroup registry repository.manifestEndpoint.text scope loader]
  /-- What is demanded of a CRAN entry is covered by its snapshot, or was among the roots of the last
  CRAN preparation. -/
  covered : ∀ entry repository package, task.repositories[entry]? = some repository →
    repository.registry = .cran → (entry, package) ∈ plan.entryDemands →
      Covers (state.loaderOf entry) package ∨ ∃ roots,
        (state.calls.filterMap ProviderCall.preparedRoots).getLast? = some roots ∧
          package ∈ namesOf roots
  /-- A refresh was forced at most once. -/
  forced : (state.calls.filter ProviderCall.isForced).length ≤ 1

/-- A CRAN entry with a demand is the CRAN entry. -/
theorem cranEntry_of_demand {demands : Finset (Nat × PackageName)}
    (valid : task.validateCranDemandCount demands = .ok ()) {entry : Nat}
    {repository : RepositorySpec} (there : task.repositories[entry]? = some repository)
    (kind : repository.registry = .cran) {package : PackageName}
    (demanded : (entry, package) ∈ demands) : task.cranEntry = some (repository, entry) := by
  have inside : (repository, entry) ∈ task.repositories.zipIdx.filter (fun entry =>
      entry.1.registry == .cran) :=
    List.mem_filter.mpr ⟨List.mk_mem_zipIdx_iff_getElem?.mpr there, by simp [kind]⟩
  have single := ensure_eq_ok.mp valid
  have asked : ((task.repositories.zipIdx.filter (fun entry => entry.1.registry == .cran)).map
      Prod.snd).any (fun index => !(demandsOf demands index).isEmpty) = true := by
    refine List.any_eq_true.mpr ⟨entry, List.mem_map_of_mem inside, ?_⟩
    have member := mem_demandsOf.mpr demanded
    simpa using List.ne_nil_of_mem member
  have length : (task.repositories.zipIdx.filter (fun entry =>
      entry.1.registry == .cran)).length = 1 := by
    by_contra other
    exact single ⟨asked, by simpa using other⟩
  obtain ⟨only, same⟩ := List.length_eq_one_iff.mp length
  rw [same] at inside
  unfold cranEntry
  rw [← List.head?_filter, same, List.mem_singleton.mp inside]
  rfl

/-- A round that changes nothing has acquired its plan. -/
theorem Sound.acquired (sound : task.Sound state) {plan : RepositoryDemandPlan}
    (planned : ∃ enough, ∀ budget, enough ≤ budget →
      resolveRepositoryDemandsWithDirect task.repositories task.directReleases
        (task.demandSource state) budget task.roots = some (.ok plan))
    (valid : task.validateCranDemandCount plan.entryDemands = .ok ())
    (settled : task.CranSettled state plan.entryDemands)
    (opened : ∀ entry ∈ task.repositories.zipIdx, task.Opened state plan.entryDemands entry) :
    task.Acquired plan state where
  planned := planned
  opened := by
    rintro entry repository there kind ⟨package, demanded⟩
    have some' : demandsOf plan.entryDemands entry ≠ [] :=
      List.ne_nil_of_mem (mem_demandsOf.mpr demanded)
    obtain ⟨group, grouped, old⟩ := opened (repository, entry)
      (List.mk_mem_zipIdx_iff_getElem?.mpr there) kind some'
    unfold groupOf at grouped
    cases configured : task.configuredRegistryId repository with
    | error cause =>
      rw [configured] at grouped
      cases grouped
    | ok registry =>
      rw [configured] at grouped
      obtain rfl := Option.some.inj grouped
      obtain ⟨loader, found, once⟩ := sound.opened entry repository registry there
        (inGroup_iff.mpr ⟨kind, configured, rfl⟩) old
      exact ⟨registry, _, loader, rfl, rUniverseGroupScope_isGroupScope _ _, found, once⟩
  covered := by
    intro entry repository package there kind demanded
    have found := cranEntry_of_demand valid there kind demanded
    refine (settled _ found package (mem_demandsOf.mpr demanded)).imp_right fun root => ?_
    have some' : state.cranIteration ≠ 0 := by
      intro none
      rw [sound.rooted none] at root
      cases root
    exact ⟨state.cranRoots, by rw [sound.prepared, if_neg some'], root⟩
  forced := sound.forced

/-- The loop ends, and what it ends with is acquired. -/
theorem acquisitionLoop_ends {names : Finset PackageName}
    (mentions : ∀ loader, task.Produces loader → Mentions names loader)
    {state : AcquisitionState} (sound : task.Sound state) :
    ∃ enough outcome, (∀ budget fuel, enough ≤ budget → enough ≤ fuel →
        task.acquisitionLoop budget fuel state = some outcome) ∧
      ∀ plan next, outcome = .ok (plan, next) → task.Acquired plan next := by
  obtain ⟨plan, enough, planned, mentioned⟩ := sound.plans mentions
  cases acquired : task.acquireDemands state plan.entryDemands with
  | error cause =>
    refine ⟨enough + 1, .error cause, fun budget fuel cheap more => ?_, by rintro _ _ ⟨⟩⟩
    obtain ⟨fuel, rfl⟩ := Nat.exists_eq_add_of_le' (Nat.le_of_add_left_le more)
    rw [acquisitionLoop, planned budget (Nat.le_of_succ_le cheap)]
    simp only [acquired]
  | ok result =>
    obtain ⟨next, changed⟩ := result
    obtain ⟨valid, nextSound, unchanged | ⟨flag, fewer⟩⟩ := acquireDemands_spec sound acquired
    · obtain ⟨flag, rfl, settled, opened⟩ := unchanged
      refine ⟨enough + 1, .ok (plan, next), fun budget fuel cheap more => ?_, ?_⟩
      · obtain ⟨fuel, rfl⟩ := Nat.exists_eq_add_of_le' (Nat.le_of_add_left_le more)
        rw [acquisitionLoop, planned budget (Nat.le_of_succ_le cheap)]
        simp only [acquired, flag]
      · rintro plan' next' ⟨⟩
        exact sound.acquired ⟨enough, planned⟩ valid settled opened
    · have smaller := fewer (task.mentionable names) mentioned
      obtain ⟨enough', outcome, ended, facts⟩ := acquisitionLoop_ends mentions nextSound
      refine ⟨max enough enough' + 1, outcome, fun budget fuel cheap more => ?_, facts⟩
      obtain ⟨fuel, rfl⟩ := Nat.exists_eq_add_of_le' (Nat.le_of_add_left_le more)
      rw [acquisitionLoop, planned budget (by omega)]
      simp only [acquired, flag]
      exact ended budget fuel (by omega) (by omega)
termination_by task.remaining (task.mentionable names) state

/-- The state after the initial preparation is sound. -/
theorem startCran_sound {initial : Finset (Nat × PackageName)}
    (run : task.startCran initial = .ok next) : task.Sound next := by
  unfold startCran at run
  cases found : task.cranEntry with
  | none =>
    rw [found] at run
    obtain rfl := Except.ok.inj run
    exact .initial
  | some cran =>
    rw [found] at run
    simp only at run
    split at run
    · obtain rfl := Except.ok.inj run
      exact .initial
    · exact Sound.initial.prepare found (prepareCran_spec run)

/-- Acquisition ends, and what it ends with is acquired. -/
theorem acquire_ends {names : Finset PackageName}
    (mentions : ∀ loader, task.Produces loader → Mentions names loader) :
    ∃ enough outcome, (∀ budget fuel, enough ≤ budget → enough ≤ fuel →
        task.acquire budget fuel = some outcome) ∧
      ∀ plan state, outcome = .ok (some (plan, state)) → task.Acquired plan state := by
  unfold acquire
  cases valid : task.validateCranDemandCount (initialRepositoryDemandsWithDirect task.repositories
      task.directReleases task.roots) with
  | error cause =>
    exact ⟨0, .error cause, fun _ _ _ _ => by simp only [valid], by rintro _ _ ⟨⟩⟩
  | ok passed =>
    obtain ⟨⟩ := passed
    by_cases nothing : initialRepositoryDemandsWithDirect task.repositories task.directReleases
        task.roots = ∅
    · exact ⟨0, .ok none, fun _ _ _ _ => by simp only [valid, if_pos nothing],
        by rintro _ _ ⟨⟩⟩
    · cases started : task.startCran (initialRepositoryDemandsWithDirect task.repositories
          task.directReleases task.roots) with
      | error cause =>
        exact ⟨0, .error cause, fun _ _ _ _ => by simp only [valid, if_neg nothing, started],
          by rintro _ _ ⟨⟩⟩
      | ok state =>
        obtain ⟨enough, outcome, ended, facts⟩ :=
          acquisitionLoop_ends mentions (startCran_sound started)
        refine ⟨enough, outcome.map some, fun budget fuel cheap more => ?_, ?_⟩
        · simp only [valid, if_neg nothing, started, ended budget fuel cheap more, Option.map_some]
        · intro plan state' done
          cases outcome with
          | error cause => cases done
          | ok pair =>
            obtain rfl := Option.some.inj (Except.ok.inj done)
            exact facts plan state' rfl

/-- More rounds and longer plans change nothing that a loop has ended with. -/
theorem acquisitionLoop_mono {budget budget' fuel fuel' : Nat} {state : AcquisitionState}
    {outcome : Except RepositoryResolutionError (RepositoryDemandPlan × AcquisitionState)}
    (ended : task.acquisitionLoop budget fuel state = some outcome) (cheap : budget ≤ budget')
    (more : fuel ≤ fuel') : task.acquisitionLoop budget' fuel' state = some outcome := by
  induction fuel generalizing fuel' state with
  | zero => cases ended
  | succ fuel ih =>
    obtain ⟨fuel', rfl⟩ := Nat.exists_eq_add_of_le' (Nat.one_le_of_lt more)
    rw [acquisitionLoop] at ended ⊢
    cases planned : resolveRepositoryDemandsWithDirect task.repositories task.directReleases
        (task.demandSource state) budget task.roots with
    | none =>
      rw [planned] at ended
      cases ended
    | some result =>
      have planned' : resolveRepositoryDemandsWithDirect task.repositories task.directReleases
          (task.demandSource state) budget' task.roots = some result :=
        Worklist.drain_mono planned cheap
      rw [planned] at ended
      rw [planned']
      cases result with
      | error cause => exact ended
      | ok plan =>
        cases acquired : task.acquireDemands state plan.entryDemands with
        | error cause => simpa only [acquired] using ended
        | ok pair =>
          obtain ⟨next, changed⟩ := pair
          cases changed with
          | false => simpa only [acquired] using ended
          | true =>
            simp only [acquired] at ended ⊢
            exact ih ended (Nat.le_of_succ_le_succ more)

/-- More rounds and longer plans change nothing that acquisition has ended with. -/
theorem acquire_mono {budget budget' fuel fuel' : Nat} {outcome : Except RepositoryResolutionError
      (Option (RepositoryDemandPlan × AcquisitionState))}
    (ended : task.acquire budget fuel = some outcome) (cheap : budget ≤ budget')
    (more : fuel ≤ fuel') : task.acquire budget' fuel' = some outcome := by
  unfold acquire at ended ⊢
  simp only at ended ⊢
  split at ended
  · exact ended
  · split at ended
    · next nothing => rwa [if_pos nothing]
    · next demanded =>
      rw [if_neg demanded]
      split at ended
      · exact ended
      · obtain ⟨result, ran, rfl⟩ := Option.map_eq_some_iff.mp ended
        rw [acquisitionLoop_mono ran cheap more, Option.map_some]

end AcquisitionTask

/-- For every composition, and all providers whose snapshots mention finitely many packages and fail
only because a package is not there, acquisition ends. When it ends normally, its last plan was made
over its snapshots, every demanded R-universe entry has the snapshot of its group, which was opened
once and with the union of the allowlists of the group, every package demanded of CRAN is covered or
was among the roots of the last preparation, and a refresh was forced at most once. -/
theorem acquire_reaches_fixpoint (task : AcquisitionTask) (names : Finset PackageName)
    (mentions : ∀ loader, task.Produces loader → AcquisitionTask.Mentions names loader) :
    ∃ enough outcome, (∀ budget fuel, enough ≤ budget → enough ≤ fuel →
        task.acquire budget fuel = some outcome) ∧
      ∀ plan state, outcome = .ok (some (plan, state)) → task.Acquired plan state :=
  AcquisitionTask.acquire_ends mentions

namespace Small

/-- The id of an R-universe repository. -/
def universeId : RepositoryId := ⟨"zoo", by decide⟩

/-- The specification of an R-universe repository. -/
def zooUniverse : RepositorySpec where
  id := universeId
  registry := .rUniverse
  manifestEndpoint := ⟨"https://zoo.example.org/", by decide⟩
  packages := none
  named := by decide
  unreserved := by decide
  listed := unlisted

/-- A raw loader of the releases of a catalog. -/
def rawLoader (catalog : PackageName → List PackageRelease) : RawCandidateLoader
  | .installedName package =>
    if catalog package = [] then .error ⟨.notFound, "package is absent"⟩
    else .ok ⟨(catalog package).map (fun release => ⟨release, .current⟩), []⟩
  | _ => .error ⟨.notFound, "package is absent"⟩

/-- The catalog of the R-universe repository: one package, which imports another. -/
def zooCatalog (package : PackageName) : List PackageRelease :=
  if package = zoo then [release zoo newer [declares .imports rcpp]] else []

/-- Providers that serve two catalogs and are always there. -/
def twoFactories : ResolutionFactories where
  openStore _ := .ok ()
  create _ _ _ := .ok ⟨fun _ => .error (.offlineMissing "no snapshot"),
    fun _ => .ok (rawLoader zooCatalog), fun _ => .ok (rawLoader zooCatalog)⟩
  prepare _ _ _ _ _ := .ok (some (rawLoader leaf))

/-- A composition of CRAN and an R-universe repository, with one root of the latter. The hash is the
one of the registry identity of the latter. -/
def twoRepositories : AcquisitionTask where
  repositories := [cran, zooUniverse]
  roots := [registryRoot zoo (some universeId) .hardOnly]
  directReleases := .empty
  sha256 _ := [182, 19, 223, 255, 106, 226, 230, 28, 81, 226, 8, 199, 60, 207, 84, 119,
    112, 216, 21, 64, 9, 210, 23, 163, 70, 99, 233, 120, 120, 169, 210, 111]
  offline := false
  refreshMetadata := true
  factories := twoFactories

/-- The last plan of an acquisition and the number of its preparations. -/
def summary (outcome : Option
    (Except RepositoryResolutionError (Option (RepositoryDemandPlan × AcquisitionState)))) :
    Option (Finset (Nat × PackageName) × Nat × Nat) :=
  match outcome with
  | some (.ok (some (plan, state))) =>
    some (plan.entryDemands, state.cranIteration, state.preparedGroups.length)
  | some (.ok none) => none
  | some (.error _) => none
  | none => none

/-- What the summary is taken of. -/
theorem exists_of_summary {outcome : Option
      (Except RepositoryResolutionError (Option (RepositoryDemandPlan × AcquisitionState)))}
    {facts : Finset (Nat × PackageName) × Nat × Nat} (summarized : summary outcome = some facts) :
    ∃ plan state, outcome = some (.ok (some (plan, state))) ∧
      facts = (plan.entryDemands, state.cranIteration, state.preparedGroups.length) := by
  unfold summary at summarized
  split at summarized
  · next plan state =>
    exact ⟨plan, state, rfl, (Option.some.inj summarized).symm⟩
  all_goals cases summarized

/-- The raw loader of a catalog mentions what the catalog mentions. -/
theorem rawLoader_mentions {catalog : PackageName → List PackageRelease} {names : Finset PackageName}
    (listed : ∀ package, catalog package ≠ [] → package ∈ names)
    (declared : ∀ package, ∀ release ∈ catalog package,
      ∀ dependency ∈ release.declaredDependencies, dependency.package.name ∈ names) :
    AcquisitionTask.Mentions names (rawLoader catalog) where
  absent := by
    intro package cause failed
    simp only [rawLoader] at failed
    split at failed
    · obtain rfl := Except.error.inj failed
      rfl
    · cases failed
  listed := by
    intro package result loaded _
    simp only [rawLoader] at loaded
    split at loaded
    · cases loaded
    · next there => exact listed package there
  declared := by
    intro package result loaded observation member
    simp only [rawLoader] at loaded
    split at loaded
    · cases loaded
    · obtain rfl := Except.ok.inj loaded
      obtain ⟨release, inside, rfl⟩ := List.mem_map.mp member
      exact declared package release inside

/-- The providers of the two repositories mention two packages. -/
theorem twoRepositories_mentions (loader : RawCandidateLoader)
    (produced : twoRepositories.Produces loader) :
    AcquisitionTask.Mentions {zoo, rcpp} loader := by
  have zooMentions : AcquisitionTask.Mentions {zoo, rcpp} (rawLoader zooCatalog) := by
    refine rawLoader_mentions ?_ ?_
    · intro package there
      by_contra other
      exact there (if_neg fun same => other (by simp [same]))
    · intro package release member dependency declared
      unfold zooCatalog at member
      split at member
      · obtain rfl := List.mem_singleton.mp member
        obtain rfl := List.mem_singleton.mp declared
        exact Finset.mem_insert_of_mem (Finset.mem_singleton_self _)
      · cases member
  have leafMentions : AcquisitionTask.Mentions {zoo, rcpp} (rawLoader leaf) := by
    refine rawLoader_mentions ?_ ?_
    · intro package there
      by_contra other
      exact there (if_neg fun same => other (by simp [same]))
    · intro package release member dependency declared
      unfold leaf at member
      split at member
      · obtain rfl := List.mem_singleton.mp member
        cases declared
      · cases member
  cases produced with
  | cran prepared =>
    obtain rfl := Option.some.inj (Except.ok.inj prepared)
    exact leafMentions
  | rUniverse created acquired =>
    obtain rfl := Except.ok.inj created
    obtain rfl := Except.ok.inj acquired
    exact zooMentions

end Small

/-- The root of the R-universe repository imports a package that both repositories are asked for;
CRAN is prepared for it once, and the group is opened once. -/
theorem acquire_twoRepositories :
    ∃ plan state, plan.entryDemands = {(1, Small.zoo), (0, Small.rcpp), (1, Small.rcpp)} ∧
      state.cranIteration = 1 ∧ state.preparedGroups.length = 1 ∧
      Small.twoRepositories.acquire 10 10 = some (.ok (some (plan, state))) ∧
      Small.twoRepositories.Acquired plan state := by
  have run : Small.summary (Small.twoRepositories.acquire 10 10) =
      some ({(1, Small.zoo), (0, Small.rcpp), (1, Small.rcpp)}, 1, 1) := by decide +kernel
  obtain ⟨plan, state, ended, facts⟩ := Small.exists_of_summary run
  obtain ⟨enough, outcome, ended', acquired⟩ := acquire_reaches_fixpoint Small.twoRepositories
    {Small.zoo, Small.rcpp} Small.twoRepositories_mentions
  have later := AcquisitionTask.acquire_mono ended (le_max_right enough 10) (le_max_right enough 10)
  have same := (ended' _ _ (le_max_left enough 10) (le_max_left enough 10)).symm.trans later
  simp only [Prod.mk.injEq] at facts
  exact ⟨plan, state, facts.1.symm, facts.2.1.symm, facts.2.2.symm, ended,
    acquired plan state (Option.some.inj same)⟩

end Rsolve
