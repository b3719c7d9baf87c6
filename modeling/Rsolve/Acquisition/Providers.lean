import Rsolve.Acquisition.Coverage
import Rsolve.Lib.Framing

/-!
# Acquiring the providers of a composition

The packages that a composition may ask of its repositories are planned and acquired in turn: a plan
is made over the snapshots that are there, the providers that it demands are opened or prepared once
more, and another plan is made, until a plan demands nothing new.
-/
open Keyed Checked Ordered

namespace Rsolve

/-- `RUniverseProviderError` — the failures that acquisition tells apart. -/
inductive RUniverseProviderError
  | offlineMissing (reason : String)
  | offlineIncompatible (reason : String)
  | offlineCorrupt (reason : String)
  | packageNotFound (endpoint package : String)
  | other (reason : String)
deriving DecidableEq

/-- Whether a cached snapshot cannot be used, so that a new one has to be made. -/
def RUniverseProviderError.isUnusable : RUniverseProviderError → Bool
  | .offlineMissing _ | .offlineIncompatible _ | .offlineCorrupt _ => true
  | .packageNotFound _ _ | .other _ => false

/-- `RepositoryResolutionError`. -/
inductive RepositoryResolutionError
  | composition (cause : ManifestError)
  | cache (reason : String)
  | cran (cause : CranResolutionError)
  | rUniverse (cause : RUniverseProviderError)
  | candidate (cause : CandidateLoadError)
deriving DecidableEq

/-- `RUniverseSession` — an opened provider, with the store that it reads and writes. -/
structure RUniverseSession where
  /-- Open a cached snapshot. -/
  openCompatible : Option (List PackageName) → Except RUniverseProviderError RawCandidateLoader
  /-- Make a new snapshot. -/
  refreshSnapshot : Option (List PackageName) → Except RUniverseProviderError RawCandidateLoader
  /-- Open a cached snapshot without a transport. -/
  openCompatibleOffline : Option (List PackageName) →
    Except RUniverseProviderError RawCandidateLoader

/-- The loader of a session. -/
def RUniverseSession.acquire (session : RUniverseSession) (offline refreshMetadata : Bool)
    (scope : Option (List PackageName)) : Except RUniverseProviderError RawCandidateLoader :=
  if offline then session.openCompatibleOffline scope
  else if refreshMetadata then session.refreshSnapshot scope
  else
    match session.openCompatible scope with
    | .ok loader => .ok loader
    | .error cause => if cause.isUnusable then session.refreshSnapshot scope else .error cause

/-- A call that acquisition has made to a provider. -/
inductive ProviderCall
  | prepareCran (roots : List RootRequirement) (optional : List PackageName)
      (refreshMetadata : Bool)
  | openGroup (registry : RegistryId) (endpoint : String) (scope : Option (List PackageName))
      (loader : RawCandidateLoader)

namespace ProviderCall

/-- The roots of a CRAN preparation. -/
def preparedRoots : ProviderCall → Option (List RootRequirement)
  | .prepareCran roots _ _ => some roots
  | .openGroup _ _ _ _ => none

/-- Whether a call forces a CRAN preparation to refresh. -/
def isForced : ProviderCall → Bool
  | .prepareCran _ _ refreshMetadata => refreshMetadata
  | .openGroup _ _ _ _ => false

/-- Whether a call opens the snapshot of a group. -/
def opens (registry : RegistryId) (endpoint : String) : ProviderCall → Bool
  | .prepareCran _ _ _ => false
  | .openGroup registry' endpoint' _ _ => registry' == registry && endpoint' == endpoint

end ProviderCall

/-- `ResolutionFactories`, with the metadata cache. What a provider does may depend on the calls
before. -/
structure ResolutionFactories where
  /-- Open the store of a registry. -/
  openStore : RegistryId → Except String Unit
  /-- Open an R-universe provider. -/
  create : List ProviderCall → String → RegistryId →
    Except RUniverseProviderError RUniverseSession
  /-- Prepare a CRAN snapshot. -/
  prepare : List ProviderCall → RepositorySpec → List RootRequirement → List PackageName → Bool →
    Except RepositoryResolutionError (Option RawCandidateLoader)

/-- `digest_fields`. -/
def digestFields (sha256 : List UInt8 → List UInt8) (fields : List (List UInt8)) : List UInt8 :=
  sha256 (Framing.textBytes "rsolve.manifest.v1\x00" ++ fields.flatMap Framing.lengthPrefixed)

/-- `hex_digest`. -/
def hexDigest (bytes : List UInt8) : String :=
  String.ofList (bytes.flatMap (fun byte =>
    [Nat.digitChar (byte.toNat / 16), Nat.digitChar (byte.toNat % 16)]))

/-- `configured_registry_id_for`. -/
def configuredRegistryIdFor (sha256 : List UInt8 → List UInt8) (registry : RegistrySpec)
    (endpoint : Endpoint) : Except ManifestError RegistryId :=
  let nspace :=
    match registry with
    | .cranLike nspace => [Framing.textBytes nspace.text]
    | .cran | .rUniverse => []
  (Identifier.new .registryId (hexDigest (digestFields sha256
    ([Framing.textBytes registry.tag] ++ nspace ++ [Framing.textBytes endpoint.text])))).mapError
      (fun cause => .invalidRepository cause.message)

/-- `raw_package_is_covered`. -/
def rawPackageIsCovered (loader : RawCandidateLoader) (package : PackageName) :
    Except CandidateLoadError Bool :=
  match loader (.installedName package) with
  | .ok result => .ok !result.observations.isEmpty
  | .error cause => if cause.category = .notFound then .ok false else .error cause

/-- `root_requirement`. -/
def rootRequirement (package : PackageName) : RootRequirement :=
  ⟨⟨package, .any, .unconstrained, namesPackage_any package⟩, .hardOnly⟩

/-- `refresh_requested`. -/
def refreshRequested (force : Bool) (iteration : Nat) : Bool :=
  force && iteration == 0

/-- The packages that are demanded of an entry, in order. -/
def demandsOf (demands : Finset (Nat × PackageName)) (entry : Nat) : List PackageName :=
  (OrderedSet.ofFinset ((demands.filter (fun pair => pair.1 = entry)).image Prod.snd)).toList

/-- A composition with what its acquisition is given. -/
structure AcquisitionTask where
  /-- The configured repositories. -/
  repositories : List RepositorySpec
  /-- The roots. -/
  roots : List ComposedRootIntent
  /-- The releases of the direct roots. -/
  directReleases : DirectReleases
  /-- The hash function of the registry identities. -/
  sha256 : List UInt8 → List UInt8
  /-- Whether transports must not be used. -/
  offline : Bool
  /-- Whether cached metadata must not be used. -/
  refreshMetadata : Bool
  /-- The providers. -/
  factories : ResolutionFactories

/-- The local state of `resolve_composed_with_prepared_direct`, with the calls made so far. -/
structure AcquisitionState where
  /-- The snapshots. -/
  snapshots : List RawCandidateLoader
  /-- The snapshot of every entry. -/
  snapshotIndices : Nat → Option Nat
  /-- The registries and endpoints that were opened. -/
  preparedGroups : List (String × String)
  /-- The roots that CRAN was prepared for. -/
  cranRoots : List RootRequirement
  /-- The number of CRAN preparations. -/
  cranIteration : Nat
  /-- The calls to the providers. -/
  calls : List ProviderCall

namespace AcquisitionState

/-- The state before any provider is opened. -/
def initial : AcquisitionState := ⟨[], fun _ => none, [], [], 0, []⟩

/-- The snapshot of an entry. -/
def loaderOf (state : AcquisitionState) (entry : Nat) : Option RawCandidateLoader :=
  (state.snapshotIndices entry).bind (fun index => state.snapshots[index]?)

end AcquisitionState

namespace AcquisitionTask

variable (task : AcquisitionTask)

/-- `RepositorySpec::configured_registry_id`. -/
def configuredRegistryId (repository : RepositorySpec) : Except ManifestError RegistryId :=
  configuredRegistryIdFor task.sha256 repository.registry repository.manifestEndpoint

/-- `SnapshotDemandSource::load`. -/
def demandSource (state : AcquisitionState) : RepositoryDemandSource := fun entry package =>
  match task.repositories[entry]? with
  | none => .ok []
  | some repository =>
    if !repository.packageAllowed package then .ok []
    else
      match state.loaderOf entry with
      | none => .ok []
      | some loader => (loader (.installedName package)).map
          (fun result => result.observations.map RawCandidateObservation.release)

/-- Whether a package is a root that is scoped to a repository. -/
def isScopedRoot (repository : RepositorySpec) (package : PackageName) : Bool :=
  task.roots.any (fun root => root.name == package && root.source == .registry (some repository.id))

/-- `cran_optional_demands` — the demands that are not roots scoped to the repository. -/
def cranOptionalDemands (demands : Finset (Nat × PackageName)) (repository : RepositorySpec)
    (entry : Nat) : List PackageName :=
  (demandsOf demands entry).filter (fun package => !task.isScopedRoot repository package)

/-- `validate_cran_demand_count`. -/
def validateCranDemandCount (demands : Finset (Nat × PackageName)) :
    Except RepositoryResolutionError Unit :=
  let cranIndices := (task.repositories.zipIdx.filter (fun entry =>
    entry.1.registry == .cran)).map Prod.snd
  let hasCranDemand := cranIndices.any (fun index => !(demandsOf demands index).isEmpty)
  ensure (¬ (hasCranDemand ∧ cranIndices.length ≠ 1)) (.composition (.invalidRegistry
    "repository demands targeting CRAN require exactly one CRAN repository"))

/-- Whether an entry is an R-universe repository of a group. -/
def inGroup (registry : RegistryId) (endpoint : String) (repository : RepositorySpec) : Bool :=
  repository.registry == .rUniverse &&
    (match task.configuredRegistryId repository with
      | .ok registry' => registry' == registry
      | .error _ => false) &&
    repository.manifestEndpoint.text == endpoint

/-- `r_universe_group_scope`. -/
def rUniverseGroupScope (registry : RegistryId) (endpoint : String) : Option (List PackageName) :=
  let group := task.repositories.filter (task.inGroup registry endpoint)
  if group.any (fun repository => repository.packages.isNone) then none
  else some (OrderedSet.ofList (group.flatMap (fun repository =>
    repository.packages.getD []))).toList

/-- Prepare the CRAN entry for the roots that the state has collected. -/
def prepareCran (state : AcquisitionState) (index : Nat) (repository : RepositorySpec)
    (optional : List PackageName) : Except RepositoryResolutionError AcquisitionState := do
  let refresh := refreshRequested task.refreshMetadata state.cranIteration
  let loader ← task.factories.prepare state.calls repository state.cranRoots optional refresh
  let state := { state with
    cranIteration := state.cranIteration + 1
    calls := state.calls ++ [.prepareCran state.cranRoots optional refresh] }
  match loader with
  | none => return state
  | some loader =>
    match state.snapshotIndices index with
    | some snapshot => return { state with snapshots := state.snapshots.set snapshot loader }
    | none => return { state with
        snapshotIndices := Function.update state.snapshotIndices index (some state.snapshots.length)
        snapshots := state.snapshots ++ [loader] }

/-- The position of the first CRAN entry, and the entry. -/
def cranEntry : Option (RepositorySpec × Nat) :=
  task.repositories.zipIdx.find? (fun entry => entry.1.registry == .cran)

/-- The preparation of the CRAN entry for the initial demands. -/
def startCran (initial : Finset (Nat × PackageName)) :
    Except RepositoryResolutionError AcquisitionState :=
  match task.cranEntry with
  | none => .ok .initial
  | some (repository, index) =>
    let roots := (demandsOf initial index).map rootRequirement
    if roots = [] then .ok .initial
    else task.prepareCran { AcquisitionState.initial with cranRoots := roots } index repository
      (task.cranOptionalDemands initial repository index)

/-- Whether the CRAN snapshot covers a package. -/
def coveredBy (current : Option RawCandidateLoader) (package : PackageName) :
    Except RepositoryResolutionError Bool :=
  match current with
  | none => .ok false
  | some loader => (rawPackageIsCovered loader package).mapError (fun cause => .cran (.refresh cause))

/-- The roots with a package that is not covered and not among them, and whether there was one. -/
def addCranRoot (current : Option RawCandidateLoader) (grown : List RootRequirement × Bool)
    (package : PackageName) : Except RepositoryResolutionError (List RootRequirement × Bool) := do
  let covered ← coveredBy current package
  if !covered && grown.1.all (fun root => root.package.name != package) then
    return (grown.1 ++ [rootRequirement package], true)
  else return grown

/-- Prepare the CRAN entry once more when a plan demands a package that is not covered. -/
def growCran (state : AcquisitionState) (demands : Finset (Nat × PackageName)) :
    Except RepositoryResolutionError (AcquisitionState × Bool) :=
  match task.cranEntry with
  | none => .ok (state, false)
  | some (repository, index) => do
    let (roots, missing) ← (demandsOf demands index).foldlM (addCranRoot (state.loaderOf index))
      (state.cranRoots, false)
    if missing then
      let state ← task.prepareCran { state with cranRoots := roots } index repository
        (task.cranOptionalDemands demands repository index)
      return (state, true)
    else return (state, false)

/-- The state after a group was opened: its entries have the new snapshot. -/
def addGroup (state : AcquisitionState) (registry : RegistryId) (endpoint : String)
    (scope : Option (List PackageName)) (loader : RawCandidateLoader) : AcquisitionState :=
  { state with
    snapshots := state.snapshots ++ [loader]
    preparedGroups := (registry.text, endpoint) :: state.preparedGroups
    snapshotIndices := fun entry =>
      match task.repositories[entry]? with
      | some repository =>
        if task.inGroup registry endpoint repository then some state.snapshots.length
        else state.snapshotIndices entry
      | none => state.snapshotIndices entry
    calls := state.calls ++ [.openGroup registry endpoint scope loader] }

/-- Open the group of an entry, when the entry is demanded and its group is not open. -/
def openEntry (demands : Finset (Nat × PackageName)) (opened : AcquisitionState × Bool)
    (entry : RepositorySpec × Nat) : Except RepositoryResolutionError (AcquisitionState × Bool) :=
  if entry.1.registry ≠ .rUniverse ∨ demandsOf demands entry.2 = [] then .ok opened
  else do
    let registry ← (task.configuredRegistryId entry.1).mapError .composition
    let endpoint := entry.1.manifestEndpoint.text
    if (registry.text, endpoint) ∈ opened.1.preparedGroups then return opened
    else
      let scope := task.rUniverseGroupScope registry endpoint
      (task.factories.openStore registry).mapError .cache
      let session ← (task.factories.create opened.1.calls endpoint registry).mapError .rUniverse
      let loader ← (session.acquire task.offline task.refreshMetadata scope).mapError .rUniverse
      return (task.addGroup opened.1 registry endpoint scope loader, true)

/-- One round, after the plan over the snapshots is made: whether a provider was opened. -/
def acquireDemands (state : AcquisitionState) (demands : Finset (Nat × PackageName)) :
    Except RepositoryResolutionError (AcquisitionState × Bool) := do
  task.validateCranDemandCount demands
  let (state, grown) ← task.growCran state demands
  task.repositories.zipIdx.foldlM (task.openEntry demands) (state, grown)

/-- The acquisition loop, for at most some rounds and some steps of every plan: the last plan and
the snapshots it was made over. -/
def acquisitionLoop (budget : Nat) : Nat → AcquisitionState →
    Option (Except RepositoryResolutionError (RepositoryDemandPlan × AcquisitionState))
  | 0, _ => none
  | fuel + 1, state =>
    match resolveRepositoryDemandsWithDirect task.repositories task.directReleases
        (task.demandSource state) budget task.roots with
    | none => none
    | some (.error cause) => some (.error (.cran (.refresh cause)))
    | some (.ok plan) =>
      match task.acquireDemands state plan.entryDemands with
      | .error cause => some (.error cause)
      | .ok (next, true) => acquisitionLoop budget fuel next
      | .ok (next, false) => some (.ok (plan, next))

/-- The acquisition of `resolve_composed_with_prepared_direct`: nothing when no provider is
demanded. -/
def acquire (budget fuel : Nat) : Option
    (Except RepositoryResolutionError (Option (RepositoryDemandPlan × AcquisitionState))) :=
  let initial :=
    initialRepositoryDemandsWithDirect task.repositories task.directReleases task.roots
  match task.validateCranDemandCount initial with
  | .error cause => some (.error cause)
  | .ok () =>
    if initial = ∅ then some (.ok none)
    else
      match task.startCran initial with
      | .error cause => some (.error cause)
      | .ok state => (task.acquisitionLoop budget fuel state).map (Except.map some)

end AcquisitionTask

end Rsolve
