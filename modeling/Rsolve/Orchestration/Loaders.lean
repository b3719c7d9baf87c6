import Rsolve.Core.Resolution

/-!
# Composed candidate loaders

A raw loader observes releases without repository context. A repository entry turns its observations
into prepared candidates with one occurrence each. Directly acquired Git releases are exposed to
exact subjects only. The composite loader asks all of them in manifest order and merges equal
identities.
-/
open Keyed Checked

namespace Rsolve

/-- `RawCandidateObservation` — a release before repository context is composed. -/
structure RawCandidateObservation where
  /-- The observed release. -/
  release : PackageRelease
  /-- Whether the provider lists the release as current. -/
  currentness : CandidateCurrentness

/-- `RawCandidateLoadResult` — raw candidates and quarantined coordinates. -/
structure RawCandidateLoadResult where
  /-- The observations. -/
  observations : List RawCandidateObservation
  /-- The quarantined versions. -/
  quarantined : List QuarantinedCandidate

/-- `RawCandidateLoader::load_raw`. -/
abbrev RawCandidateLoader := SolverKey → Except CandidateLoadError RawCandidateLoadResult

/-- `RepositoryCandidateLoader` — a raw loader seen through one manifest repository entry. -/
structure RepositoryCandidateLoader where
  /-- The raw loader. -/
  raw : RawCandidateLoader
  /-- The repository entry. -/
  repository : RepositoryId
  /-- The registry behind the entry. -/
  registry : RegistryId
  /-- The rank of the entry. -/
  rank : RepositoryRank
  /-- The packages the entry is limited to. -/
  packageAllowlist : Option (List PackageName)

namespace RepositoryCandidateLoader

variable (entry : RepositoryCandidateLoader)

/-- Whether the allowlist of an entry admits a package. -/
def allows (name : PackageName) : Bool :=
  entry.packageAllowlist.all (fun packages => packages.contains name)

/-- The prepared candidate of one observation. -/
def prepare (observation : RawCandidateObservation) :
    Except CandidateLoadError PreparedCandidate := do
  let occurrence ← (RepositoryOccurrence.new entry.repository entry.registry .available
    observation.currentness entry.rank observation.release.distributions).mapError
      (fun cause => ⟨.metadataInvalid, "invalid provider occurrence: " ++ cause.message⟩)
  (PreparedCandidate.new observation.release .none [occurrence]).mapError
    (fun cause => ⟨.metadataInvalid, "invalid prepared candidate: " ++ cause.message⟩)

/-- The lookup of an admitted package for a subject. -/
def lookup (subject : SolverKey) (name : PackageName) :
    Except CandidateLoadError CandidateLoadResult := do
  let raw ← entry.raw (.installedName name)
  let candidates ← raw.observations.mapM entry.prepare
  return ⟨candidates.filter (fun candidate => candidate.isEligibleFor subject), raw.quarantined⟩

/-- `RepositoryCandidateLoader::load` — the candidates of a subject in one entry. Another entry's
subject, a package outside the allowlist and R have none. -/
def load : CandidateLoader := fun subject =>
  match subject with
  | .repository repository name =>
    if repository ≠ entry.repository then .ok ⟨[], []⟩
    else if !entry.allows name then .ok ⟨[], []⟩
    else entry.lookup subject name
  | .r => .ok ⟨[], []⟩
  | .installedName name | .registry _ name | .bioconductor _ _ name =>
    if !entry.allows name then .ok ⟨[], []⟩ else entry.lookup subject name
  | .exact identity =>
    if !entry.allows identity.name then .ok ⟨[], []⟩ else entry.lookup subject identity.name

end RepositoryCandidateLoader

/-- `DirectGitCandidateLoader` — directly acquired Git releases. -/
structure DirectGitCandidateLoader where
  /-- The candidates. -/
  candidates : List PreparedCandidate
  /-- A direct candidate is visible to exact subjects only. -/
  exactOnly : ∀ candidate ∈ candidates, candidate.exposure = .exactOnly
  /-- A direct candidate occurs in no repository. -/
  unlisted : ∀ candidate ∈ candidates, candidate.occurrences = []

namespace DirectGitCandidateLoader

variable (loader : DirectGitCandidateLoader)

/-- `DirectGitCandidateLoader::load`. -/
def load : CandidateLoader := fun subject =>
  .ok ⟨loader.candidates.filter (fun candidate => candidate.isEligibleFor subject), []⟩

end DirectGitCandidateLoader

/-- `contextual_error` — a failure with the index of its source. -/
def contextualError (index : Nat) (cause : CandidateLoadError) : CandidateLoadError :=
  ⟨cause.category, "candidate source " ++ toString index ++ ": " ++ cause.diagnostic⟩

/-- Add a quarantined version that is not there yet. -/
def addQuarantined (quarantined : List QuarantinedCandidate) (entry : QuarantinedCandidate) :
    List QuarantinedCandidate :=
  if quarantined.any (fun other => decide (Same other.version entry.version) &&
      other.diagnostic == entry.diagnostic) then quarantined
  else quarantined ++ [entry]

/-- `CompositeCandidateLoader` — the loaders of a composition, in manifest order. -/
structure CompositeCandidateLoader where
  /-- The loaders. -/
  loaders : List CandidateLoader

namespace CompositeCandidateLoader

/-- Add the candidates of one source. -/
def addCandidates (index : Nat) (set : PreparedCandidateSet) (candidates : List PreparedCandidate) :
    Except CandidateLoadError PreparedCandidateSet :=
  (candidates.foldlM PreparedCandidateSet.insertCandidate set).mapError (fun cause => ⟨.metadataInvalid,
    "candidate source " ++ toString index ++ " produced a merge conflict: " ++ cause.message⟩)

/-- The loop of `CompositeCandidateLoader::load`, from a source on. An ordinary absence is skipped;
any other failure ends the loop. -/
def loadFrom (subject : SolverKey) : List CandidateLoader → Nat → PreparedCandidateSet →
    List QuarantinedCandidate →
    Except CandidateLoadError (PreparedCandidateSet × List QuarantinedCandidate)
  | [], _, set, quarantined => .ok (set, quarantined)
  | loader :: rest, index, set, quarantined =>
    match loader subject with
    | .ok result => do
      let set ← addCandidates index set result.candidates
      loadFrom subject rest (index + 1) set (result.quarantined.foldl addQuarantined quarantined)
    | .error cause =>
      if cause.category = .notFound then loadFrom subject rest (index + 1) set quarantined
      else .error (contextualError index cause)

/-- `CompositeCandidateLoader::load`. -/
def load (composite : CompositeCandidateLoader) : CandidateLoader := fun subject => do
  let (set, quarantined) ← loadFrom subject composite.loaders 0 .empty []
  return ⟨set.values, quarantined⟩

end CompositeCandidateLoader

/-- The sources of one composition: the direct candidates and the repository entries. -/
structure CandidateSources where
  /-- The directly acquired Git releases. -/
  direct : DirectGitCandidateLoader
  /-- The repository entries, in manifest order. -/
  entries : List RepositoryCandidateLoader

/-- The composition of the sources: direct candidates first, when there are some. -/
def CandidateSources.compose (sources : CandidateSources) : CompositeCandidateLoader :=
  ⟨(if sources.direct.candidates.isEmpty then [] else [sources.direct.load]) ++
    sources.entries.map RepositoryCandidateLoader.load⟩

end Rsolve
