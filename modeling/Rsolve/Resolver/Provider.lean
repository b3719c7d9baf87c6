import Rsolve.Lib.Growth
import Rsolve.Lib.Ranges
import Rsolve.Resolver.Policy

/-!
# The dependency provider

The provider answers the solver's questions from lazily loaded subjects. Every release identity it
has seen owns one opaque candidate id for the whole solve. A subject is loaded once; its outcome,
good or bad, is remembered. Ids, cache entries and interned candidates are only ever added.
-/
open Keyed Checked Growth Intervals

namespace Rsolve

/-- `CandidateId` — an opaque solve-local id. -/
structure CandidateId where
  /-- The ordinal, which never orders candidates. -/
  ordinal : Nat
deriving Repr, DecidableEq

/-- Ids are compared as they are. -/
instance : Representative CandidateId := ⟨id⟩

/-- `SolverVersion` — the version domain of one solve. -/
inductive SolverVersion
  | root
  | r (version : RPackageVersion)
  | candidate (id : CandidateId)
deriving DecidableEq

/-- Versions are compared with R versions as versions. -/
instance : Representative SolverVersion where
  representative
    | .r version => .r (representative version)
    | other => other

/-- `Ord::cmp` — the root version, then R versions, then candidates. -/
def SolverVersion.cmp : SolverVersion → SolverVersion → Ordering
  | .root, .root => .eq
  | .root, _ => .lt
  | .r _, .root => .gt
  | .r left, .r right => left.cmp right
  | .r _, .candidate _ => .lt
  | .candidate left, .candidate right => compare left.ordinal right.ordinal
  | .candidate _, _ => .gt

/-- A set of solver versions. -/
abbrev VersionRange := Ranges SolverVersion

/-- Membership in a set of solver versions. -/
def VersionRange.has (range : VersionRange) (version : SolverVersion) : Bool :=
  range.contains SolverVersion.cmp version

/-- `PackageId` — a package of the solver. -/
inductive PackageId
  | root
  | subject (key : SolverKey)
  | occupancy (name : PackageName)
deriving DecidableEq

/-- Solver packages are compared with their subjects as subjects. -/
instance : Representative PackageId where
  representative
    | .subject key => .subject (representative key)
    | other => other

/-- `PublicationRejection` — why the cutoff refuses a release. -/
inductive PublicationRejection
  | publicationCooldown (identity : ReleaseIdentity) (published : PublicationDate)
  | publicationUnknown (identity : ReleaseIdentity)
deriving DecidableEq

/-- The refused identity. -/
def PublicationRejection.identity : PublicationRejection → ReleaseIdentity
  | .publicationCooldown identity _ => identity
  | .publicationUnknown identity => identity

/-- `ProviderMessage` — why a version is unavailable. -/
inductive ProviderMessage
  | text (message : String)
  | publication (rejections : List PublicationRejection)
deriving DecidableEq

/-- `AdapterError` — a load failure and the subject it concerns. -/
structure AdapterError where
  /-- The subject. -/
  package : SolverKey
  /-- The failure. -/
  source : CandidateLoadError
deriving DecidableEq

/-- `LoadedSubject` — the visible candidates of a subject with their ids. -/
structure LoadedSubject where
  /-- The candidates. -/
  candidates : List (CandidateId × PreparedCandidate)
  /-- The quarantined versions. -/
  quarantined : List QuarantinedCandidate

/-- `Dependencies` — the answer to a dependency question. -/
inductive Dependencies
  | available (constraints : KeyedMap PackageId VersionRange)
  | unavailable (message : ProviderMessage)

/-- `CandidateInterner` — the ids of the identities seen so far. -/
structure CandidateInterner where
  /-- The next id. It counts identities held in memory, so it is not bounded here. -/
  next : Nat
  /-- The id of every identity. -/
  byIdentity : KeyedMap ReleaseIdentity CandidateId
  /-- The candidate first seen for every id. -/
  candidates : KeyedMap CandidateId PreparedCandidate

/-- The interner before the first identity. -/
def CandidateInterner.initial : CandidateInterner := ⟨0, .empty, .empty⟩

/-- A failure of the given category. -/
def metadataInvalid (diagnostic : String) : CandidateLoadError :=
  ⟨.metadataInvalid, diagnostic⟩

/-- `CandidateInterner::intern` — the id of a prepared candidate's identity. -/
def CandidateInterner.intern (candidate : PreparedCandidate) :
    Attempt CandidateInterner CandidateLoadError CandidateId := fun interner =>
  match interner.byIdentity.get? candidate.identity with
  | some id =>
    match interner.candidates.get? id with
    | none => (.error (metadataInvalid
        "candidate interner lost the prepared candidate for an interned identity"), interner)
    | some existing =>
      if existing.SameFacts candidate then (.ok id, interner)
      else (.error (metadataInvalid "conflicting logical metadata for interned candidate"),
        interner)
  | none =>
    let id : CandidateId := ⟨interner.next⟩
    (.ok id, ⟨interner.next + 1, interner.byIdentity.insert candidate.identity id,
      interner.candidates.insert id candidate⟩)

/-- `CandidateInterner::ids_for_name` — the ids of one package name. -/
def CandidateInterner.idsForName (debug : DebugText) (interner : CandidateInterner)
    (name : PackageName) : List CandidateId :=
  let named := interner.candidates.entries.filter (fun entry => entry.2.identity.name == name)
  (Sorting.sortBy (compareOn (fun entry : CandidateId × PreparedCandidate =>
    debug.identitySortKey entry.2.identity)) named).map Prod.fst

/-- `Provider` — the fixed part of a provider. -/
structure Provider where
  /-- The loader. -/
  loader : CandidateLoader
  /-- The trial order. -/
  preference : CandidatePreference
  /-- The treatment of a previous lock. -/
  lockPolicy : LockUpdatePolicy
  /-- The request. -/
  request : ResolutionRequest
  /-- The debug texts. -/
  debug : DebugText

/-- The interior state of a provider. -/
structure ProviderState where
  /-- The outcome of every subject loaded so far. -/
  cache : KeyedMap SolverKey (Except CandidateLoadError LoadedSubject)
  /-- The ids of the identities seen so far. -/
  interner : CandidateInterner

/-- The state of a new provider. -/
def ProviderState.initial : ProviderState := ⟨.empty, .initial⟩

/-- A computation of the provider. -/
abbrev ProviderM := Attempt ProviderState AdapterError

/-- One observation joins the candidates of a subject: it merges with the one of its identity. -/
def observeCandidate (unique : List PreparedCandidate) (release : PreparedCandidate) :
    Except CandidateLoadError (List PreparedCandidate) :=
  match unique.find? (fun candidate => Same candidate.identity release.identity) with
  | some existing =>
    match existing.merge release with
    | .ok merged =>
      .ok (unique.eraseP (fun candidate => Same candidate.identity release.identity) ++ [merged])
    | .error cause =>
      .error (metadataInvalid ("conflicting metadata within subject: " ++ cause.message))
  | none => .ok (unique ++ [release])

/-- The candidates of a subject, one for every identity. -/
def uniqueCandidates (releases : List PreparedCandidate) :
    Except CandidateLoadError (List PreparedCandidate) :=
  releases.foldlM observeCandidate []

namespace Provider

variable (provider : Provider)

/-- The visible candidates of a subject, in identity order. -/
def visibleCandidates (subject : SolverKey) (releases : List PreparedCandidate) :
    Except CandidateLoadError (List PreparedCandidate) := do
  let unique ← uniqueCandidates releases
  return (Sorting.sortBy (compareOn (fun candidate : PreparedCandidate =>
    provider.debug.identitySortKey candidate.identity)) unique).filter
      (fun candidate => candidate.isEligibleFor subject)

/-- Intern the candidates of a subject. -/
def internCandidates (candidates : List PreparedCandidate) :
    Attempt CandidateInterner CandidateLoadError (List (CandidateId × PreparedCandidate)) :=
  candidates.mapM (fun candidate => do
    let id ← CandidateInterner.intern candidate
    return (id, candidate))

/-- The outcome of loading a subject that is not in the cache. -/
def loadSubject (subject : SolverKey) :
    Attempt CandidateInterner CandidateLoadError LoadedSubject := do
  let result ← Attempt.ofExcept (provider.loader subject)
  let visible ← Attempt.ofExcept (provider.visibleCandidates subject result.candidates)
  let candidates ← internCandidates visible
  return ⟨candidates, result.quarantined⟩

/-- `Provider::loaded` — load a subject once and remember the outcome. -/
def loaded (subject : SolverKey) : ProviderM LoadedSubject := fun state =>
  match state.cache.get? subject with
  | some cached => (cached.mapError (AdapterError.mk subject), state)
  | none =>
    let (outcome, interner) := provider.loadSubject subject state.interner
    (outcome.mapError (AdapterError.mk subject), ⟨state.cache.insert subject outcome, interner⟩)

/-- The candidate of an id among loaded candidates. -/
def findCandidate (loaded : LoadedSubject) (id : CandidateId) : Option PreparedCandidate :=
  (loaded.candidates.find? (fun entry => entry.1 == id)).map Prod.snd

/-- The candidate of an id in a loaded subject, or the error that it is not visible there. -/
def visibleCandidate (subject : SolverKey) (id : CandidateId) (loaded : LoadedSubject) :
    Except AdapterError PreparedCandidate :=
  match findCandidate loaded id with
  | some release => .ok release
  | none => .error ⟨subject,
      metadataInvalid "selected candidate is not visible in this subject"⟩

/-- `Provider::candidate_for_id`. -/
def candidateForId (subject : SolverKey) (id : CandidateId) : ProviderM PreparedCandidate := do
  let loaded ← provider.loaded subject
  Attempt.ofExcept (visibleCandidate subject id loaded)

/-- `Provider::r_version`. -/
def rVersion : RPackageVersion := provider.request.target.rVersion

/-- `Provider::lock_decision`. -/
def lockDecision (subject : SolverKey) : LockDecision :=
  provider.lockPolicy subject (provider.request.locked.get? subject)

/-- `Provider::r_range` — the target version when a constraint admits it. -/
def rRange (constraint : VersionConstraint) : VersionRange :=
  if constraint.satisfies provider.rVersion then .singleton (.r provider.rVersion) else .empty

/-- `Provider::subject_for_package` — the subject a requirement is about. -/
def subjectForPackage (package : PackageRequirement) : Except AdapterError SolverKey :=
  match package.source with
  | .git _ => .error ⟨.installedName package.name, metadataInvalid
      ("Git-sourced dependencies are not supported for package " ++ package.name.text)⟩
  | source =>
    if package.name.text = "R" then .ok .r
    else
      match source with
      | .any =>
        match provider.request.exactRootIdentity package.name with
        | some identity => .ok (.exact identity)
        | none => .ok (.installedName package.name)
      | .registry nspace => .ok (.registry nspace package.name)
      | .bioconductor nspace release => .ok (.bioconductor nspace release package.name)
      | .repository repository => .ok (.repository repository package.name)
      | .exact identity => .ok (.exact identity)
      | .git _ => .error ⟨.installedName package.name, metadataInvalid
          ("Git-sourced dependencies are not supported for package " ++ package.name.text)⟩

/-- The loop of `Provider::expansion_for_subject`. -/
def expansionAmong (subject : SolverKey) :
    List RootRequirement → Except AdapterError RootExpansionPolicy
  | [] => .ok .hardOnly
  | root :: rest => do
    let key ← provider.subjectForPackage root.package
    if Same key subject ∧ root.expansion = .directSuggests then return .directSuggests
    else expansionAmong subject rest

/-- `Provider::expansion_for_subject` — a subject of a root expands as the root says. -/
def expansionForSubject (subject : SolverKey) : Except AdapterError RootExpansionPolicy :=
  provider.expansionAmong subject provider.request.roots

/-- `Provider::expansion_for_subjects`. -/
def expansionForSubjects : List SolverKey → Except AdapterError RootExpansionPolicy
  | [] => .ok .hardOnly
  | subject :: rest => do
    let expansion ← provider.expansionForSubject subject
    if expansion = .directSuggests then return .directSuggests
    else expansionForSubjects rest

/-- The ids of the candidates a constraint admits. -/
def admittedRange (constraint : VersionConstraint) (loaded : LoadedSubject) : VersionRange :=
  loaded.candidates.foldl (fun range entry =>
    if constraint.satisfies entry.2.release.version then
      range.union (.singleton (.candidate entry.1))
    else range) .empty

/-- The quarantined versions a constraint admits. -/
def admittedQuarantine (constraint : VersionConstraint) (loaded : LoadedSubject) :
    List QuarantinedCandidate :=
  loaded.quarantined.filter (fun candidate => constraint.satisfies candidate.version)

/-- The range of a constraint on a loaded subject. Without a pin, a range whose only matches are
quarantined is an error. -/
def rangeWithin (subject : SolverKey) (constraint : VersionConstraint) (loaded : LoadedSubject) :
    Except AdapterError VersionRange :=
  let range := admittedRange constraint loaded
  let quarantined := admittedQuarantine constraint loaded
  if (provider.lockDecision subject).required = none ∧ range = .empty ∧ quarantined ≠ [] then
    .error ⟨subject, metadataInvalid
      ("all candidates matching the requested range were quarantined: " ++
        ", ".intercalate (quarantined.map (fun candidate => candidate.version.raw)))⟩
  else .ok range

/-- `Provider::candidate_ranges` — the range of a constraint on a subject. -/
def candidateRanges (subject : SolverKey) (constraint : VersionConstraint) :
    ProviderM VersionRange := do
  let loaded ← provider.loaded subject
  Attempt.ofExcept (provider.rangeWithin subject constraint loaded)

/-- `Provider::ranges_for_subject`. -/
def rangesForSubject (subject : SolverKey) (constraint : VersionConstraint) :
    ProviderM VersionRange :=
  match subject with
  | .r => return provider.rRange constraint
  | subject => provider.candidateRanges subject constraint

/-- The rejection of one candidate under a cutoff date, if it is rejected. -/
def rejection (cutoff : PublicationDate) (locked : Option ReleaseIdentity)
    (candidate : PreparedCandidate) : Option PublicationRejection :=
  if candidate.release.isRBasePackage = true ∨ Same locked (some candidate.identity) then none
  else
    match candidate.release.publication with
    | some publication =>
      if publication.date.cmp cutoff = .gt then
        some (.publicationCooldown candidate.identity publication.date)
      else none
    | none => some (.publicationUnknown candidate.identity)

/-- `Provider::publication_rejections` — the candidates the cutoff refuses. -/
def publicationRejections (candidates : List (CandidateId × PreparedCandidate))
    (locked : Option ReleaseIdentity) : List PublicationRejection :=
  match provider.request.publicationCutoff with
  | none => []
  | some cutoff =>
    Sorting.sortBy (compareOn (fun rejection : PublicationRejection =>
        provider.debug.identitySortKey rejection.identity))
      (candidates.filterMap (fun entry => rejection cutoff.date locked entry.2))

/-- Whether a lock decision admits a candidate. -/
def meetsRequired (decision : LockDecision) (candidate : PreparedCandidate) : Bool :=
  match decision.required with
  | some identity => decide (Same candidate.identity identity)
  | none => true

/-- The candidates of a subject that the lock decision and a range admit. -/
def selectableCandidates (subject : SolverKey) (range : VersionRange) (loaded : LoadedSubject) :
    List (CandidateId × PreparedCandidate) :=
  loaded.candidates.filter (fun entry =>
    meetsRequired (provider.lockDecision subject) entry.2 && range.has (.candidate entry.1))

/-- The candidates left by the cutoff, or all of them when it leaves none. -/
def withinCutoff (locked : Option ReleaseIdentity)
    (eligible : List (CandidateId × PreparedCandidate)) : List (CandidateId × PreparedCandidate) :=
  let rejections := provider.publicationRejections eligible locked
  if provider.request.publicationCutoff.isSome ∧ rejections ≠ [] then
    let kept := eligible.filter (fun entry => !rejections.any (fun rejection =>
      decide (Same entry.2.identity rejection.identity)))
    if kept.isEmpty then eligible else kept
  else eligible

/-- `Provider::with_eligible_candidates` with the trial order of `choose_version`: the candidate
tried first. -/
def preferredCandidate (subject : SolverKey) (range : VersionRange) (loaded : LoadedSubject) :
    Option CandidateId :=
  let locked := (provider.lockDecision subject).locked
  let eligible := provider.withinCutoff locked
    (provider.selectableCandidates subject range loaded)
  (Sorting.sortBy (fun left right : CandidateId × PreparedCandidate =>
    comparePreparedCandidates provider.debug provider.preference subject ⟨locked⟩ left.2 right.2)
    eligible).getLast?.map Prod.fst

/-- The cutoff rejections of a visible candidate; a pinned subject judges its pin only. -/
def candidateRejections (subject : SolverKey) (id : CandidateId) (candidate : PreparedCandidate) :
    List PublicationRejection :=
  if meetsRequired (provider.lockDecision subject) candidate then
    provider.publicationRejections [(id, candidate)] (provider.lockDecision subject).locked
  else []

/-- `Provider::publication_rejections_for_candidate`. -/
def publicationRejectionsForCandidate (subject : SolverKey) (id : CandidateId) :
    ProviderM (List PublicationRejection) := do
  let candidate ← provider.candidateForId subject id
  return provider.candidateRejections subject id candidate

/-- `{:?}` of a solver package. -/
def debugPackage : PackageId → String
  | .root => "Root"
  | .subject key => "Subject(" ++ provider.debug.subject key ++ ")"
  | .occupancy name => "Occupancy(PackageName(\"" ++ name.text ++ "\"))"

/-- The number of candidates of a subject in a range. -/
def countWithin (range : VersionRange) (loaded : LoadedSubject) : Nat :=
  (loaded.candidates.filter (fun entry => range.has (.candidate entry.1))).length

/-- The number of candidates of a subject in a range; a subject that fails to load counts
`usize::MAX`. -/
def subjectCount (subject : SolverKey) (range : VersionRange) : ProviderM Nat :=
  match subject with
  | .r => return if range.has (.r provider.rVersion) then 1 else 0
  | subject => Attempt.recover (do
      let loaded ← provider.loaded subject
      return countWithin range loaded) (fun _ => 18446744073709551615)

/-- The number of versions of a package in a range. -/
def versionCount (package : PackageId) (range : VersionRange) : ProviderM Nat :=
  match package with
  | .root => return 1
  | .subject subject => provider.subjectCount subject range
  | .occupancy _ => return 1

/-- `Provider::prioritize` — packages with fewer candidates in range come first. The count stands
for its `Reverse`. -/
def prioritize (package : PackageId) (range : VersionRange) : ProviderM (Nat × String) := do
  let count ← provider.versionCount package range
  return (count, provider.debugPackage package)

/-- The version of a subject to try within a range. -/
def chooseForSubject (subject : SolverKey) (range : VersionRange) :
    ProviderM (Option SolverVersion) :=
  match subject with
  | .r => return if range.has (.r provider.rVersion) then some (.r provider.rVersion) else none
  | subject => do
    let loaded ← provider.loaded subject
    return (provider.preferredCandidate subject range loaded).map .candidate

/-- The id occupying an installed name within a range. -/
def occupant (name : PackageName) (range : VersionRange) (interner : CandidateInterner) :
    Option CandidateId :=
  (interner.idsForName provider.debug name).find? (fun id => range.has (.candidate id))

/-- `Provider::choose_version` — the version of a package to try within a range. -/
def chooseVersion (package : PackageId) (range : VersionRange) :
    ProviderM (Option SolverVersion) :=
  match package with
  | .root => return if range.has .root then some .root else none
  | .subject subject => provider.chooseForSubject subject range
  | .occupancy name => fun state =>
    (.ok ((provider.occupant name range state.interner).map .candidate), state)

/-- The dependency entry of one requirement. -/
def requirementEntry (package : PackageRequirement) : ProviderM (PackageId × VersionRange) := do
  let subject ← Attempt.ofExcept (provider.subjectForPackage package)
  let range ← provider.rangesForSubject subject package.constraint
  return (.subject subject, range)

/-- The edge loop of `get_dependencies`; a Git-sourced edge makes the version unavailable. -/
def edgeEntries : List ResolvedDependencyEdge →
    ProviderM (Except ProviderMessage (List (PackageId × VersionRange)))
  | [] => return .ok []
  | edge :: rest =>
    match edge.package.source with
    | .git _ => return .error (.text
        ("Git-sourced dependencies are not supported for package " ++ edge.package.name.text))
    | _ => do
      let entry ← provider.requirementEntry edge.package
      let entries ← edgeEntries rest
      return entries.map (entry :: ·)

/-- The answer from the entries of a candidate's edges: its name is occupied by its id. -/
def edgeDependencies (id : CandidateId) (candidate : PreparedCandidate) :
    Except ProviderMessage (List (PackageId × VersionRange)) → Dependencies
  | .error message => .unavailable message
  | .ok entries => .available (.ofList
      ((.occupancy candidate.identity.name, .singleton (.candidate id)) :: entries))

/-- The dependencies of a candidate that the cutoff admits. -/
def candidateDependencies (subject : SolverKey) (id : CandidateId)
    (candidate : PreparedCandidate) : ProviderM Dependencies := do
  let expansion ← Attempt.ofExcept (provider.expansionForSubject subject)
  let entries ← provider.edgeEntries (projectDependencyEdges candidate.release expansion)
  return edgeDependencies id candidate entries

/-- `Provider::get_dependencies` — the dependencies of a package version. -/
def getDependencies (package : PackageId) (version : SolverVersion) : ProviderM Dependencies :=
  match package with
  | .root =>
    match version with
    | .root => do
      let entries ← provider.request.roots.mapM (fun root =>
        provider.requirementEntry root.package)
      return .available (.ofList
        ((.subject .r, provider.rRange provider.request.rRequirement) :: entries))
    | _ => return .unavailable (.text "unknown root version")
  | .subject .r => return .available .empty
  | .subject subject =>
    match version with
    | .candidate id => do
      let rejections ← provider.publicationRejectionsForCandidate subject id
      if rejections ≠ [] then return .unavailable (.publication rejections)
      else
        let candidate ← provider.candidateForId subject id
        provider.candidateDependencies subject id candidate
    | _ => return .unavailable (.text "unknown candidate version")
  | .occupancy _ => return .available .empty

end Provider

end Rsolve
