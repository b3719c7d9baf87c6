import Rsolve.Lock.RoundTrip

/-!
# What is read is written back

A record that is read as a lock holds no more than the lock: no package, edge, repository or
spelling of a version is dropped, since whatever is not canonical is refused. Only URLs, commits and
digests are spelled by their own constructors. So the lock is written as the record with these
respelled, and it is readable, whatever text it came from.
-/
open Keyed Checked

namespace Rsolve

section Respelled

variable {α ε : Type}

/-- The text of what is read from a text, or the text itself when nothing is. -/
def respelled (read : String → Except ε α) (text : α → String) (input : String) : String :=
  match read input with
  | .ok value => text value
  | .error _ => input

/-- What is read from a text has the respelled text. -/
theorem respelled_of_ok {read : String → Except ε α} {text : α → String} {input : String}
    {value : α} (accepted : read input = .ok value) : respelled read text input = text value := by
  unfold respelled
  rw [accepted]

/-- A digest in its own spelling. -/
def respelledDigest : String → String :=
  respelled Sha256Digest.new Sha256Digest.text

/-- A repository URL in its own spelling. -/
def respelledUrl (ip : IpAddrs) : String → String :=
  respelled (NormalizedGitUrl.new ip) NormalizedGitUrl.text

/-- A source whose URL, commit and digest are in their own spelling. -/
def WireSource.respelled (ip : IpAddrs) : WireSource → WireSource
  | .git repository commit subdirectory =>
    .git (respelledUrl ip repository) (Rsolve.respelled GitCommitId.new GitCommitId.hex commit)
      subdirectory
  | .immutable scheme digest => .immutable scheme (respelledDigest digest)
  | source => source

/-- A package whose URLs, commit and digests are in their own spelling. -/
def WirePackage.respelled (ip : IpAddrs) (wire : WirePackage) : WirePackage :=
  { wire with
    source := wire.source.respelled ip
    metadataSha256 := respelledDigest wire.metadataSha256
    requestedGitSource := wire.requestedGitSource.map fun source =>
      { source with url := respelledUrl ip source.url } }

/-- A record whose URLs, commits and digests are in their own spelling. -/
def WireLockfile.respelled (ip : IpAddrs) (wire : WireLockfile) : WireLockfile :=
  { wire with
    resolutionIntentSha256 := respelledDigest wire.resolutionIntentSha256
    packages := wire.packages.map (WirePackage.respelled ip) }

end Respelled

section Fields

variable {ip : IpAddrs} {field : String}

/-- An identifier keeps the text it is read from. -/
theorem decodeIdentifier_eq_ok {kind : IdentifierKind} {input : String}
    {identifier : Identifier kind} : decodeIdentifier kind field input = .ok identifier ↔ identifier.text = input :=
  mapError_eq_ok.trans Identifier.new_eq_ok

/-- A package name keeps the text it is read from. -/
theorem decodeName_eq_ok {input : String} {name : PackageName} :
    decodeName field input = .ok name ↔ name.text = input :=
  mapError_eq_ok.trans PackageName.new_eq_ok

/-- A digest has the respelled text. -/
theorem respelled_of_decodeDigest {input : String} {digest : Sha256Digest}
    (read : decodeDigest field input = .ok digest) : respelledDigest input = digest.text :=
  respelled_of_ok (mapError_eq_ok.mp read)

/-- A URL that was read has the respelled text. -/
theorem respelled_of_decodeUrl {input : String} {url : NormalizedGitUrl}
    (read : decodeUrl ip field input = .ok url) : respelledUrl ip input = url.text ∧ url.Made ip :=
  ⟨respelled_of_ok (mapError_eq_ok.mp read), input, mapError_eq_ok.mp read⟩

/-- A subdirectory keeps the text it is read from. -/
theorem text_of_decodeSubdirectory {input : Option String} {subdirectory : Option RepositorySubdir}
    (read : decodeSubdirectory field input = .ok subdirectory) :
    subdirectory.map RepositorySubdir.text = input := by
  cases input with
  | none =>
    obtain rfl : none = subdirectory := Except.ok.inj read
    rfl
  | some text =>
    simp only [decodeSubdirectory, Option.mapM_some] at read
    obtain ⟨directory, made, finished⟩ := bind_eq_ok.mp read
    obtain rfl := Except.ok.inj finished
    have accepted := mapError_eq_ok.mp made
    unfold RepositorySubdir.new at accepted
    split at accepted
    · cases accepted
    · obtain rfl := Except.ok.inj accepted
      rfl

/-- A kind of dependency is written as the text it is read from. -/
theorem encode_of_decodeDependencyKind {input : String} {kind : EffectiveDependencyKind}
    (read : decodeDependencyKind input = .ok kind) : encodeDependencyKind kind = input := by
  unfold decodeDependencyKind at read
  split_ifs at read with depends imports linkingTo promoted
  · obtain rfl := Except.ok.inj read
    exact depends.symm
  · obtain rfl := Except.ok.inj read
    exact imports.symm
  · obtain rfl := Except.ok.inj read
    exact linkingTo.symm
  · obtain rfl := Except.ok.inj read
    exact promoted.symm

/-- A dependency is written as the record it is read from. -/
theorem encode_of_decodeDependency {wire : WireDependency} {edge : LockedDependencyEdge}
    (read : decodeDependency wire = .ok edge) :
    (⟨encodeDependencyKind edge.kind, edge.package.text⟩ : WireDependency) = wire := by
  obtain ⟨kind, kinds, read⟩ := bind_eq_ok.mp read
  obtain ⟨name, names, made⟩ := bind_eq_ok.mp read
  obtain rfl := Except.ok.inj made
  rw [encode_of_decodeDependencyKind kinds, decodeName_eq_ok.mp names]

/-- The selectors with a value are written with their kind and value. -/
theorem encode_of_valuedSelector {kind : String} (value : String)
    {make : String → LockedGitSelector} (known : valuedSelector kind = some make) :
    encodeSelector (make value) = (kind, some value) := by
  unfold valuedSelector at known
  split_ifs at known with branch tag rev
  · obtain rfl := Option.some.inj known
    rw [branch]
    rfl
  · obtain rfl := Option.some.inj known
    rw [tag]
    rfl
  · obtain rfl := Option.some.inj known
    rw [rev]
    rfl

/-- A selector is written as the kind and value it is read from, and its value passes its check. -/
theorem encode_of_decodeSelector {unprintable : Char → Bool} {kind : String} {value : Option String}
    {selector : LockedGitSelector} (read : decodeSelector unprintable kind value = .ok selector) :
    encodeSelector selector = (kind, value) ∧ selector.Valid := by
  unfold decodeSelector at read
  split at read
  · next make text known =>
    obtain ⟨_, checked, made⟩ := bind_eq_ok.mp read
    obtain rfl := Except.ok.inj made
    have written := encode_of_valuedSelector text known
    refine ⟨written, fun other context shown => ?_⟩
    rw [written] at shown
    obtain rfl := Option.some.inj shown
    exact ensure_of (ensure_eq_ok.mp (mapError_eq_ok.mp checked))
  · split at read
    · next default =>
      obtain rfl := Except.ok.inj read
      rw [default.1, default.2]
      exact ⟨rfl, fun _ _ absent => by cases absent⟩
    · cases read

/-- A constraint is written as the text it is read from. -/
theorem encode_of_decodeConstraint {kind : ConstraintVersionKind} {input : String}
    {constraint : VersionConstraint} (read : decodeConstraint kind field input = .ok constraint) :
    canonicalRRequirement constraint = input ∧ canonicalizeConstraint constraint = constraint ∧
      ∀ clause ∈ constraint.clauses, kind.minimum ≤ clause.version.values.length := by
  obtain ⟨parsed, accepted, read⟩ := bind_eq_ok.mp read
  obtain ⟨_, printed, made⟩ := bind_eq_ok.mp read
  obtain rfl := Except.ok.inj made
  exact ⟨ensure_eq_ok.mp printed, canonical_of_parseConstraint (mapError_eq_ok.mp accepted)⟩

/-- A requested source is written as the record it is read from, with the URL respelled. -/
theorem encode_of_decodeRequestedGitSource {reader : LockReader} {wire : WireRequestedGitSource}
    {source : LockedGitSource} (read : decodeRequestedGitSource reader wire = .ok source) :
    encodeRequestedGitSource source = { wire with url := respelledUrl reader.ip wire.url } ∧
      source.Readable reader.ip := by
  obtain ⟨selector, selectors, read⟩ := bind_eq_ok.mp read
  obtain ⟨url, urls, read⟩ := bind_eq_ok.mp read
  obtain ⟨subdirectory, subdirectories, read⟩ := bind_eq_ok.mp read
  obtain ⟨constraint, constraints, made⟩ := bind_eq_ok.mp read
  obtain rfl := Except.ok.inj made
  obtain ⟨written, valid⟩ := encode_of_decodeSelector selectors
  obtain ⟨spelled, origin⟩ := respelled_of_decodeUrl urls
  obtain ⟨printed, canonical, many⟩ := encode_of_decodeConstraint constraints
  refine ⟨?_, origin, valid, canonical, many⟩
  simp only [encodeRequestedGitSource, written, spelled, text_of_decodeSubdirectory subdirectories,
    printed]

/-- A provenance is written as the source it is read from, with its texts respelled. -/
theorem encode_of_decodeProvenance {version : RPackageVersion} {wire : WireSource}
    {provenance : Provenance} (read : decodeProvenance ip version wire = .ok provenance) :
    encodeProvenance provenance = .ok (wire.respelled ip) ∧ provenance.Made ip := by
  cases wire with
  | registry nspace =>
    obtain ⟨space, named, made⟩ := bind_eq_ok.mp read
    obtain rfl := Except.ok.inj made
    refine ⟨?_, trivial⟩
    rw [encodeProvenance, decodeIdentifier_eq_ok.mp named]
    rfl
  | bioconductor nspace release =>
    obtain ⟨space, named, read⟩ := bind_eq_ok.mp read
    obtain ⟨point, released, made⟩ := bind_eq_ok.mp read
    obtain rfl := Except.ok.inj made
    refine ⟨?_, trivial⟩
    rw [encodeProvenance, decodeIdentifier_eq_ok.mp named, decodeIdentifier_eq_ok.mp released]
    rfl
  | git repository commit subdirectory =>
    obtain ⟨url, urls, read⟩ := bind_eq_ok.mp read
    obtain ⟨id, commits, read⟩ := bind_eq_ok.mp read
    obtain ⟨directory, directories, made⟩ := bind_eq_ok.mp read
    obtain rfl := Except.ok.inj made
    obtain ⟨spelled, origin⟩ := respelled_of_decodeUrl urls
    refine ⟨?_, origin⟩
    rw [encodeProvenance, text_of_decodeSubdirectory directories, WireSource.respelled, spelled,
      respelled_of_ok (mapError_eq_ok.mp commits)]
  | immutable scheme digest =>
    obtain ⟨name, named, read⟩ := bind_eq_ok.mp read
    obtain ⟨value, digests, made⟩ := bind_eq_ok.mp read
    obtain rfl := Except.ok.inj made
    refine ⟨?_, trivial⟩
    rw [encodeProvenance, WireSource.respelled, decodeIdentifier_eq_ok.mp named,
      respelled_of_decodeDigest digests]

end Fields

section Locks

variable {reader : LockReader}

/-- A package whose dependencies are packages is written as the record it is read from, with its
texts respelled. -/
theorem encode_of_decodePackage {wire : WirePackage} {package : LockedPackage}
    (read : decodePackage reader wire = .ok package) :
    package.Readable reader.ip ∧ ∀ names : List PackageName,
      (∀ edge ∈ package.dependencies, edge.package ∈ names) →
        encodePackage names package = .ok (wire.respelled reader.ip) := by
  obtain ⟨name, named, read⟩ := bind_eq_ok.mp read
  obtain ⟨version, versions, read⟩ := bind_eq_ok.mp read
  obtain ⟨provenance, provenances, read⟩ := bind_eq_ok.mp read
  obtain ⟨digest, digests, read⟩ := bind_eq_ok.mp read
  obtain ⟨dependencies, edges, read⟩ := bind_eq_ok.mp read
  obtain ⟨repositories, visible, read⟩ := bind_eq_ok.mp read
  obtain ⟨requested, sources, made⟩ := bind_eq_ok.mp read
  obtain rfl := Except.ok.inj made
  obtain ⟨written, origin⟩ := encode_of_decodeProvenance provenances
  have repositoryTexts : repositories.map Identifier.text = wire.visibleRepositoryIds := by
    rw [← List.forall₂_eq_eq_eq, List.forall₂_map_left_iff]
    exact ((mapM_eq_ok.mp visible).imp fun _ _ accepted => decodeIdentifier_eq_ok.mp accepted).flip
  have edgeTexts : dependencies.map (fun dependency : LockedDependencyEdge =>
      (⟨encodeDependencyKind dependency.kind, dependency.package.text⟩ : WireDependency)) =
        wire.dependencies := by
    rw [← List.forall₂_eq_eq_eq, List.forall₂_map_left_iff]
    exact ((mapM_eq_ok.mp edges).imp fun _ _ accepted => encode_of_decodeDependency accepted).flip
  have requests : requested.map encodeRequestedGitSource =
      (wire.requestedGitSource.map fun source =>
        { source with url := respelledUrl reader.ip source.url }) ∧
        ∀ source ∈ requested, source.Readable reader.ip := by
    cases request : wire.requestedGitSource with
    | none =>
      rw [request] at sources
      obtain rfl : none = requested := Except.ok.inj sources
      exact ⟨rfl, fun _ absent => by cases absent⟩
    | some record =>
      rw [request, Option.mapM_some] at sources
      obtain ⟨source, accepted, finished⟩ := bind_eq_ok.mp sources
      obtain rfl := Except.ok.inj finished
      obtain ⟨printed, readable⟩ := encode_of_decodeRequestedGitSource accepted
      refine ⟨congrArg some printed, fun other member => ?_⟩
      obtain rfl := Option.some.inj member
      exact readable
  have published : (if canonicalVersion version ≠ wire.version then some wire.version else
      none).getD (canonicalVersion version) = wire.version := by
    by_cases spelled : canonicalVersion version = wire.version
    · rw [if_neg (not_not_intro spelled), Option.getD_none, spelled]
    · rw [if_pos spelled, Option.getD_some]
  refine ⟨⟨not_bare_of_parse (mapError_eq_ok.mp versions), origin, requests.2⟩,
    fun names kept => ?_⟩
  have all := List.filter_eq_self.mpr fun edge member => decide_eq_true (kept edge member)
  simp only [encodePackage, written, ok_bind]
  rw [all, edgeTexts, repositoryTexts, requests.1, published]
  simp only [LockedPackage.name, decodeName_eq_ok.mp named, WirePackage.respelled,
    respelled_of_decodeDigest digests]
  rfl

/-- Canonical packages are sorted, no neighbours are of one identity, and their edges increase. -/
theorem sorted_of_validateCanonicalResolution {packages : List LockedPackage}
    (canonical : validateCanonicalResolution packages = .ok ()) :
    packages.Pairwise (fun left right =>
      (compareIdentities left.identity right.identity).isLE = true) ∧
    packages.IsChain (fun first second => ¬ Same first.identity second.identity) ∧
    ∀ package ∈ packages,
      package.dependencies.Pairwise (fun left right => compareEdges left right = .lt) := by
  obtain ⟨_, sorted, canonical⟩ := bind_eq_ok.mp canonical
  obtain ⟨_, apart, edges⟩ := bind_eq_ok.mp canonical
  refine ⟨?_, ensure_eq_ok.mp apart, fun package member => ?_⟩
  · have pairs : List.Forall₂ Same packages (sortPackages packages) :=
      same_list.mp (ensure_eq_ok.mp sorted).symm
    have ordered := Sorting.sortBy_pairwise (fun left right : LockedPackage =>
      compareIdentities left.identity right.identity) packages
    refine Related.pairwise pairs ordered fun first second below => ?_
    rw [compareIdentities_congr (LockedPackage.same_iff.mp first).1
      (LockedPackage.same_iff.mp second).1]
    exact below
  · have transitive : IsTrans LockedDependencyEdge
        (fun left right => compareEdges left right = .lt) :=
      ⟨fun _ _ _ first second => Std.TransCmp.lt_trans first second⟩
    exact List.isChain_iff_pairwise.mp (ensure_eq_ok.mp edges package member)

/-- The parts of the lock that is read from a record. -/
theorem decodeResolution_eq_ok {wire : WireLockfile} {lock : Lockfile}
    (read : decodeResolution reader wire = .ok lock) :
    canonicalVersion lock.resolution.target.rVersion = wire.rVersion ∧
      (canonicalRRequirement lock.rRequirement = wire.rRequirement ∧
        canonicalizeConstraint lock.rRequirement = lock.rRequirement) ∧
      respelledDigest wire.resolutionIntentSha256 = lock.resolutionIntentSha256.text ∧
      wire.packages.mapM (decodePackage reader) = .ok lock.resolution.packages ∧
      (lock.resolution.publicationCutoff.map PublicationDate.text = wire.publicationCutoff ∧
        ∀ date ∈ lock.resolution.publicationCutoff,
          ∃ input, PublicationDate.parse reader.basis input = .ok date) ∧
      lock.resolution.environment.text = wire.environment := by
  obtain ⟨rVersion, target, read⟩ := bind_eq_ok.mp read
  obtain ⟨requirement, constraint, read⟩ := bind_eq_ok.mp read
  obtain ⟨intent, digest, read⟩ := bind_eq_ok.mp read
  obtain ⟨packages, reads, read⟩ := bind_eq_ok.mp read
  obtain ⟨cutoff, dates, read⟩ := bind_eq_ok.mp read
  obtain ⟨environment, named, made⟩ := bind_eq_ok.mp read
  obtain rfl := Except.ok.inj made
  obtain ⟨parsed, -, target⟩ := bind_eq_ok.mp target
  obtain ⟨_, printed, chosen⟩ := bind_eq_ok.mp target
  obtain rfl := Except.ok.inj chosen
  obtain ⟨text, canonical, -⟩ := encode_of_decodeConstraint constraint
  have cutoffs : cutoff.map PublicationDate.text = wire.publicationCutoff ∧
      ∀ date ∈ cutoff, ∃ input, PublicationDate.parse reader.basis input = .ok date := by
    cases given : wire.publicationCutoff with
    | none =>
      rw [given] at dates
      obtain rfl : none = cutoff := Except.ok.inj dates
      exact ⟨rfl, fun _ absent => by cases absent⟩
    | some input =>
      rw [given, Option.mapM_some] at dates
      obtain ⟨date, accepted, finished⟩ := bind_eq_ok.mp dates
      obtain rfl := Except.ok.inj finished
      have parsed := mapError_eq_ok.mp accepted
      refine ⟨congrArg some (PublicationDate.text_of_parse parsed), fun other member => ?_⟩
      obtain rfl := Option.some.inj member
      exact ⟨input, parsed⟩
  exact ⟨ensure_eq_ok.mp printed, ⟨text, canonical⟩, respelled_of_decodeDigest digest, reads,
    cutoffs, EnvironmentId.new_eq_ok.mp (mapError_eq_ok.mp named)⟩

/-- A lock is read as its record says: building it changes nothing. -/
theorem decodeLock_eq_ok {wire : WireLockfile} {lock : Lockfile}
    (read : decodeLock reader wire = .ok lock) :
    wire.version = schemaVersion ∧ decodeResolution reader wire = .ok lock ∧ lock.Built := by
  obtain ⟨_, version, read⟩ := bind_eq_ok.mp read
  obtain ⟨given, decoded, read⟩ := bind_eq_ok.mp read
  obtain ⟨_, canonical, built⟩ := bind_eq_ok.mp read
  obtain ⟨sorted, apart, edges⟩ :=
    sorted_of_validateCanonicalResolution (mapError_eq_ok.mp canonical)
  have accepted := mapError_eq_ok.mp built
  have unchanged : lock = given := by
    obtain ⟨packages, normalized, continued⟩ := bind_eq_ok.mp accepted
    obtain ⟨_, -, finished⟩ := bind_eq_ok.mp continued
    obtain rfl := normalizeContents_of_sorted edges sorted apart normalized
    obtain rfl := Except.ok.inj finished
    rw [(decodeResolution_eq_ok decoded).2.1.2]
  rw [unchanged]
  exact ⟨ensure_eq_ok.mp version, decoded, unchanged ▸ Lockfile.Built.of_new accepted⟩

/-- A lock that was read is readable, and it is written as the record it was read from, with its
URLs, commits and digests respelled. -/
theorem encode_of_decodeLock {wire : WireLockfile} {lock : Lockfile}
    (read : decodeLock reader wire = .ok lock) : lock.Built ∧ lock.Readable reader ∧
      encodeLock lock = .ok (wire.respelled reader.ip) := by
  obtain ⟨version, decoded, built⟩ := decodeLock_eq_ok read
  obtain ⟨target, ⟨requirement, -⟩, intent, reads, ⟨cutoff, dates⟩, environment⟩ :=
    decodeResolution_eq_ok decoded
  have related := mapM_eq_ok.mp reads
  have written : lock.resolution.packages.mapM
      (encodePackage (lock.resolution.packages.map LockedPackage.name)) =
        .ok (wire.packages.map (WirePackage.respelled reader.ip)) := by
    rw [mapM_eq_ok, List.forall₂_map_right_iff]
    have exist := forM_eq_ok.mp built.packages.exist
    refine ((List.forall₂_and_left _ _).mpr ⟨exist, related.flip⟩).imp fun package record both => ?_
    exact (encode_of_decodePackage both.2).2 _ fun edge edgeIn =>
      ensure_eq_ok.mp (forM_eq_ok.mp both.1 edge edgeIn)
  refine ⟨built, ⟨dates, fun package member => ?_⟩, ?_⟩
  · obtain ⟨record, -, accepted⟩ := (mem_of_mapM_eq_ok reads).mp member
    exact (encode_of_decodePackage accepted).1
  · simp only [encodeLock, written, ok_bind, target, requirement, ← intent, cutoff, environment,
      ← version]
    rfl

end Locks

section Again

variable {reader : LockReader}

/-- A respelled digest is read as the digest. -/
theorem decodeDigest_respelled {field input : String} {digest : Sha256Digest}
    (read : decodeDigest field input = .ok digest) :
    decodeDigest field (respelledDigest input) = .ok digest := by
  rw [respelled_of_decodeDigest read]
  exact decodeDigest_text field digest

/-- A respelled URL is read as the URL. -/
theorem decodeUrl_respelled {ip : IpAddrs} (lawful : ip.Lawful) {field input : String}
    {url : NormalizedGitUrl} (read : decodeUrl ip field input = .ok url) :
    decodeUrl ip field (respelledUrl ip input) = .ok url := by
  obtain ⟨spelled, made⟩ := respelled_of_decodeUrl read
  rw [spelled]
  exact decodeUrl_text lawful field made

/-- A respelled source is read as the provenance. -/
theorem decodeProvenance_respelled {ip : IpAddrs} (lawful : ip.Lawful) {version : RPackageVersion}
    {wire : WireSource} {provenance : Provenance}
    (read : decodeProvenance ip version wire = .ok provenance) :
    decodeProvenance ip version (wire.respelled ip) = .ok provenance := by
  cases wire with
  | registry nspace => exact read
  | bioconductor nspace release => exact read
  | git repository commit subdirectory =>
    obtain ⟨url, urls, read⟩ := bind_eq_ok.mp read
    obtain ⟨id, commits, read⟩ := bind_eq_ok.mp read
    obtain ⟨directory, directories, made⟩ := bind_eq_ok.mp read
    have again : GitCommitId.new (respelled GitCommitId.new GitCommitId.hex commit) = .ok id := by
      rw [respelled_of_ok (mapError_eq_ok.mp commits), GitCommitId.new_hex]
    simp only [WireSource.respelled, decodeProvenance, decodeUrl_respelled lawful urls, again,
      Except.mapError, directories, ok_bind]
    exact made
  | immutable scheme digest =>
    obtain ⟨name, named, read⟩ := bind_eq_ok.mp read
    obtain ⟨value, digests, made⟩ := bind_eq_ok.mp read
    simp only [WireSource.respelled, decodeProvenance, named, decodeDigest_respelled digests,
      ok_bind]
    exact made

/-- A requested source with a respelled URL is read as the source. -/
theorem decodeRequestedGitSource_respelled (lawful : reader.ip.Lawful)
    {wire : WireRequestedGitSource} {source : LockedGitSource}
    (read : decodeRequestedGitSource reader wire = .ok source) :
    decodeRequestedGitSource reader { wire with url := respelledUrl reader.ip wire.url } =
      .ok source := by
  obtain ⟨selector, selectors, read⟩ := bind_eq_ok.mp read
  obtain ⟨url, urls, read⟩ := bind_eq_ok.mp read
  simp only [decodeRequestedGitSource, selectors, decodeUrl_respelled lawful urls, ok_bind]
  exact read

/-- A respelled package is read as the package. -/
theorem decodePackage_respelled (lawful : reader.ip.Lawful) {wire : WirePackage}
    {package : LockedPackage} (read : decodePackage reader wire = .ok package) :
    decodePackage reader (wire.respelled reader.ip) = .ok package := by
  obtain ⟨name, named, read⟩ := bind_eq_ok.mp read
  obtain ⟨version, versions, read⟩ := bind_eq_ok.mp read
  obtain ⟨provenance, provenances, read⟩ := bind_eq_ok.mp read
  obtain ⟨digest, digests, read⟩ := bind_eq_ok.mp read
  obtain ⟨dependencies, edges, read⟩ := bind_eq_ok.mp read
  obtain ⟨repositories, visible, read⟩ := bind_eq_ok.mp read
  obtain ⟨requested, sources, made⟩ := bind_eq_ok.mp read
  have requests : (wire.requestedGitSource.map fun source =>
      { source with url := respelledUrl reader.ip source.url }).mapM
        (decodeRequestedGitSource reader) = .ok requested := by
    cases request : wire.requestedGitSource with
    | none =>
      rw [request] at sources
      exact sources
    | some record =>
      rw [request, Option.mapM_some] at sources
      obtain ⟨source, accepted, finished⟩ := bind_eq_ok.mp sources
      rw [Option.map_some, Option.mapM_some, decodeRequestedGitSource_respelled lawful accepted]
      exact finished
  simp only [decodePackage, WirePackage.respelled, named, versions,
    decodeProvenance_respelled lawful provenances, decodeDigest_respelled digests, edges, visible,
    requests, ok_bind]
  exact made

/-- A respelled record is read as the lock. -/
theorem decodeLock_respelled (lawful : reader.ip.Lawful) {wire : WireLockfile} {lock : Lockfile}
    (read : decodeLock reader wire = .ok lock) :
    decodeLock reader (wire.respelled reader.ip) = .ok lock := by
  obtain ⟨_, version, read⟩ := bind_eq_ok.mp read
  obtain ⟨given, decoded, read⟩ := bind_eq_ok.mp read
  have again : decodeResolution reader (wire.respelled reader.ip) = .ok given := by
    obtain ⟨rVersion, target, decoded⟩ := bind_eq_ok.mp decoded
    obtain ⟨requirement, constraint, decoded⟩ := bind_eq_ok.mp decoded
    obtain ⟨intent, digest, decoded⟩ := bind_eq_ok.mp decoded
    obtain ⟨packages, reads, decoded⟩ := bind_eq_ok.mp decoded
    have others : (wire.packages.map (WirePackage.respelled reader.ip)).mapM
        (decodePackage reader) = .ok packages := by
      rw [mapM_eq_ok, List.forall₂_map_left_iff]
      exact (mapM_eq_ok.mp reads).imp fun _ _ accepted => decodePackage_respelled lawful accepted
    simp only [decodeResolution, WireLockfile.respelled, target, constraint,
      decodeDigest_respelled digest, others, ok_bind]
    exact decoded
  have schema : (wire.respelled reader.ip).version = schemaVersion := ensure_eq_ok.mp version
  simp only [decodeLock, ensure_of schema, again, ok_bind]
  exact read

end Again

section Documents

/-- The TOML library writes every text and every list of texts. -/
structure TomlWriter.Total (toml : TomlWriter) : Prop where
  scalar : ∀ value, ∃ text, toml.scalar value = .ok text
  array : ∀ values, ∃ text, toml.array values = .ok text

namespace TomlWriter.Total

variable {toml : TomlWriter}

/-- Every field is written. -/
theorem exists_field (total : toml.Total) (name value : String) :
    ∃ text, toml.field name value = .ok text := by
  obtain ⟨serialized, written⟩ := total.scalar value
  refine ⟨_, bind_eq_ok.mpr ⟨fieldText "value = " serialized, mapError_eq_ok.mpr ?_, rfl⟩⟩
  rw [written]
  rfl

/-- Every optional field is written. -/
theorem exists_optionalField (total : toml.Total) (name : String) (value : Option String) :
    ∃ texts, toml.optionalField name value = .ok texts := by
  cases value with
  | none => exact ⟨[], rfl⟩
  | some value =>
    obtain ⟨text, written⟩ := total.exists_field name value
    exact ⟨[text], bind_eq_ok.mpr ⟨text, written, rfl⟩⟩

/-- Every list of texts is written. -/
theorem exists_strings (total : toml.Total) (values : List String) :
    ∃ text, toml.strings values = .ok text := by
  obtain ⟨serialized, written⟩ := total.array values
  refine ⟨fieldText "values = " serialized, mapError_eq_ok.mpr ?_⟩
  rw [written]
  rfl

/-- Every list of dependencies is written. -/
theorem exists_dependencies (total : toml.Total) (values : List WireDependency) :
    ∃ text, toml.dependencies values = .ok text := by
  have each : ∀ dependency ∈ values, ∃ text, (do
      let kind ← toml.field "kind" dependency.kind
      let package ← toml.field "package" dependency.package
      return inlineTable [kind, package]) = .ok text := by
    intro dependency _
    obtain ⟨kind, kinds⟩ := total.exists_field "kind" dependency.kind
    obtain ⟨package, packages⟩ := total.exists_field "package" dependency.package
    exact ⟨_, bind_eq_ok.mpr ⟨kind, kinds, bind_eq_ok.mpr ⟨package, packages, rfl⟩⟩⟩
  obtain ⟨entries, written⟩ := exists_mapM_eq_ok each
  exact ⟨_, bind_eq_ok.mpr ⟨entries, written, rfl⟩⟩

/-- Every source is written. -/
theorem exists_inlineSource (total : toml.Total) (source : WireSource) :
    ∃ text, toml.inlineSource source = .ok text := by
  cases source with
  | registry nspace =>
    obtain ⟨kind, kinds⟩ := total.exists_field "kind" "registry"
    obtain ⟨space, spaces⟩ := total.exists_field "namespace" nspace
    simp only [inlineSource, kinds, spaces, ok_bind]
    exact ⟨_, rfl⟩
  | bioconductor nspace release =>
    obtain ⟨kind, kinds⟩ := total.exists_field "kind" "bioconductor"
    obtain ⟨space, spaces⟩ := total.exists_field "namespace" nspace
    obtain ⟨point, points⟩ := total.exists_field "release" release
    simp only [inlineSource, kinds, spaces, points, ok_bind]
    exact ⟨_, rfl⟩
  | git repository commit subdirectory =>
    obtain ⟨kind, kinds⟩ := total.exists_field "kind" "git"
    obtain ⟨url, urls⟩ := total.exists_field "repository" repository
    obtain ⟨id, ids⟩ := total.exists_field "commit" commit
    obtain ⟨directory, directories⟩ := total.exists_optionalField "subdirectory" subdirectory
    simp only [inlineSource, kinds, urls, ids, directories, ok_bind]
    exact ⟨_, rfl⟩
  | immutable scheme digest =>
    obtain ⟨kind, kinds⟩ := total.exists_field "kind" "immutable"
    obtain ⟨name, names⟩ := total.exists_field "scheme" scheme
    obtain ⟨value, values⟩ := total.exists_field "digest" digest
    simp only [inlineSource, kinds, names, values, ok_bind]
    exact ⟨_, rfl⟩

/-- Every requested source is written. -/
theorem exists_inlineRequestedGitSource (total : toml.Total) (source : WireRequestedGitSource) :
    ∃ text, toml.inlineRequestedGitSource source = .ok text := by
  obtain ⟨url, urls⟩ := total.exists_field "url" source.url
  obtain ⟨selector, selectors⟩ := total.exists_field "selector" source.selector
  obtain ⟨value, values⟩ := total.exists_optionalField "selector-value" source.selectorValue
  obtain ⟨directory, directories⟩ := total.exists_optionalField "subdirectory" source.subdirectory
  obtain ⟨constraint, constraints⟩ :=
    total.exists_field "version-constraint" source.versionConstraint
  simp only [inlineRequestedGitSource, urls, selectors, values, directories, constraints, ok_bind]
  exact ⟨_, rfl⟩

/-- Every package is written. -/
theorem exists_packageLines (total : toml.Total) (package : WirePackage) :
    ∃ lines, toml.packageLines package = .ok lines := by
  obtain ⟨name, names⟩ := total.exists_field "name" package.name
  obtain ⟨version, versions⟩ := total.exists_field "version" package.version
  obtain ⟨source, sources⟩ := total.exists_inlineSource package.source
  obtain ⟨metadata, digests⟩ := total.exists_field "metadata-sha256" package.metadataSha256
  obtain ⟨edges, dependencies⟩ := total.exists_dependencies package.dependencies
  obtain ⟨visible, repositories⟩ := total.exists_strings package.visibleRepositoryIds
  unfold packageLines
  simp only [names, versions, sources, digests, dependencies, repositories, ok_bind]
  cases package.requestedGitSource with
  | none => exact ⟨_, rfl⟩
  | some request =>
    obtain ⟨text, written⟩ := total.exists_inlineRequestedGitSource request
    simp only [written, ok_bind]
    exact ⟨_, rfl⟩

/-- Every record is written. -/
theorem exists_serializeWire (total : toml.Total) (wire : WireLockfile) :
    ∃ text, toml.serializeWire wire = .ok text := by
  obtain ⟨rVersion, target⟩ := total.exists_field "r-version" wire.rVersion
  obtain ⟨rRequirement, requirement⟩ := total.exists_field "r-requirement" wire.rRequirement
  obtain ⟨intent, intents⟩ :=
    total.exists_field "resolution-intent-sha256" wire.resolutionIntentSha256
  obtain ⟨environment, environments⟩ := total.exists_field "environment" wire.environment
  obtain ⟨cutoff, cutoffs⟩ :=
    total.exists_optionalField "publication-cutoff" wire.publicationCutoff
  obtain ⟨packages, written⟩ : ∃ packages, wire.packages.mapM toml.packageLines = .ok packages :=
    exists_mapM_eq_ok fun package _ => total.exists_packageLines package
  simp only [serializeWire, target, requirement, intents, environments, cutoffs, written, ok_bind]
  exact ⟨_, rfl⟩

end TomlWriter.Total

variable {reader : LockReader} {toml : TomlWriter}

/-- Building a lock keeps it readable. -/
theorem Lockfile.Readable.of_new {lock normalized : Lockfile} (readable : lock.Readable reader)
    (accepted : Lockfile.new lock.resolutionIntentSha256 lock.rRequirement lock.resolution =
      .ok normalized) : normalized.Readable reader := by
  obtain ⟨packages, contents, continued⟩ := bind_eq_ok.mp accepted
  obtain ⟨_, -, finished⟩ := bind_eq_ok.mp continued
  obtain rfl := Except.ok.inj finished
  refine ⟨readable.cutoff, fun package member => ?_⟩
  obtain ⟨each, mapped, contents⟩ := bind_eq_ok.mp contents
  obtain ⟨unique, kept, contents⟩ := bind_eq_ok.mp contents
  obtain ⟨_, -, contents⟩ := bind_eq_ok.mp contents
  obtain ⟨_, -, finished⟩ := bind_eq_ok.mp contents
  obtain rfl := Except.ok.inj finished
  have eachIn : package ∈ each := Sorting.mem_sortBy.mp ((uniquePackages_spec kept).1.mem member)
  obtain ⟨source, sourceIn, normalizes⟩ := (mem_of_mapM_eq_ok mapped).mp eachIn
  obtain ⟨-, -, rfl⟩ := normalizePackage_eq_ok.mp normalizes
  have given := readable.packages source sourceIn
  exact ⟨given.version, given.provenance, given.requested⟩

namespace Small

/-- A reader of dates that knows none. -/
def undated : CatalogBasis where
  sha256 _ := Vector.replicate 32 0
  unprintable _ := false
  date _ := .error "no date"
  dateTime _ _ := .error "no date"

/-- A package from Git and one it imports, with capitals in the URL, the commit and the digests. -/
def capitals : WireLockfile where
  version := 1
  rVersion := "4.0"
  resolutionIntentSha256 := "ABCDEFABCDEFABCDEFABCDEFABCDEFABCDEFABCDEFABCDEFABCDEFABCDEFABCD"
  rRequirement := ">=4.0"
  environment := "default"
  publicationCutoff := none
  packages := [
    ⟨"Rcpp", "1-0-0", .registry "cran",
      "ABCDEFABCDEFABCDEFABCDEFABCDEFABCDEFABCDEFABCDEFABCDEFABCDEFABCD", [], ["cran"], none⟩,
    ⟨"alpha", "1.0", .git "HTTPS://EXAMPLE.TEST:443/repo%2f~"
        "ABCDEFABCDEFABCDEFABCDEFABCDEFABCDEFABCD" none,
      "ABCDEFABCDEFABCDEFABCDEFABCDEFABCDEFABCDEFABCDEFABCDEFABCDEFABCD", [⟨"imports", "Rcpp"⟩], [],
      some ⟨"HTTPS://EXAMPLE.TEST:443/repo%2f~", "default-branch", none, none, "*"⟩⟩]

/-- The reader of every text as these packages. -/
def capitalsReader : LockReader := ⟨fun _ => .ok capitals, .quads, undated⟩

/-- The packages are read as a lock. -/
theorem exists_capitals : ∃ lock, decodeLock capitalsReader capitals = .ok lock :=
  exists_of_isOk (by decide +kernel)

/-- The record is not in the spelling of its constructors. -/
theorem respelled_capitals : capitals.respelled .quads ≠ capitals := by
  intro equal
  have digests : respelledDigest capitals.resolutionIntentSha256 =
      capitals.resolutionIntentSha256 := congrArg WireLockfile.resolutionIntentSha256 equal
  revert digests
  decide +kernel

/-- The reader of the document that is written for a lock. -/
def documentReader (lock : Lockfile) : LockReader :=
  { capitalsReader with
    fromStr := fun input => do
      let wire ← (encodeLock lock).mapError fun _ => "no record"
      let text ← (Small.toml.serializeWire wire).mapError fun _ => "no document"
      if text = input then .ok wire else .error "no such document" }

end Small

/-- A lock whose coordinates were read from some text is written, and its document is read as the
normalized lock, which is written as the same document. -/
theorem Lockfile.fromToml_toToml (lawful : reader.ip.Lawful) (total : toml.Total)
    {lock normalized : Lockfile} (readable : lock.Readable reader)
    (accepted : Lockfile.new lock.resolutionIntentSha256 lock.rRequirement lock.resolution =
      .ok normalized)
    (reads : ∀ wire text, encodeLock normalized = .ok wire → toml.serializeWire wire = .ok text →
      reader.fromStr text = .ok wire) :
    ∃ text decoded, lock.toToml toml = .ok text ∧ fromToml reader text = .ok decoded ∧
      Same decoded normalized ∧ decoded.toToml toml = .ok text := by
  have built := Lockfile.Built.of_new accepted
  obtain ⟨wires, written⟩ := exists_mapM_eq_ok fun package member =>
    exists_encodePackage (normalized.resolution.packages.map LockedPackage.name)
      (built.released package member)
  obtain ⟨wire, encoded⟩ : ∃ wire, encodeLock normalized = .ok wire :=
    ⟨_, bind_eq_ok.mpr ⟨wires, written, rfl⟩⟩
  obtain ⟨text, laid⟩ := total.exists_serializeWire wire
  obtain ⟨decoded, read, rebuilt, same, again⟩ :=
    exists_decodeLock lawful built (readable.of_new accepted) encoded
  refine ⟨text, decoded, ?_, ?_, same, ?_⟩
  · rw [toToml, accepted]
    exact bind_eq_ok.mpr ⟨normalized, rfl, bind_eq_ok.mpr ⟨wire, encoded, laid⟩⟩
  · exact bind_eq_ok.mpr ⟨wire, mapError_eq_ok.mpr (reads wire text encoded laid), read⟩
  · rw [rebuilt.toToml_eq, again]
    exact laid

/-- The lock of a package from Git is written and read. -/
theorem Lockfile.fromToml_toToml_capitals :
    ∃ (reader : LockReader) (lock decoded : Lockfile) (text : String),
      decodeLock Small.capitalsReader Small.capitals = .ok lock ∧
        lock.toToml Small.toml = .ok text ∧ fromToml reader text = .ok decoded ∧ Same decoded lock ∧
          decoded.toToml Small.toml = .ok text := by
  obtain ⟨lock, decoded⟩ := Small.exists_capitals
  obtain ⟨built, readable, -⟩ := encode_of_decodeLock decoded
  have reads : ∀ wire text, encodeLock lock = .ok wire → Small.toml.serializeWire wire = .ok text →
      (Small.documentReader lock).fromStr text = .ok wire := by
    intro wire text encoded laid
    show (do
      let wire ← (encodeLock lock).mapError fun _ => "no record"
      let written ← (Small.toml.serializeWire wire).mapError fun _ => "no document"
      if written = text then Except.ok wire else Except.error "no such document") = .ok wire
    rw [encoded]
    have written : ((Small.toml.serializeWire wire).mapError fun _ => "no document") = .ok text :=
      mapError_eq_ok.mpr laid
    exact bind_eq_ok.mpr ⟨wire, rfl, bind_eq_ok.mpr ⟨text, written, if_pos rfl⟩⟩
  have total : Small.toml.Total := ⟨fun _ => ⟨_, rfl⟩, fun _ => ⟨_, rfl⟩⟩
  have available : lock.Readable (Small.documentReader lock) := ⟨readable.cutoff, readable.packages⟩
  obtain ⟨text, again, round⟩ :=
    fromToml_toToml IpAddrs.quads_lawful total available built.new_eq reads
  exact ⟨_, lock, again, text, decoded, round⟩

/-- A lock that was read from a document is written as the record of the document, with its URLs,
commits and digests respelled, and this record is read as the same lock. -/
theorem Lockfile.toToml_fromToml (lawful : reader.ip.Lawful) {input : String} {lock : Lockfile}
    (read : fromToml reader input = .ok lock) :
    ∃ wire, reader.fromStr input = .ok wire ∧ encodeLock lock = .ok (wire.respelled reader.ip) ∧
      decodeLock reader (wire.respelled reader.ip) = .ok lock ∧
      ∀ toml : TomlWriter, lock.toToml toml = toml.serializeWire (wire.respelled reader.ip) := by
  obtain ⟨wire, parsed, decoded⟩ := bind_eq_ok.mp read
  obtain ⟨built, -, encoded⟩ := encode_of_decodeLock decoded
  refine ⟨wire, mapError_eq_ok.mp parsed, encoded, decodeLock_respelled lawful decoded,
    fun toml => ?_⟩
  rw [built.toToml_eq, encoded]
  rfl

/-- The record of a package from Git is written back with lower case, which changes it. -/
theorem Lockfile.toToml_fromToml_capitals : ∃ lock,
    fromToml Small.capitalsReader "" = .ok lock ∧
      encodeLock lock = .ok (Small.capitals.respelled .quads) ∧
      decodeLock Small.capitalsReader (Small.capitals.respelled .quads) = .ok lock ∧
      Small.capitals.respelled .quads ≠ Small.capitals := by
  obtain ⟨lock, decoded⟩ := Small.exists_capitals
  have read : fromToml Small.capitalsReader "" = .ok lock :=
    bind_eq_ok.mpr ⟨Small.capitals, rfl, decoded⟩
  obtain ⟨wire, parsed, encoded, again, -⟩ := toToml_fromToml IpAddrs.quads_lawful read
  obtain rfl : Small.capitals = wire := Except.ok.inj parsed
  exact ⟨lock, read, encoded, again, Small.respelled_capitals⟩

end Documents

end Rsolve
