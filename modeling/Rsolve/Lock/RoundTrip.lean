import Rsolve.Lib.Related
import Rsolve.Lock.Reading
import Rsolve.Lock.Reachability

/-!
# A lock is read as it was written

What a lock writes is read back field by field. Versions come back with the components that are
printed, so they are the same versions and are printed alike; everything else comes back as it was.
What is read at all has these properties, so it survives every further round.
-/
open Keyed Checked

namespace Rsolve

section Versions

/-- A version that was read has enough components. -/
theorem le_length_of_parseWithMinimum {input : String} {minimum : Nat} {version : RPackageVersion}
    (parsed : RPackageVersion.parseWithMinimum input minimum = .ok version) :
    minimum ≤ version.values.length := by
  have spelled : SpellsVersion input minimum := parseWithMinimum_iff.mp ⟨version, parsed⟩
  rw [(values_of_parseWithMinimum parsed).2, componentNumbers, List.length_map]
  exact spelled.many

/-- A package version is not bare. -/
theorem not_bare_of_parse {input : String} {version : RPackageVersion}
    (parsed : RPackageVersion.parse input = .ok version) : ¬ version.Bare := by
  have many := le_length_of_parseWithMinimum parsed
  unfold RPackageVersion.Bare
  omega

/-- A version read from a printed version has the printed components. -/
theorem values_of_parse_canonicalVersion {version parsed : RPackageVersion} {minimum : Nat}
    (read : RPackageVersion.parseWithMinimum (canonicalVersion version) minimum = .ok parsed) :
    parsed.values = canonicalValues version := by
  have printed : parseComponents (canonicalVersion version) = .ok (canonicalValues version) :=
    parseComponents_joinComponents (RPackageVersion.canonicalValues_bounds version).1
      (RPackageVersion.canonicalValues_bounds version).2
  rw [(values_of_parseWithMinimum read).2]
  exact (parseComponents_eq_ok_iff.mp printed).2.symm

/-- A version read from a printed version is bare when the version is. -/
theorem bare_of_parse_canonicalVersion {version parsed : RPackageVersion} {minimum : Nat}
    (read : RPackageVersion.parseWithMinimum (canonicalVersion version) minimum = .ok parsed) :
    parsed.Bare ↔ version.Bare := by
  have values := values_of_parse_canonicalVersion read
  by_cases bare : version.Bare
  · rw [RPackageVersion.canonicalValues_of_bare bare] at values
    have length : parsed.values.length = 1 := by
      rw [values]
      exact bare
    exact iff_of_true length bare
  · rw [RPackageVersion.canonicalValues_of_not_bare bare] at values
    have two := RPackageVersion.two_le_atLeastTwo version.key
    refine iff_of_false (fun one => ?_) bare
    rw [RPackageVersion.Bare, values] at one
    omega

/-- A printed version is read back, and it is printed alike. -/
theorem exists_read_canonicalVersion {version : RPackageVersion} {minimum : Nat}
    (most : minimum ≤ 2) (many : minimum ≤ version.values.length) :
    ∃ parsed, RPackageVersion.parseWithMinimum (canonicalVersion version) minimum = .ok parsed ∧
      Same parsed version ∧ (parsed.Bare ↔ version.Bare) ∧
        canonicalVersion parsed = canonicalVersion version := by
  obtain ⟨parsed, read, same⟩ := exists_parse_canonicalVersion most many
  have bare := bare_of_parse_canonicalVersion read
  exact ⟨parsed, read, same, bare, (RPackageVersion.canonicalVersion_eq_iff same).mpr bare⟩

end Versions

section Constraints

variable {field : String} {kind : ConstraintVersionKind} {constraint parsed : VersionConstraint}

/-- A constraint that was read is canonical, and its versions have enough components. -/
theorem canonical_of_parseConstraint {input : String}
    (read : parseConstraint input field kind = .ok parsed) :
    canonicalizeConstraint parsed = parsed ∧
      ∀ clause ∈ parsed.clauses, kind.minimum ≤ clause.version.values.length := by
  obtain ⟨_, -, read⟩ := bind_eq_ok.mp read
  by_cases asterisk : trim input.toList = ['*']
  · rw [if_pos asterisk] at read
    obtain rfl := Except.ok.inj read
    exact ⟨rfl, fun clause member => absurd member List.not_mem_nil⟩
  · rw [if_neg asterisk] at read
    obtain ⟨clauses, terms, made⟩ := bind_eq_ok.mp read
    obtain rfl := Except.ok.inj made
    refine ⟨canonicalizeConstraint_idem _, fun clause member => ?_⟩
    simp only [canonicalizeConstraint, canonicalClauses_eq] at member
    have given := Sorting.mem_of_mem_canonical compareClauses compareClauseSpelling member
    obtain ⟨term, -, accepted⟩ := (mem_of_mapM_eq_ok terms).mp given
    obtain ⟨text, -, version⟩ := (spellsTerm_of_parsed accepted).spelled
    rw [parseConstraintVersion_eq] at version
    exact le_length_of_parseWithMinimum version

/-- A clause read from a printed clause is bare when the clause is. -/
theorem bare_of_parse_clauseText {clause read : VersionClause}
    (many : kind.minimum ≤ clause.version.values.length)
    (accepted : parseConstraintTerm field kind (clauseText clause).toList = .ok read) :
    Same read clause ∧ (read.version.Bare ↔ clause.version.Bare) := by
  obtain ⟨other, again, same⟩ := exists_parse_clauseText field many
  obtain rfl : read = other := Except.ok.inj (accepted.symm.trans again)
  refine ⟨same, ?_⟩
  obtain ⟨text, relates, version⟩ := (spellsTerm_of_parsed accepted).spelled
  have solid : ∀ character ∈ (clauseText clause).toList, isWhitespace character = false :=
    fun character member => (plain_of_isClauseCharacter (isClauseCharacter_of_mem member)).1
  have tagged : (clauseText clause).toList =
      (rRequirementRelationTag clause.op).toList ++ (canonicalVersion clause.version).toList :=
    String.toList_append
  have split := spellsRelation_splitRelation (clauseText clause).toList
  rw [trim_of_solid solid] at relates
  have spelled : text = (canonicalVersion clause.version).toList := by
    rw [(relates.unique split).2, tagged, splitRelation_tag _ (canonicalVersion_clean _).2]
  have versionSolid : trim text = text := by
    rw [spelled]
    exact trim_of_solid fun character member =>
      solid character (tagged ▸ List.mem_append_right _ member)
  rw [parseConstraintVersion_eq, versionSolid, spelled, String.ofList_toList] at version
  exact bare_of_parse_canonicalVersion version

/-- A canonical constraint is read back from its text, and it is printed alike. -/
theorem exists_read_canonicalRRequirement (field : String)
    (canonical : canonicalizeConstraint constraint = constraint)
    (many : ∀ clause ∈ constraint.clauses, kind.minimum ≤ clause.version.values.length) :
    ∃ parsed, parseConstraint (canonicalRRequirement constraint) field kind = .ok parsed ∧
      Same parsed constraint ∧ parsed.Alike constraint := by
  obtain ⟨parsed, read, same⟩ :=
    exists_parse_canonicalRRequirement field (Same.of_eq canonical) many
  refine ⟨parsed, read, same, ?_⟩
  have clauses : canonicalClauses constraint.clauses = constraint.clauses :=
    congrArg VersionConstraint.clauses canonical
  obtain ⟨_, -, body⟩ := bind_eq_ok.mp read
  by_cases none : constraint.clauses = []
  · have empty : parsed.clauses = [] := by
      have pairs : List.Forall₂ Same parsed.clauses constraint.clauses :=
        same_list.mp (congrArg VersionConstraint.clauses same)
      rw [none] at pairs
      exact List.forall₂_nil_right_iff.mp pairs
    rw [VersionConstraint.Alike, none, empty]
    exact .nil
  · have some : canonicalClauses constraint.clauses ≠ [] := mt canonicalClauses_eq_nil.mp none
    have text : canonicalRRequirement constraint =
        String.intercalate "," ((canonicalClauses constraint.clauses).map clauseText) :=
      if_neg none
    have split := splitOnP_joined some
    rw [← text, clauses] at split
    have asterisk : trim (canonicalRRequirement constraint).toList ≠ ['*'] := by
      intro equal
      rw [if_pos equal] at body
      obtain rfl := Except.ok.inj body
      have pairs : List.Forall₂ Same [] constraint.clauses :=
        same_list.mp (congrArg VersionConstraint.clauses same)
      exact none (List.forall₂_nil_left_iff.mp pairs)
    rw [if_neg asterisk, split] at body
    obtain ⟨reads, terms, made⟩ := bind_eq_ok.mp body
    obtain rfl := Except.ok.inj made
    -- Clause by clause, what is read is the same and as bare.
    have pairs : List.Forall₂ (fun read clause : VersionClause =>
        Same read clause ∧ (read.version.Bare ↔ clause.version.Bare)) reads constraint.clauses := by
      have related := mapM_eq_ok.mp terms
      rw [List.forall₂_map_left_iff] at related
      have given := (List.forall₂_and_left _ _).mpr ⟨many, related⟩
      exact List.Forall₂.flip (given.imp fun clause read both =>
        bare_of_parse_clauseText both.1 both.2)
    have strict : constraint.clauses.Pairwise
        (fun left right => compareClauses left right = .lt) := by
      rw [← clauses, canonicalClauses_eq]
      exact Sorting.canonical_strict compareClauses compareClauseSpelling constraint.clauses
    have sorted : reads.Pairwise (fun left right => compareClauses left right = .lt) := by
      refine Related.pairwise pairs strict fun first second below => ?_
      have one := compareClauses_eq_iff.mpr first.1
      have two := compareClauses_eq_iff.mpr second.1
      rw [Std.TransCmp.congr_left one, Std.TransCmp.congr_right two, below]
    have kept : canonicalClauses reads = reads := by
      rw [canonicalClauses_eq, Sorting.canonical_eq_self _ _ sorted]
    have again : canonicalClauses (canonicalizeConstraint ⟨reads⟩).clauses = reads := by
      simp only [canonicalizeConstraint, kept]
    rw [VersionConstraint.Alike, again, clauses]
    exact pairs.imp fun _ _ both => both.2

end Constraints

section Fields

/-- A URL was read from some text. -/
def NormalizedGitUrl.Made (ip : IpAddrs) (url : NormalizedGitUrl) : Prop :=
  ∃ input, NormalizedGitUrl.new ip input = .ok url

/-- The URL of a provenance was read from some text. -/
def Provenance.Made (ip : IpAddrs) : Provenance → Prop
  | .gitCommit repository _ _ => repository.Made ip
  | _ => True

/-- The value of a selector passes its check. -/
def LockedGitSelector.Valid (selector : LockedGitSelector) : Prop :=
  ∀ value context, (encodeSelector selector).2 = some value →
    validateSelector value context = .ok ()

/-- A requested source is one that manifests give: its URL was read, its selector passed its check,
and its constraint is canonical, with versions of at least two components. -/
structure LockedGitSource.Readable (ip : IpAddrs) (source : LockedGitSource) : Prop where
  url : source.url.Made ip
  selector : source.selector.Valid
  canonical : canonicalizeConstraint source.versionConstraint = source.versionConstraint
  many : ∀ clause ∈ source.versionConstraint.clauses, 2 ≤ clause.version.values.length

/-- The version of a package has at least two components, its URL was read, and its requested source
is one that manifests give. -/
structure LockedPackage.Readable (ip : IpAddrs) (package : LockedPackage) : Prop where
  version : ¬ package.version.Bare
  provenance : package.identity.provenance.Made ip
  requested : ∀ source ∈ package.requestedGitSource, source.Readable ip

variable {ip : IpAddrs} {reader : LockReader}

/-- An identifier is read from its text. -/
theorem decodeIdentifier_text (field : String) {kind : IdentifierKind}
    (identifier : Identifier kind) : decodeIdentifier kind field identifier.text = .ok identifier :=
  mapError_eq_ok.mpr (Identifier.new_eq_ok.mpr rfl)

/-- A package name is read from its text. -/
theorem decodeName_text (field : String) (name : PackageName) :
    decodeName field name.text = .ok name :=
  mapError_eq_ok.mpr (PackageName.new_eq_ok.mpr rfl)

/-- A digest is read from its text. -/
theorem decodeDigest_text (field : String) (digest : Sha256Digest) :
    decodeDigest field digest.text = .ok digest :=
  mapError_eq_ok.mpr (Sha256Digest.new_text digest)

/-- A commit is read from its text. -/
theorem GitCommitId.new_hex (commit : GitCommitId) : GitCommitId.new commit.hex = .ok commit := by
  unfold GitCommitId.new
  split
  · next refused =>
    rw [commit.valid] at refused
    cases refused
  · next algorithm hex accepted =>
    obtain ⟨algorithms, digits⟩ := Prod.mk.inj (Except.ok.inj (commit.valid.symm.trans accepted))
    exact congrArg Except.ok (GitCommitId.ext algorithms.symm digits.symm)

/-- A subdirectory is read from its text. -/
theorem decodeSubdirectory_text (field : String) (subdirectory : Option RepositorySubdir) :
    decodeSubdirectory field (subdirectory.map RepositorySubdir.text) = .ok subdirectory := by
  cases subdirectory with
  | none => rfl
  | some directory =>
    have read : RepositorySubdir.new directory.text = .ok directory := by
      unfold RepositorySubdir.new
      split
      · next refused =>
        rw [directory.valid] at refused
        cases refused
      · rfl
    simp only [decodeSubdirectory, Option.map_some, Option.mapM_some, read, Except.mapError]
    rfl

/-- A URL that was read from some text is read from its own. -/
theorem decodeUrl_text (lawful : ip.Lawful) (field : String) {url : NormalizedGitUrl}
    (made : url.Made ip) : decodeUrl ip field url.text = .ok url := by
  obtain ⟨input, accepted⟩ := made
  obtain ⟨text⟩ := url
  obtain ⟨canonical, rfl⟩ := exists_canonicalUrl lawful accepted
  exact mapError_eq_ok.mpr (NormalizedGitUrl.new_text lawful canonical)

/-- A dependency is read as it was written. -/
theorem decodeDependency_encode (edge : LockedDependencyEdge) :
    decodeDependency ⟨encodeDependencyKind edge.kind, edge.package.text⟩ = .ok edge := by
  have kinds : decodeDependencyKind (encodeDependencyKind edge.kind) = .ok edge.kind := by
    cases edge.kind <;> decide
  simp only [decodeDependency, kinds, decodeName_text, ok_bind]
  rfl

/-- A selector with a value is read from its kind and its value. -/
theorem decodeSelector_valued (unprintable : Char → Bool) {kind value : String}
    {make : String → LockedGitSelector} (known : valuedSelector kind = some make)
    (checked : validateSelector value "package.requested-git-source.selector" = .ok ()) :
    decodeSelector unprintable kind (some value) = .ok (make value) := by
  simp only [decodeSelector, known, checked, Except.mapError]
  rfl

/-- A selector is read as it was written. -/
theorem decodeSelector_encode (unprintable : Char → Bool) {selector : LockedGitSelector}
    (valid : selector.Valid) :
    decodeSelector unprintable (encodeSelector selector).1 (encodeSelector selector).2 =
      .ok selector := by
  cases selector with
  | defaultBranch => rfl
  | branch value =>
    have known : valuedSelector "branch" = some .branch := by simp [valuedSelector]
    exact decodeSelector_valued unprintable known (valid value _ rfl)
  | tag value =>
    have known : valuedSelector "tag" = some .tag := by simp [valuedSelector]
    exact decodeSelector_valued unprintable known (valid value _ rfl)
  | rev value =>
    have known : valuedSelector "rev" = some .rev := by simp [valuedSelector]
    exact decodeSelector_valued unprintable known (valid value _ rfl)

/-- A canonical constraint is read from its text, and it is printed alike. -/
theorem exists_decodeConstraint (kind : ConstraintVersionKind) (field : String)
    {constraint : VersionConstraint} (canonical : canonicalizeConstraint constraint = constraint)
    (many : ∀ clause ∈ constraint.clauses, kind.minimum ≤ clause.version.values.length) :
    ∃ decoded, decodeConstraint kind field (canonicalRRequirement constraint) = .ok decoded ∧
      Same decoded constraint ∧ decoded.Alike constraint ∧
        canonicalizeConstraint decoded = decoded := by
  obtain ⟨decoded, read, same, alike⟩ :=
    exists_read_canonicalRRequirement field canonical many
  have printed := (canonicalRRequirement_eq_iff same).mpr alike
  refine ⟨decoded, ?_, same, alike, (canonical_of_parseConstraint read).1⟩
  simp only [decodeConstraint, read, Except.mapError, ok_bind, ensure_of printed]
  rfl

/-- A requested source is read as it was written, up to the spelling of its versions. -/
theorem exists_decodeRequestedGitSource (lawful : reader.ip.Lawful) {source : LockedGitSource}
    (readable : source.Readable reader.ip) :
    ∃ decoded, decodeRequestedGitSource reader (encodeRequestedGitSource source) = .ok decoded ∧
      Same decoded source ∧ decoded.versionConstraint.Alike source.versionConstraint := by
  obtain ⟨constraint, read, same, alike, -⟩ := exists_decodeConstraint .package
    "package.requested-git-source.version-constraint" readable.canonical readable.many
  refine ⟨{ source with versionConstraint := constraint }, ?_,
    LockedGitSource.same_iff.mpr ⟨rfl, rfl, rfl, same⟩, alike⟩
  simp only [decodeRequestedGitSource, encodeRequestedGitSource,
    decodeSelector_encode _ readable.selector, decodeUrl_text lawful _ readable.url,
    decodeSubdirectory_text, read, ok_bind]
  rfl

end Fields

section Packages

variable {reader : LockReader} {package decoded : LockedPackage}

/-- What a valid package is. -/
theorem LockedPackage.validate_eq_ok : package.validate = .ok () ↔
    package.identity.provenance.isRBasePackage = false ∧ package.versionAgrees = true ∧
      package.validateSource = .ok () ∧ package.validateSpelling = .ok () := by
  simp only [LockedPackage.validate, bind_eq_ok, ensure_eq_ok, Unique.exists_iff,
    PUnit.default_eq_unit]

/-- A published spelling is that of the version, and it is not the printed one. -/
theorem LockedPackage.validateSpelling_eq_ok : package.validateSpelling = .ok () ↔
    ∀ spelling, package.publishedVersionSpelling = some spelling →
      ∃ version, RPackageVersion.parse spelling = .ok version ∧ Same version package.version ∧
        spelling ≠ canonicalVersion package.version := by
  unfold LockedPackage.validateSpelling
  cases published : package.publishedVersionSpelling with
  | none => simp
  | some spelling =>
    simp only [bind_eq_ok, mapError_eq_ok, ensure_eq_ok, Option.some.injEq, forall_eq']

/-- The written version of a package is read as the version, and as published as it was. -/
theorem exists_read_version (valid : package.validateSpelling = .ok ())
    (many : ¬ package.version.Bare) :
    ∃ version, RPackageVersion.parse
        (package.publishedVersionSpelling.getD (canonicalVersion package.version)) = .ok version ∧
      Same version package.version ∧ ¬ version.Bare ∧
        (if canonicalVersion version ≠
            package.publishedVersionSpelling.getD (canonicalVersion package.version) then
          some (package.publishedVersionSpelling.getD (canonicalVersion package.version))
        else none) = package.publishedVersionSpelling := by
  cases published : package.publishedVersionSpelling with
  | none =>
    have enough : 2 ≤ package.version.values.length := by
      have positive := List.length_pos_of_ne_nil package.version.values_bounds.1
      unfold RPackageVersion.Bare at many
      omega
    obtain ⟨version, read, same, bare, printed⟩ := exists_read_canonicalVersion le_rfl enough
    rw [Option.getD_none]
    exact ⟨version, read, same, mt bare.mp many, if_neg (not_not_intro printed)⟩
  | some spelling =>
    obtain ⟨version, read, same, differs⟩ :=
      LockedPackage.validateSpelling_eq_ok.mp valid spelling published
    have bare := not_bare_of_parse read
    have printed := (RPackageVersion.canonicalVersion_eq_iff same).mpr (iff_of_false bare many)
    rw [Option.getD_some]
    refine ⟨version, read, same, bare, if_pos ?_⟩
    rw [printed]
    exact differs.symm

/-- A provenance is read as it was written, with the version that was read. -/
theorem exists_decodeProvenance (lawful : reader.ip.Lawful) {version : RPackageVersion}
    {source : WireSource} (agrees : package.versionAgrees = true)
    (same : Same version package.version) (made : package.identity.provenance.Made reader.ip)
    (encoded : encodeProvenance package.identity.provenance = .ok source) :
    ∃ provenance, decodeProvenance reader.ip version source = .ok provenance ∧
      Same provenance package.identity.provenance := by
  unfold LockedPackage.versionAgrees at agrees
  cases kind : package.identity.provenance with
  | rBasePackage rVersion =>
    rw [kind] at encoded
    cases encoded
  | registryRelease nspace published =>
    rw [kind] at encoded agrees
    obtain rfl := Except.ok.inj encoded
    have versions := same.trans (of_decide_eq_true agrees).symm
    refine ⟨.registryRelease nspace version, ?_,
      congrArg (Provenance.registryRelease nspace) versions⟩
    simp only [decodeProvenance, decodeIdentifier_text, ok_bind]
    rfl
  | gitCommit repository commit subdirectory =>
    rw [kind] at encoded made
    obtain rfl := Except.ok.inj encoded
    refine ⟨.gitCommit repository commit subdirectory, ?_, Same.refl _⟩
    simp only [decodeProvenance, decodeUrl_text lawful _ made, GitCommitId.new_hex, Except.mapError,
      decodeSubdirectory_text, ok_bind]
    rfl
  | bioconductorRelease nspace release published =>
    rw [kind] at encoded agrees
    obtain rfl := Except.ok.inj encoded
    have versions := same.trans (of_decide_eq_true agrees).symm
    refine ⟨.bioconductorRelease nspace release version, ?_,
      congrArg (Provenance.bioconductorRelease nspace release) versions⟩
    simp only [decodeProvenance, decodeIdentifier_text, ok_bind]
    rfl
  | immutableSource scheme digest =>
    rw [kind] at encoded
    obtain rfl := Except.ok.inj encoded
    refine ⟨.immutableSource scheme digest, ?_, Same.refl _⟩
    simp only [decodeProvenance, decodeIdentifier_text, decodeDigest_text, ok_bind]
    rfl

/-- The requested source of a package is read as it was written. -/
theorem exists_decodeRequested (lawful : reader.ip.Lawful) {requested : Option LockedGitSource}
    (readable : ∀ source ∈ requested, source.Readable reader.ip) :
    ∃ sources, (requested.map encodeRequestedGitSource).mapM (decodeRequestedGitSource reader) =
        .ok sources ∧ Same sources requested ∧
      Option.Rel (fun first second => first.versionConstraint.Alike second.versionConstraint)
        sources requested := by
  cases requested with
  | none => exact ⟨none, rfl, Same.refl _, .none⟩
  | some source =>
    obtain ⟨decoded, read, same, alike⟩ :=
      exists_decodeRequestedGitSource lawful (readable source rfl)
    refine ⟨some decoded, ?_, same_some.mpr same, .some alike⟩
    simp only [Option.map_some, Option.mapM_some, read]
    rfl

/-- A normal package whose dependencies are packages is read as it was written, up to the spelling
of its versions, which are printed alike. -/
theorem exists_decodePackage (lawful : reader.ip.Lawful) (normal : package.Normal)
    (readable : package.Readable reader.ip) {names : List PackageName}
    (kept : ∀ edge ∈ package.dependencies, edge.package ∈ names) {wire : WirePackage}
    (encoded : encodePackage names package = .ok wire) :
    ∃ decoded, decodePackage reader wire = .ok decoded ∧ Same decoded package ∧
      decoded.Alike package ∧ ¬ decoded.version.Bare := by
  obtain ⟨source, written, made⟩ := bind_eq_ok.mp encoded
  obtain rfl := Except.ok.inj made
  obtain ⟨-, agrees, -, spelling⟩ := LockedPackage.validate_eq_ok.mp normal.valid
  obtain ⟨version, read, same, bare, published⟩ := exists_read_version spelling readable.version
  obtain ⟨provenance, origin, provenances⟩ :=
    exists_decodeProvenance lawful agrees same readable.provenance written
  obtain ⟨requested, sources, requests, alike⟩ := exists_decodeRequested lawful readable.requested
  have edges : ((package.dependencies.filter fun dependency => dependency.package ∈ names).map
      fun dependency : LockedDependencyEdge =>
        (⟨encodeDependencyKind dependency.kind, dependency.package.text⟩ : WireDependency)).mapM
          decodeDependency = .ok package.dependencies := by
    rw [List.filter_eq_self.mpr fun edge member => decide_eq_true (kept edge member), mapM_eq_ok,
      List.forall₂_map_left_iff]
    exact List.forall₂_same.mpr fun edge _ => decodeDependency_encode edge
  have visible : (package.visibleRepositoryIds.map Identifier.text).mapM
      (decodeIdentifier .repositoryId "package.visible-repository-ids") =
        .ok package.visibleRepositoryIds := by
    rw [mapM_eq_ok, List.forall₂_map_left_iff]
    exact List.forall₂_same.mpr fun id _ => decodeIdentifier_text _ id
  refine ⟨{ package with
    identity := ⟨package.name, provenance⟩
    version := version
    requestedGitSource := requested }, ?_, ?_, ⟨fun _ => iff_of_false bare readable.version, alike⟩,
    bare⟩
  · simp only [decodePackage, decodeName_text, read, Except.mapError, origin, decodeDigest_text,
      edges, visible, sources, ok_bind, published]
    rfl
  · exact LockedPackage.same_iff.mpr ⟨ReleaseIdentity.same_iff.mpr ⟨rfl, provenances⟩, same, rfl,
      rfl, rfl, rfl, requests⟩

/-- The version of the same package agrees with the same provenance. -/
theorem LockedPackage.versionAgrees_congr (same : Same decoded package) :
    decoded.versionAgrees = package.versionAgrees := by
  obtain ⟨identities, versions, -⟩ := LockedPackage.same_iff.mp same
  obtain ⟨-, provenances⟩ := ReleaseIdentity.same_iff.mp identities
  have both {first second : RPackageVersion} (published : Same first second) :
      decide (Same first decoded.version) = decide (Same second package.version) :=
    decide_eq_decide.mpr ⟨fun agree => (published.symm.trans agree).trans versions,
      fun agree => (published.trans agree).trans versions.symm⟩
  unfold LockedPackage.versionAgrees
  generalize decoded.identity.provenance = left at provenances
  generalize package.identity.provenance = right at provenances
  cases left <;> cases right <;>
    simp_all [Same, Representative.representative]

/-- A requested source names the same provenances. -/
theorem LockedGitSource.names_congr {left right : LockedGitSource} {first second : Provenance}
    (sources : Same left right) (provenances : Same first second) :
    left.names first = right.names second := by
  obtain ⟨urls, -, subdirectories, -⟩ := LockedGitSource.same_iff.mp sources
  cases first <;> cases second <;>
    simp_all [LockedGitSource.names, Same, Representative.representative]

/-- A requested source pins the same provenances. -/
theorem LockedGitSource.pins_congr {left right : LockedGitSource} {first second : Provenance}
    (sources : Same left right) (provenances : Same first second) :
    left.pins first = right.pins second := by
  obtain ⟨-, selectors, -, -⟩ := LockedGitSource.same_iff.mp sources
  unfold LockedGitSource.pins
  rw [selectors]
  cases right.selector with
  | rev value =>
    cases requested : GitCommitId.new value <;> cases first <;> cases second <;>
      simp_all [Same, Representative.representative]
  | _ => rfl

/-- The source of the same package is checked alike. -/
theorem LockedPackage.validateSource_congr (same : Same decoded package) :
    decoded.validateSource = .ok () ↔ package.validateSource = .ok () := by
  obtain ⟨identities, versions, -, -, -, -, requested⟩ := LockedPackage.same_iff.mp same
  obtain ⟨-, provenances⟩ := ReleaseIdentity.same_iff.mp identities
  unfold LockedPackage.validateSource
  cases first : decoded.requestedGitSource <;> cases second : package.requestedGitSource <;>
    rw [first, second] at requested
  · cases requested
  · cases requested
  · next left right =>
    have sources := same_some.mp requested
    have constraints := (LockedGitSource.same_iff.mp sources).2.2.2
    have satisfied : left.versionConstraint.satisfies decoded.version =
        right.versionConstraint.satisfies package.version := by
      rw [VersionConstraint.satisfies_congr _ versions,
        VersionConstraint.satisfies_congr_constraint constraints]
    simp only [bind_eq_ok, ensure_eq_ok, LockedGitSource.names_congr sources provenances,
      LockedGitSource.pins_congr sources provenances, satisfied]

/-- A package that is the same as a normal one is normal when neither version is bare. -/
theorem LockedPackage.Normal.congr (normal : package.Normal) (same : Same decoded package)
    (many : ¬ package.version.Bare) (bare : ¬ decoded.version.Bare) : decoded.Normal := by
  obtain ⟨identities, versions, spellings, edges, visible, -, requested⟩ :=
    LockedPackage.same_iff.mp same
  obtain ⟨-, provenances⟩ := ReleaseIdentity.same_iff.mp identities
  obtain ⟨released, agrees, source, spelling⟩ := LockedPackage.validate_eq_ok.mp normal.valid
  refine ⟨LockedPackage.validate_eq_ok.mpr ⟨?_, ?_, ?_, ?_⟩, visible ▸ normal.visible,
    edges ▸ normal.edges⟩
  · rw [Provenance.isRBasePackage_congr provenances]
    exact released
  · rw [LockedPackage.versionAgrees_congr same]
    exact agrees
  · exact (LockedPackage.validateSource_congr same).mpr source
  · refine LockedPackage.validateSpelling_eq_ok.mpr fun text published => ?_
    obtain ⟨version, read, agree, differs⟩ :=
      LockedPackage.validateSpelling_eq_ok.mp spelling text (spellings ▸ published)
    refine ⟨version, read, agree.trans versions.symm, ?_⟩
    rwa [(RPackageVersion.canonicalVersion_eq_iff versions).mpr (iff_of_false bare many)]

end Packages

section Locks

variable {reader : LockReader} {decoded packages : List LockedPackage}

/-- The same identities are in the same order. -/
theorem compareIdentities_congr {left right one two : ReleaseIdentity} (first : Same left one)
    (second : Same right two) : compareIdentities left right = compareIdentities one two := by
  rw [Std.TransCmp.congr_left (compareIdentities_eq_iff.mpr first),
    Std.TransCmp.congr_right (compareIdentities_eq_iff.mpr second)]

/-- Packages that are the same as normal ones are normal when no version is bare. -/
theorem NormalPackages.congr (normal : NormalPackages packages)
    (pairs : List.Forall₂ (fun left right : LockedPackage =>
      Same left right ∧ ¬ left.version.Bare ∧ ¬ right.version.Bare) decoded packages) :
    NormalPackages decoded := by
  have identities {left right : LockedPackage} (pair : Same left right ∧ ¬ left.version.Bare ∧
      ¬ right.version.Bare) : Same left.identity right.identity :=
    (LockedPackage.same_iff.mp pair.1).1
  have names : decoded.map LockedPackage.name = packages.map LockedPackage.name := by
    rw [← List.forall₂_eq_eq_eq, List.forall₂_map_left_iff, List.forall₂_map_right_iff]
    exact pairs.imp fun _ _ pair => (ReleaseIdentity.same_iff.mp (identities pair)).1
  have agree := ensureInstalledNames_agree normal.installed
  refine ⟨?_, ?_, ?_, ?_, ?_⟩
  · intro package member
    obtain ⟨source, sourceIn, pair⟩ := Related.exists_mem_right pairs member
    exact (normal.normal source sourceIn).congr pair.1 pair.2.2 pair.2.1
  · refine Related.pairwise pairs normal.sorted fun first second ordered => ?_
    rw [compareIdentities_congr (identities first) (identities second)]
    exact ordered
  · refine Related.isChain pairs normal.apart fun first second differ same => differ ?_
    exact ((identities first).symm.trans same).trans (identities second)
  · refine ensureInstalledNames_of_agree fun first firstIn second secondIn named => ?_
    obtain ⟨one, oneIn, firstPair⟩ := Related.exists_mem_right pairs firstIn
    obtain ⟨two, twoIn, secondPair⟩ := Related.exists_mem_right pairs secondIn
    have oneNamed : first.name = one.name :=
      (ReleaseIdentity.same_iff.mp (identities firstPair)).1
    have twoNamed : second.name = two.name :=
      (ReleaseIdentity.same_iff.mp (identities secondPair)).1
    have same := agree one oneIn two twoIn (oneNamed.symm.trans (named.trans twoNamed))
    exact ((identities firstPair).trans same).trans (identities secondPair).symm
  · refine forM_eq_ok.mpr fun package member => forM_eq_ok.mpr fun edge edgeIn => ?_
    obtain ⟨source, sourceIn, pair⟩ := Related.exists_mem_right pairs member
    have edges := (LockedPackage.same_iff.mp pair.1).2.2.2.1
    have ended := forM_eq_ok.mp (forM_eq_ok.mp normal.exist source sourceIn) edge (edges ▸ edgeIn)
    rw [names]
    exact ensure_of (ensure_eq_ok.mp ended)

/-- A lock whose cutoff, URLs and requested sources were read from some text, with versions of at
least two components. -/
structure Lockfile.Readable (reader : LockReader) (lock : Lockfile) : Prop where
  cutoff : ∀ date ∈ lock.resolution.publicationCutoff,
    ∃ input, PublicationDate.parse reader.basis input = .ok date
  packages : ∀ package ∈ lock.resolution.packages, package.Readable reader.ip

/-- A date has the text it was read from. -/
theorem PublicationDate.text_of_parse {basis : CatalogBasis} {input : String}
    {date : PublicationDate} (read : PublicationDate.parse basis input = .ok date) : date.text = input := by
  unfold PublicationDate.parse at read
  split at read
  · cases read
  · split at read
    · cases read
    · next kept =>
      obtain rfl := Except.ok.inj read
      exact not_not.mp kept

/-- A date that was read from some text is read from its own. -/
theorem PublicationDate.parse_text {basis : CatalogBasis} {input : String} {date : PublicationDate}
    (read : PublicationDate.parse basis input = .ok date) :
    PublicationDate.parse basis date.text = .ok date := by
  rw [PublicationDate.text_of_parse read]
  exact read

/-- The cutoff is read as it was written. -/
theorem decodeCutoff_text {basis : CatalogBasis} {cutoff : Option PublicationDate}
    (made : ∀ date ∈ cutoff, ∃ input, PublicationDate.parse basis input = .ok date) :
    ((cutoff.map PublicationDate.text).mapM fun value =>
      (PublicationDate.parse basis value).mapError fun cause =>
        LockWireError.invalidField "publication-cutoff" (cause.message basis.unprintable)) =
          .ok cutoff := by
  cases cutoff with
  | none => rfl
  | some date =>
    obtain ⟨input, read⟩ := made date rfl
    simp only [Option.map_some, Option.mapM_some, PublicationDate.parse_text read, Except.mapError]
    rfl

/-- A printed R version is read, and it is printed alike. -/
theorem exists_parseCanonicalRVersionField (field : String) (version : RPackageVersion) :
    ∃ parsed, parseCanonicalRVersionField field (canonicalVersion version) = .ok parsed ∧
      Same parsed version ∧ (parsed.Bare ↔ version.Bare) := by
  obtain ⟨parsed, read, same, bare, printed⟩ := exists_read_canonicalVersion
    (by decide : 1 ≤ 2) (List.length_pos_of_ne_nil version.values_bounds.1)
  refine ⟨parsed, ?_, same, bare⟩
  have bareRead : RPackageVersion.parseBare (canonicalVersion version) = .ok parsed := read
  simp only [parseCanonicalRVersionField, bareRead, Except.mapError, ok_bind, ensure_of printed]
  rfl

/-- A built lock that is readable is read as it was written, up to the spelling of its versions, and
what is read is built and written alike. -/
theorem exists_decodeLock (lawful : reader.ip.Lawful) {lock : Lockfile} (built : lock.Built)
    (readable : lock.Readable reader) {wire : WireLockfile} (encoded : encodeLock lock = .ok wire) :
    ∃ decoded, decodeLock reader wire = .ok decoded ∧ decoded.Built ∧ Same decoded lock ∧
      encodeLock decoded = .ok wire := by
  obtain ⟨wires, written, made⟩ := bind_eq_ok.mp encoded
  obtain ⟨packages, reads, pairs⟩ := Related.exists_mapM_back (decodePackage reader)
    (fun left right : LockedPackage =>
      Same left right ∧ left.Alike right ∧ ¬ left.version.Bare ∧ ¬ right.version.Bare) written
    fun package member wire encoded => by
      have kept : ∀ edge ∈ package.dependencies,
          edge.package ∈ lock.resolution.packages.map LockedPackage.name := by
        have exist := forM_eq_ok.mp built.packages.exist package member
        exact fun edge edgeIn => ensure_eq_ok.mp (forM_eq_ok.mp exist edge edgeIn)
      obtain ⟨decoded, read, same, alike, bare⟩ := exists_decodePackage lawful
        (built.packages.normal package member) (readable.packages package member) kept encoded
      exact ⟨decoded, read, same, alike, bare, (readable.packages package member).version⟩
  obtain ⟨rVersion, target, targets, bare⟩ :=
    exists_parseCanonicalRVersionField "r-version" lock.resolution.target.rVersion
  obtain ⟨requirement, constraint, requirements, alike, canonical⟩ :=
    exists_decodeConstraint .r "r-requirement" built.requirement
      fun clause _ => List.length_pos_of_ne_nil clause.version.values_bounds.1
  have environment : ((EnvironmentId.new lock.resolution.environment.text).mapError fun cause =>
      LockWireError.invalidField "environment" cause.message) = .ok lock.resolution.environment :=
    mapError_eq_ok.mpr (EnvironmentId.new_eq_ok.mpr rfl)
  have normal : NormalPackages packages :=
    built.packages.congr (pairs.imp fun _ _ pair => ⟨pair.1, pair.2.2⟩)
  let decoded : Lockfile := ⟨lock.resolutionIntentSha256, requirement, { lock.resolution with
    target := ⟨rVersion⟩
    packages := packages }⟩
  have same : Same decoded lock :=
    Lockfile.same_iff.mpr ⟨rfl, requirements, targets, rfl, rfl, pairs.imp fun _ _ pair => pair.1⟩
  have satisfied : requirement.satisfies rVersion = true := by
    rw [VersionConstraint.satisfies_congr _ targets,
      VersionConstraint.satisfies_congr_constraint requirements]
    exact built.packages.validate_iff.mp built.valid
  have rebuilt : decoded.Built := ⟨normal, canonical, normal.validate_iff.mpr satisfied⟩
  refine ⟨decoded, ?_, rebuilt, same, ?_⟩
  · have resolution : decodeResolution reader wire = .ok decoded := by
      obtain rfl := Except.ok.inj made
      simp only [decodeResolution, target, constraint, decodeDigest_text, reads,
        decodeCutoff_text readable.cutoff, environment, ok_bind]
      rfl
    have version : wire.version = schemaVersion := by
      obtain rfl := Except.ok.inj made
      rfl
    simp only [decodeLock, ensure_of version, resolution, ok_bind]
    rw [normal.canonical]
    exact mapError_eq_ok.mpr rebuilt.new_eq
  · rw [← encoded]
    exact (encodeLock_eq_iff rebuilt same).mpr ⟨bare, alike, pairs.imp fun _ _ pair => pair.2.1⟩

end Locks

end Rsolve
