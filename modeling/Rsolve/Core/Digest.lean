import Rsolve.Core.Unions

/-!
# The fingerprint of logical metadata

The metadata digest of a release hashes an encoding of its identity, its version and its declared
dependencies. Versions are written by their components without trailing zeros; the dependencies and
the clauses of each dependency are written as records, sorted and without repetitions. The encoding
is determined by the logical metadata and determines it.
-/
open Keyed Framing

namespace Rsolve

/-- `METADATA_DIGEST_DOMAIN`. -/
def metadataDigestDomain : List UInt8 :=
  textBytes "rsolve.logical-release-metadata\x00v1"

/-- `append_version` — the count of the components without trailing zeros, then the components. -/
def appendVersion (version : RPackageVersion) : List UInt8 :=
  leCounted le64 version.key

/-- `append_optional_string`. -/
def appendOptionalString : Option String → List UInt8
  | some value => 1 :: leText value
  | none => [0]

/-- The provenance part of `append_identity`. -/
def appendProvenance : Provenance → List UInt8
  | .rBasePackage rVersion => 0 :: appendVersion rVersion
  | .registryRelease nspace version => 1 :: (leText nspace.text ++ appendVersion version)
  | .gitCommit repository commit subdirectory =>
    2 :: (leText repository.text ++ (leText commit.hex ++
      appendOptionalString (subdirectory.map RepositorySubdir.text)))
  | .bioconductorRelease nspace release version =>
    3 :: (leText nspace.text ++ (leText release.text ++ appendVersion version))
  | .immutableSource scheme digest => 4 :: (leText scheme.text ++ leText digest.text)

/-- `append_identity`. -/
def appendIdentity (identity : ReleaseIdentity) : List UInt8 :=
  leText identity.name.text ++ appendProvenance identity.provenance

/-- `append_source_constraint`. -/
def appendSourceConstraint : DependencySourceConstraint → List UInt8
  | .any => [0]
  | .registry nspace => 1 :: leText nspace.text
  | .repository repository => 5 :: leText repository.text
  | .bioconductor nspace release => 2 :: (leText nspace.text ++ leText release.text)
  | .git repository => 3 :: leText repository.text
  | .exact identity => 4 :: appendIdentity identity

/-- The byte of a relation. -/
def RelationOp.byte : RelationOp → UInt8
  | .lt => 0
  | .le => 1
  | .eq => 2
  | .ne => 3
  | .ge => 4
  | .gt => 5

/-- The record of a clause in `encode_dependency`. -/
def encodeClause (clause : VersionClause) : List UInt8 :=
  clause.op.byte :: appendVersion clause.version

/-- The byte of a dependency field. -/
def DependencyKind.byte : DependencyKind → UInt8
  | .depends => 0
  | .imports => 1
  | .linkingTo => 2
  | .suggests => 3
  | .enhances => 4

/-- Records sorted without repetitions, behind their count. -/
def appendRecords (records : List (List UInt8)) : List UInt8 :=
  leCounted lePrefixed (Sorting.sortDedup records)

/-- `encode_dependency` — the record of a declared dependency. -/
def encodeDependency (dependency : DeclaredDependency) : List UInt8 :=
  dependency.kind.byte :: (leText dependency.package.name.text ++
    (appendSourceConstraint dependency.package.source ++
      appendRecords (dependency.package.constraint.clauses.map encodeClause)))

/-- The bytes `canonical_metadata_digest` hashes. -/
def metadataPreimage (identity : ReleaseIdentity) (version : RPackageVersion)
    (dependencies : List DeclaredDependency) : List UInt8 :=
  lePrefixed metadataDigestDomain ++ (appendIdentity identity ++ (appendVersion version ++
    appendRecords (dependencies.map encodeDependency)))

/-- `canonical_metadata_digest` — the hash is the one of a library. -/
def canonicalMetadataDigest (sha256 : List UInt8 → Sha256Digest) (identity : ReleaseIdentity)
    (version : RPackageVersion) (dependencies : List DeclaredDependency) : Sha256Digest :=
  sha256 (metadataPreimage identity version dependencies)

/-- `PackageRelease::metadata_digest` — computed when a release is built; merging keeps it. -/
def PackageRelease.metadataDigest (sha256 : List UInt8 → Sha256Digest) (release : PackageRelease) :
    Sha256Digest :=
  canonicalMetadataDigest sha256 release.identity release.version release.declaredDependencies

/-- The components that comparison reads fit into eight bytes. -/
theorem RPackageVersion.key_fits (version : RPackageVersion) :
    ∀ value ∈ version.key, value < lengthBound := by
  intro value member
  rw [key_eq] at member
  have below := version.values_bounds.2 value ((trimZeros_initial version.values).subset member)
  simp only [componentBound] at below
  simp only [lengthBound]
  omega

/-- Numbers below the length bound are their own remainders. -/
theorem map_mod_lengthBound {values : List Nat} (fit : ∀ value ∈ values, value < lengthBound) :
    values.map (· % lengthBound) = values := by
  conv_rhs => rw [← List.map_id values]
  exact List.map_congr_left fun value member => Nat.mod_eq_of_lt (fit value member)

/-- A version can be read from the front, up to its spelling. -/
theorem readable_appendVersion : Readable appendVersion representative := by
  intro left right leftRest rightRest leftFits rightFits equal
  obtain ⟨numbers, rest⟩ := readable_leCounted readable_le64 (by simp) leftFits rightFits equal
  rw [map_mod_lengthBound left.key_fits, map_mod_lengthBound right.key_fits] at numbers
  exact ⟨RPackageVersion.same_iff.mpr numbers, rest⟩

/-- An optional text can be read from the front. -/
theorem readable_appendOptionalString : Readable appendOptionalString id := by
  intro left right leftRest rightRest leftFits rightFits equal
  cases left <;> cases right <;>
    simp only [appendOptionalString, List.length_cons, List.cons_append, List.nil_append,
      List.cons.injEq] at leftFits rightFits equal <;>
    obtain ⟨tags, equal⟩ := equal
  case none.none => exact ⟨rfl, equal⟩
  case some.some left right =>
    obtain ⟨texts, rest⟩ := readable_leText (by omega) (by omega) equal
    exact ⟨congrArg some texts, rest⟩
  all_goals exact absurd tags (by decide)

/-- The same commit id is written as the same text. -/
theorem GitCommitId.hex_injective {left right : GitCommitId} (equal : left.hex = right.hex) :
    left = right := by
  have read : GitCommitId.read left.hex = .ok (right.algorithm, right.hex) := by
    rw [equal]
    exact right.valid
  have both := left.valid.symm.trans read
  simp only [Except.ok.injEq, Prod.mk.injEq] at both
  exact GitCommitId.ext both.1 both.2

/-- A provenance can be read from the front, up to the spelling of its version. -/
theorem readable_appendProvenance : Readable appendProvenance representative := by
  intro left right leftRest rightRest leftFits rightFits equal
  cases left <;> cases right <;>
    simp only [appendProvenance, List.length_cons, List.length_append, List.cons_append,
      List.append_assoc, List.cons.injEq] at leftFits rightFits equal <;>
    obtain ⟨tags, equal⟩ := equal
  case rBasePackage.rBasePackage =>
    obtain ⟨version, rest⟩ := readable_appendVersion (by omega) (by omega) equal
    exact ⟨congrArg Provenance.rBasePackage version, rest⟩
  case registryRelease.registryRelease =>
    obtain ⟨nspace, equal⟩ := readable_leText (by omega) (by omega) equal
    obtain ⟨version, rest⟩ := readable_appendVersion (by omega) (by omega) equal
    refine ⟨?_, rest⟩
    show Provenance.registryRelease _ _ = Provenance.registryRelease _ _
    rw [Identifier.ext nspace, version]
  case gitCommit.gitCommit =>
    obtain ⟨repository, equal⟩ := readable_leText (by omega) (by omega) equal
    obtain ⟨commit, equal⟩ := readable_leText (by omega) (by omega) equal
    obtain ⟨subdirectory, rest⟩ := readable_appendOptionalString (by omega) (by omega) equal
    refine ⟨?_, rest⟩
    have subdirectories := Option.map_injective (fun _ _ => RepositorySubdir.ext) subdirectory
    rw [NormalizedGitUrl.ext repository, GitCommitId.hex_injective commit, subdirectories]
  case bioconductorRelease.bioconductorRelease =>
    obtain ⟨nspace, equal⟩ := readable_leText (by omega) (by omega) equal
    obtain ⟨release, equal⟩ := readable_leText (by omega) (by omega) equal
    obtain ⟨version, rest⟩ := readable_appendVersion (by omega) (by omega) equal
    refine ⟨?_, rest⟩
    show Provenance.bioconductorRelease _ _ _ = Provenance.bioconductorRelease _ _ _
    rw [Identifier.ext nspace, Identifier.ext release, version]
  case immutableSource.immutableSource =>
    obtain ⟨scheme, equal⟩ := readable_leText (by omega) (by omega) equal
    obtain ⟨digest, rest⟩ := readable_leText (by omega) (by omega) equal
    exact ⟨by rw [Identifier.ext scheme, Sha256Digest.ext digest], rest⟩
  all_goals exact absurd tags (by decide)

/-- An identity can be read from the front, up to the spelling of its version. -/
theorem readable_appendIdentity : Readable appendIdentity representative := by
  intro left right leftRest rightRest leftFits rightFits equal
  simp only [appendIdentity, List.length_append, List.append_assoc] at leftFits rightFits equal
  obtain ⟨name, equal⟩ := readable_leText (by omega) (by omega) equal
  obtain ⟨provenance, rest⟩ := readable_appendProvenance (by omega) (by omega) equal
  exact ⟨ReleaseIdentity.same_iff.mpr ⟨PackageName.ext name, provenance⟩, rest⟩

/-- A source scope can be read from the front, up to the spelling of an exact version. -/
theorem readable_appendSourceConstraint : Readable appendSourceConstraint representative := by
  intro left right leftRest rightRest leftFits rightFits equal
  cases left <;> cases right <;>
    simp only [appendSourceConstraint, List.length_cons, List.length_append, List.cons_append,
      List.nil_append, List.append_assoc, List.cons.injEq] at leftFits rightFits equal <;>
    obtain ⟨tags, equal⟩ := equal
  case any.any => exact ⟨rfl, equal⟩
  case registry.registry =>
    obtain ⟨nspace, rest⟩ := readable_leText (by omega) (by omega) equal
    exact ⟨by rw [Identifier.ext nspace], rest⟩
  case repository.repository =>
    obtain ⟨repository, rest⟩ := readable_leText (by omega) (by omega) equal
    exact ⟨by rw [Identifier.ext repository], rest⟩
  case bioconductor.bioconductor =>
    obtain ⟨nspace, equal⟩ := readable_leText (by omega) (by omega) equal
    obtain ⟨release, rest⟩ := readable_leText (by omega) (by omega) equal
    exact ⟨by rw [Identifier.ext nspace, Identifier.ext release], rest⟩
  case git.git =>
    obtain ⟨repository, rest⟩ := readable_leText (by omega) (by omega) equal
    exact ⟨by rw [NormalizedGitUrl.ext repository], rest⟩
  case exact.exact =>
    obtain ⟨identity, rest⟩ := readable_appendIdentity (by omega) (by omega) equal
    exact ⟨congrArg DependencySourceConstraint.exact identity, rest⟩
  all_goals exact absurd tags (by decide)

/-- Relations have distinct bytes. -/
theorem RelationOp.byte_injective {left right : RelationOp} (equal : left.byte = right.byte) :
    left = right := by
  cases left <;> cases right <;> first | rfl | exact absurd equal (by decide)

/-- Dependency fields have distinct bytes. -/
theorem DependencyKind.byte_injective {left right : DependencyKind}
    (equal : left.byte = right.byte) : left = right := by
  cases left <;> cases right <;> first | rfl | exact absurd equal (by decide)

/-- The record of a clause determines it, up to the spelling of its version. -/
theorem encodeClause_injective {left right : VersionClause}
    (leftFits : (encodeClause left).length < lengthBound)
    (rightFits : (encodeClause right).length < lengthBound)
    (equal : encodeClause left = encodeClause right) : Same left right := by
  simp only [encodeClause, List.length_cons, List.cons.injEq] at leftFits rightFits equal
  have version := readable_appendVersion.injective (by omega) (by omega) equal.2
  exact VersionClause.same_iff.mpr ⟨RelationOp.byte_injective equal.1, version⟩

/-- Records sorted behind their count can be read from the front. -/
theorem readable_appendRecords : Readable appendRecords Sorting.sortDedup := by
  intro left right leftRest rightRest leftFits rightFits equal
  have records := readable_leCounted readable_lePrefixed (by simp) leftFits rightFits equal
  simpa using records

/-- A record is shorter than the records it is written among. -/
theorem length_lt_appendRecords {records : List (List UInt8)} {record : List UInt8}
    (member : record ∈ records) : record.length < (appendRecords records).length := by
  have kept : record ∈ Sorting.sortDedup records := Sorting.mem_sortDedup.mpr member
  have within : (lePrefixed record).length ≤
      ((Sorting.sortDedup records).flatMap lePrefixed).length := by
    rw [List.flatMap_def]
    exact (List.sublist_flatten_of_mem (List.mem_map_of_mem kept)).length_le
  rw [lePrefixed_length] at within
  simp only [appendRecords, leCounted, List.length_append, le64_length]
  omega

/-- The same versions are written alike. -/
theorem appendVersion_congr {left right : RPackageVersion} (same : Same left right) :
    appendVersion left = appendVersion right := by
  rw [appendVersion, appendVersion, RPackageVersion.same_iff.mp same]

/-- The same provenances are written alike. -/
theorem appendProvenance_congr {left right : Provenance} (same : Same left right) :
    appendProvenance left = appendProvenance right := by
  cases left <;> cases right <;>
    simp only [Same, representative, Provenance.rBasePackage.injEq,
      Provenance.registryRelease.injEq, Provenance.bioconductorRelease.injEq, reduceCtorEq] at same
  case rBasePackage.rBasePackage => rw [appendProvenance, appendProvenance, appendVersion_congr same]
  case registryRelease.registryRelease =>
    obtain ⟨rfl, same⟩ := same
    rw [appendProvenance, appendProvenance, appendVersion_congr same]
  case bioconductorRelease.bioconductorRelease =>
    obtain ⟨rfl, rfl, same⟩ := same
    rw [appendProvenance, appendProvenance, appendVersion_congr same]
  all_goals rw [same]

/-- The same identities are written alike. -/
theorem appendIdentity_congr {left right : ReleaseIdentity} (same : Same left right) :
    appendIdentity left = appendIdentity right := by
  obtain ⟨name, provenance⟩ := ReleaseIdentity.same_iff.mp same
  rw [appendIdentity, appendIdentity, name, appendProvenance_congr provenance]

/-- The same source scopes are written alike. -/
theorem appendSourceConstraint_congr {left right : DependencySourceConstraint}
    (same : Same left right) : appendSourceConstraint left = appendSourceConstraint right := by
  cases left <;> cases right <;>
    simp only [Same, representative, DependencySourceConstraint.exact.injEq, reduceCtorEq] at same
  case any.any => rfl
  case exact.exact => rw [appendSourceConstraint, appendSourceConstraint, appendIdentity_congr same]
  all_goals rw [same]

/-- The same clauses have one record. -/
theorem encodeClause_congr {left right : VersionClause} (same : Same left right) :
    encodeClause left = encodeClause right := by
  obtain ⟨op, version⟩ := VersionClause.same_iff.mp same
  rw [encodeClause, encodeClause, op, appendVersion_congr version]

/-- Two declarations of one dependency: the field, the package and the source scope agree, and the
clauses are the same set. -/
structure DeclaredDependency.SameDeclaration (left right : DeclaredDependency) : Prop where
  /-- One field declares both. -/
  kind : left.kind = right.kind
  /-- They name one package. -/
  name : left.package.name = right.package.name
  /-- They have the same source scope. -/
  source : Same left.package.source right.package.source
  /-- They have the same clauses. -/
  clauses : Sorting.Matches Same left.package.constraint.clauses right.package.constraint.clauses

/-- One declaration has one record. -/
theorem encodeDependency_congr {left right : DeclaredDependency}
    (same : left.SameDeclaration right) : encodeDependency left = encodeDependency right := by
  have records := Sorting.sortDedup_map_eq (fun _ _ alike => encodeClause_congr alike) same.clauses
  rw [encodeDependency, encodeDependency, same.kind, same.name,
    appendSourceConstraint_congr same.source, appendRecords, appendRecords, records]

/-- The record of a dependency determines what it declares. -/
theorem encodeDependency_injective {left right : DeclaredDependency}
    (leftFits : (encodeDependency left).length < lengthBound)
    (rightFits : (encodeDependency right).length < lengthBound)
    (equal : encodeDependency left = encodeDependency right) : left.SameDeclaration right := by
  simp only [encodeDependency, List.length_cons, List.length_append] at leftFits rightFits
  simp only [encodeDependency, List.cons.injEq] at equal
  obtain ⟨kind, equal⟩ := equal
  obtain ⟨name, equal⟩ := readable_leText (by omega) (by omega) equal
  obtain ⟨source, equal⟩ := readable_appendSourceConstraint (by omega) (by omega) equal
  have records := readable_appendRecords.injective (by omega) (by omega) equal
  refine ⟨DependencyKind.byte_injective kind, PackageName.ext name, source,
    Sorting.matches_of_sortDedup_map_eq ?_ records⟩
  intro first firstIn second secondIn
  have firstShort := length_lt_appendRecords (List.mem_map_of_mem (f := encodeClause) firstIn)
  have secondShort := length_lt_appendRecords (List.mem_map_of_mem (f := encodeClause) secondIn)
  exact encodeClause_injective (by omega) (by omega)

/-- The same logical metadata is encoded alike. -/
theorem metadataPreimage_congr {leftIdentity rightIdentity : ReleaseIdentity}
    {leftVersion rightVersion : RPackageVersion}
    {leftDependencies rightDependencies : List DeclaredDependency}
    (identity : Same leftIdentity rightIdentity) (version : Same leftVersion rightVersion)
    (dependencies : Sorting.Matches DeclaredDependency.SameDeclaration leftDependencies
      rightDependencies) :
    metadataPreimage leftIdentity leftVersion leftDependencies =
      metadataPreimage rightIdentity rightVersion rightDependencies := by
  have records := Sorting.sortDedup_map_eq (fun _ _ alike => encodeDependency_congr alike)
    dependencies
  rw [metadataPreimage, metadataPreimage, appendIdentity_congr identity,
    appendVersion_congr version, appendRecords, appendRecords, records]

/-- The input of `canonical_metadata_digest`. The encoding is built in memory, so its length fits
into eight bytes. -/
structure LogicalMetadata where
  /-- The identity of the release. -/
  identity : ReleaseIdentity
  /-- The observed version. -/
  version : RPackageVersion
  /-- The declared dependencies. -/
  dependencies : List DeclaredDependency
  /-- The encoding fits into memory. -/
  fits : (metadataPreimage identity version dependencies).length < lengthBound

/-- The bytes that are hashed. -/
def LogicalMetadata.preimage (input : LogicalMetadata) : List UInt8 :=
  metadataPreimage input.identity input.version input.dependencies

/-- The hashed bytes determine the logical metadata. -/
theorem LogicalMetadata.preimage_injective {left right : LogicalMetadata}
    (equal : left.preimage = right.preimage) :
    Same left.identity right.identity ∧ Same left.version right.version ∧
      Sorting.Matches DeclaredDependency.SameDeclaration left.dependencies
        right.dependencies := by
  have leftFits := left.fits
  have rightFits := right.fits
  simp only [metadataPreimage, List.length_append] at leftFits rightFits
  simp only [LogicalMetadata.preimage, metadataPreimage] at equal
  obtain ⟨-, equal⟩ := readable_lePrefixed (by omega) (by omega) equal
  obtain ⟨identity, equal⟩ := readable_appendIdentity (by omega) (by omega) equal
  obtain ⟨version, equal⟩ := readable_appendVersion (by omega) (by omega) equal
  have records := readable_appendRecords.injective (by omega) (by omega) equal
  refine ⟨identity, version, Sorting.matches_of_sortDedup_map_eq ?_ records⟩
  intro first firstIn second secondIn
  have firstShort := length_lt_appendRecords (List.mem_map_of_mem (f := encodeDependency) firstIn)
  have secondShort := length_lt_appendRecords (List.mem_map_of_mem (f := encodeDependency) secondIn)
  exact encodeDependency_injective (by omega) (by omega)

/-- Lists that agree element by element match. -/
theorem matches_of_same {α : Type} [Representative α] {left right : List α}
    (same : Same left right) : Sorting.Matches Same left right := by
  have mapped : left.map representative = right.map representative := same
  constructor
  · intro first firstIn
    have member : representative first ∈ right.map representative :=
      mapped ▸ List.mem_map_of_mem firstIn
    obtain ⟨second, secondIn, equal⟩ := List.mem_map.mp member
    exact ⟨second, secondIn, equal.symm⟩
  · intro second secondIn
    have member : representative second ∈ left.map representative :=
      mapped.symm ▸ List.mem_map_of_mem secondIn
    obtain ⟨first, firstIn, equal⟩ := List.mem_map.mp member
    exact ⟨first, firstIn, equal⟩

/-- The same dependencies are declared alike. -/
theorem DeclaredDependency.sameDeclaration_of_same {left right : DeclaredDependency}
    (same : Same left right) : left.SameDeclaration right := by
  have equal : representative left = representative right := same
  simp only [representative, DeclaredDependency.mk.injEq, PackageRequirement.mk.injEq,
    VersionConstraint.mk.injEq] at equal
  obtain ⟨kind, name, source, clauses⟩ := equal
  exact ⟨kind, name, source, matches_of_same clauses⟩

/-- Releases that merge have one metadata digest. -/
theorem PreparedCandidate.metadataDigest_of_merge {candidate incoming merged : PreparedCandidate}
    (accepted : candidate.merge incoming = .ok merged) (sha256 : List UInt8 → Sha256Digest) :
    candidate.release.metadataDigest sha256 = incoming.release.metadataDigest sha256 := by
  obtain ⟨identity, release, consistent, -⟩ := PreparedCandidate.merge_eq_ok.mp accepted
  obtain ⟨version, -, -, dependencies, -⟩ := PackageRelease.mergeConsistent_eq_ok consistent
  have declared := (matches_of_same dependencies).mono
    (fun _ _ => DeclaredDependency.sameDeclaration_of_same)
  exact congrArg sha256 (metadataPreimage_congr identity version declared)

/-- The bytes hashed for a release are its logical metadata: equal bytes are equal identities,
versions and sets of declared dependencies, whatever their order, repetition and spelling. So
releases that merge have one digest. -/
theorem metadataPreimage_characterizes :
    (∀ left right : LogicalMetadata, left.preimage = right.preimage ↔
      Same left.identity right.identity ∧ Same left.version right.version ∧
        Sorting.Matches DeclaredDependency.SameDeclaration left.dependencies
          right.dependencies) ∧
    ∀ (sha256 : List UInt8 → Sha256Digest) (candidate incoming merged : PreparedCandidate),
      candidate.merge incoming = .ok merged →
        candidate.release.metadataDigest sha256 = incoming.release.metadataDigest sha256 := by
  refine ⟨fun left right => ⟨LogicalMetadata.preimage_injective, ?_⟩, ?_⟩
  · rintro ⟨identity, version, dependencies⟩
    exact metadataPreimage_congr identity version dependencies
  · intro sha256 candidate incoming merged accepted
    exact PreparedCandidate.metadataDigest_of_merge accepted sha256

/-- Another spelling of the newer version. -/
def Small.respelled : RPackageVersion := ⟨"1-00.0", .fromVec [1, 0, 0], by decide⟩

/-- A release in a repository. -/
def Small.spelled : PreparedCandidate :=
  Small.candidateIn Small.repository 0 Small.alpha Small.newer

/-- The release in a mirror, with its version spelled differently. -/
def Small.spelledAgain : PreparedCandidate :=
  Small.candidateIn Small.mirror 1 Small.alpha Small.respelled

/-- Two spellings of one release in two repositories merge and have one digest. -/
theorem metadataPreimage_characterizes_respelled :
    ∃ merged, Small.spelled.merge Small.spelledAgain = .ok merged ∧
      ∀ sha256, Small.spelled.release.metadataDigest sha256 =
        Small.spelledAgain.release.metadataDigest sha256 := by
  obtain ⟨merged, accepted⟩ : ∃ merged, Small.spelled.merge Small.spelledAgain = .ok merged :=
    Checked.exists_of_isOk (by decide +kernel)
  refine ⟨merged, accepted, fun sha256 => ?_⟩
  exact metadataPreimage_characterizes.2 sha256 Small.spelled Small.spelledAgain merged accepted

end Rsolve
