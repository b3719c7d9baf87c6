import Rsolve.Core.Coordinates
import Rsolve.Core.GitUrl
import Rsolve.Core.Version
import Rsolve.Lib.Framing
import Rsolve.Lib.Sorting

/-!
# Release identities and distributions

A release is identified by its name and provenance. The version inside a provenance is compared as
a version, so identities that differ only in the spelling of a version are the same identity.
Distributions are evidence about artifacts; a list of them is put into a canonical order by an
encoded key and loses its repetitions.
-/
open Keyed Framing

namespace Rsolve

/-- `Provenance` — where a release comes from. -/
inductive Provenance
  /-- A base package supplied by the selected R runtime. -/
  | rBasePackage (rVersion : RPackageVersion)
  /-- A release of a registry. -/
  | registryRelease (nspace : PackageNamespace) (version : RPackageVersion)
  /-- A commit of a Git repository. -/
  | gitCommit (repository : NormalizedGitUrl) (commit : GitCommitId)
      (subdirectory : Option RepositorySubdir)
  /-- A release of a Bioconductor repository. -/
  | bioconductorRelease (nspace : PackageNamespace) (release : BioconductorRelease)
      (version : RPackageVersion)
  /-- A source named by its content. -/
  | immutableSource (scheme : SourceScheme) (digest : Sha256Digest)
deriving DecidableEq

/-- `Provenance::is_r_base_package`. -/
def Provenance.isRBasePackage : Provenance → Bool
  | .rBasePackage _ => true
  | _ => false

/-- Provenances are compared with their versions as versions. -/
instance : Representative Provenance where
  representative
    | .rBasePackage rVersion => .rBasePackage (representative rVersion)
    | .registryRelease nspace version => .registryRelease nspace (representative version)
    | .gitCommit repository commit subdirectory => .gitCommit repository commit subdirectory
    | .bioconductorRelease nspace release version =>
      .bioconductorRelease nspace release (representative version)
    | .immutableSource scheme digest => .immutableSource scheme digest

/-- `ReleaseIdentity` — the name and provenance of a release. -/
structure ReleaseIdentity where
  /-- The package name. -/
  name : PackageName
  /-- Where the release comes from. -/
  provenance : Provenance
deriving DecidableEq

/-- Identities are compared with their versions as versions. -/
instance : Representative ReleaseIdentity where
  representative identity := ⟨identity.name, representative identity.provenance⟩

/-- Two identities are the same when their names are equal and their provenances are the same. -/
theorem ReleaseIdentity.same_iff {left right : ReleaseIdentity} :
    Same left right ↔ left.name = right.name ∧ Same left.provenance right.provenance := by
  simp [Same, representative]

/-- The same provenance is of an R base package or not. -/
theorem Provenance.isRBasePackage_congr {left right : Provenance} (same : Same left right) :
    left.isRBasePackage = right.isRBasePackage := by
  cases left <;> cases right <;> simp [Same, representative] at same <;> rfl

/-- `UpstreamChecksum` — a checksum published with an artifact. -/
inductive UpstreamChecksum
  | md5 (value : String)
  | sha256 (value : Sha256Digest)
  | other (algorithm value : String)
deriving DecidableEq

/-- `SourceArtifact` — a source archive. -/
structure SourceArtifact where
  /-- Where the archive is. -/
  locator : ArtifactLocator
  /-- The published checksums. -/
  upstreamChecksums : List UpstreamChecksum
  /-- The published size. -/
  size : Option UInt64
deriving DecidableEq

/-- `Artifact` — the first slice has source artifacts only. -/
inductive Artifact
  | source (artifact : SourceArtifact)
deriving DecidableEq

/-- `DistributionMetadata` — fields observed beside an artifact, in key order. -/
@[ext]
structure DistributionMetadata where
  /-- The fields. -/
  fields : List (String × String)
  /-- The keys increase. -/
  ordered : fields.Pairwise (fun left right => compare left.1 right.1 = .lt)
deriving DecidableEq

/-- The public fields of a distribution. -/
structure DistributionFields where
  /-- The registry that distributes the release. -/
  registry : RegistryId
  /-- The channel of the registry. -/
  channel : DistributionChannel
  /-- The snapshot the distribution was seen in. -/
  snapshot : Option SnapshotId
  /-- The distributed artifacts. -/
  artifacts : List Artifact
  /-- The metadata observed beside them. -/
  observedMetadata : DistributionMetadata
deriving DecidableEq

/-- The key of a checksum in `distribution_key`. -/
def checksumKey : UpstreamChecksum → List UInt8
  | .md5 value => tagged 1 (textBytes value)
  | .sha256 value => tagged 2 (textBytes value.text)
  | .other algorithm value => tagged 3 (textBytes algorithm) ++ tagged 4 (textBytes value)

/-- The key of a published size in `distribution_key`. -/
def sizeKey : Option UInt64 → List UInt8
  | some size => tagged 4 [1] ++ tagged 5 (be64 size.toNat)
  | none => tagged 4 [0]

/-- The key of an artifact in `distribution_key`. -/
def artifactKey : Artifact → List UInt8
  | .source artifact =>
    tagged 0 (textBytes "Source") ++ tagged 1 (textBytes artifact.locator.text) ++
      tagged 2 (be64 artifact.upstreamChecksums.length) ++
      artifact.upstreamChecksums.flatMap (fun checksum => tagged 3 (checksumKey checksum)) ++
      sizeKey artifact.size

/-- The key of a snapshot in `distribution_key`. -/
def snapshotKey : Option SnapshotId → List UInt8
  | some snapshot => tagged 3 [1] ++ tagged 4 (textBytes snapshot.text)
  | none => tagged 3 [0]

/-- The key of an observed field in `distribution_key`. -/
def fieldKey (field : String × String) : List UInt8 :=
  tagged 1 (textBytes field.1) ++ tagged 2 (textBytes field.2)

/-- `distribution_key` — the tagged, length-delimited key of every public field. -/
def distributionKey (distribution : DistributionFields) : List UInt8 :=
  tagged 1 (textBytes distribution.registry.text) ++
    tagged 2 (textBytes distribution.channel.text) ++
    snapshotKey distribution.snapshot ++
    tagged 5 (be64 distribution.artifacts.length) ++
    distribution.artifacts.flatMap (fun artifact => tagged 6 (artifactKey artifact)) ++
    tagged 7 (be64 distribution.observedMetadata.fields.length) ++
    distribution.observedMetadata.fields.flatMap (fun field => tagged 8 (fieldKey field))

/-- `Distribution` — one distribution of a release. Its key is built in memory, so the length of the
key fits into eight bytes. -/
structure Distribution extends DistributionFields where
  /-- The key fits into memory. -/
  fits : (distributionKey toDistributionFields).length < lengthBound
deriving DecidableEq

/-- The key of a distribution. -/
def Distribution.key (distribution : Distribution) : List UInt8 :=
  distributionKey distribution.toDistributionFields

/-- A checksum is determined by its key. -/
theorem checksumKey_injective {left right : UpstreamChecksum}
    (leftFits : (checksumKey left).length < lengthBound)
    (rightFits : (checksumKey right).length < lengthBound)
    (equal : checksumKey left = checksumKey right) : left = right := by
  cases left <;> cases right <;>
    simp only [checksumKey, tagged_length, List.length_append] at leftFits rightFits equal
  case md5.md5 =>
    have read := tagged_inj (by omega) (by omega) equal
    rw [textBytes_injective read.2]
  case sha256.sha256 =>
    have read := tagged_inj (by omega) (by omega) equal
    rw [Sha256Digest.ext (textBytes_injective read.2)]
  case other.other =>
    have read := tagged_append_inj (by omega) (by omega) equal
    have last := tagged_inj (by omega) (by omega) read.2.2
    rw [textBytes_injective read.2.1, textBytes_injective last.2]
  all_goals
    simp only [tagged, List.cons_append, List.cons.injEq] at equal
    exact absurd equal.1 (by decide)

/-- An optional size can be read from the front. -/
theorem sizeKey_append_inj {left right : Option UInt64} {leftRest rightRest : List UInt8}
    (equal : sizeKey left ++ leftRest = sizeKey right ++ rightRest) :
    left = right ∧ leftRest = rightRest := by
  have short : ∀ byte : UInt8, [byte].length < lengthBound := fun _ => by simp [lengthBound]
  have eight : ∀ number, (be64 number).length < lengthBound := fun _ => by simp [lengthBound]
  cases left <;> cases right <;> simp only [sizeKey, List.append_assoc] at equal
  case none.none =>
    exact ⟨rfl, (tagged_append_inj (short 0) (short 0) equal).2.2⟩
  case some.some first second =>
    have flags := tagged_append_inj (short 1) (short 1) equal
    have sizes := tagged_append_inj (eight _) (eight _) flags.2.2
    have numbers := be64_injective first.toNat_lt second.toNat_lt sizes.2.1
    exact ⟨by rw [UInt64.toNat_inj.mp numbers], sizes.2.2⟩
  case none.some =>
    exact absurd (tagged_append_inj (short 0) (short 1) equal).2.1 (by decide)
  case some.none =>
    exact absurd (tagged_append_inj (short 1) (short 0) equal).2.1 (by decide)

/-- An optional snapshot can be read from the front. -/
theorem snapshotKey_append_inj {left right : Option SnapshotId} {leftRest rightRest : List UInt8}
    (leftFits : (snapshotKey left).length < lengthBound)
    (rightFits : (snapshotKey right).length < lengthBound)
    (equal : snapshotKey left ++ leftRest = snapshotKey right ++ rightRest) :
    left = right ∧ leftRest = rightRest := by
  have short : ∀ byte : UInt8, [byte].length < lengthBound := fun _ => by simp [lengthBound]
  cases left <;> cases right <;>
    simp only [snapshotKey, List.append_assoc, List.length_append, tagged_length] at leftFits rightFits equal
  case none.none =>
    exact ⟨rfl, (tagged_append_inj (short 0) (short 0) equal).2.2⟩
  case some.some first second =>
    have flags := tagged_append_inj (short 1) (short 1) equal
    have texts := tagged_append_inj (by omega) (by omega) flags.2.2
    exact ⟨by rw [Identifier.ext (textBytes_injective texts.2.1)], texts.2.2⟩
  case none.some =>
    exact absurd (tagged_append_inj (short 0) (short 1) equal).2.1 (by decide)
  case some.none =>
    exact absurd (tagged_append_inj (short 1) (short 0) equal).2.1 (by decide)

/-- An artifact is determined by its key. -/
theorem artifactKey_injective {left right : Artifact}
    (leftFits : (artifactKey left).length < lengthBound)
    (rightFits : (artifactKey right).length < lengthBound)
    (equal : artifactKey left = artifactKey right) : left = right := by
  obtain ⟨⟨leftLocator, leftChecksums, leftSize⟩⟩ := left
  obtain ⟨⟨rightLocator, rightChecksums, rightSize⟩⟩ := right
  simp only [artifactKey, List.append_assoc, List.length_append, tagged_length] at leftFits rightFits equal
  have kinds := tagged_append_inj (by omega) (by omega) equal
  have locators := tagged_append_inj (by omega) (by omega) kinds.2.2
  have checksums := countedItems_append_inj (by omega) (by omega)
    (fun _ _ => checksumKey_injective) locators.2.2
  have sizes := sizeKey_append_inj (congrArg (· ++ ([] : List UInt8)) checksums.2)
  rw [Identifier.ext (textBytes_injective locators.2.1), checksums.1, sizes.1]

/-- A field is determined by its key. -/
theorem fieldKey_injective {left right : String × String}
    (leftFits : (fieldKey left).length < lengthBound)
    (rightFits : (fieldKey right).length < lengthBound)
    (equal : fieldKey left = fieldKey right) : left = right := by
  simp only [fieldKey, List.length_append, tagged_length] at leftFits rightFits equal
  have keys := tagged_append_inj (by omega) (by omega) equal
  have values := tagged_inj (by omega) (by omega) keys.2.2
  exact Prod.ext (textBytes_injective keys.2.1) (textBytes_injective values.2)

/-- The fields of a distribution are determined by a key that fits into memory. -/
theorem distributionKey_injective {left right : DistributionFields}
    (leftFits : (distributionKey left).length < lengthBound)
    (rightFits : (distributionKey right).length < lengthBound)
    (equal : distributionKey left = distributionKey right) : left = right := by
  obtain ⟨leftRegistry, leftChannel, leftSnapshot, leftArtifacts, leftMetadata⟩ := left
  obtain ⟨rightRegistry, rightChannel, rightSnapshot, rightArtifacts, rightMetadata⟩ := right
  simp only [distributionKey, List.append_assoc, List.length_append, tagged_length]
    at leftFits rightFits equal
  have registries := tagged_append_inj (by omega) (by omega) equal
  have channels := tagged_append_inj (by omega) (by omega) registries.2.2
  have snapshots := snapshotKey_append_inj (by omega) (by omega) channels.2.2
  have artifacts := countedItems_append_inj (by omega) (by omega)
    (fun _ _ => artifactKey_injective) snapshots.2
  have last : tagged 7 (be64 leftMetadata.fields.length) ++
        (leftMetadata.fields.flatMap (fun field => tagged 8 (fieldKey field)) ++ []) =
      tagged 7 (be64 rightMetadata.fields.length) ++
        (rightMetadata.fields.flatMap (fun field => tagged 8 (fieldKey field)) ++ []) := by
    simpa using artifacts.2
  have fields := countedItems_append_inj (by omega) (by omega) (fun _ _ => fieldKey_injective) last
  rw [Identifier.ext (textBytes_injective registries.2.1),
    Identifier.ext (textBytes_injective channels.2.1), snapshots.1, artifacts.1,
    DistributionMetadata.ext fields.1]

/-- A distribution is determined by its key. -/
theorem Distribution.key_injective {left right : Distribution} (equal : left.key = right.key) :
    left = right := by
  have fields := distributionKey_injective left.fits right.fits equal
  cases left
  cases right
  cases fields
  rfl

/-- Distributions are ordered by their keys. -/
def compareDistributions : Distribution → Distribution → Ordering :=
  compareOn Distribution.key

/-- The order of distributions is lawful. -/
instance : Std.TransCmp compareDistributions :=
  inferInstanceAs (Std.TransCmp (compareOn Distribution.key))

/-- `canonicalize_distributions` — sort by key and keep one distribution of every key. -/
def canonicalizeDistributions (distributions : List Distribution) : List Distribution :=
  Sorting.dedupBy (fun left right => left.key == right.key)
    (Sorting.sortBy compareDistributions distributions)

/-- Canonicalization is the canonical list of the key order. -/
theorem canonicalizeDistributions_eq (distributions : List Distribution) :
    canonicalizeDistributions distributions =
      Sorting.canonical compareDistributions Sorting.noTie distributions := by
  have tested : (fun left right => left.key == right.key) =
      fun left right => compareDistributions left right == .eq := by
    funext left right
    rw [Bool.eq_iff_iff, beq_iff_eq, beq_iff_eq]
    exact Std.LawfulEqOrd.compare_eq_iff_eq.symm
  rw [canonicalizeDistributions, Sorting.canonical, Sorting.compareLex_noTie, tested]

/-- A list of distributions in canonical order, without repetitions. -/
def DistributionsCanonical (distributions : List Distribution) : Prop :=
  distributions.Pairwise (fun left right => compareDistributions left right = .lt)

/-- Canonicalization produces a canonical list. -/
theorem canonicalizeDistributions_canonical (distributions : List Distribution) :
    DistributionsCanonical (canonicalizeDistributions distributions) := by
  rw [canonicalizeDistributions_eq]
  exact Sorting.canonical_strict _ _ distributions

/-- Canonicalization only keeps distributions of its input. -/
theorem mem_of_mem_canonicalizeDistributions {distributions : List Distribution}
    {distribution : Distribution} (member : distribution ∈ canonicalizeDistributions distributions) :
    distribution ∈ distributions := by
  rw [canonicalizeDistributions_eq] at member
  exact Sorting.mem_of_mem_canonical _ _ member

/-- Canonicalization keeps every distribution. -/
@[simp]
theorem mem_canonicalizeDistributions {distributions : List Distribution}
    {distribution : Distribution} :
    distribution ∈ canonicalizeDistributions distributions ↔ distribution ∈ distributions := by
  refine ⟨mem_of_mem_canonicalizeDistributions, fun member => ?_⟩
  rw [canonicalizeDistributions_eq]
  obtain ⟨kept, keptIn, equal⟩ :=
    Sorting.exists_mem_canonical compareDistributions Sorting.noTie member
  have keys : distribution.key = kept.key := Std.LawfulEqOrd.compare_eq_iff_eq.mp equal
  rw [Distribution.key_injective keys]
  exact keptIn

/-- A list with exactly the elements of a canonical list canonicalizes to it. -/
theorem canonicalizeDistributions_eq_of_mem {distributions canonical : List Distribution}
    (ordered : DistributionsCanonical canonical)
    (same : ∀ distribution, distribution ∈ distributions ↔ distribution ∈ canonical) :
    canonicalizeDistributions distributions = canonical := by
  rw [canonicalizeDistributions_eq]
  exact Sorting.canonical_eq_of_strict _ _ ordered same

/-- What it is for a function to put lists of distributions into a canonical form. -/
structure CanonicalizesExactly (canonicalize : List Distribution → List Distribution) : Prop where
  /-- Nothing is repeated. -/
  nodup : ∀ distributions, (canonicalize distributions).Nodup
  /-- Nothing is lost and nothing is added. -/
  exact : ∀ distributions distribution,
    distribution ∈ canonicalize distributions ↔ distribution ∈ distributions
  /-- Lists of the same distributions have one form, whatever their order and repetitions. -/
  setwise : ∀ left right : List Distribution,
    (∀ distribution, distribution ∈ left ↔ distribution ∈ right) →
      canonicalize left = canonicalize right
  /-- A form is its own form. -/
  idempotent : ∀ distributions,
    canonicalize (canonicalize distributions) = canonicalize distributions

/-- A list in canonical order has no repetitions. -/
theorem DistributionsCanonical.nodup {distributions : List Distribution}
    (canonical : DistributionsCanonical distributions) : distributions.Nodup := by
  refine canonical.imp ?_
  rintro left right less rfl
  have same : compareDistributions left left = .eq := Std.ReflCmp.compare_self
  rw [same] at less
  cases less

/-- Keys tell distributions apart, so canonicalization by keys is exact. -/
theorem canonicalizeDistributions_exact :
    Function.Injective Distribution.key ∧ CanonicalizesExactly canonicalizeDistributions where
  left := fun _ _ => Distribution.key_injective
  right :=
    { nodup := fun distributions => (canonicalizeDistributions_canonical distributions).nodup
      exact := fun _ _ => mem_canonicalizeDistributions
      setwise := by
        intro left right same
        refine canonicalizeDistributions_eq_of_mem (canonicalizeDistributions_canonical right) ?_
        intro distribution
        rw [same, mem_canonicalizeDistributions]
      idempotent := fun distributions =>
        canonicalizeDistributions_eq_of_mem (canonicalizeDistributions_canonical distributions)
          fun _ => Iff.rfl }

end Rsolve
