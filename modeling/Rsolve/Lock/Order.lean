import Rsolve.Lock.Model

/-!
# The order of locked packages

Identities are ordered by name and then by provenance. Provenances of one kind are ordered by their
fields in turn, so the order is the lexicographic order of the fields of all kinds, where a field
that a kind lacks has one value. Versions enter as versions, so the order does not see their
spelling.
-/
open Keyed

namespace Rsolve

namespace Provenance

/-- The registry, repository or scheme of a provenance. -/
def origin : Provenance → String
  | .rBasePackage _ => ""
  | .registryRelease nspace _ => nspace.text
  | .gitCommit repository _ _ => repository.text
  | .bioconductorRelease nspace _ _ => nspace.text
  | .immutableSource scheme _ => scheme.text

/-- The hash algorithm of a provenance. -/
def hash : Provenance → Nat
  | .gitCommit _ commit _ => hashRank commit.algorithm
  | _ => 0

/-- The commit, release or digest of a provenance. -/
def point : Provenance → String
  | .gitCommit _ commit _ => commit.hex
  | .bioconductorRelease _ release _ => release.text
  | .immutableSource _ digest => digest.text
  | _ => ""

/-- The directory of a provenance. -/
def directory : Provenance → Option String
  | .gitCommit _ _ subdirectory => subdirectory.map RepositorySubdir.text
  | _ => none

/-- The version of a provenance, as comparison reads it. -/
def versionKey : Provenance → List Nat
  | .rBasePackage rVersion => rVersion.key
  | .registryRelease _ version => version.key
  | .bioconductorRelease _ _ version => version.key
  | _ => []

end Provenance

/-- Provenances are ordered by their fields in turn. -/
theorem compareProvenances_eq :
    compareProvenances = compareLex (compareOn provenanceRank)
      (compareLex (compareOn Provenance.origin) (compareLex (compareOn Provenance.hash)
        (compareLex (compareOn Provenance.point) (compareLex (compareOn Provenance.directory)
          (compareOn Provenance.versionKey))))) := by
  funext left right
  cases left <;> cases right <;>
    simp [compareProvenances, compareLex, compareOn, compareCommits, compareSubdirectories,
      provenanceRank, Provenance.origin, Provenance.hash, Provenance.point, Provenance.directory,
      Provenance.versionKey, RPackageVersion.cmp, Ordering.then_assoc]
  all_goals rfl

/-- The order of provenances is a lawful comparator. -/
instance : Std.TransCmp compareProvenances := by
  rw [compareProvenances_eq]
  infer_instance

/-- Identities are ordered by name and then by provenance. -/
theorem compareIdentities_eq :
    compareIdentities = compareLex (compareOn ReleaseIdentity.name)
      (fun left right => compareProvenances left.provenance right.provenance) :=
  rfl

/-- The order of identities is a lawful comparator. -/
instance : Std.TransCmp compareIdentities := by
  rw [compareIdentities_eq]
  have provenances : Std.TransCmp (fun left right : ReleaseIdentity =>
      compareProvenances left.provenance right.provenance) :=
    { eq_swap := Std.OrientedCmp.eq_swap
      isLE_trans := Std.TransCmp.isLE_trans }
  infer_instance

/-- Hash algorithms are told apart by their rank. -/
theorem hashRank_injective {left right : GitHashAlgorithm} (equal : hashRank left = hashRank right) :
    left = right := by
  cases left <;> cases right <;> first | rfl | cases equal

/-- Subdirectories are told apart by their paths. -/
theorem subdirectory_injective {left right : Option RepositorySubdir}
    (equal : left.map RepositorySubdir.text = right.map RepositorySubdir.text) : left = right :=
  Option.map_injective (fun _ _ => RepositorySubdir.ext) equal

/-- The representative of a version has its key. -/
theorem RPackageVersion.key_representative (version : RPackageVersion) :
    (representative version).key = version.key := by
  rw [RPackageVersion.key_eq]
  simp only [representative, RPackageVersion.values, Components.toList_fromVec]
  exact RPackageVersion.trimZeros_keySpelling version

/-- Provenances compare equal exactly when they are the same. -/
theorem compareProvenances_eq_iff {left right : Provenance} :
    compareProvenances left right = .eq ↔ Same left right := by
  rw [compareProvenances_eq]
  simp only [compareLex_eq_eq, compareOn, Std.LawfulEqOrd.compare_eq_iff_eq]
  constructor
  · rintro ⟨rank, origin, hash, point, directory, versions⟩
    cases left with
    | rBasePackage first =>
      cases right with
      | rBasePackage second =>
        exact congrArg Provenance.rBasePackage (RPackageVersion.same_iff.mpr versions)
      | _ => exact absurd rank (by simp [provenanceRank])
    | registryRelease nspace first =>
      cases right with
      | registryRelease other second =>
        obtain rfl := Identifier.ext origin
        exact congrArg (Provenance.registryRelease nspace) (RPackageVersion.same_iff.mpr versions)
      | _ => exact absurd rank (by simp [provenanceRank])
    | gitCommit repository commit subdirectory =>
      cases right with
      | gitCommit otherRepository otherCommit otherSubdirectory =>
        obtain rfl := NormalizedGitUrl.ext origin
        obtain rfl := GitCommitId.ext (hashRank_injective hash) point
        obtain rfl := subdirectory_injective directory
        exact Same.refl _
      | _ => exact absurd rank (by simp [provenanceRank])
    | bioconductorRelease nspace release first =>
      cases right with
      | bioconductorRelease other otherRelease second =>
        obtain rfl := Identifier.ext origin
        obtain rfl := Identifier.ext point
        exact congrArg (Provenance.bioconductorRelease nspace release)
          (RPackageVersion.same_iff.mpr versions)
      | _ => exact absurd rank (by simp [provenanceRank])
    | immutableSource scheme digest =>
      cases right with
      | immutableSource otherScheme otherDigest =>
        obtain rfl := Identifier.ext origin
        obtain rfl := Sha256Digest.ext point
        exact Same.refl _
      | _ => exact absurd rank (by simp [provenanceRank])
  · -- every field is a field of the representative
    intro same
    have fields : ∀ provenance : Provenance,
        provenanceRank (representative provenance) = provenanceRank provenance ∧
        (representative provenance).origin = provenance.origin ∧
        (representative provenance).hash = provenance.hash ∧
        (representative provenance).point = provenance.point ∧
        (representative provenance).directory = provenance.directory ∧
        (representative provenance).versionKey = provenance.versionKey := by
      intro provenance
      cases provenance with
      | rBasePackage version => exact ⟨rfl, rfl, rfl, rfl, rfl, version.key_representative⟩
      | registryRelease _ version => exact ⟨rfl, rfl, rfl, rfl, rfl, version.key_representative⟩
      | gitCommit _ _ _ => exact ⟨rfl, rfl, rfl, rfl, rfl, rfl⟩
      | bioconductorRelease _ _ version =>
        exact ⟨rfl, rfl, rfl, rfl, rfl, version.key_representative⟩
      | immutableSource _ _ => exact ⟨rfl, rfl, rfl, rfl, rfl, rfl⟩
    have leftFields := fields left
    have rightFields := fields right
    rw [show representative left = representative right from same] at leftFields
    obtain ⟨rank, origin, hash, point, directory, versions⟩ := leftFields
    obtain ⟨rank', origin', hash', point', directory', versions'⟩ := rightFields
    exact ⟨rank.symm.trans rank', origin.symm.trans origin', hash.symm.trans hash',
      point.symm.trans point', directory.symm.trans directory', versions.symm.trans versions'⟩

/-- Identities compare equal exactly when they are the same. -/
theorem compareIdentities_eq_iff {left right : ReleaseIdentity} :
    compareIdentities left right = .eq ↔ Same left right := by
  rw [compareIdentities_eq, compareLex_eq_eq, compareOn, Std.LawfulEqOrd.compare_eq_iff_eq,
    compareProvenances_eq_iff, ReleaseIdentity.same_iff]

end Rsolve
