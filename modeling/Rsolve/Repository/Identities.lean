import Rsolve.Core.Digest
import Rsolve.Repository.Records

/-!
# The keys of identities

The key of an identity puts its parts one after the other with separators between them. A version
has no at sign and an object id no colon, so most keys can be taken apart; but the URL of a
repository and a subdirectory may both contain what stands between them, and so may a Bioconductor
namespace and release. Those are the only identities that share a key.
-/
open Keyed

namespace Rsolve

section Separators

variable {α : Type} {separator : α} {left right first second : List α}

/-- What stands after the last separator can be told. -/
theorem split_last (bare : separator ∉ first) (bare' : separator ∉ second)
    (equal : left ++ separator :: first = right ++ separator :: second) :
    left = right ∧ first = second := by
  rcases List.append_eq_append_iff.mp equal with ⟨more, rfl, rest⟩ | ⟨more, rfl, rest⟩
  · cases more with
    | nil =>
      rw [List.nil_append, List.cons.injEq] at rest
      exact ⟨(List.append_nil left).symm, rest.2⟩
    | cons head more =>
      rw [List.cons_append, List.cons.injEq] at rest
      refine absurd ?_ bare
      rw [rest.2]
      exact List.mem_append_right _ List.mem_cons_self
  · cases more with
    | nil =>
      rw [List.nil_append, List.cons.injEq] at rest
      exact ⟨List.append_nil right, rest.2.symm⟩
    | cons head more =>
      rw [List.cons_append, List.cons.injEq] at rest
      refine absurd ?_ bare'
      rw [rest.2]
      exact List.mem_append_right _ List.mem_cons_self

/-- What stands before the first separator can be told. -/
theorem split_first (bare : separator ∉ left) (bare' : separator ∉ right)
    (equal : left ++ separator :: first = right ++ separator :: second) :
    left = right ∧ first = second := by
  have reversed := congrArg List.reverse equal
  simp only [List.reverse_append, List.reverse_cons, List.append_assoc, List.singleton_append]
    at reversed
  have parts := split_last (by rwa [List.mem_reverse]) (by rwa [List.mem_reverse]) reversed
  exact ⟨List.reverse_injective parts.2, List.reverse_injective parts.1⟩

/-- Where the separators may be anywhere, one text is split behind the other. -/
theorem split_somewhere (equal : left ++ separator :: first = right ++ separator :: second) :
    (left = right ∧ first = second) ∨
      (∃ middle, right = left ++ separator :: middle ∧ first = middle ++ separator :: second) ∨
      ∃ middle, left = right ++ separator :: middle ∧ second = middle ++ separator :: first := by
  rcases List.append_eq_append_iff.mp equal with ⟨more, rfl, rest⟩ | ⟨more, rfl, rest⟩
  · cases more with
    | nil =>
      rw [List.nil_append, List.cons.injEq] at rest
      exact .inl ⟨(List.append_nil left).symm, rest.2⟩
    | cons head more =>
      rw [List.cons_append, List.cons.injEq] at rest
      obtain ⟨rfl, rest⟩ := rest
      exact .inr (.inl ⟨more, rfl, rest⟩)
  · cases more with
    | nil =>
      rw [List.nil_append, List.cons.injEq] at rest
      exact .inl ⟨List.append_nil right, rest.2.symm⟩
    | cons head more =>
      rw [List.cons_append, List.cons.injEq] at rest
      obtain ⟨rfl, rest⟩ := rest
      exact .inr (.inr ⟨more, rfl, rest⟩)

end Separators

/-- A commit between its separators is split behind another one only in the text after that one. -/
theorem split_commit {left right : List Char} {leftHex rightHex first second : List Char}
    (bare : '@' ∉ leftHex) {middle : List Char} (behind : right = left ++ '@' :: middle)
    (rest : leftHex ++ ':' :: first = middle ++ '@' :: (rightHex ++ ':' :: second)) :
    ∃ more, right = left ++ '@' :: (leftHex ++ ':' :: more) ∧
      first = more ++ '@' :: (rightHex ++ ':' :: second) := by
  rcases List.append_eq_append_iff.mp rest with ⟨more, rfl, tail⟩ | ⟨more, rfl, tail⟩
  · cases more with
    | nil =>
      rw [List.nil_append, List.cons.injEq] at tail
      exact absurd tail.1 (by decide)
    | cons head more =>
      rw [List.cons_append, List.cons.injEq] at tail
      obtain ⟨rfl, tail⟩ := tail
      exact ⟨more, behind, tail⟩
  · cases more with
    | nil =>
      rw [List.nil_append, List.cons.injEq] at tail
      exact absurd tail.1 (by decide)
    | cons head more =>
      rw [List.cons_append, List.cons.injEq] at tail
      obtain ⟨rfl, -⟩ := tail
      exact absurd (List.mem_append_right _ List.mem_cons_self) bare

/-- The subdirectory in a key. -/
def subdirectoryText (subdirectory : Option RepositorySubdir) : String :=
  (subdirectory.map RepositorySubdir.text).getD ""

/-- The parts of two identities stand on both sides of each other's separators: the URL or the
namespace of the one goes on where that of the other ends. -/
def Straddles (left right : ReleaseIdentity) : Prop :=
  match left.provenance, right.provenance with
  | .gitCommit leftUrl leftCommit leftPath, .gitCommit rightUrl rightCommit rightPath =>
    ∃ middle : String,
      rightUrl.text = leftUrl.text ++ "@" ++ leftCommit.hex ++ ":" ++ middle ∧
        subdirectoryText leftPath =
          middle ++ "@" ++ rightCommit.hex ++ ":" ++ subdirectoryText rightPath
  | .bioconductorRelease leftSpace leftRelease leftVersion,
    .bioconductorRelease rightSpace rightRelease rightVersion =>
    leftVersion.raw = rightVersion.raw ∧ ∃ middle : String,
      rightSpace.text = leftSpace.text ++ ":" ++ middle ∧
        leftRelease.text = middle ++ ":" ++ rightRelease.text
  | _, _ => False

/-- Versions with one spelling are the same. -/
theorem RPackageVersion.same_of_raw {left right : RPackageVersion} (equal : left.raw = right.raw) :
    Same left right := by
  have spelled := left.spelled
  rw [equal, right.spelled, Except.ok.injEq] at spelled
  rw [RPackageVersion.same_iff, key_eq, key_eq]
  exact congrArg trimZeros spelled.symm

/-- No character of a version is an at sign. -/
theorem RPackageVersion.raw_no_at (version : RPackageVersion) : '@' ∉ version.raw.toList :=
  fun member => absurd (RPackageVersion.mem_raw member) (by decide)

/-- A text of hexadecimal digits has no separators. -/
theorem hex_bare {text : String} (digits : text.toList.all isHexDigit = true) :
    '@' ∉ text.toList ∧ ':' ∉ text.toList := by
  constructor
  all_goals
    intro member
    exact absurd (List.all_eq_true.mp digits _ member) (by decide)

/-- An object id is made of hexadecimal digits. -/
theorem GitCommitId.hex_digits (commit : GitCommitId) : commit.hex.toList.all isHexDigit = true := by
  have read := commit.valid
  unfold GitCommitId.read at read
  split at read
  · cases read
  · split at read
    · cases read
    · next digits => simpa using digits

/-- A digest is made of hexadecimal digits. -/
theorem Sha256Digest.text_digits (digest : Sha256Digest) :
    digest.text.toList.all isHexDigit = true := by
  have read := digest.valid
  unfold Sha256Digest.read at read
  split at read
  · cases read
  · split at read
    · cases read
    · next digits => simpa using digits

/-- A subdirectory is determined by its text in a key. -/
theorem subdirectoryText_injective {left right : Option RepositorySubdir}
    (equal : subdirectoryText left = subdirectoryText right) : left = right := by
  have nonempty : ∀ path : RepositorySubdir, path.text ≠ "" := by
    intro path empty
    have valid := path.valid
    rw [empty] at valid
    exact absurd valid (by decide)
  cases left with
  | none =>
    cases right with
    | none => rfl
    | some right => exact absurd equal.symm (nonempty right)
  | some left =>
    cases right with
    | none => exact absurd equal (nonempty left)
    | some right => exact congrArg some (RepositorySubdir.ext equal)

/-- The beginning of a key tells the kind of the provenance. -/
def provenanceKind : Provenance → Nat
  | .rBasePackage _ => 0
  | .registryRelease _ _ => 1
  | .gitCommit _ _ _ => 2
  | .bioconductorRelease _ _ _ => 3
  | .immutableSource _ _ => 4

/-- Identities with one key have one kind of provenance. -/
theorem provenanceKind_of_identityKey {left right : ReleaseIdentity}
    (equal : Materialization.identityKey left = Materialization.identityKey right) :
    provenanceKind left.provenance = provenanceKind right.provenance := by
  have beginning := congrArg (fun key : String => key.toList.take 2) equal
  obtain ⟨leftName, leftProvenance⟩ := left
  obtain ⟨rightName, rightProvenance⟩ := right
  cases leftProvenance <;> cases rightProvenance <;>
    first
    | rfl
    | exact absurd beginning (by simp [Materialization.identityKey])

/-- A version at the end can be told. -/
theorem split_version {before before' : String} {version version' : RPackageVersion}
    (equal : before ++ "@" ++ version.raw = before' ++ "@" ++ version'.raw) :
    before = before' ∧ version.raw = version'.raw := by
  have texts := congrArg String.toList equal
  simp only [String.toList_append, List.append_assoc] at texts
  have parts := split_last version.raw_no_at version'.raw_no_at texts
  exact ⟨String.toList_inj.mp parts.1, String.toList_inj.mp parts.2⟩

/-- What stands between one beginning and one end is equal in equal texts. -/
theorem cancel_both {start text text' finish : String}
    (equal : start ++ text ++ finish = start ++ text' ++ finish) : text = text' := by
  have texts := congrArg String.toList equal
  simp only [String.toList_append, List.append_cancel_right_eq, List.append_cancel_left_eq] at texts
  exact String.toList_inj.mp texts

/-- Two commits with one text between them are equal or straddle. -/
theorem split_git {leftUrl rightUrl : NormalizedGitUrl} {leftCommit rightCommit : GitCommitId}
    {leftPath rightPath : String}
    (equal : leftUrl.text ++ "@" ++ leftCommit.hex ++ ":" ++ leftPath =
      rightUrl.text ++ "@" ++ rightCommit.hex ++ ":" ++ rightPath) :
    (leftUrl = rightUrl ∧ leftCommit = rightCommit ∧ leftPath = rightPath) ∨
      (∃ middle : String, rightUrl.text = leftUrl.text ++ "@" ++ leftCommit.hex ++ ":" ++ middle ∧
        leftPath = middle ++ "@" ++ rightCommit.hex ++ ":" ++ rightPath) ∨
      ∃ middle : String, leftUrl.text = rightUrl.text ++ "@" ++ rightCommit.hex ++ ":" ++ middle ∧
        rightPath = middle ++ "@" ++ leftCommit.hex ++ ":" ++ leftPath := by
  have leftBare := hex_bare leftCommit.hex_digits
  have rightBare := hex_bare rightCommit.hex_digits
  have texts := congrArg String.toList equal
  simp only [String.toList_append, List.append_assoc] at texts
  have back : ∀ {middle : List Char} {url path url' path' : String} {hex hex' : String},
      url'.toList = url.toList ++ '@' :: (hex.toList ++ ':' :: middle) →
      path.toList = middle ++ '@' :: (hex'.toList ++ ':' :: path'.toList) →
      ∃ middle : String, url' = url ++ "@" ++ hex ++ ":" ++ middle ∧
        path = middle ++ "@" ++ hex' ++ ":" ++ path' := by
    intro middle url path url' path' hex hex' urls paths
    refine ⟨String.ofList middle, String.toList_inj.mp ?_, String.toList_inj.mp ?_⟩
    · simpa using urls
    · simpa using paths
  rcases split_somewhere texts with ⟨urls, rest⟩ | ⟨middle, behind, rest⟩ | ⟨middle, behind, rest⟩
  · obtain ⟨commits, paths⟩ := split_first leftBare.2 rightBare.2 rest
    exact .inl ⟨NormalizedGitUrl.ext (String.toList_inj.mp urls),
      GitCommitId.hex_injective (String.toList_inj.mp commits), String.toList_inj.mp paths⟩
  · obtain ⟨more, urls, paths⟩ := split_commit leftBare.1 behind rest
    exact .inr (.inl (back urls paths))
  · obtain ⟨more, urls, paths⟩ := split_commit rightBare.1 behind rest
    exact .inr (.inr (back urls paths))

/-- Two Bioconductor releases with one text between them are equal or straddle. -/
theorem split_bioconductor {leftSpace rightSpace : PackageNamespace}
    {leftRelease rightRelease : BioconductorRelease}
    (equal : leftSpace.text ++ ":" ++ leftRelease.text = rightSpace.text ++ ":" ++ rightRelease.text) :
    (leftSpace = rightSpace ∧ leftRelease = rightRelease) ∨
      (∃ middle : String, rightSpace.text = leftSpace.text ++ ":" ++ middle ∧
        leftRelease.text = middle ++ ":" ++ rightRelease.text) ∨
      ∃ middle : String, leftSpace.text = rightSpace.text ++ ":" ++ middle ∧
        rightRelease.text = middle ++ ":" ++ leftRelease.text := by
  have texts := congrArg String.toList equal
  simp only [String.toList_append, List.append_assoc] at texts
  have back : ∀ {middle : List Char} {space space' release release' : String},
      space'.toList = space.toList ++ ':' :: middle →
      release.toList = middle ++ ':' :: release'.toList →
      ∃ middle : String, space' = space ++ ":" ++ middle ∧ release = middle ++ ":" ++ release' := by
    intro middle space space' release release' spaces releases
    refine ⟨String.ofList middle, String.toList_inj.mp ?_, String.toList_inj.mp ?_⟩
    · simpa using spaces
    · simpa using releases
  rcases split_somewhere texts with ⟨spaces, releases⟩ | ⟨middle, spaces, releases⟩ |
    ⟨middle, spaces, releases⟩
  · exact .inl ⟨Identifier.ext (String.toList_inj.mp spaces),
      Identifier.ext (String.toList_inj.mp releases)⟩
  · exact .inr (.inl (back spaces releases))
  · exact .inr (.inr (back spaces releases))

/-- Identities with one key are the same, or their parts straddle the separators. -/
theorem same_or_straddles {left right : ReleaseIdentity}
    (equal : Materialization.identityKey left = Materialization.identityKey right) :
    Same left right ∨ Straddles left right ∨ Straddles right left := by
  have names := name_eq_of_identityKey equal
  have kinds := provenanceKind_of_identityKey equal
  obtain ⟨leftName, leftProvenance⟩ := left
  obtain ⟨rightName, rightProvenance⟩ := right
  obtain rfl : leftName = rightName := names
  rw [ReleaseIdentity.same_iff]
  cases leftProvenance <;> cases rightProvenance <;>
    first
    | (simp [provenanceKind] at kinds; done)
    | skip
  case rBasePackage.rBasePackage leftVersion rightVersion =>
    have versions := RPackageVersion.same_of_raw (split_version equal).2
    exact .inl ⟨rfl, congrArg Provenance.rBasePackage versions⟩
  case registryRelease.registryRelease leftSpace leftVersion rightSpace rightVersion =>
    obtain ⟨before, raws⟩ := split_version equal
    have spaces : leftSpace.text = rightSpace.text := by
      refine @cancel_both "registry:" _ _ ("::" ++ leftName.text) ?_
      simpa only [String.append_assoc] using before
    obtain rfl : leftSpace = rightSpace := Identifier.ext spaces
    exact .inl ⟨rfl, congrArg (Provenance.registryRelease leftSpace)
      (RPackageVersion.same_of_raw raws)⟩
  case gitCommit.gitCommit leftUrl leftCommit leftPath rightUrl rightCommit rightPath =>
    have parts : leftUrl.text ++ "@" ++ leftCommit.hex ++ ":" ++ subdirectoryText leftPath =
        rightUrl.text ++ "@" ++ rightCommit.hex ++ ":" ++ subdirectoryText rightPath := by
      refine @cancel_both "git:" _ _ ("::" ++ leftName.text) ?_
      simpa only [Materialization.identityKey, subdirectoryText, String.append_assoc] using equal
    rcases split_git parts with ⟨rfl, rfl, paths⟩ | straddles | straddles
    · exact .inl ⟨rfl, by rw [subdirectoryText_injective paths]; rfl⟩
    · exact .inr (.inl straddles)
    · exact .inr (.inr straddles)
  case bioconductorRelease.bioconductorRelease leftSpace leftRelease leftVersion rightSpace
      rightRelease rightVersion =>
    obtain ⟨before, raws⟩ := split_version equal
    have parts : leftSpace.text ++ ":" ++ leftRelease.text =
        rightSpace.text ++ ":" ++ rightRelease.text := by
      refine @cancel_both "bioconductor:" _ _ ("::" ++ leftName.text) ?_
      simpa only [String.append_assoc] using before
    rcases split_bioconductor parts with ⟨rfl, rfl⟩ | straddles | straddles
    · exact .inl ⟨rfl, congrArg (Provenance.bioconductorRelease leftSpace leftRelease)
        (RPackageVersion.same_of_raw raws)⟩
    · exact .inr (.inl ⟨raws, straddles⟩)
    · exact .inr (.inr ⟨raws.symm, straddles⟩)
  case immutableSource.immutableSource leftScheme leftDigest rightScheme rightDigest =>
    have parts : leftScheme.text ++ ":" ++ leftDigest.text =
        rightScheme.text ++ ":" ++ rightDigest.text := by
      refine @cancel_both "immutable:" _ _ ("::" ++ leftName.text) ?_
      simpa only [Materialization.identityKey, String.append_assoc] using equal
    have texts := congrArg String.toList parts
    simp only [String.toList_append, List.append_assoc] at texts
    have both := split_last (hex_bare leftDigest.text_digits).2 (hex_bare rightDigest.text_digits).2
      texts
    obtain rfl : leftScheme = rightScheme := Identifier.ext (String.toList_inj.mp both.1)
    obtain rfl : leftDigest = rightDigest := Sha256Digest.ext (String.toList_inj.mp both.2)
    exact .inl ⟨rfl, rfl⟩

/-- A text does not go on behind itself. -/
theorem ne_append_of_nonempty {text more : String} (nonempty : 0 < more.toList.length) :
    text ++ more ≠ text := by
  intro equal
  have lengths := congrArg (fun text : String => text.toList.length) equal
  simp only [String.toList_append, List.length_append] at lengths
  omega

/-- Identities of one package whose parts straddle the separators share a key and differ. -/
theorem Straddles.collides {left right : ReleaseIdentity} (names : left.name = right.name)
    (straddles : Straddles left right) :
    Materialization.identityKey left = Materialization.identityKey right ∧ ¬ Same left right := by
  obtain ⟨leftName, leftProvenance⟩ := left
  obtain ⟨rightName, rightProvenance⟩ := right
  obtain rfl : leftName = rightName := names
  rw [ReleaseIdentity.same_iff]
  cases leftProvenance <;> cases rightProvenance <;> try exact absurd straddles id
  case gitCommit.gitCommit leftUrl leftCommit leftPath rightUrl rightCommit rightPath =>
    obtain ⟨middle, urls, paths⟩ := straddles
    constructor
    · change "git:" ++ leftUrl.text ++ "@" ++ leftCommit.hex ++ ":" ++ subdirectoryText leftPath ++
        "::" ++ leftName.text = "git:" ++ rightUrl.text ++ "@" ++ rightCommit.hex ++ ":" ++
          subdirectoryText rightPath ++ "::" ++ leftName.text
      rw [urls, paths]
      simp only [String.append_assoc]
    · rintro ⟨-, same⟩
      have repositories : leftUrl = rightUrl := (Provenance.gitCommit.inj same).1
      rw [← repositories] at urls
      simp only [String.append_assoc] at urls
      exact ne_append_of_nonempty (by simp) urls.symm
  case bioconductorRelease.bioconductorRelease leftSpace leftRelease leftVersion rightSpace
      rightRelease rightVersion =>
    obtain ⟨raws, middle, spaces, releases⟩ := straddles
    constructor
    · simp only [Materialization.identityKey, raws, spaces, releases, String.append_assoc]
    · rintro ⟨-, same⟩
      have equal : leftSpace = rightSpace := (Provenance.bioconductorRelease.inj same).1
      rw [← equal] at spaces
      simp only [String.append_assoc] at spaces
      exact ne_append_of_nonempty (by simp) spaces.symm

/-- Two identities of one package share a key without being the same exactly when their parts
straddle the separators. -/
theorem identityKey_separates_iff {left right : ReleaseIdentity} (names : left.name = right.name) :
    (Materialization.identityKey left = Materialization.identityKey right → Same left right) ↔
      ¬ (Straddles left right ∨ Straddles right left) := by
  constructor
  · rintro separates (straddles | straddles)
    · obtain ⟨equal, different⟩ := straddles.collides names
      exact different (separates equal)
    · obtain ⟨equal, different⟩ := straddles.collides names.symm
      exact different (separates equal.symm).symm
  · intro apart equal
    exact (same_or_straddles equal).resolve_right apart

end Rsolve
