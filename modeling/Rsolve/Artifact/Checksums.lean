import Rsolve.Artifact.Description
import Rsolve.Core.Digest
import Rsolve.Core.Hex

/-!
# Declared checksums and descriptor keys

A source artifact may declare checksums. They are read into at most one MD5 and one SHA-256 digest;
declarations that contradict each other, or that are of another kind, are refused. What is cached of an
artifact is filed under a key that hashes its locator, its digests, its size and what it is expected to
be. The hashed bytes are fields behind their lengths, so they tell all of these apart.
-/
open Checked Framing Keyed

namespace Rsolve

/-- `CacheError`, as far as the cache raises it. The copy and the check of an archive have errors of
their own. -/
inductive ArtifactCacheError
  | artifact (cause : CacheError)
  | unsupportedChecksum (algorithm : String)
  | malformedChecksum (algorithm value : String)
  | conflictingChecksum (algorithm : String)
  | checksumMismatch (algorithm expected actual : String)
  | invalidMetadata (path reason : String)
  | corruptObject (path expected actual : String)
  | replacementRecovery (object quarantine replacement restore : String)
deriving DecidableEq, Repr

/-- `Checksums` — the declared digests in lower case. -/
@[ext]
structure Checksums where
  md5 : Option String
  sha256 : Option Sha256Digest
deriving DecidableEq

/-- `validate_md5`. -/
def validateMd5 (value : String) : Except ArtifactCacheError Unit :=
  ensure (byteLength value = 32 ∧ value.toList.all isHexDigit = true) (.malformedChecksum "md5" value)

/-- One round of the loop of `validate_checksums`. -/
def declareChecksum (declared : Checksums) : UpstreamChecksum →
    Except ArtifactCacheError Checksums
  | .md5 value => do
    validateMd5 value
    let canonical := toAsciiLowercase value
    ensure (declared.md5.all (· = canonical) = true) (.conflictingChecksum "md5")
    return { declared with md5 := some canonical }
  | .sha256 value => do
    ensure (declared.sha256.all (· = value) = true) (.conflictingChecksum "sha256")
    return { declared with sha256 := some value }
  | .other algorithm _ =>
    let folded := toAsciiLowercase algorithm
    if folded = "md5" then .error (.malformedChecksum "md5" "unsupported declaration shape")
    else if folded = "sha256" ∨ folded = "sha-256" then
      .error (.malformedChecksum "sha256" "unsupported declaration shape")
    else .error (.unsupportedChecksum algorithm)

/-- `validate_checksums`. -/
def validateChecksums (values : List UpstreamChecksum) : Except ArtifactCacheError Checksums :=
  values.foldlM declareChecksum ⟨none, none⟩

/-- A declaration is one of the digests. -/
def UpstreamChecksum.Agrees (checksums : Checksums) : UpstreamChecksum → Prop
  | .md5 value => validateMd5 value = .ok () ∧ checksums.md5 = some (toAsciiLowercase value)
  | .sha256 value => checksums.sha256 = some value
  | .other _ _ => False

section Declarations

variable {values : List UpstreamChecksum} {start result checksums : Checksums}

/-- A value that is there is the given one. -/
theorem all_eq_true_iff {α : Type} [DecidableEq α] {found : Option α} {value : α} :
    found.all (· = value) = true ↔ found = none ∨ found = some value := by
  cases found with
  | none => simp
  | some other => simp

/-- Some declarations are read from some digests on when all of them are among the digests in the end,
which are those of the start and of the declarations. -/
theorem foldlM_declareChecksum : values.foldlM declareChecksum start = .ok result ↔
    (∀ value ∈ values, value.Agrees result) ∧
      (result.md5 = start.md5 ∨ start.md5 = none ∧ ∃ text, .md5 text ∈ values) ∧
      (result.sha256 = start.sha256 ∨ start.sha256 = none ∧ ∃ digest, .sha256 digest ∈ values) := by
  induction values generalizing start with
  | nil =>
    simp only [List.foldlM_nil, pure, Except.pure, Except.ok.injEq, List.not_mem_nil, false_implies,
      implies_true, exists_false, and_false, or_false, true_and]
    constructor
    · intro same
      rw [same]
      exact ⟨rfl, rfl⟩
    · intro same
      exact Checksums.ext same.1.symm same.2.symm
  | cons value rest ih =>
    rw [List.foldlM_cons, bind_eq_ok, List.forall_mem_cons]
    cases value with
    | md5 text =>
      simp only [declareChecksum, bind_eq_ok, ensure_eq_ok, pure, Except.pure, Except.ok.injEq,
        exists_const, all_eq_true_iff, UpstreamChecksum.Agrees, List.mem_cons,
        UpstreamChecksum.md5.injEq, reduceCtorEq, false_or]
      constructor
      · rintro ⟨next, ⟨_, valid, free, rfl⟩, folded⟩
        obtain ⟨agree, digest, other⟩ := ih.mp folded
        have kept : result.md5 = some (toAsciiLowercase text) := by
          rcases digest with kept | ⟨none, -⟩
          · exact kept
          · cases none
        refine ⟨⟨⟨valid, kept⟩, agree⟩, ?_, other⟩
        rcases free with none | same
        · exact .inr ⟨none, text, .inl rfl⟩
        · exact .inl (kept.trans same.symm)
      · rintro ⟨⟨⟨valid, kept⟩, agree⟩, digest, other⟩
        refine ⟨_, ⟨(), valid, ?_, rfl⟩, ih.mpr ⟨agree, .inl kept, other⟩⟩
        rcases digest with same | ⟨none, -⟩
        · exact .inr (same.symm.trans kept)
        · exact .inl none
    | sha256 digest =>
      simp only [declareChecksum, bind_eq_ok, ensure_eq_ok, pure, Except.pure, Except.ok.injEq,
        exists_const, all_eq_true_iff, UpstreamChecksum.Agrees, List.mem_cons,
        UpstreamChecksum.sha256.injEq, reduceCtorEq, false_or]
      constructor
      · rintro ⟨next, ⟨free, rfl⟩, folded⟩
        obtain ⟨agree, other, digests⟩ := ih.mp folded
        have kept : result.sha256 = some digest := by
          rcases digests with kept | ⟨none, -⟩
          · exact kept
          · cases none
        refine ⟨⟨kept, agree⟩, other, ?_⟩
        rcases free with none | same
        · exact .inr ⟨none, digest, .inl rfl⟩
        · exact .inl (kept.trans same.symm)
      · rintro ⟨⟨kept, agree⟩, other, digests⟩
        refine ⟨_, ⟨?_, rfl⟩, ih.mpr ⟨agree, other, .inl kept⟩⟩
        rcases digests with same | ⟨none, -⟩
        · exact .inr (same.symm.trans kept)
        · exact .inl none
    | other algorithm text =>
      have refused : ∀ next, declareChecksum start (.other algorithm text) ≠ .ok next := by
        intro next
        dsimp only [declareChecksum]
        by_cases first : toAsciiLowercase algorithm = "md5"
        · rw [if_pos first]
          exact fun same => nomatch same
        · rw [if_neg first]
          by_cases second : toAsciiLowercase algorithm = "sha256" ∨
              toAsciiLowercase algorithm = "sha-256"
          · rw [if_pos second]
            exact fun same => nomatch same
          · rw [if_neg second]
            exact fun same => nomatch same
      simp only [refused, false_and, exists_false, UpstreamChecksum.Agrees]

/-- Declarations are read exactly when they are of the digests read, and these are declared. -/
theorem validateChecksums_eq_ok : validateChecksums values = .ok checksums ↔
    (∀ value ∈ values, value.Agrees checksums) ∧
      (checksums.md5 = none ∨ ∃ text, .md5 text ∈ values) ∧
      (checksums.sha256 = none ∨ ∃ digest, .sha256 digest ∈ values) := by
  rw [validateChecksums, foldlM_declareChecksum]
  simp only [true_and]

/-- An MD5 digest that was read is not empty. -/
theorem md5_ne_empty (valid : validateChecksums values = .ok checksums) :
    checksums.md5 ≠ some "" := by
  obtain ⟨agree, declared, -⟩ := validateChecksums_eq_ok.mp valid
  intro empty
  rw [empty] at declared
  have found : ∃ text, UpstreamChecksum.md5 text ∈ values := by simpa using declared
  obtain ⟨text, member⟩ := found
  obtain ⟨checked, same⟩ := agree _ member
  have shape : byteLength text = 32 ∧ text.toList.all isHexDigit = true := by
    simpa only [validateMd5, ensure_eq_ok] using checked
  have length : byteLength (toAsciiLowercase text) = 32 := by
    rw [byteLength_toAsciiLowercase shape.2]
    exact shape.1
  rw [← Option.some.inj (empty.symm.trans same)] at length
  exact absurd length (by decide)

end Declarations

/-- A text that may be absent, where an absent one is written as the empty text. -/
def textOrEmpty (text : Option String) : List UInt8 :=
  textBytes (text.getD "")

/-- A text that is not empty is told apart from an absent one. -/
theorem textOrEmpty_inj {left right : Option String} (leftFull : left ≠ some "")
    (rightFull : right ≠ some "") (equal : textOrEmpty left = textOrEmpty right) : left = right := by
  have same : left.getD "" = right.getD "" := textBytes_injective equal
  cases left with
  | none =>
    cases right with
    | none => rfl
    | some text => exact absurd (congrArg some (show text = "" from same.symm)) rightFull
  | some text =>
    cases right with
    | none => exact absurd (congrArg some (show text = "" from same)) leftFull
    | some other => exact congrArg some same

/-- The fields of a descriptor that both kinds of key hash. -/
def descriptorFields (artifact : SourceArtifact) (checksums : Checksums) : List (List UInt8) :=
  [textBytes artifact.locator.text, textOrEmpty checksums.md5,
    textOrEmpty (checksums.sha256.map Sha256Digest.text),
    textOrEmpty (artifact.size.map fun size => toString size.toNat)]

/-- The fields of the provenance that is expected. -/
def provenanceFields : Option GitProvenanceExpectation → List (List UInt8)
  | some git => [textBytes "git", textBytes git.repository.text, textBytes git.commit.hex,
      textOrEmpty (git.subdirectory.map RepositorySubdir.text)]
  | none => [textBytes "registry"]

/-- The fields of what is expected. -/
def expectationFields (expectation : ArtifactValidationExpectation) : List (List UInt8) :=
  [textBytes expectation.package.text, textBytes "version-components",
    le64 expectation.version.key.length] ++
    (expectation.version.key.map (littleEndian 4) ++ provenanceFields expectation.gitProvenance)

/-- The bytes that `descriptor_key_with_expectation` hashes. -/
def descriptorPreimage (artifact : SourceArtifact) (checksums : Checksums) :
    Option ArtifactValidationExpectation → List UInt8
  | none => textBytes "rsolve/source-artifact/v1\x00" ++
      (descriptorFields artifact checksums).flatMap lePrefixed
  | some expectation => textBytes "rsolve/source-artifact/identity/v2\x00" ++
      (descriptorFields artifact checksums ++ expectationFields expectation).flatMap lePrefixed

/-- `descriptor_key_with_expectation`. -/
def descriptorKeyWithExpectation (sha256 : List UInt8 → Vector UInt8 32) (artifact : SourceArtifact)
    (checksums : Checksums) (expectation : Option ArtifactValidationExpectation) : String :=
  hex (sha256 (descriptorPreimage artifact checksums expectation)).toList

/-- Expectations are compared through their versions. -/
instance : Representative ArtifactValidationExpectation where
  representative expectation := { expectation with version := representative expectation.version }

/-- Two expectations are the same when the packages and the provenances are equal and the versions are
the same. -/
theorem ArtifactValidationExpectation.same_iff {left right : ArtifactValidationExpectation} :
    Same left right ↔ left.package = right.package ∧ Same left.version right.version ∧
      left.gitProvenance = right.gitProvenance := by
  simp [Same, representative]

section Keys

variable {left right : SourceArtifact} {leftChecksums rightChecksums : Checksums}

/-- A size is determined by its digits. -/
theorem size_inj {left right : Option UInt64}
    (equal : left.map (fun size => toString size.toNat) =
      right.map fun size => toString size.toNat) : left = right := by
  have injective : Function.Injective fun size : UInt64 => toString size.toNat := by
    intro first second same
    have digits : Nat.toDigits 10 first.toNat = Nat.toDigits 10 second.toNat :=
      String.ofList_injective same
    have numbers := congrArg (fun text => Nat.ofDigitChars 10 text 0) digits
    rw [Nat.ofDigitChars_toDigits (by decide) (by decide),
      Nat.ofDigitChars_toDigits (by decide) (by decide)] at numbers
    exact UInt64.toNat_inj.mp numbers
  exact Option.map_injective injective equal

/-- The digits of a size are not empty. -/
theorem size_ne_empty (size : Option UInt64) :
    size.map (fun size => toString size.toNat) ≠ some "" := by
  intro empty
  obtain ⟨number, -, digits⟩ := Option.map_eq_some_iff.mp empty
  have shown : (toString number.toNat).toList = Nat.toDigits 10 number.toNat :=
    String.toList_ofList
  rw [digits] at shown
  exact Nat.toDigits_ne_nil shown.symm

/-- A digest is not empty. -/
theorem Sha256Digest.written_ne_empty (digest : Option Sha256Digest) :
    digest.map Sha256Digest.text ≠ some "" := by
  intro empty
  obtain ⟨found, -, none⟩ := Option.map_eq_some_iff.mp empty
  have valid := found.valid
  rw [none] at valid
  exact nomatch valid

/-- A subdirectory is not empty. -/
theorem RepositorySubdir.written_ne_empty (subdirectory : Option RepositorySubdir) :
    subdirectory.map RepositorySubdir.text ≠ some "" := by
  intro empty
  obtain ⟨found, -, none⟩ := Option.map_eq_some_iff.mp empty
  have valid := found.valid
  rw [none] at valid
  exact nomatch valid

/-- The fields of a descriptor tell the descriptors apart. -/
theorem descriptorFields_inj
    (leftValid : validateChecksums left.upstreamChecksums = .ok leftChecksums)
    (rightValid : validateChecksums right.upstreamChecksums = .ok rightChecksums)
    (equal : descriptorFields left leftChecksums = descriptorFields right rightChecksums) :
    left.locator = right.locator ∧ leftChecksums = rightChecksums ∧ left.size = right.size := by
  simp only [descriptorFields, List.cons.injEq, and_true] at equal
  obtain ⟨locators, md5, sha256, sizes⟩ := equal
  have digests := textOrEmpty_inj (md5_ne_empty leftValid) (md5_ne_empty rightValid) md5
  have texts :=
    textOrEmpty_inj (Sha256Digest.written_ne_empty _) (Sha256Digest.written_ne_empty _) sha256
  have injective : Function.Injective Sha256Digest.text := fun _ _ => Sha256Digest.ext
  exact ⟨Identifier.ext (textBytes_injective locators),
    Checksums.ext digests (Option.map_injective injective texts),
    size_inj (textOrEmpty_inj (size_ne_empty _) (size_ne_empty _) sizes)⟩

/-- The fields of a provenance tell the provenances apart. -/
theorem provenanceFields_inj {left right : Option GitProvenanceExpectation}
    (equal : provenanceFields left = provenanceFields right) : left = right := by
  have lengths := congrArg List.length equal
  cases left with
  | none =>
    cases right with
    | none => rfl
    | some git => exact absurd lengths (show (1 : Nat) ≠ 4 by decide)
  | some git =>
    cases right with
    | none => exact absurd lengths (show (4 : Nat) ≠ 1 by decide)
    | some other =>
      simp only [provenanceFields, List.cons.injEq, true_and, and_true] at equal
      obtain ⟨repositories, commits, subdirectories⟩ := equal
      have subdirs := textOrEmpty_inj (RepositorySubdir.written_ne_empty _)
        (RepositorySubdir.written_ne_empty _) subdirectories
      have injective : Function.Injective RepositorySubdir.text := fun _ _ => RepositorySubdir.ext
      have repository := NormalizedGitUrl.ext (textBytes_injective repositories)
      have commit := GitCommitId.hex_injective (textBytes_injective commits)
      have subdirectory := Option.map_injective injective subdirs
      obtain ⟨_, _, _⟩ := git
      obtain ⟨_, _, _⟩ := other
      simp only at repository commit subdirectory
      rw [repository, commit, subdirectory]

/-- The components of a version are determined by four bytes each. -/
theorem key_inj {left right : RPackageVersion}
    (equal : left.key.map (littleEndian 4) = right.key.map (littleEndian 4)) :
    left.key = right.key := by
  have shown : ∀ version : RPackageVersion,
      (version.key.map (littleEndian 4)).map readLittleEndian = version.key := by
    intro version
    rw [List.map_map]
    conv_rhs => rw [← List.map_id version.key]
    apply List.map_congr_left
    intro value member
    rw [RPackageVersion.key_eq] at member
    have below := version.values_bounds.2 value ((trimZeros_initial version.values).subset member)
    rw [Function.comp_apply, readLittleEndian_littleEndian]
    exact Nat.mod_eq_of_lt below
  rw [← shown left, equal, shown right]

/-- The fields of an expectation tell the expectations apart, up to the spelling of the version. -/
theorem expectationFields_inj {left right : ArtifactValidationExpectation}
    (leftFits : left.version.key.length < lengthBound)
    (rightFits : right.version.key.length < lengthBound)
    (equal : expectationFields left = expectationFields right) : Same left right := by
  simp only [expectationFields, List.cons_append, List.nil_append, List.cons.injEq, true_and]
    at equal
  obtain ⟨packages, counts, rest⟩ := equal
  have lengths := le64_injective leftFits rightFits counts
  have split := List.append_inj rest (by rw [List.length_map, List.length_map, lengths])
  refine ArtifactValidationExpectation.same_iff.mpr ⟨?_, ?_, provenanceFields_inj split.2⟩
  · exact PackageName.ext (textBytes_injective packages)
  · exact RPackageVersion.same_iff.mpr (key_inj split.1)

/-- Fields in a row are shorter than what they are part of. -/
theorem field_fits {front : List UInt8} {fields : List (List UInt8)}
    (fits : (front ++ fields.flatMap lePrefixed).length < lengthBound) :
    ∀ field ∈ fields, field.length + 8 < lengthBound := by
  intro field member
  obtain ⟨before, after, split⟩ := List.append_of_mem member
  simp only [split, List.flatMap_append, List.flatMap_cons, List.length_append, lePrefixed_length]
    at fits
  omega

/-- The count of the components fits into eight bytes when the fields do. -/
theorem key_length_fits {front : List UInt8} {fields : List (List UInt8)}
    {expectation : ArtifactValidationExpectation}
    (fits : (front ++ (fields ++ expectationFields expectation).flatMap lePrefixed).length <
      lengthBound) : expectation.version.key.length < lengthBound := by
  simp only [expectationFields, List.flatMap_append, List.length_append, List.flatMap_map] at fits
  have counted : ∀ values : List Nat,
      values.length ≤ (values.flatMap fun value => lePrefixed (littleEndian 4 value)).length := by
    intro values
    induction values with
    | nil => exact Nat.le_refl 0
    | cons value rest ih =>
      simp only [List.flatMap_cons, List.length_append, lePrefixed_length, List.length_cons]
      omega
  have bound := counted expectation.version.key
  omega

/-- Two kinds of key hash different bytes. -/
theorem descriptorPreimage_ne (expectation : ArtifactValidationExpectation) :
    descriptorPreimage left leftChecksums none ≠
      descriptorPreimage right rightChecksums (some expectation) := by
  intro equal
  have bytes := congrArg (fun bytes => bytes[23]?) equal
  simp only [descriptorPreimage] at bytes
  rw [List.getElem?_append_left (by decide), List.getElem?_append_left (by decide)] at bytes
  exact absurd bytes (by decide)

variable {leftExpectation rightExpectation : Option ArtifactValidationExpectation}

/-- The hashed bytes tell descriptors and expectations apart. -/
theorem descriptorPreimage_inj
    (leftValid : validateChecksums left.upstreamChecksums = .ok leftChecksums)
    (rightValid : validateChecksums right.upstreamChecksums = .ok rightChecksums)
    (leftFits : (descriptorPreimage left leftChecksums leftExpectation).length < lengthBound)
    (rightFits : (descriptorPreimage right rightChecksums rightExpectation).length < lengthBound)
    (equal : descriptorPreimage left leftChecksums leftExpectation =
      descriptorPreimage right rightChecksums rightExpectation) :
    (left.locator = right.locator ∧ leftChecksums = rightChecksums ∧ left.size = right.size) ∧
      Same leftExpectation rightExpectation := by
  cases leftExpectation with
  | none =>
    cases rightExpectation with
    | none =>
      have fields := flatMap_lePrefixed_injective (field_fits leftFits) (field_fits rightFits)
        (List.append_cancel_left equal)
      exact ⟨descriptorFields_inj leftValid rightValid fields, rfl⟩
    | some expectation => exact absurd equal (descriptorPreimage_ne expectation)
  | some expectation =>
    cases rightExpectation with
    | none => exact absurd equal.symm (descriptorPreimage_ne expectation)
    | some other =>
      have fields := flatMap_lePrefixed_injective (field_fits leftFits) (field_fits rightFits)
        (List.append_cancel_left equal)
      have split := List.append_inj fields rfl
      exact ⟨descriptorFields_inj leftValid rightValid split.1,
        same_some.mpr (expectationFields_inj (key_length_fits leftFits)
          (key_length_fits rightFits) split.2)⟩

/-- Equal descriptors and the same expectation give the same bytes. -/
theorem descriptorPreimage_congr (locators : left.locator = right.locator)
    (checksums : leftChecksums = rightChecksums) (sizes : left.size = right.size)
    (expectations : Same leftExpectation rightExpectation) :
    descriptorPreimage left leftChecksums leftExpectation =
      descriptorPreimage right rightChecksums rightExpectation := by
  have fields : descriptorFields left leftChecksums = descriptorFields right rightChecksums := by
    simp only [descriptorFields, locators, checksums, sizes]
  cases leftExpectation with
  | none =>
    cases rightExpectation with
    | none => simp only [descriptorPreimage, fields]
    | some expectation => exact nomatch expectations
  | some expectation =>
    cases rightExpectation with
    | none => exact nomatch expectations
    | some other =>
      obtain ⟨packages, versions, provenances⟩ :=
        ArtifactValidationExpectation.same_iff.mp (same_some.mp expectations)
      have keys := RPackageVersion.same_iff.mp versions
      simp only [descriptorPreimage, fields, expectationFields, packages, keys, provenances]

end Keys

/-- The key of a descriptor is unambiguous: what is hashed for two artifacts whose declared checksums
are read is equal exactly when the locators, the digests and the sizes are equal and the same is
expected of both, where a version may be spelled in different ways. -/
theorem descriptorPreimage_eq_iff {left right : SourceArtifact}
    {leftChecksums rightChecksums : Checksums}
    {leftExpectation rightExpectation : Option ArtifactValidationExpectation}
    (leftValid : validateChecksums left.upstreamChecksums = .ok leftChecksums)
    (rightValid : validateChecksums right.upstreamChecksums = .ok rightChecksums)
    (leftFits : (descriptorPreimage left leftChecksums leftExpectation).length < lengthBound)
    (rightFits : (descriptorPreimage right rightChecksums rightExpectation).length < lengthBound) :
    descriptorPreimage left leftChecksums leftExpectation =
        descriptorPreimage right rightChecksums rightExpectation ↔
      (left.locator = right.locator ∧ leftChecksums = rightChecksums ∧ left.size = right.size) ∧
        Same leftExpectation rightExpectation := by
  constructor
  · exact descriptorPreimage_inj leftValid rightValid leftFits rightFits
  · rintro ⟨⟨locators, checksums, sizes⟩, expectations⟩
    exact descriptorPreimage_congr locators checksums sizes expectations

namespace Small

/-- An archive with a declared MD5 digest. -/
def declaredArtifact (md5 : String) : SourceArtifact where
  locator := ⟨"https://cran.example/dplyr_1.0.0.tar.gz", by decide⟩
  upstreamChecksums := [.md5 md5]
  size := some 1024

/-- A release of a registry, with a version that is spelled with one zero more or less. -/
def spelledExpectation (zeros : Nat) : ArtifactValidationExpectation where
  package := ⟨"vctrs", by decide⟩
  version := if zeros = 2 then ⟨"2.0.0", .fromVec [2, 0, 0], by decide⟩
    else ⟨"2.0", .fromVec [2, 0], by decide⟩
  gitProvenance := none

/-- A digest is read in lower case. -/
theorem declaredArtifact_valid (md5 : String) (shaped : validateMd5 md5 = .ok ())
    (lower : md5.toList.map Char.toLower = "0123456789abcdef0123456789abcdef".toList) :
    validateChecksums (declaredArtifact md5).upstreamChecksums =
      .ok ⟨some "0123456789abcdef0123456789abcdef", none⟩ := by
  have folded : toAsciiLowercase md5 = "0123456789abcdef0123456789abcdef" := by
    apply String.toList_injective
    rw [toAsciiLowercase, String.toList_map]
    exact lower
  refine validateChecksums_eq_ok.mpr ⟨?_, .inr ⟨md5, List.mem_cons_self⟩, .inl rfl⟩
  intro value member
  obtain rfl := List.mem_singleton.mp member
  exact ⟨shaped, congrArg some folded.symm⟩

end Small

/-- A descriptor keeps its key when its digest is spelled in upper case and its version with one zero
more. -/
theorem descriptorPreimage_respelled :
    descriptorPreimage (Small.declaredArtifact "0123456789ABCDEF0123456789abcdef")
        ⟨some "0123456789abcdef0123456789abcdef", none⟩ (some (Small.spelledExpectation 2)) =
      descriptorPreimage (Small.declaredArtifact "0123456789abcdef0123456789abcdef")
        ⟨some "0123456789abcdef0123456789abcdef", none⟩ (some (Small.spelledExpectation 1)) :=
  (descriptorPreimage_eq_iff
    (Small.declaredArtifact_valid "0123456789ABCDEF0123456789abcdef" (by decide) (by decide))
    (Small.declaredArtifact_valid "0123456789abcdef0123456789abcdef" (by decide) (by decide))
    (by decide +kernel) (by decide +kernel)).mpr ⟨⟨rfl, rfl, rfl⟩, by decide +kernel⟩

end Rsolve
