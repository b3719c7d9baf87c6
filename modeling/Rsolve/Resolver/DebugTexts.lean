import Rsolve.Lib.Divergence
import Rsolve.Resolver.Policy

/-!
# Debug texts

The derived debug text of a provenance, which the resolver sorts identities by. The text holds the
spelling of versions, but two provenances that fix the same version already diverge before it: ties
between candidates of one version are broken independently of how the version is spelled.
-/
open Keyed Divergence

namespace Rsolve

/-- The characters that a backslash and a mark stand for. -/
def characterMarks : List (Char × Char) :=
  [('\x00', '0'), ('\t', 't'), ('\r', 'r'), ('\n', 'n'), ('\\', '\\'), ('"', '"')]

/-- What follows the backslash of an escaped character. Which characters are not printable is a table
of the language's library. -/
def debugEscape (unprintable : Char → Bool) (character : Char) : Option (List Char) :=
  match characterMarks.lookup character with
  | some mark => some [mark]
  | none =>
    if unprintable character then
      some ('u' :: '\x7b' :: (Nat.toDigits 16 character.toNat ++ ['\x7d']))
    else none

/-- `{:?}` of a character within a text. -/
def debugCharacter (unprintable : Char → Bool) (character : Char) : List Char :=
  match debugEscape unprintable character with
  | some escape => '\\' :: escape
  | none => [character]

/-- `{:?}` of a text. -/
def debugText (unprintable : Char → Bool) (text : String) : String :=
  String.ofList ('"' :: (text.toList.flatMap (debugCharacter unprintable) ++ ['"']))

/-- `{:?}` of a type that wraps a text. -/
def debugWrapped (unprintable : Char → Bool) (type text : String) : String :=
  type ++ "(" ++ debugText unprintable text ++ ")"

/-- `{:?}` of a list of numbers. -/
def debugNumbers (numbers : List Nat) : String :=
  "[" ++ ", ".intercalate (numbers.map toString) ++ "]"

/-- `{:?}` of the components of a version. -/
def Components.debug : Components → String
  | .inline values len =>
    "Inline \x7b values: " ++ debugNumbers values ++ ", len: " ++ toString len ++ " \x7d"
  | .spill values => "Spill(" ++ debugNumbers values ++ ")"

/-- `{:?}` of a version. -/
def RPackageVersion.debug (unprintable : Char → Bool) (version : RPackageVersion) : String :=
  "RPackageVersion \x7b raw: " ++ debugText unprintable version.raw ++ ", components: " ++
    version.components.debug ++ " \x7d"

/-- `{:?}` of a hash algorithm. -/
def GitHashAlgorithm.debug : GitHashAlgorithm → String
  | .sha1 => "Sha1"
  | .sha256 => "Sha256"

/-- `{:?}` of a commit. -/
def GitCommitId.debug (unprintable : Char → Bool) (commit : GitCommitId) : String :=
  "GitCommitId \x7b algorithm: " ++ commit.algorithm.debug ++ ", hex: " ++
    debugText unprintable commit.hex ++ " \x7d"

/-- `{:?}` of an optional subdirectory. -/
def debugSubdirectory (unprintable : Char → Bool) : Option RepositorySubdir → String
  | some subdirectory =>
    "Some(" ++ debugWrapped unprintable "RepositorySubdir" subdirectory.text ++ ")"
  | none => "None"

namespace Provenance

/-- How `{:?}` of a provenance starts. -/
def debugVariant : Provenance → String
  | .rBasePackage _ => "RBasePackage \x7b r_version: "
  | .registryRelease _ _ => "RegistryRelease \x7b namespace: "
  | .gitCommit _ _ _ => "GitCommit \x7b repository: "
  | .bioconductorRelease _ _ _ => "BioconductorRelease \x7b namespace: "
  | .immutableSource _ _ => "ImmutableSource \x7b scheme: "

/-- What `{:?}` of a provenance goes on with, up to its version if it fixes one. -/
def debugFields (unprintable : Char → Bool) : Provenance → String
  | .rBasePackage _ => ""
  | .registryRelease nspace _ =>
    debugWrapped unprintable "PackageNamespace" nspace.text ++ ", version: "
  | .gitCommit repository commit subdirectory =>
    debugWrapped unprintable "NormalizedGitUrl" repository.text ++
      (", commit: " ++ (commit.debug unprintable ++
        (", subdirectory: " ++ (debugSubdirectory unprintable subdirectory ++ " \x7d"))))
  | .bioconductorRelease nspace release _ =>
    debugWrapped unprintable "PackageNamespace" nspace.text ++
      (", release: " ++ (debugWrapped unprintable "BioconductorRelease" release.text ++
        ", version: "))
  | .immutableSource scheme digest =>
    debugWrapped unprintable "SourceScheme" scheme.text ++
      (", digest: " ++ (debugWrapped unprintable "Sha256Digest" digest.text ++ " \x7d"))

/-- What `{:?}` of a provenance shows before its version, or at all if it fixes no version. -/
def debugLead (unprintable : Char → Bool) (provenance : Provenance) : String :=
  provenance.debugVariant ++ provenance.debugFields unprintable

/-- `{:?}` of a provenance. -/
def debug (unprintable : Char → Bool) (provenance : Provenance) : String :=
  provenance.debugLead unprintable ++
    (provenance.fixedVersion.elim "" (fun version => version.debug unprintable ++ " \x7d"))

end Provenance

/-! ### Texts are coded -/

variable {unprintable : Char → Bool}

/-- A mark stands for one character and starts no number. -/
theorem mark_spec {character mark : Char} (marked : characterMarks.lookup character = some mark) :
    mark ≠ 'u' ∧ ∀ other, characterMarks.lookup other = some mark → other = character := by
  have listed : ∀ {one sign : Char}, characterMarks.lookup one = some sign →
      (one, sign) ∈ characterMarks := by
    intro one sign found
    obtain ⟨front, rest, split, -⟩ := List.lookup_eq_some_iff.mp found
    rw [split]
    simp
  have member := listed marked
  constructor
  · rintro rfl
    simp [characterMarks] at member
  · intro other also
    have otherMember := listed also
    simp only [characterMarks, List.mem_cons, Prod.mk.injEq, List.not_mem_nil, or_false]
      at member otherMember
    rcases member with ⟨rfl, rfl⟩ | ⟨rfl, rfl⟩ | ⟨rfl, rfl⟩ | ⟨rfl, rfl⟩ | ⟨rfl, rfl⟩ | ⟨rfl, rfl⟩ <;>
      simpa using otherMember

/-- Escapes of different characters diverge. -/
theorem debugEscape_diverge {left right : Char} {escape other : List Char} (differs : left ≠ right)
    (escaped : debugEscape unprintable left = some escape)
    (otherEscaped : debugEscape unprintable right = some other) : Diverge escape other := by
  have numbers : ∀ number, '\x7d' ∉ Nat.toDigits 16 number :=
    not_mem_toDigits_sixteen (by decide)
  unfold debugEscape at escaped otherEscaped
  cases mark : characterMarks.lookup left with
  | some sign =>
    obtain ⟨noNumber, single⟩ := mark_spec mark
    obtain rfl : [sign] = escape := by simpa [mark] using escaped
    cases otherMark : characterMarks.lookup right with
    | some otherSign =>
      obtain rfl : [otherSign] = other := by simpa [otherMark] using otherEscaped
      refine diverge_cons (fun equal => differs ?_) [] []
      exact (single right (by rw [otherMark, equal])).symm
    | none =>
      simp only [otherMark, Option.ite_none_right_eq_some, Option.some.injEq] at otherEscaped
      rw [← otherEscaped.2]
      exact diverge_cons noNumber _ _
  | none =>
    simp only [mark, Option.ite_none_right_eq_some, Option.some.injEq] at escaped
    rw [← escaped.2]
    cases otherMark : characterMarks.lookup right with
    | some otherSign =>
      obtain rfl : [otherSign] = other := by simpa [otherMark] using otherEscaped
      exact diverge_cons (mark_spec otherMark).1.symm _ _
    | none =>
      simp only [otherMark, Option.ite_none_right_eq_some, Option.some.injEq] at otherEscaped
      rw [← otherEscaped.2, diverge_cons_self, diverge_cons_self]
      refine diverge_stopped (numbers _) (numbers _) fun equal => differs ?_
      exact Char.toNat_inj.mp (toDigits_sixteen_injective equal)

/-- A character that is not escaped is no backslash and no quote. -/
theorem ne_of_debugEscape_eq_none {character : Char}
    (plain : debugEscape unprintable character = none) :
    character ≠ '\\' ∧ character ≠ '"' := by
  have backslash : characterMarks.lookup '\\' = some '\\' := by decide
  have quote : characterMarks.lookup '"' = some '"' := by decide
  constructor
  · rintro rfl
    simp [debugEscape, backslash] at plain
  · rintro rfl
    simp [debugEscape, quote] at plain

/-- Characters have diverging debug texts. -/
theorem debugCharacter_code (unprintable : Char → Bool) : Code (debugCharacter unprintable) := by
  intro left right differs
  unfold debugCharacter
  cases escaped : debugEscape unprintable left with
  | some escape =>
    cases otherEscaped : debugEscape unprintable right with
    | some other =>
      exact (diverge_cons_self '\\' _ _).mpr (debugEscape_diverge differs escaped otherEscaped)
    | none => exact diverge_cons (ne_of_debugEscape_eq_none otherEscaped).1.symm _ _
  | none =>
    cases otherEscaped : debugEscape unprintable right with
    | some other => exact diverge_cons (ne_of_debugEscape_eq_none escaped).1 _ _
    | none => exact diverge_cons differs [] []

/-- Texts have diverging debug texts. -/
theorem debugText_code (unprintable : Char → Bool) :
    Code (fun text => (debugText unprintable text).toList) := by
  intro left right differs
  have opened : ∀ character, ∃ first rest,
      debugCharacter unprintable character = first :: rest ∧ first ≠ '"' := by
    intro character
    unfold debugCharacter
    cases escaped : debugEscape unprintable character with
    | some escape => exact ⟨_, _, rfl, by decide⟩
    | none => exact ⟨_, _, rfl, (ne_of_debugEscape_eq_none escaped).2⟩
  simp only [debugText, String.toList_ofList, diverge_cons_self]
  refine (debugCharacter_code unprintable).flatMap (fun character _ => opened character)
    (fun character _ => opened character) fun equal => differs (String.toList_inj.mp equal)

/-- Wrapped texts have diverging debug texts. -/
theorem debugWrapped_code (unprintable : Char → Bool) (type : String) :
    Code (fun text => (debugWrapped unprintable type text).toList) := by
  intro left right differs
  unfold debugWrapped
  simp only [String.toList_append, List.append_assoc]
  rw [diverge_append_left, diverge_append_left]
  exact (debugText_code unprintable left right differs).append _ _

/-- Hash algorithms have diverging debug texts. -/
theorem debugAlgorithm_code : Code (fun algorithm : GitHashAlgorithm => algorithm.debug.toList) := by
  intro left right differs
  cases left <;> cases right <;> simp only [ne_eq, not_true_eq_false] at differs
  all_goals decide

/-- Commits have diverging debug texts. -/
theorem debugCommit_code (unprintable : Char → Bool) :
    Code (fun commit : GitCommitId => (commit.debug unprintable).toList) := by
  rintro ⟨algorithm, hex, valid⟩ ⟨other, otherHex, otherValid⟩ differs
  unfold GitCommitId.debug
  simp only [String.toList_append, List.append_assoc]
  rw [diverge_append_left]
  refine debugAlgorithm_code.append fun algorithms => ?_
  rw [diverge_append_left]
  refine (debugText_code unprintable).append fun texts => absurd ?_ differs
  subst algorithms texts
  rfl

/-- Optional subdirectories have diverging debug texts. -/
theorem debugSubdirectory_code (unprintable : Char → Bool) :
    Code (fun subdirectory => (debugSubdirectory unprintable subdirectory).toList) := by
  have apart : Diverge "Some(".toList "None".toList := by decide +kernel
  rintro (_ | ⟨left, leftValid⟩) (_ | ⟨right, rightValid⟩) differs
  · exact absurd rfl differs
  · unfold debugSubdirectory
    simp only [String.toList_append, List.append_assoc]
    exact (apart.append_one _).symm
  · unfold debugSubdirectory
    simp only [String.toList_append, List.append_assoc]
    exact apart.append_one _
  · unfold debugSubdirectory
    simp only [String.toList_append, List.append_assoc]
    rw [diverge_append_left]
    refine ((debugWrapped_code unprintable "RepositorySubdir") left right fun texts => ?_).append _ _
    subst texts
    exact differs rfl

/-! ### Provenances -/

namespace Provenance

/-- The debug text before the version does not depend on how the version is spelled. -/
theorem debugLead_congr {left right : Provenance} (same : Same left right) :
    left.debugLead unprintable = right.debugLead unprintable := by
  unfold debugLead
  cases left <;> cases right <;> simp only [Same, representative, Provenance.registryRelease.injEq,
    Provenance.gitCommit.injEq, Provenance.bioconductorRelease.injEq,
    Provenance.immutableSource.injEq, reduceCtorEq] at same
  case rBasePackage.rBasePackage => rfl
  case registryRelease.registryRelease => unfold debugFields; rw [same.1]; rfl
  case gitCommit.gitCommit => rw [same.1, same.2.1, same.2.2]
  case bioconductorRelease.bioconductorRelease =>
    unfold debugFields; rw [same.1, same.2.1]; rfl
  case immutableSource.immutableSource => rw [same.1, same.2]

/-- Different provenances diverge before their versions, unless these differ. -/
theorem debugLead_diverge {left right : Provenance} (differs : ¬ Same left right)
    (versions : ∀ version other, left.fixedVersion = some version →
      right.fixedVersion = some other → Same version other) :
    Diverge (left.debugLead unprintable).toList (right.debugLead unprintable).toList := by
  unfold debugLead
  rw [String.toList_append, String.toList_append]
  cases left <;> cases right
  case rBasePackage.rBasePackage version other =>
    refine absurd ?_ differs
    simpa [Same, representative] using versions version other rfl rfl
  case registryRelease.registryRelease nspace version otherSpace other =>
    refine (diverge_append_left _ _ _).mpr ?_
    unfold debugFields
    simp only [String.toList_append]
    refine (debugWrapped_code unprintable "PackageNamespace").append fun texts => absurd ?_ differs
    have same := versions version other rfl rfl
    simp_all [Same, representative, Identifier.ext texts]
  case gitCommit.gitCommit repository commit subdirectory otherRepository otherCommit other =>
    refine (diverge_append_left _ _ _).mpr ?_
    unfold debugFields
    simp only [String.toList_append]
    refine (debugWrapped_code unprintable "NormalizedGitUrl").append fun texts => ?_
    rw [diverge_append_left]
    refine (debugCommit_code unprintable).append fun commits => ?_
    rw [diverge_append_left]
    refine (debugSubdirectory_code unprintable).append fun subdirectories => absurd ?_ differs
    cases repository
    cases otherRepository
    simp_all [Same, representative]
  case bioconductorRelease.bioconductorRelease nspace release version otherSpace otherRelease other =>
    refine (diverge_append_left _ _ _).mpr ?_
    unfold debugFields
    simp only [String.toList_append]
    refine (debugWrapped_code unprintable "PackageNamespace").append fun texts => ?_
    rw [diverge_append_left]
    refine (debugWrapped_code unprintable "BioconductorRelease").append fun releases =>
      absurd ?_ differs
    have same := versions version other rfl rfl
    simp_all [Same, representative, Identifier.ext texts, Identifier.ext releases]
  case immutableSource.immutableSource scheme digest otherScheme other =>
    refine (diverge_append_left _ _ _).mpr ?_
    unfold debugFields
    simp only [String.toList_append]
    refine (debugWrapped_code unprintable "SourceScheme").append fun texts => ?_
    rw [diverge_append_left]
    refine (debugWrapped_code unprintable "Sha256Digest").append fun digests => absurd ?_ differs
    simp [Same, representative, Identifier.ext texts, Sha256Digest.ext digests]
  all_goals
    refine Diverge.append ?_ _ _
    unfold debugVariant
    dsimp only
    decide +kernel

end Provenance

end Rsolve
