import Mathlib.Data.List.Basic
import Rsolve.Lib.Keyed

/-!
# Validated names and identifiers

Every coordinate of a package, a repository or an artifact is a text that passed its own check.
Each type keeps the outcome of that check as a field, so a coordinate that would be rejected cannot
be built, and reading a coordinate's own text gives the coordinate back.
-/
open Keyed

namespace Rsolve

/-- `char::is_control` — the Unicode control characters. -/
def isControl (character : Char) : Bool :=
  character.val ≤ 0x1f || (0x7f ≤ character.val && character.val ≤ 0x9f)

/-- `char::is_whitespace` — the Unicode `White_Space` property. -/
def isWhitespace (character : Char) : Bool :=
  (0x09 ≤ character.val && character.val ≤ 0x0d) || character.val == 0x20 ||
    character.val == 0x85 || character.val == 0xa0 || character.val == 0x1680 ||
    (0x2000 ≤ character.val && character.val ≤ 0x200a) || character.val == 0x2028 ||
    character.val == 0x2029 || character.val == 0x202f || character.val == 0x205f ||
    character.val == 0x3000

/-- `u8::is_ascii_hexdigit`. -/
def isHexDigit (character : Char) : Bool :=
  character.isDigit || ('a' ≤ character && character ≤ 'f') ||
    ('A' ≤ character && character ≤ 'F')

/-- `str::to_ascii_lowercase`. -/
def toAsciiLowercase (text : String) : String :=
  text.map Char.toLower

/-- The position of the first element that fails a test. -/
def firstFailing {α : Type*} (test : α → Bool) (items : List α) : Option Nat :=
  items.findIdx? (fun item => !test item)

/-- `PackageNameError` — why a text is not a package name. -/
inductive PackageNameError
  | empty
  | invalidFirstCharacter
  | invalidCharacter (index : Nat)
  | trailingPeriod
deriving Repr, DecidableEq

/-- `PackageNameError::fmt` — the error text. -/
def PackageNameError.message : PackageNameError → String
  | .empty => "package name is empty"
  | .invalidFirstCharacter => "package name must start with a letter"
  | .invalidCharacter index => "package name has an invalid character at " ++ toString index
  | .trailingPeriod => "package name must not end with a period"

/-- The check of `PackageName::new`: a letter, then letters, digits and periods, with no period at
the end. Bytes before the first invalid one are ASCII, so its position is that of its character. -/
def PackageName.check (input : String) : Except PackageNameError Unit :=
  match input.toList with
  | [] => .error .empty
  | first :: rest =>
    if !first.isAlpha then .error .invalidFirstCharacter
    else
      match firstFailing (fun character => character.isAlphanum || character == '.')
          (first :: rest) with
      | some index => .error (.invalidCharacter index)
      | none =>
        if (first :: rest).getLast? == some '.' then .error .trailingPeriod else .ok ()

/-- `PackageName` — a case-sensitive R package name. -/
@[ext]
structure PackageName where
  /-- The name. -/
  text : String
  /-- The name passed its check. -/
  valid : PackageName.check text = .ok ()
deriving DecidableEq

/-- `PackageName::new`. -/
def PackageName.new (input : String) : Except PackageNameError PackageName :=
  match accepted : PackageName.check input with
  | .error cause => .error cause
  | .ok () => .ok ⟨input, accepted⟩

/-- The constructor accepts exactly the texts of names. -/
@[simp]
theorem PackageName.new_eq_ok {input : String} {name : PackageName} :
    PackageName.new input = .ok name ↔ name.text = input := by
  unfold PackageName.new
  split
  · next refused =>
    simp only [reduceCtorEq, false_iff]
    rintro rfl
    rw [name.valid] at refused
    cases refused
  · rw [Except.ok.injEq, PackageName.ext_iff]
    exact eq_comm

/-- Names are ordered as their texts. -/
instance : Ord PackageName := ⟨compareOn PackageName.text⟩

/-- The order of names is lawful. -/
instance : Std.TransCmp (compare : PackageName → PackageName → Ordering) :=
  inferInstanceAs (Std.TransCmp (compareOn PackageName.text))

/-- Names that compare equal are equal. -/
theorem PackageName.eq_of_compare_eq {left right : PackageName}
    (equal : compare left right = .eq) : left = right := by
  obtain ⟨left, leftValid⟩ := left
  obtain ⟨right, rightValid⟩ := right
  have texts : left = right := Std.LawfulEqOrd.compare_eq_iff_eq.mp equal
  subst texts
  rfl

/-- Only equal names compare equal. -/
instance : Std.LawfulEqOrd PackageName where
  eq_of_compare := PackageName.eq_of_compare_eq

/-- Names are compared as they are. -/
instance : Representative PackageName := ⟨id⟩

/-- The coordinates made by `opaque_identifier!`. -/
inductive IdentifierKind
  | packageNamespace
  | bioconductorRelease
  | repositoryId
  | registryId
  | snapshotId
  | artifactLocator
  | distributionChannel
  | sourceScheme
deriving Repr, DecidableEq

/-- `stringify!($name)` — the type name in an error text. -/
def IdentifierKind.name : IdentifierKind → String
  | .packageNamespace => "PackageNamespace"
  | .bioconductorRelease => "BioconductorRelease"
  | .repositoryId => "RepositoryId"
  | .registryId => "RegistryId"
  | .snapshotId => "SnapshotId"
  | .artifactLocator => "ArtifactLocator"
  | .distributionChannel => "DistributionChannel"
  | .sourceScheme => "SourceScheme"

/-- `IdentifierError` — why a text is not an identifier of a kind. -/
inductive IdentifierError
  | empty (kind : IdentifierKind)
  | controlCharacter (kind : IdentifierKind)
deriving Repr, DecidableEq

/-- `IdentifierError::fmt` — the error text. -/
def IdentifierError.message : IdentifierError → String
  | .empty kind => kind.name ++ " is empty"
  | .controlCharacter kind => kind.name ++ " contains a control character"

/-- The check of an `opaque_identifier!` constructor. -/
def Identifier.check (kind : IdentifierKind) (input : String) : Except IdentifierError Unit :=
  if input.isEmpty then .error (.empty kind)
  else if input.toList.any isControl then .error (.controlCharacter kind)
  else .ok ()

/-- `opaque_identifier!` — a nonempty text without control characters. -/
@[ext]
structure Identifier (kind : IdentifierKind) where
  /-- The identifier. -/
  text : String
  /-- The identifier passed its check. -/
  valid : Identifier.check kind text = .ok ()
deriving DecidableEq

namespace Identifier

variable {kind : IdentifierKind}

/-- The constructor made by `opaque_identifier!`. -/
def new (kind : IdentifierKind) (input : String) : Except IdentifierError (Identifier kind) :=
  match accepted : Identifier.check kind input with
  | .error cause => .error cause
  | .ok () => .ok ⟨input, accepted⟩

/-- The constructor accepts exactly the texts of identifiers. -/
@[simp]
theorem new_eq_ok {input : String} {identifier : Identifier kind} :
    new kind input = .ok identifier ↔ identifier.text = input := by
  unfold new
  split
  · next refused =>
    simp only [reduceCtorEq, false_iff]
    rintro rfl
    rw [identifier.valid] at refused
    cases refused
  · rw [Except.ok.injEq, Identifier.ext_iff]
    exact eq_comm

/-- Identifiers are ordered as their texts. -/
instance : Ord (Identifier kind) := ⟨compareOn Identifier.text⟩

/-- The order of identifiers is lawful. -/
instance : Std.TransCmp (compare : Identifier kind → Identifier kind → Ordering) :=
  inferInstanceAs (Std.TransCmp (compareOn Identifier.text))

/-- Identifiers that compare equal are equal. -/
theorem eq_of_compare_eq {left right : Identifier kind} (equal : compare left right = .eq) :
    left = right := by
  obtain ⟨left, leftValid⟩ := left
  obtain ⟨right, rightValid⟩ := right
  have texts : left = right := Std.LawfulEqOrd.compare_eq_iff_eq.mp equal
  subst texts
  rfl

/-- Equality of identifiers is decided lawfully. -/
instance : LawfulBEq (Identifier kind) := inferInstance

/-- Only equal identifiers compare equal. -/
instance : Std.LawfulEqOrd (Identifier kind) where
  eq_of_compare := eq_of_compare_eq

end Identifier

/-- `PackageNamespace`. -/
abbrev PackageNamespace := Identifier .packageNamespace

/-- `BioconductorRelease`. -/
abbrev BioconductorRelease := Identifier .bioconductorRelease

/-- `RepositoryId`. -/
abbrev RepositoryId := Identifier .repositoryId

/-- `RegistryId`. -/
abbrev RegistryId := Identifier .registryId

/-- `SnapshotId`. -/
abbrev SnapshotId := Identifier .snapshotId

/-- `ArtifactLocator`. -/
abbrev ArtifactLocator := Identifier .artifactLocator

/-- `DistributionChannel`. -/
abbrev DistributionChannel := Identifier .distributionChannel

/-- `SourceScheme`. -/
abbrev SourceScheme := Identifier .sourceScheme

/-- `RepositoryRank` — the manifest declaration order of a repository. -/
structure RepositoryRank where
  /-- The position. -/
  ordinal : Nat
deriving Repr, DecidableEq

/-- Ranks are ordered as their positions. -/
instance : Ord RepositoryRank := ⟨compareOn RepositoryRank.ordinal⟩

/-- The order of ranks is lawful. -/
instance : Std.TransCmp (compare : RepositoryRank → RepositoryRank → Ordering) :=
  inferInstanceAs (Std.TransCmp (compareOn RepositoryRank.ordinal))

end Rsolve
