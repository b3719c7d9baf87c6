import Rsolve.Core.Names

/-!
# Coordinates of immutable sources

Commit ids and digests are stored in lower case; their constructors accept either case. Each value
is a fixed point of its constructor, so that a stored coordinate reads back as itself.
-/
open Keyed

namespace Rsolve

/-- `str::len` — the length of a text in bytes. -/
def byteLength (text : String) : Nat :=
  text.toList.foldr (fun character total => character.utf8Size + total) 0

/-- Hexadecimal digits are ASCII. -/
theorem isHexDigit_ascii {character : Char} (digit : isHexDigit character = true) :
    character.toNat < 128 := by
  simp only [isHexDigit, Char.isDigit, Bool.or_eq_true, Bool.and_eq_true, decide_eq_true_eq,
    Char.le_def, UInt32.le_iff_toNat_le] at digit
  change (48 ≤ character.val.toNat ∧ character.val.toNat ≤ 57 ∨
    97 ≤ character.val.toNat ∧ character.val.toNat ≤ 102) ∨
    65 ≤ character.val.toNat ∧ character.val.toNat ≤ 70 at digit
  change character.val.toNat < 128
  omega

/-- Lowering a hexadecimal digit gives a lower-case hexadecimal digit of the same encoded size, and
only zero lowers to zero. -/
theorem toLower_hexDigit {character : Char} (digit : isHexDigit character = true) :
    isHexDigit character.toLower = true ∧ character.toLower.toLower = character.toLower ∧
      character.toLower.utf8Size = character.utf8Size ∧
      (character.toLower = '0' ↔ character = '0') := by
  have cases : ∀ code < 128, isHexDigit (Char.ofNat code) = true →
      isHexDigit (Char.ofNat code).toLower = true ∧
        (Char.ofNat code).toLower.toLower = (Char.ofNat code).toLower ∧
        (Char.ofNat code).toLower.utf8Size = (Char.ofNat code).utf8Size ∧
        ((Char.ofNat code).toLower = '0' ↔ Char.ofNat code = '0') := by
    decide +kernel
  have checked := cases character.toNat (isHexDigit_ascii digit)
  rw [Char.ofNat_toNat] at checked
  exact checked digit

section Lowercase

variable {text : String} (digits : text.toList.all isHexDigit = true)
include digits

/-- Lowering hexadecimal text keeps its length. -/
theorem byteLength_toAsciiLowercase : byteLength (toAsciiLowercase text) = byteLength text := by
  unfold byteLength toAsciiLowercase
  rw [String.toList_map, List.foldr_map]
  refine List.foldr_ext _ _ 0 fun character member total => ?_
  rw [(toLower_hexDigit (List.all_eq_true.mp digits character member)).2.2.1]

/-- Lowering hexadecimal text gives hexadecimal text. -/
theorem all_isHexDigit_toAsciiLowercase :
    (toAsciiLowercase text).toList.all isHexDigit = true := by
  unfold toAsciiLowercase
  rw [String.toList_map, List.all_map, List.all_eq_true]
  intro character member
  exact (toLower_hexDigit (List.all_eq_true.mp digits character member)).1

/-- Lowering twice is lowering once. -/
theorem toAsciiLowercase_idem :
    toAsciiLowercase (toAsciiLowercase text) = toAsciiLowercase text := by
  unfold toAsciiLowercase
  rw [← String.toList_inj, String.toList_map, String.toList_map, List.map_map]
  refine List.map_congr_left fun character member => ?_
  exact (toLower_hexDigit (List.all_eq_true.mp digits character member)).2.1

/-- Lowering keeps a text of zeros and makes no other. -/
theorem all_zero_toAsciiLowercase :
    (toAsciiLowercase text).toList.all (· == '0') = text.toList.all (· == '0') := by
  unfold toAsciiLowercase
  rw [String.toList_map, List.all_map, Bool.eq_iff_iff, List.all_eq_true, List.all_eq_true]
  refine forall₂_congr fun character member => ?_
  have zero := (toLower_hexDigit (List.all_eq_true.mp digits character member)).2.2.2
  simpa using zero

end Lowercase

/-- `DigestError` — why a text is not a SHA-256 digest. -/
inductive DigestError
  | wrongLength (found : Nat)
  | nonHexadecimal
deriving Repr, DecidableEq

/-- `DigestError::fmt` — the error text. -/
def DigestError.message : DigestError → String
  | .wrongLength found => "SHA-256 digest has length " ++ toString found ++ ", not 64"
  | .nonHexadecimal => "SHA-256 digest contains a non-hexadecimal byte"

/-- The stored text of `Sha256Digest::new`. -/
def Sha256Digest.read (input : String) : Except DigestError String :=
  if byteLength input ≠ 64 then .error (.wrongLength (byteLength input))
  else if !input.toList.all isHexDigit then .error .nonHexadecimal
  else .ok (toAsciiLowercase input)

/-- A stored digest text is stored as itself. -/
theorem Sha256Digest.read_read {input text : String} (accepted : read input = .ok text) :
    read text = .ok text := by
  unfold read at accepted
  split at accepted
  · simp at accepted
  · next length =>
    split at accepted
    · simp at accepted
    · next hexadecimal =>
      have digits : input.toList.all isHexDigit = true := by simpa using hexadecimal
      obtain rfl : toAsciiLowercase input = text := by simpa using accepted
      unfold read
      rw [byteLength_toAsciiLowercase digits, if_neg length,
        all_isHexDigit_toAsciiLowercase digits, toAsciiLowercase_idem digits]
      rfl

/-- `Sha256Digest` — a lower-case hexadecimal SHA-256 digest. -/
@[ext]
structure Sha256Digest where
  /-- The digest. -/
  text : String
  /-- The digest is stored as itself. -/
  valid : Sha256Digest.read text = .ok text
deriving DecidableEq

/-- `Sha256Digest::new`. -/
def Sha256Digest.new (input : String) : Except DigestError Sha256Digest :=
  match accepted : Sha256Digest.read input with
  | .error cause => .error cause
  | .ok text => .ok ⟨text, Sha256Digest.read_read accepted⟩

/-- `GitHashAlgorithm`. -/
inductive GitHashAlgorithm
  | sha1
  | sha256
deriving Repr, DecidableEq

/-- `GitCommitIdError` — why a text is not a full object id. -/
inductive GitCommitIdError
  | wrongLength (found : Nat)
  | nonHexadecimal
  | nullObject
deriving Repr, DecidableEq

/-- `GitCommitIdError::fmt` — the error text. -/
def GitCommitIdError.message : GitCommitIdError → String
  | .wrongLength found =>
    "Git commit OID has invalid length " ++ toString found ++ "; expected 40 or 64"
  | .nonHexadecimal => "Git commit OID is not hexadecimal"
  | .nullObject => "Git commit OID must not be Git's null object"

/-- The hash algorithm told by the length of an object id. -/
def GitCommitId.algorithmOf (length : Nat) : Except GitCommitIdError GitHashAlgorithm :=
  if length = 40 then .ok .sha1
  else if length = 64 then .ok .sha256
  else .error (.wrongLength length)

/-- The stored fields of `GitCommitId::new`. -/
def GitCommitId.read (input : String) : Except GitCommitIdError (GitHashAlgorithm × String) :=
  match GitCommitId.algorithmOf (byteLength input) with
  | .error cause => .error cause
  | .ok algorithm =>
    if !input.toList.all isHexDigit then .error .nonHexadecimal
    else if input.toList.all (· == '0') then .error .nullObject
    else .ok (algorithm, toAsciiLowercase input)

/-- A stored object id is stored as itself. -/
theorem GitCommitId.read_read {input hex : String} {algorithm : GitHashAlgorithm}
    (accepted : read input = .ok (algorithm, hex)) : read hex = .ok (algorithm, hex) := by
  unfold read at accepted
  split at accepted
  · simp at accepted
  · next found told =>
    split at accepted
    · simp at accepted
    · next hexadecimal =>
      split at accepted
      · simp at accepted
      · next nonzero =>
        have digits : input.toList.all isHexDigit = true := by simpa using hexadecimal
        simp only [Except.ok.injEq, Prod.mk.injEq] at accepted
        obtain ⟨rfl, rfl⟩ := accepted
        unfold read
        rw [byteLength_toAsciiLowercase digits, told]
        simp only
        rw [all_isHexDigit_toAsciiLowercase digits, all_zero_toAsciiLowercase digits,
          if_neg nonzero, toAsciiLowercase_idem digits]
        rfl

/-- `GitCommitId` — a full object id; references and abbreviations are not representable. -/
@[ext]
structure GitCommitId where
  /-- The hash algorithm. -/
  algorithm : GitHashAlgorithm
  /-- The object id. -/
  hex : String
  /-- The object id is stored as itself. -/
  valid : GitCommitId.read hex = .ok (algorithm, hex)
deriving DecidableEq

/-- `GitCommitId::new`. -/
def GitCommitId.new (input : String) : Except GitCommitIdError GitCommitId :=
  match accepted : GitCommitId.read input with
  | .error cause => .error cause
  | .ok (algorithm, hex) => .ok ⟨algorithm, hex, GitCommitId.read_read accepted⟩

/-- `RepositorySubdirError` — why a text is not a canonical subdirectory. -/
inductive RepositorySubdirError
  | empty
  | absolute
  | backslash
  | controlCharacter (index : Nat)
  | emptyComponent (index : Nat)
  | dotComponent (index : Nat)
  | parentComponent (index : Nat)
  | windowsDrivePrefix
deriving Repr, DecidableEq

/-- `RepositorySubdirError::fmt` — the error text. -/
def RepositorySubdirError.message : RepositorySubdirError → String
  | .empty => "repository subdirectory must not be empty"
  | .absolute => "repository subdirectory must be a relative path"
  | .backslash => "repository subdirectory must use slash separators"
  | .controlCharacter index =>
    "repository subdirectory contains a control character at " ++ toString index
  | .emptyComponent index =>
    "repository subdirectory has an empty component at " ++ toString index
  | .dotComponent index =>
    "repository subdirectory has a non-canonical dot component at " ++ toString index
  | .parentComponent index =>
    "repository subdirectory has a parent component at " ++ toString index
  | .windowsDrivePrefix => "repository subdirectory must not have a Windows drive prefix"

/-- `str::char_indices` restricted to the first control character: its byte offset. -/
def firstControl : Nat → List Char → Option Nat
  | _, [] => none
  | offset, character :: rest =>
    if isControl character then some offset else firstControl (offset + character.utf8Size) rest

/-- The drive letter and colon at the start of a Windows path. -/
def hasDrivePrefix : List Char → Bool
  | letter :: colon :: _ => letter.isAlpha && colon == ':'
  | _ => false

/-- The component loop of `RepositorySubdir::new`. -/
def checkComponents (index : Nat) : List (List Char) → Except RepositorySubdirError Unit
  | [] => .ok ()
  | component :: rest =>
    if component = [] then .error (.emptyComponent index)
    else if component = ['.'] then .error (.dotComponent index)
    else if component = ['.', '.'] then .error (.parentComponent index)
    else checkComponents (index + 1) rest

/-- The check of `RepositorySubdir::new`. -/
def RepositorySubdir.check (input : String) : Except RepositorySubdirError Unit :=
  if input.isEmpty then .error .empty
  else if input.toList.head? == some '/' then .error .absolute
  else if input.toList.contains '\\' then .error .backslash
  else
    match firstControl 0 input.toList with
    | some index => .error (.controlCharacter index)
    | none =>
      let components := input.toList.splitOn '/'
      if hasDrivePrefix (components.headD []) then .error .windowsDrivePrefix
      else checkComponents 0 components

/-- `RepositorySubdir` — a canonical relative slash-separated path. -/
@[ext]
structure RepositorySubdir where
  /-- The path. -/
  text : String
  /-- The path passed its check. -/
  valid : RepositorySubdir.check text = .ok ()
deriving DecidableEq

/-- `RepositorySubdir::new`. -/
def RepositorySubdir.new (input : String) : Except RepositorySubdirError RepositorySubdir :=
  match accepted : RepositorySubdir.check input with
  | .error cause => .error cause
  | .ok () => .ok ⟨input, accepted⟩

end Rsolve
