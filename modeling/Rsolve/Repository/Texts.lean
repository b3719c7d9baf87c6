import Rsolve.Core.Unions
import Rsolve.Repository.Phases

/-!
# The texts of states without records

A state without records and its transaction are short texts, whose strings need no escapes. Reading
one takes the strings out of their quotes and compares the whole text. This is a format that reads
back what it writes.
-/
open Checked Framing

namespace Rsolve

/-- What stands between the end of a beginning and the next quote. -/
def quotedAfter (start text : String) : String :=
  String.ofList ((text.toList.drop start.toList.length).takeWhile (· != '"'))

/-- A text that needs no escapes. -/
def plainText (text : String) : Bool :=
  text.toList.all (fun character => character.isAlphanum || character == '.' || character == '-')

/-- The text that bytes are the encoding of. -/
def decodeText (bytes : List UInt8) : Option String :=
  String.fromUTF8? bytes.toByteArray

/-- The beginning of the text of a state or a transaction. -/
def indexStart : String := "schema_version = 2\nindex_sha256 = \""

/-- The text of a state without records. -/
def stateText (indexSha256 : String) : String :=
  indexStart ++ indexSha256 ++ "\"\nrecords = []\n"

/-- What stands before the state temporary in the text of a transaction. -/
def stateTempBefore (indexSha256 : String) : String :=
  indexStart ++ indexSha256 ++ "\"\nstate_temp = \""

/-- What stands before the staging directory in the text of a transaction. -/
def stagingBefore (indexSha256 stateTemp : String) : String :=
  stateTempBefore indexSha256 ++ stateTemp ++ "\"\nstaging_dir = \""

/-- The text of a transaction without records. -/
def transactionText (indexSha256 stateTemp stagingDir : String) : String :=
  stagingBefore indexSha256 stateTemp ++ stagingDir ++ "\"\nrecords = []\n"

/-- Read the text of a state without records. -/
def readStateText (text : String) : Except String MaterializationState := do
  let indexSha256 := quotedAfter indexStart text
  ensure (text = stateText indexSha256) "unsupported state"
  return ⟨2, indexSha256, []⟩

/-- Read the text of a transaction without records. -/
def readTransactionText (text : String) : Except String MaterializationTransaction := do
  let indexSha256 := quotedAfter indexStart text
  let stateTemp := quotedAfter (stateTempBefore indexSha256) text
  let stagingDir := quotedAfter (stagingBefore indexSha256 stateTemp) text
  ensure (text = transactionText indexSha256 stateTemp stagingDir) "unsupported transaction"
  return ⟨2, indexSha256, stateTemp, stagingDir, []⟩

/-- The format of states without records. -/
def textFormat : StateFormat where
  writeState state := do
    ensure (state.schemaVersion = 2 ∧ state.records = [] ∧ plainText state.indexSha256 = true)
      "unsupported state"
    return textBytes (stateText state.indexSha256)
  readState bytes :=
    match decodeText bytes with
    | some text => readStateText text
    | none => .error "invalid UTF-8"
  writeTransaction transaction := do
    ensure (transaction.schemaVersion = 2 ∧ transaction.records = [] ∧
        plainText transaction.indexSha256 = true ∧ plainText transaction.stateTemp = true ∧
        plainText transaction.stagingDir = true) "unsupported transaction"
    return textBytes (transactionText transaction.indexSha256 transaction.stateTemp
      transaction.stagingDir)
  readTransaction bytes :=
    match decodeText bytes with
    | some text => readTransactionText text
    | none => .error "invalid UTF-8"

/-- The bytes of a text are decoded to it. -/
theorem decodeText_textBytes (text : String) : decodeText (textBytes text) = some text := by
  have encoded : (textBytes text).toByteArray = text.toByteArray := String.utf8Encode_toList
  rw [decodeText, encoded, String.fromUTF8?, dif_pos text.isValidUTF8]
  rfl

/-- A plain text is read up to its quote. -/
theorem quotedAfter_append {start text after : String} (plain : plainText text = true)
    (quoted : after.toList.takeWhile (· != '"') = []) :
    quotedAfter start (start ++ text ++ after) = text := by
  have bare : ∀ character ∈ text.toList, (character != '"') = true := by
    intro character member
    have allowed := List.all_eq_true.mp plain character member
    rw [bne_iff_ne]
    rintro rfl
    exact absurd allowed (by decide)
  rw [quotedAfter, String.toList_append, String.toList_append, List.append_assoc, List.drop_left, List.takeWhile_append_of_pos bare, quoted, List.append_nil,
    String.ofList_toList]

/-- The text of a state is read back. -/
theorem readStateText_stateText {indexSha256 : String} (plain : plainText indexSha256 = true) :
    readStateText (stateText indexSha256) = .ok ⟨2, indexSha256, []⟩ := by
  have index : quotedAfter indexStart (stateText indexSha256) = indexSha256 :=
    quotedAfter_append plain (by decide)
  simp only [readStateText, index]
  rw [ensure_of trivial]
  rfl

/-- The text of a transaction is read back. -/
theorem readTransactionText_transactionText {indexSha256 stateTemp stagingDir : String}
    (plain : plainText indexSha256 = true ∧ plainText stateTemp = true ∧
      plainText stagingDir = true) :
    readTransactionText (transactionText indexSha256 stateTemp stagingDir) =
      .ok ⟨2, indexSha256, stateTemp, stagingDir, []⟩ := by
  have index : quotedAfter indexStart (transactionText indexSha256 stateTemp stagingDir) =
      indexSha256 := by
    simp only [transactionText, stagingBefore, stateTempBefore, String.append_assoc]
    rw [← String.append_assoc]
    exact quotedAfter_append plain.1 (by simp)
  have state : quotedAfter (stateTempBefore indexSha256)
      (transactionText indexSha256 stateTemp stagingDir) = stateTemp := by
    simp only [transactionText, stagingBefore, String.append_assoc]
    rw [← String.append_assoc]
    exact quotedAfter_append plain.2.1 (by simp)
  have staging : quotedAfter (stagingBefore indexSha256 stateTemp)
      (transactionText indexSha256 stateTemp stagingDir) = stagingDir :=
    quotedAfter_append plain.2.2 (by decide)
  simp only [readTransactionText, index, state, staging]
  rw [ensure_of trivial]
  rfl

/-- The names of temporaries need no escapes. -/
theorem plainText_append {start : String} (nonce : Nonce) (plain : plainText start = true) :
    plainText (start ++ nonce.text) = true := by
  rw [plainText, String.toList_append, List.all_append, Bool.and_eq_true]
  refine ⟨plain, List.all_eq_true.mpr fun character member => ?_⟩
  rcases nonce.mem_text member with digit | rfl
  · simp [Char.isAlphanum, digit]
  · decide

/-- The format reads back what it writes. -/
theorem textFormat_lawful : textFormat.Lawful where
  readState state bytes written := by
    obtain ⟨schema, indexSha256, records⟩ := state
    simp only [textFormat, bind_eq_ok, ensure_eq_ok] at written
    obtain ⟨_, ⟨rfl, rfl, plain⟩, final⟩ := written
    obtain rfl : textBytes (stateText indexSha256) = bytes := Except.ok.inj final
    simp only [textFormat, decodeText_textBytes]
    exact readStateText_stateText plain
  readTransaction transaction bytes written := by
    obtain ⟨schema, indexSha256, stateTemp, stagingDir, records⟩ := transaction
    simp only [textFormat, bind_eq_ok, ensure_eq_ok] at written
    obtain ⟨_, ⟨rfl, rfl, plain⟩, final⟩ := written
    obtain rfl : textBytes (transactionText indexSha256 stateTemp stagingDir) = bytes :=
      Except.ok.inj final
    simp only [textFormat, decodeText_textBytes]
    exact readTransactionText_transactionText plain
  together state bytes stateTemp staging written := by
    obtain ⟨schema, indexSha256, records⟩ := state
    simp only [textFormat, bind_eq_ok, ensure_eq_ok] at written
    obtain ⟨_, ⟨rfl, rfl, plain⟩, final⟩ := written
    simp only [textFormat, bind_eq_ok, ensure_eq_ok]
    exact ⟨_, (), ⟨trivial, trivial, plain, plainText_append stateTemp (by decide),
      plainText_append staging (by decide)⟩, rfl⟩

namespace Small

/-- The digest of an index without packages, which is one line break. -/
def indexSha256 : List UInt8 → Sha256Digest := fun _ =>
  ⟨"01ba4719c80b6fe911b091a7c05124b64eeece964e09c058ef8f9805daca546b", by decide +kernel⟩

/-- The state of an index without packages. -/
def emptyState : MaterializationState :=
  ⟨2, "01ba4719c80b6fe911b091a7c05124b64eeece964e09c058ef8f9805daca546b", []⟩

/-- The surroundings of a run of a process. -/
def surroundings (process : Nat) : Surroundings :=
  ⟨⟨process, 1⟩, ⟨process, 2⟩, ⟨process, 3⟩, fun _ => true⟩

/-- An archive of a package. -/
def archive (name : PackageName) (version : RPackageVersion) : MaterializationArtifact where
  identity := (release name version []).identity
  version := version
  artifact := ⟨"objects/sha256/01", some [0], indexSha256 [], 1⟩
  metadata := (release name version []).metadata
  publication := none
  dependencies := []

end Small

end Rsolve
