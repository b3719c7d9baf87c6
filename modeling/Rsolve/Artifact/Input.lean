import Rsolve.Lib.Streams

/-!
# The bounded copy of an artifact

A downloaded artifact is copied from its stream into a partial file and hashed on the way. The
descriptor may declare the size; a hard limit holds otherwise. Sizes are 64-bit numbers that
saturate.
-/
open Streams

namespace Rsolve

/-- `CacheError`, as far as the copy and the check of an archive raise it. -/
inductive CacheError
  | io (operation path source : String)
  | sizeMismatch (expected actual : UInt64)
  | inputTooLarge (limit : UInt64)
  | invalidArchive (reason : String)
  | missingDescription
  | duplicateDescription
  | descriptionTooLarge (limit : Nat)
  | malformedDescription (reason : String)
  | duplicateDescriptionField (field : String)
  | descriptionFieldMismatch (field expected actual : String)
deriving DecidableEq, Repr

/-- `u64::saturating_add`. -/
def saturatingAdd (left : UInt64) (right : Nat) : UInt64 :=
  UInt64.ofNat (min (left.toNat + right) 18446744073709551615)

/-- The bytes that the buffer of the copy holds. -/
def copyBufferLength : UInt64 := 64 * 1024

/-- What the copy works on: the stream, the partial file, and the bytes hashed by either digest. -/
structure CopyState (σ ω : Type) where
  input : σ
  output : ω
  sha256 : List UInt8
  md5 : List UInt8

/-- The bytes to ask for next: what is left below the limit, and a single byte at the limit. -/
def copyCapacity (limit size : UInt64) : UInt64 :=
  if limit ≤ size then 1 else min (limit - size) copyBufferLength

/-- Saturating addition never wraps. -/
theorem toNat_saturatingAdd (left : UInt64) (right : Nat) :
    (saturatingAdd left right).toNat = min (left.toNat + right) 18446744073709551615 := by
  rw [saturatingAdd, UInt64.toNat_ofNat']
  omega

/-- A size grows with the bytes added, as long as it is below some limit. -/
theorem lt_saturatingAdd {limit size : UInt64} {count : Nat} (below : ¬ limit ≤ size)
    (positive : count ≠ 0) : size.toNat < (saturatingAdd size count).toNat := by
  rw [UInt64.le_iff_toNat_le] at below
  have bound := limit.toNat_lt
  rw [toNat_saturatingAdd]
  omega

/-- The result where the stream ends. -/
def copyEnd (expected : Option UInt64) (size : UInt64) : Except CacheError UInt64 :=
  match expected with
  | some declared => if size ≠ declared then .error (.sizeMismatch declared size) else .ok size
  | none => .ok size

/-- The error when the stream goes on at the limit. -/
def copyExcess (expected : Option UInt64) (hardLimit copied : UInt64) : CacheError :=
  match expected with
  | some declared => .sizeMismatch declared copied
  | none => .inputTooLarge hardLimit

variable {σ ω : Type}

/-- The loop of `copy_compressed_input`, with the bytes copied so far. -/
def copyLoop (reader : Reader String σ) (writer : Streams.Writer String ω) (expected : Option UInt64)
    (hardLimit : UInt64) (path : String) (size : UInt64) (state : CopyState σ ω) :
    Except CacheError UInt64 × CopyState σ ω :=
  let limit := expected.getD hardLimit
  match reader.read state.input (copyCapacity limit size).toNat with
  | (.error source, input) => (.error (.io "read artifact stream" path source), { state with input })
  | (.ok bytes, input) =>
    if bytes.length = 0 then (copyEnd expected size, { state with input })
    else
      match writer.writeAll state.output bytes with
      | (.error source, output) =>
        (.error (.io "write partial artifact" path source), { state with input, output })
      | (.ok (), output) =>
        let state : CopyState σ ω :=
          ⟨input, output, state.sha256 ++ bytes, state.md5 ++ bytes⟩
        let copied := saturatingAdd size bytes.length
        if limit ≤ size then (.error (copyExcess expected hardLimit copied), state)
        else copyLoop reader writer expected hardLimit path copied state
termination_by (expected.getD hardLimit).toNat - size.toNat
decreasing_by
  rename_i below
  have grows := lt_saturatingAdd below ‹_›
  have same : limit.toNat = (expected.getD hardLimit).toNat := rfl
  rw [UInt64.le_iff_toNat_le] at below
  omega

/-- `copy_compressed_input`. -/
def copyCompressedInput (reader : Reader String σ) (writer : Streams.Writer String ω)
    (expected : Option UInt64) (hardLimit : UInt64) (path : String) (state : CopyState σ ω) :
    Except CacheError UInt64 × CopyState σ ω :=
  copyLoop reader writer expected hardLimit path 0 state

/-- What the copy of a stream comes to. -/
def copyOutcome (expected : Option UInt64) (hardLimit : UInt64) (stream : List UInt8) :
    Except CacheError UInt64 :=
  match expected with
  | some declared =>
    if stream.length = declared.toNat then .ok declared
    else .error (.sizeMismatch declared
      (UInt64.ofNat (min stream.length (min (declared.toNat + 1) 18446744073709551615))))
  | none =>
    if stream.length ≤ hardLimit.toNat then .ok (UInt64.ofNat stream.length)
    else .error (.inputTooLarge hardLimit)

/-- Between two reads the bytes copied are within the limit, and they are the front of the stream,
which is written and hashed. -/
structure CopyState.Copied {σ ω : Type} (remaining : σ → List UInt8) (written : ω → List UInt8)
    (limit : UInt64) (stream : List UInt8) (start : CopyState σ ω) (size : UInt64)
    (state : CopyState σ ω) : Prop where
  within : size ≤ limit
  front : ∃ copied, copied.length = size.toNat ∧ stream = copied ++ remaining state.input ∧
    written state.output = written start.output ++ copied ∧
      state.sha256 = start.sha256 ++ copied ∧ state.md5 = start.md5 ++ copied

/-- What the end of a copy says of a stream. -/
structure CopyState.Ends {σ ω : Type} (remaining : σ → List UInt8) (written : ω → List UInt8)
    (expected : Option UInt64) (hardLimit : UInt64) (stream : List UInt8) (start : CopyState σ ω)
    (result : Except CacheError UInt64 × CopyState σ ω) : Prop where
  outcome : result.1 = copyOutcome expected hardLimit stream
  consumed : ∃ read, stream = read ++ remaining result.2.input ∧
    read.length ≤ (expected.getD hardLimit).toNat + 1
  copied : result.1.isOk = true → written result.2.output = written start.output ++ stream ∧
    result.2.sha256 = start.sha256 ++ stream ∧ result.2.md5 = start.md5 ++ stream

section Copying

variable {reader : Reader String σ} {writer : Streams.Writer String ω} {expected : Option UInt64}
  {hardLimit : UInt64} {path : String} {remaining : σ → List UInt8} {written : ω → List UInt8}
  {stream : List UInt8} {start : CopyState σ ω}

/-- The capacity is positive, and below the limit it does not reach past it. -/
theorem copyCapacity_spec (limit size : UInt64) :
    0 < (copyCapacity limit size).toNat ∧
      (limit ≤ size → (copyCapacity limit size).toNat = 1) ∧
        (¬ limit ≤ size → size.toNat + (copyCapacity limit size).toNat ≤ limit.toNat) := by
  unfold copyCapacity
  by_cases reached : limit ≤ size
  · rw [if_pos reached]
    exact ⟨by decide, fun _ => rfl, fun below => absurd reached below⟩
  · have below := reached
    rw [UInt64.le_iff_toNat_le] at below
    have left : (limit - size).toNat = limit.toNat - size.toNat :=
      UInt64.toNat_sub_of_le _ _ (UInt64.le_iff_toNat_le.mpr (by omega))
    have smaller : (min (limit - size) copyBufferLength).toNat =
        min (limit.toNat - size.toNat) copyBufferLength.toNat := by
      change (if limit - size ≤ copyBufferLength then limit - size else copyBufferLength).toNat = _
      rw [← left]
      split
      all_goals
        rename_i compared
        rw [UInt64.le_iff_toNat_le] at compared
        omega
    have roomy : copyBufferLength.toNat = 65536 := rfl
    rw [if_neg reached, smaller]
    exact ⟨by omega, fun reached' => absurd reached' reached, fun _ => by omega⟩

/-- The end of the stream between two reads. -/
theorem CopyState.Copied.ends_at_end {size : UInt64} {state : CopyState σ ω} {input : σ}
    (copied : CopyState.Copied remaining written (expected.getD hardLimit) stream start size state)
    (ended : remaining state.input = []) (last : remaining input = []) :
    CopyState.Ends remaining written expected hardLimit stream start
      (copyEnd expected size, { state with input }) := by
  obtain ⟨within, front, length, split, output, sha256, md5⟩ := copied
  rw [ended, List.append_nil] at split
  subst split
  rw [UInt64.le_iff_toNat_le] at within
  refine ⟨?_, ⟨stream, by rw [last, List.append_nil], by omega⟩, fun _ => ⟨output, sha256, md5⟩⟩
  cases expected with
  | none =>
    have limited : size.toNat ≤ hardLimit.toNat := within
    simp only [copyEnd, copyOutcome, length, limited, if_true, UInt64.ofNat_toNat]
  | some declared =>
    have limited : size.toNat ≤ declared.toNat := within
    have declaredBound := declared.toNat_lt
    by_cases same : size = declared
    · simp only [copyEnd, copyOutcome, length, same, ne_eq, not_true_eq_false, if_false, if_true]
    · have differs : size.toNat ≠ declared.toNat := fun equal => same (UInt64.toNat_inj.mp equal)
      have actual : min size.toNat (min (declared.toNat + 1) 18446744073709551615) = size.toNat := by
        omega
      simp only [copyEnd, copyOutcome, length, same, differs, actual, ne_eq, not_false_eq_true,
        if_true, if_false, UInt64.ofNat_toNat]

/-- A byte beyond the limit. -/
theorem CopyState.Copied.ends_beyond {size : UInt64} {state next : CopyState σ ω}
    {bytes : List UInt8}
    (copied : CopyState.Copied remaining written (expected.getD hardLimit) stream start size state)
    (reached : expected.getD hardLimit ≤ size) (single : bytes.length = 1)
    (left : remaining state.input = bytes ++ remaining next.input) :
    CopyState.Ends remaining written expected hardLimit stream start
      (.error (copyExcess expected hardLimit (saturatingAdd size bytes.length)), next) := by
  obtain ⟨within, front, length, split, -⟩ := copied
  rw [left, ← List.append_assoc] at split
  rw [UInt64.le_iff_toNat_le] at within reached
  have long := congrArg List.length split
  simp only [List.length_append, single] at long
  refine ⟨?_, ⟨_, split, ?_⟩, fun succeeded => nomatch succeeded⟩
  · cases expected with
    | none =>
      have exceeds : ¬ stream.length ≤ hardLimit.toNat := by
        have same : size.toNat = hardLimit.toNat := Nat.le_antisymm within reached
        omega
      simp only [copyExcess, copyOutcome, exceeds, if_false]
    | some declared =>
      have same : size.toNat = declared.toNat := Nat.le_antisymm within reached
      have differs : stream.length ≠ declared.toNat := by omega
      have actual : min stream.length (min (declared.toNat + 1) 18446744073709551615) =
          min (size.toNat + 1) 18446744073709551615 := by
        omega
      simp only [copyExcess, copyOutcome, differs, if_false, actual, saturatingAdd, single]
  · rw [List.length_append, single]
    omega

/-- A piece below the limit. -/
theorem CopyState.Copied.piece {limit size : UInt64} {state : CopyState σ ω} {input : σ}
    {output : ω} {bytes : List UInt8}
    (copied : CopyState.Copied remaining written limit stream start size state)
    (fits : size.toNat + bytes.length ≤ limit.toNat)
    (left : remaining state.input = bytes ++ remaining input)
    (recorded : written output = written state.output ++ bytes) :
    CopyState.Copied remaining written limit stream start (saturatingAdd size bytes.length)
      ⟨input, output, state.sha256 ++ bytes, state.md5 ++ bytes⟩ := by
  obtain ⟨-, front, length, split, output, sha256, md5⟩ := copied
  have bound := limit.toNat_lt
  have grown : (saturatingAdd size bytes.length).toNat = size.toNat + bytes.length := by
    rw [toNat_saturatingAdd]
    omega
  refine ⟨UInt64.le_iff_toNat_le.mpr (by omega), front ++ bytes, ?_, ?_, ?_, ?_, ?_⟩
  · rw [List.length_append, length, grown]
  · rw [split, left, List.append_assoc]
  · rw [recorded, output, List.append_assoc]
  · rw [sha256, List.append_assoc]
  · rw [md5, List.append_assoc]

/-- A copy that goes on from a state between two reads ends as the stream says. -/
theorem ends_copyLoop (delivers : reader.Delivers remaining) (records : writer.Records written)
    (size : UInt64) (state : CopyState σ ω)
    (copied : CopyState.Copied remaining written (expected.getD hardLimit) stream start size state) :
    CopyState.Ends remaining written expected hardLimit stream start
      (copyLoop reader writer expected hardLimit path size state) := by
  -- Every piece below the limit brings the copy closer to it.
  induction distance : (expected.getD hardLimit).toNat - size.toNat using Nat.strongRecOn
    generalizing size state with
  | ind distance ih =>
    obtain ⟨positive, atLimit, below⟩ := copyCapacity_spec (expected.getD hardLimit) size
    obtain ⟨bytes, input, read, left, ending⟩ := delivers state.input _ positive
    obtain ⟨output, wrote, recorded⟩ := records state.output bytes
    have bounded := reader.bounded read
    rw [copyLoop]
    simp only [read, wrote]
    by_cases nothing : bytes.length = 0
    · rw [if_pos nothing]
      have ended := ending (List.length_eq_zero_iff.mp nothing)
      refine copied.ends_at_end ended ?_
      rw [ended] at left
      exact (List.append_eq_nil_iff.mp left.symm).2
    · rw [if_neg nothing]
      by_cases reached : expected.getD hardLimit ≤ size
      · rw [if_pos reached]
        rw [atLimit reached] at bounded
        exact copied.ends_beyond reached (by omega) left
      · rw [if_neg reached]
        have fits := below reached
        have grows := lt_saturatingAdd reached nothing
        rw [UInt64.le_iff_toNat_le] at reached
        exact ih _ (by omega) _ _ (copied.piece (by omega) left recorded) rfl

end Copying

/-- The copy of a stream, however it is delivered: the result is what the length of the stream says, no
more than one byte beyond the limit is read, and a successful copy has written and hashed exactly the
stream. -/
theorem copyCompressedInput_ends (reader : Reader String σ) (writer : Streams.Writer String ω)
    (remaining : σ → List UInt8) (written : ω → List UInt8) (delivers : reader.Delivers remaining)
    (records : writer.Records written) (expected : Option UInt64) (hardLimit : UInt64)
    (path : String) (start : CopyState σ ω) :
    CopyState.Ends remaining written expected hardLimit (remaining start.input) start
      (copyCompressedInput reader writer expected hardLimit path start) := by
  refine ends_copyLoop delivers records 0 start ⟨?_, [], rfl, rfl, ?_, ?_, ?_⟩
  · rw [UInt64.le_iff_toNat_le]
    exact Nat.zero_le _
  all_goals rw [List.append_nil]

/-- The outcome is a success exactly for streams of the declared length, and without one for streams
within the hard limit. -/
theorem copyOutcome_eq_ok {expected : Option UInt64} {hardLimit size : UInt64}
    {stream : List UInt8} : copyOutcome expected hardLimit stream = .ok size ↔
      stream.length = size.toNat ∧ (expected = some size ∨ expected = none ∧ size ≤ hardLimit) := by
  cases expected with
  | none =>
    have bound := hardLimit.toNat_lt
    simp only [copyOutcome, reduceCtorEq, true_and, false_or, UInt64.le_iff_toNat_le]
    constructor
    · intro succeeded
      split at succeeded
      · next fits =>
        have length := congrArg UInt64.toNat (Except.ok.inj succeeded)
        rw [UInt64.toNat_ofNat', Nat.mod_eq_of_lt (by omega)] at length
        exact ⟨length, by omega⟩
      · cases succeeded
    · rintro ⟨length, fits⟩
      rw [length, if_pos fits, UInt64.ofNat_toNat]
  | some declared =>
    simp only [copyOutcome, Option.some.injEq, reduceCtorEq, false_and, or_false]
    constructor
    · intro succeeded
      split at succeeded
      · next length =>
        obtain rfl := Except.ok.inj succeeded
        exact ⟨length, rfl⟩
      · cases succeeded
    · rintro ⟨length, rfl⟩
      rw [if_pos length]

/-- Whatever pieces a stream comes in, the copy succeeds with a size exactly when the stream has that
length and it is the declared one, or none is declared and it is within the hard limit; it reads at
most one byte beyond the bound; on success it has written and hashed exactly the stream; and its
result is a function of the stream, the declared size and the limit. -/
theorem copyCompressedInput_spec (reader : Reader String σ) (writer : Streams.Writer String ω)
    (remaining : σ → List UInt8) (written : ω → List UInt8) (delivers : reader.Delivers remaining)
    (records : writer.Records written) (expected : Option UInt64) (hardLimit : UInt64)
    (path : String) (start : CopyState σ ω) :
    let stream := remaining start.input
    let run := copyCompressedInput reader writer expected hardLimit path start
    (∀ size, run.1 = .ok size ↔ stream.length = size.toNat ∧
      (expected = some size ∨ expected = none ∧ size ≤ hardLimit)) ∧
    (∃ read, stream = read ++ remaining run.2.input ∧
      read.length ≤ (expected.getD hardLimit).toNat + 1) ∧
    (run.1.isOk = true → written run.2.output = written start.output ++ stream ∧
      run.2.sha256 = start.sha256 ++ stream ∧ run.2.md5 = start.md5 ++ stream) ∧
    run.1 = copyOutcome expected hardLimit stream := by
  have ends := copyCompressedInput_ends reader writer remaining written delivers records expected
    hardLimit path start
  intro stream run
  have outcome : run.1 = copyOutcome expected hardLimit stream := ends.outcome
  refine ⟨fun size => ?_, ends.consumed, ends.copied, outcome⟩
  rw [outcome]
  exact copyOutcome_eq_ok

/-- Three bytes that come in pieces of one and two bytes are copied when three are declared. -/
theorem copyCompressedInput_pieces :
    (copyCompressedInput pieces buffer (some 3) 1024 "objects/partial"
      ⟨([31, 139, 8], [1, 2]), [], [], []⟩).1 = .ok 3 :=
  ((copyCompressedInput_spec pieces buffer Prod.fst id pieces_delivers buffer_records (some 3) 1024
    "objects/partial" ⟨([31, 139, 8], [1, 2]), [], [], []⟩).1 3).mpr ⟨rfl, .inl rfl⟩

end Rsolve
