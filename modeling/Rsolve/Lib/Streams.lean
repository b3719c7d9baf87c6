import Mathlib.Data.List.Basic

/-!
# Readers and writers of bytes

A reader fills a buffer with some bytes of what it still has, as many as it likes; a writer takes
all bytes it is given or fails. A reader delivers a stream when it neither fails nor drops bytes and
gives none only at the end, and a writer records when it keeps the bytes in order. What a program
makes of a stream is then said without the sizes of the pieces.
-/
namespace Streams

universe u v

/-- A reader, with what becomes of it on each read. -/
structure Reader (ε : Type u) (σ : Type v) where
  /-- Read into a buffer of some capacity. -/
  read : σ → Nat → Except ε (List UInt8) × σ
  /-- No more bytes are read than the buffer holds. -/
  bounded : ∀ {state capacity bytes next}, read state capacity = (.ok bytes, next) →
    bytes.length ≤ capacity

/-- A writer, with what becomes of it on each write. -/
structure Writer (ε : Type u) (ω : Type v) where
  /-- Write all of some bytes. -/
  writeAll : ω → List UInt8 → Except ε Unit × ω

variable {ε : Type u} {σ ω : Type v}

/-- The reader has some bytes left in each state, and a read takes a piece off their front, which is
empty only when nothing is left. -/
def Reader.Delivers (reader : Reader ε σ) (remaining : σ → List UInt8) : Prop :=
  ∀ state capacity, 0 < capacity → ∃ bytes next, reader.read state capacity = (.ok bytes, next) ∧
    remaining state = bytes ++ remaining next ∧ (bytes = [] → remaining state = [])

/-- The writer has some bytes in each state, and a write puts its bytes behind them. -/
def Writer.Records (writer : Writer ε ω) (written : ω → List UInt8) : Prop :=
  ∀ output bytes, ∃ next, writer.writeAll output bytes = (.ok (), next) ∧
    written next = written output ++ bytes

/-- A reader of a stream in pieces of given sizes, at least one byte each. Where the sizes end, a
piece fills the buffer. -/
def pieces : Reader ε (List UInt8 × List Nat) where
  read state capacity :=
    let count := min capacity (max 1 (state.2.headD capacity))
    (.ok (state.1.take count), (state.1.drop count, state.2.tail))
  bounded {state capacity bytes next} read := by
    simp only [Prod.mk.injEq, Except.ok.injEq] at read
    rw [← read.1, List.length_take]
    omega

/-- Pieces of any sizes deliver the stream. -/
theorem pieces_delivers : (pieces : Reader ε (List UInt8 × List Nat)).Delivers Prod.fst := by
  intro state capacity positive
  refine ⟨_, _, rfl, (List.take_append_drop _ _).symm, fun nothing => ?_⟩
  rcases List.take_eq_nil_iff.mp nothing with none | empty
  · omega
  · exact empty

/-- A buffer that grows. -/
def buffer : Writer ε (List UInt8) where
  writeAll output bytes := (.ok (), output ++ bytes)

/-- A buffer records what is written. -/
theorem buffer_records : (buffer : Writer ε (List UInt8)).Records id :=
  fun _ _ => ⟨_, rfl, rfl⟩

end Streams
