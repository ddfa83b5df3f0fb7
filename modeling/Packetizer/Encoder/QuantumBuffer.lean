import Packetizer.Encoder.Error
import Packetizer.Log

/-!
# `Packetizer.Encoder.QuantumBuffer`: gathering samples into quanta

A quantum is the block of interleaved samples that a codec takes in
one call. `QuantumBuffer.push` gathers samples of any number into
quanta and hands each full one to a consumer; what is left over is
carried to the next push.

The samples carried over stand at the front of a working buffer. What
stands behind them is scratch: the consumer is given the buffer itself
and may leave anything in it. The view of the buffer is `pending`, the
samples carried over.
-/

set_option autoImplicit false

namespace Packetizer

/-- The shape of a quantum: some frames of some channels. -/
structure Geometry where
  channels : Nat
  frames : Nat
  channels_pos : 0 < channels
  frames_pos : 0 < frames

/-- The samples of a quantum. There is no buffer for a quantum that a word
cannot count, so the product is not taken modulo `2 ^ 64`. -/
def Geometry.quantum (g : Geometry) : Nat := g.frames * g.channels

theorem Geometry.quantum_pos (g : Geometry) : 0 < g.quantum :=
  Nat.mul_pos g.frames_pos g.channels_pos

/-- A working buffer for one quantum. -/
structure QuantumBuffer where
  geometry : Geometry
  /-- The buffer up to the last sample that was ever placed. -/
  buffer : List Sample
  /-- The samples at the front that are carried over. -/
  carried : Nat

/-- What a consumer made of a quantum: whether it took it, the buffer
as it left it, and the consumer afterwards. -/
structure Consumed (α : Type) where
  outcome : Except EncodeError Unit
  buffer : List Sample
  consumer : α

/-- What a push gave: the number of quanta that were completed, the
buffer and the consumer afterwards, and what was logged before the
first and after the last quantum. -/
structure Gathered (α : Type) where
  outcome : Except EncodeError Nat
  buffer : QuantumBuffer
  consumer : α
  before : List Message
  after : List Message

namespace QuantumBuffer

/-- A buffer that carries nothing. -/
def empty (g : Geometry) : QuantumBuffer := ⟨g, [], 0⟩

/-- The channels of the stream. -/
def channels (b : QuantumBuffer) : Nat := b.geometry.channels

/-- The samples of a full quantum. -/
def quantum (b : QuantumBuffer) : Nat := b.geometry.quantum

/-- The samples carried over. -/
def pending (b : QuantumBuffer) : List Sample := b.buffer.take b.carried

/-- Refuses samples that are no whole number of frames. -/
def requireWholeFrames (b : QuantumBuffer) (samples : List Sample) : Except EncodeError Unit :=
  if samples.length % b.channels ≠ 0 then .error (.ragged samples.length b.channels)
  else .ok ()

/-- Places samples behind those carried over, on top of the scratch. -/
def place (b : QuantumBuffer) (samples : List Sample) : QuantumBuffer :=
  { b with
    buffer := b.pending ++ samples ++ b.buffer.drop (b.carried + samples.length)
    carried := b.carried + samples.length }

/-- The samples that fill the quantum. -/
def needed (b : QuantumBuffer) : Nat := b.quantum - b.carried

/-- The buffer as a consumer leaves it, with nothing carried. -/
def leave (b : QuantumBuffer) (buffer : List Sample) : QuantumBuffer :=
  { b with buffer := buffer, carried := 0 }

/-- Hands quanta to the consumer as long as the samples fill them and
places the rest. A consumer that fails ends it at once: the samples
that are left are lost, and so are those of its quantum. -/
def gather {α : Type} (consume : α → List Sample → Consumed α) (b : QuantumBuffer)
    (samples : List Sample) (consumer : α) (completed : Nat) :
    Except EncodeError Nat × QuantumBuffer × α :=
  if _h : (samples.take b.needed).length < b.needed then
    (.ok completed, b.place samples, consumer)
  else
    let consumed := consume consumer (b.pending ++ samples.take b.needed)
    match consumed.outcome with
    | .error e => (.error e, b.leave consumed.buffer, consumed.consumer)
    | .ok () =>
        gather consume (b.leave consumed.buffer) (samples.drop b.needed)
          consumed.consumer (completed + 1)
termination_by (samples.length, b.carried)
decreasing_by
  -- Only a buffer that already holds a quantum takes no sample.
  have hq : 0 < b.quantum := b.geometry.quantum_pos
  simp only [List.length_take, needed] at _h
  by_cases hneed : b.quantum ≤ b.carried
  · rw [show b.needed = 0 from by unfold needed; omega, List.drop_zero]
    exact Prod.Lex.right _ (by simp only [leave]; omega)
  · refine Prod.Lex.left _ _ ?_
    rw [List.length_drop, needed]
    omega

/-- Gathers samples. No samples at all are nothing to look at; any
others have to be whole frames. -/
def push {α : Type} (consume : α → List Sample → Consumed α) (b : QuantumBuffer)
    (samples : List Sample) (consumer : α) : Gathered α :=
  if samples.isEmpty then ⟨.ok 0, b, consumer, [], []⟩
  else
    match b.requireWholeFrames samples with
    | .error e => ⟨.error e, b, consumer, [], []⟩
    | .ok () =>
        let before := [.accumulating samples.length b.carried]
        match gather consume b samples consumer 0 with
        | (.error e, b, consumer) => ⟨.error e, b, consumer, before, []⟩
        | (.ok completed, b, consumer) =>
            ⟨.ok completed, b, consumer, before, [.gathered completed b.carried]⟩

/-- Gives out the samples carried over and carries nothing any more. -/
def takePending (b : QuantumBuffer) : List Sample × QuantumBuffer :=
  (b.pending, { b with carried := 0 })

end QuantumBuffer

end Packetizer
