import Packetizer.Audio.ChannelOrder
import Packetizer.Codec.Lease
import Packetizer.Stream.Sink

/-!
# `Packetizer.Encoder.PacketWriter`: from samples to packets in a sink

A `PacketWriter` holds the codec session, the frame buffer and the
hook, and counts what it has written. `PacketWriter.emit` is one call
of the codec: the hook changes the samples, the codec encodes them,
and the bytes that its result code announces go to the sink.
`PacketWriter.emitAll` goes on without samples until the codec has
nothing left.
-/

set_option autoImplicit false

namespace Packetizer

/-- A codec session on its way into sinks. -/
structure PacketWriter (σ η : Type) where
  lease : Lease σ
  frame : FrameBuffer
  layout : StreamLayout
  hook : Option η
  /-- The packets that sinks have taken in full. Words of 64 bits hold this count
  and the next one for the first `2 ^ 33` calls of the codec (`counts_fit_words`). -/
  packets : Nat
  /-- The bytes of those packets. -/
  bytes : Nat

/-- What a call of the codec gave: the bytes it wrote, the samples as
the hook left them, the writer and the sink afterwards. -/
structure Emission (σ η κ : Type) where
  outcome : Except EncodeError Nat
  buffer : List Sample
  writer : PacketWriter σ η
  sink : κ
  events : List Event

namespace PacketWriter

variable {σ η κ : Type}

/-- Lets the hook change the samples. Without samples there is nothing
to change. -/
def remap [RemapHook η] (w : PacketWriter σ η) (samples : List Sample) :
    List Sample × PacketWriter σ η × List Event :=
  if samples.isEmpty then (samples, w, [])
  else
    match w.hook with
    | none => (samples, w, [])
    | some hook =>
        let (given, hook) := RemapHook.apply hook w.layout samples
        (given, { w with hook := some hook }, [.remapped w.layout samples])

/-- Whether a result code cannot be the number of bytes in the frame
buffer. -/
def isBadCode (w : PacketWriter σ η) (code : Int32) : Bool :=
  code < 0 || w.frame.size < code.toInt.toNat

/-- Writes the packet that a result code announces. It counts once the
sink has taken all of it. -/
def deliver [Sink κ] (w : PacketWriter σ η) (k : κ) (given : List Sample) (code : Int32) :
    Emission σ η κ :=
  if w.isBadCode code then
    ⟨.error (.coding w.packets code), given, w, k, [.logged (.codecFailed w.packets code)]⟩
  else
    let size := code.toInt.toNat
    if size = 0 then ⟨.ok 0, given, w, k, []⟩
    else
      let written := Sink.writeAll k (w.frame.front size)
      match written.outcome with
      | .error e => ⟨.error (.stream e), given, w, written.sink, written.events⟩
      | .ok () =>
          ⟨.ok size, given, { w with packets := w.packets + 1, bytes := w.bytes + size },
            written.sink,
            written.events ++ [.logged (.emitted w.packets given.length size)]⟩

/-- One call of the codec. The hook comes first, also when the session
turns out to be released. -/
def emit [CodecSession σ] [RemapHook η] [Sink κ] (w : PacketWriter σ η) (k : κ)
    (samples : List Sample) : Emission σ η κ :=
  let (given, w, events) := w.remap samples
  match w.lease with
  | .released _ => ⟨.error .finalized, given, w, k, events⟩
  | .held session =>
      let coded := CodecSession.encodeQuantum session w.frame given
      let w := { w with lease := .held coded.session, frame := coded.frame }
      let delivered := w.deliver k given coded.code
      { delivered with
        events := events ++ .coded samples given coded.code :: delivered.events }

/-- A bound on the packets that calls without samples still give. -/
def backlog [CodecSession σ] (w : PacketWriter σ η) : Nat :=
  match w.lease with
  | .held session => CodecSession.backlog session w.frame
  | .released _ => 0

/-- Delivery leaves the session and the frame buffer alone. -/
theorem backlog_deliver [CodecSession σ] [Sink κ] (w : PacketWriter σ η) (k : κ)
    (given : List Sample) (code : Int32) :
    (w.deliver k given code).writer.backlog = w.backlog := by
  unfold deliver
  split
  · rfl
  · dsimp only
    split
    · rfl
    · split <;> rfl

/-- Only a positive code up to the size of the frame buffer makes a
packet. -/
theorem code_of_deliver [Sink κ] (w : PacketWriter σ η) (k : κ) (given : List Sample)
    (code : Int32) {n : Nat} (h : (w.deliver k given code).outcome = .ok (n + 1)) :
    0 < code ∧ code.toInt ≤ w.frame.size := by
  unfold deliver at h
  split at h
  · cases h
  · rename_i hgood
    dsimp only at h
    split at h
    · cases h
    · rename_i hsize
      simp only [isBadCode, Bool.or_eq_true, decide_eq_true_eq, not_or, Int32.lt_iff_toInt_lt,
        Int32.toInt_zero] at hgood ⊢
      omega

/-- A packet that comes out of no samples is one less to come. -/
theorem backlog_emit_nil [CodecSession σ] [RemapHook η] [Sink κ] (w : PacketWriter σ η)
    (k : κ) {n : Nat} (h : (w.emit k []).outcome = .ok (n + 1)) :
    (w.emit k []).writer.backlog < w.backlog := by
  obtain ⟨lease, frame, layout, hook, packets, bytes⟩ := w
  cases lease with
  | released => cases h
  | held session =>
      obtain ⟨hpos, hsize⟩ := code_of_deliver _ _ _ _ h
      -- Delivery keeps the backlog, so it is the codec's own that gets smaller.
      refine Nat.lt_of_le_of_lt (Nat.le_of_eq (backlog_deliver _ _ _ _)) ?_
      refine CodecSession.backlog_lt session frame hpos ?_
      rw [← CodecSession.size_frame session frame []]
      exact hsize

/-- Calls the codec without samples until it gives no packet. -/
def drain [CodecSession σ] [RemapHook η] [Sink κ] (w : PacketWriter σ η) (k : κ) :
    Emission σ η κ :=
  match _h : w.emit k [] with
  | ⟨.ok (_ + 1), _, w, k, events⟩ =>
      let rest := drain w k
      { rest with events := events ++ rest.events }
  | emission => emission
termination_by w.backlog
decreasing_by
  have := backlog_emit_nil _ _ (congrArg Emission.outcome _h)
  rwa [_h] at this

/-- Encodes some samples and drains the codec. A codec that gives no
packet for the samples is drained already. -/
def emitAll [CodecSession σ] [RemapHook η] [Sink κ] (w : PacketWriter σ η) (k : κ)
    (samples : List Sample) : Emission σ η κ :=
  match w.emit k samples with
  | ⟨.ok (_ + 1), _, w, k, events⟩ =>
      let rest := w.drain k
      { rest with events := events ++ rest.events }
  | emission => emission

end PacketWriter

end Packetizer
