import Packetizer.Codec.FrameBuffer
import Packetizer.Log
import Packetizer.Settings

/-!
# `Packetizer.Codec.Basic`: codecs and their sessions

A `Codec` completes settings and opens sessions. A `CodecSession` is
the running state of one stream: any state machine that answers each
quantum with a result code and writes into the frame buffer it is
given. Its `backlog` bounds the packets that it can still produce from
no input, which is what makes draining it end.
-/

set_option autoImplicit false

namespace Packetizer

/-- What one call of a codec gives: the result code, the frame buffer
as the codec leaves it, and the session afterwards. A code is the
number of bytes written, zero for no packet, negative for a failure. -/
structure Coded (σ : Type) where
  code : Int32
  frame : FrameBuffer
  session : σ

/-- The running state of a codec. -/
class CodecSession (σ : Type) where
  /-- The sample frames of a full quantum. -/
  samplesPerFrame : σ → FrameCount
  /-- The bytes that one call writes at most. -/
  maxCodedSize : σ → Nat
  /-- Encodes interleaved samples, possibly less than a quantum, and
  none when the session is drained. -/
  encodeQuantum : σ → FrameBuffer → List Sample → Coded σ
  /-- The session as its release leaves it. -/
  close : σ → σ
  /-- A bound on the packets still to come out of a drained session. -/
  backlog : σ → FrameBuffer → Nat
  /-- A codec writes into the buffer and cannot resize it. -/
  size_frame : ∀ s frame samples,
    (encodeQuantum s frame samples).frame.size = frame.size
  /-- A packet that comes out of no input is one less to come. -/
  backlog_lt : ∀ s frame, 0 < (encodeQuantum s frame []).code →
    (encodeQuantum s frame []).code.toInt ≤ frame.size →
    backlog (encodeQuantum s frame []).session (encodeQuantum s frame []).frame
      < backlog s frame

/-- A way to encode streams. -/
class Codec (γ : Type) (σ : outParam Type) where
  /-- The name of the codec. -/
  name : γ → String
  /-- The settings with every open choice made. -/
  complete : γ → Settings → Settings := fun _ s => s.fillLayout
  /-- A session for some settings, and what is logged about it. -/
  openSession : γ → Settings → Except SetupFault (σ × List Message)

/-- The settings of a codec when nothing is asked for. -/
def defaultSettings {γ σ : Type} [Codec γ σ] (codec : γ) : Settings :=
  Codec.complete codec {}

end Packetizer
