import Packetizer.Codec.Basic

/-!
# `Packetizer.Codec.Lossless`: packets of Apple Lossless audio

A session of lossless audio looks at its settings and at the samples of
a call. The packets themselves are made by a `LosslessCoder`, about which
nothing is said but that it writes into the frame buffer it is given:
everything here is for any coder.
-/

set_option autoImplicit false

namespace Packetizer

/-- What a coder of lossless packets gives: the bytes of the packet, the
frame buffer as it leaves it, and its own state afterwards. -/
structure LosslessCoded (τ : Type) where
  size : Nat
  frame : FrameBuffer
  state : τ

/-- A coder of lossless packets. -/
class LosslessCoder where
  /-- What it remembers of a stream. -/
  State : Type
  /-- The bytes by which a packet can exceed its samples. -/
  maxHeaderBytes : Nat
  /-- The beginning of a stream of some rate, with so many frames in a
  packet and so many channels. -/
  begin : SampleRate → FrameCount → Nat → State
  /-- Encodes interleaved 16-bit levels. -/
  encode : State → FrameBuffer → List Int16 → LosslessCoded State
  /-- It writes into the buffer and cannot resize it. -/
  size_frame : ∀ state frame levels, (encode state frame levels).frame.size = frame.size

/-- The codec of lossless audio. -/
inductive Lossless where
  | lossless
  deriving DecidableEq

namespace Lossless

/-- The frames of a packet when nothing is asked for. -/
def defaultFrames : FrameCount := ⟨4096⟩

/-- The channels of a stream at most. -/
def maxChannels : Nat := 8

/-- The name of the codec. -/
def name : String := "ALAC"

variable [LosslessCoder]

/-- A stream of lossless audio. -/
structure Session where
  coder : LosslessCoder.State
  framesPerPacket : FrameCount
  channels : Nat

namespace Session

/-- Encodes up to a packet of whole frames. Nothing is kept back, so a
call without samples has nothing to drain. -/
def encodeQuantum (s : Session) (frame : FrameBuffer) (samples : List Sample) :
    Coded Session :=
  if samples.isEmpty then ⟨0, frame, s⟩
  else if s.framesPerPacket.samples s.channels < samples.length ∨
      samples.length % s.channels ≠ 0 then ⟨-1, frame, s⟩
  else
    let coded := LosslessCoder.encode s.coder frame (samples.map Sample.toLinear16)
    ⟨if coded.frame.size < coded.size then -1 else Int32.ofNat coded.size, coded.frame,
      { s with coder := coded.state }⟩

/-- Without samples there is no packet. -/
theorem code_encodeQuantum_nil (s : Session) (frame : FrameBuffer) :
    (s.encodeQuantum frame []).code = 0 := by
  simp [encodeQuantum]

end Session

instance : CodecSession Session where
  samplesPerFrame s := s.framesPerPacket
  maxCodedSize s := s.framesPerPacket.linearBytes s.channels + LosslessCoder.maxHeaderBytes
  encodeQuantum s frame samples := s.encodeQuantum frame samples
  close s := s
  backlog _ _ := 0
  size_frame s frame samples := by
    unfold Session.encodeQuantum
    split
    · rfl
    · split
      · rfl
      · exact LosslessCoder.size_frame _ _ _
  backlog_lt s frame h _ := by
    rw [s.code_encodeQuantum_nil frame] at h
    exact absurd h (by decide)

/-- A session for up to eight channels, of fixed rate, with packets
whose length is a positive 32-bit number of frames. -/
def openSession (settings : Settings) : Except SetupFault (Session × List Message) := do
  let channels := settings.channels.toNat
  if channels = 0 ∨ maxChannels < channels then
    throw (.channelCount name maxChannels channels)
  settings.requireFixedRate name
  let frames := settings.framesPerPacket.getD defaultFrames
  if frames.isZero ∨ UInt32.size ≤ frames.toNat then throw (.packetSize frames)
  return (⟨LosslessCoder.begin settings.rate frames channels, frames, channels⟩,
    [.losslessSession channels settings.rate frames])

instance : Codec Lossless Session where
  name _ := name
  complete _ settings := settings.fillLayout.fillPacket defaultFrames
  openSession _ settings := openSession settings

end Lossless

end Packetizer
