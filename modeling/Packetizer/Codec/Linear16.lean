import Packetizer.Codec.Basic

/-!
# `Packetizer.Codec.Linear16`: uncompressed 16-bit audio

Packets of signed 16-bit levels, the high byte first (L16). A packet
is as long as its samples make it, and nothing is left to drain.
-/

set_option autoImplicit false

namespace Packetizer

/-- The codec of 16-bit linear audio. -/
inductive Linear16 where
  | linear16
  deriving DecidableEq

namespace Linear16

/-- The frames of a packet when nothing is asked for. -/
def defaultFrames : FrameCount := ⟨352⟩

/-- The channels of a stream at most. -/
def maxChannels : Nat := 8

/-- The name of the codec. -/
def name : String := "PCM"

/-- A stream of 16-bit linear audio. -/
structure Session where
  framesPerPacket : FrameCount
  channels : Nat
  deriving DecidableEq

/-- The samples as bytes. -/
def encode (samples : List Sample) : List UInt8 :=
  samples.flatMap fun s => bigEndian16 s.toLinear16

namespace Session

/-- Encodes up to a packet of samples. The size is answered as a
32-bit code, which holds it up to two thousand million bytes and wraps
around beyond. -/
def encodeQuantum (s : Session) (frame : FrameBuffer) (samples : List Sample) :
    Coded Session :=
  let size := samples.length * 2
  if s.framesPerPacket.samples s.channels < samples.length ∨ frame.size < size then
    ⟨-1, frame, s⟩
  else ⟨Int32.ofNat size, frame.overwrite (encode samples), s⟩

/-- Without samples there is no packet. -/
theorem code_encodeQuantum_nil (s : Session) (frame : FrameBuffer) :
    (s.encodeQuantum frame []).code = 0 := by
  simp [encodeQuantum]

end Session

instance : CodecSession Session where
  samplesPerFrame s := s.framesPerPacket
  maxCodedSize s := s.framesPerPacket.linearBytes s.channels
  encodeQuantum s frame samples := s.encodeQuantum frame samples
  close s := s
  backlog _ _ := 0
  size_frame s frame samples := by
    unfold Session.encodeQuantum
    dsimp only
    split <;> rfl
  backlog_lt s frame h _ := by
    rw [s.code_encodeQuantum_nil frame] at h
    exact absurd h (by decide)

/-- A session for up to eight channels, of fixed rate, with packets
that hold something. -/
def openSession (settings : Settings) : Except SetupFault (Session × List Message) := do
  let channels := settings.channels.toNat
  if channels = 0 ∨ maxChannels < channels then
    throw (.channelCount name maxChannels channels)
  settings.requireFixedRate name
  let frames := settings.framesPerPacket.getD defaultFrames
  if frames.isZero then throw .emptyPacket
  return (⟨frames, channels⟩, [.linearSession channels frames])

instance : Codec Linear16 Session where
  name _ := name
  complete _ settings := settings.fillLayout.fillPacket defaultFrames
  openSession _ settings := openSession settings

end Linear16

end Packetizer
