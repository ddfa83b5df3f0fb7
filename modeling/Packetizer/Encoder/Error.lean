import Packetizer.Audio.FrameCount
import Packetizer.Audio.Layout
import Packetizer.Stream.Error

/-!
# `Packetizer.Encoder.Error`: why encoding failed

`SetupFault` holds the reasons why no session can be opened and
`EncodeError` everything an encoder can answer instead of success.
The two errors that only reject one call are recoverable; after any
other one the encoder is spent.
-/

set_option autoImplicit false

namespace Packetizer

/-- Why no codec session can be opened. -/
inductive SetupFault where
  /-- The codec has no layout with so many channels. -/
  | channelCount (codec : String) (most : Nat) (channels : Nat)
  /-- The codec does not take samples of this format. -/
  | sampleFormat (codec : String) (format : SampleFormat)
  /-- The codec has no target bitrate. -/
  | bitrate (codec : String) (kbps : Nat)
  /-- The codec has no variable bitrate. -/
  | variableRate (codec : String)
  /-- The codec carries no dialogue level. -/
  | dialogueLevel (codec : String)
  /-- A packet would hold nothing. -/
  | emptyPacket
  /-- The codec has no packet of this size. -/
  | packetSize (frames : FrameCount)
  /-- A stream without channels. -/
  | noChannels
  /-- The session takes no samples. -/
  | emptyFrame
  /-- The session never writes a byte. -/
  | noCodedSize
  /-- A reason stated by the codec itself. -/
  | stated (reason : String)
  deriving DecidableEq

/-- The wording of each reason. -/
def SetupFault.message : SetupFault → String
  | .channelCount codec most channels =>
      s!"{codec} supports 1 to {most} channels, got {channels}"
  | .sampleFormat codec format => s!"{codec} takes float input, got {format.name}"
  | .bitrate codec kbps => s!"{codec} has no target bitrate, got {kbps} kbps"
  | .variableRate codec => s!"{codec} has no VBR mode"
  | .dialogueLevel codec => s!"{codec} carries no dialogue normalization"
  | .emptyPacket => "frames per packet must be positive"
  | .packetSize frames => s!"invalid frames per packet: {frames.text}"
  | .noChannels => "channel count must be positive"
  | .emptyFrame => "codec reported an empty frame"
  | .noCodedSize => "codec reported a zero maximum frame size"
  | .stated reason => reason

/-- What an encoder answers instead of success. -/
inductive EncodeError where
  /-- The samples are no whole number of frames. -/
  | ragged (samples channels : Nat)
  /-- Fewer samples were given than asked to encode. -/
  | insufficient (requested available : Nat)
  /-- No session could be opened. -/
  | setup (fault : SetupFault)
  /-- The codec failed on a packet, with this result code. -/
  | coding (packet : Nat) (code : Int32)
  /-- The stream has ended or has failed before. -/
  | finalized
  /-- Reading or writing failed. -/
  | stream (error : StreamError)
  deriving DecidableEq

namespace EncodeError

/-- The wording of each error. -/
def message : EncodeError → String
  | ragged samples channels =>
      "each channel must have an equal amount of samples " ++
        s!"({samples} samples for {channels} channels)"
  | insufficient requested available =>
      "samples contains less data than specified " ++
        s!"({available} of {requested} samples)"
  | setup fault => s!"initialization failed: {fault.message}"
  | coding packet code => s!"encoding error at frame {packet} (codec returned {code})"
  | finalized => "encoder session has already been finalized"
  | stream error => error.message

/-- Whether the encoder can go on after this error. -/
def isRecoverable : EncodeError → Bool
  | ragged _ _ => true
  | insufficient _ _ => true
  | _ => false

end EncodeError

end Packetizer
