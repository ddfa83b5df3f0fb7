import Packetizer.Encoder.Error

/-!
# `Packetizer.Settings`: how a stream is to be encoded

The settings of a stream, with defaults for all of them.
`Settings.fillLayout` decides the channel layout where it is open, and
`Settings.requireFixedRate` is for codecs whose output size follows
from the input alone.
-/

set_option autoImplicit false

namespace Packetizer

/-- How a codec spends bits over time. -/
inductive RateMode where
  | constant
  | variable
  deriving DecidableEq

/-- Reads the name of a rate mode, in any case. A name that is unknown
is given back in lower case. -/
def RateMode.parse (text : String) : Except String RateMode :=
  match text.toLower with
  | "cbr" => .ok .constant
  | "vbr" => .ok .variable
  | other => .error s!"unknown encoding mode: {other}"

/-- The quality of a stream that asks for none. -/
def defaultQuality : UInt16 := 220

/-- The dialogue level of a stream that asks for none. -/
def defaultDialogueLevel : UInt8 := 31

/-- How a stream is to be encoded. -/
structure Settings where
  channels : UInt8 := 2
  rate : SampleRate := .hz48000
  sampleFormat : SampleFormat := .float
  mode : Option CodingMode := none
  lfe : Option Bool := none
  speakers : Option UInt32 := none
  rateMode : RateMode := .constant
  /-- In kbps; zero leaves the choice to the codec. -/
  bitrate : UInt32 := 0
  quality : UInt16 := defaultQuality
  dialogueLevel : UInt8 := defaultDialogueLevel
  framesPerPacket : Option FrameCount := none
  deriving DecidableEq

namespace Settings

/-- The mode and LFE that fit the channels, by the speaker mask when
there is one. -/
def fittingLayout (s : Settings) : Option (CodingMode × Bool) :=
  match s.speakers with
  | some mask => CodingMode.ofMask s.channels mask s.mode s.lfe
  | none => CodingMode.ofCount s.channels s.mode s.lfe

/-- Decides the mode and the LFE. When no layout fits, both stay as
they are and opening a session can refuse them. -/
def fillLayout (s : Settings) : Settings :=
  match s.fittingLayout with
  | some (mode, lfe) => { s with mode := some mode, lfe := some lfe }
  | none => s

/-- Decides the size of a packet where it is open. -/
def fillPacket (s : Settings) (frames : FrameCount) : Settings :=
  { s with framesPerPacket := some (s.framesPerPacket.getD frames) }

/-- Refuses what a codec of fixed rate cannot honour: other samples
than single precision ones, control of the rate, and A/52 metadata. -/
def requireFixedRate (s : Settings) (codec : String) : Except SetupFault Unit :=
  if s.sampleFormat ≠ .float then .error (.sampleFormat codec s.sampleFormat)
  else if s.bitrate ≠ 0 then .error (.bitrate codec s.bitrate.toNat)
  else if s.rateMode ≠ .constant ∨ s.quality ≠ defaultQuality then
    .error (.variableRate codec)
  else if s.dialogueLevel ≠ defaultDialogueLevel then .error (.dialogueLevel codec)
  else .ok ()

/-- The layout that a change of channel order works on. -/
def layout (s : Settings) : StreamLayout :=
  ⟨s.channels, s.sampleFormat, s.mode, s.lfe.getD false⟩

end Settings

end Packetizer
