/-!
# `Packetizer.Audio.Layout`: channel layouts of an interleaved stream

A coding mode names the front and rear channels of an A/52 stream;
the low-frequency channel (LFE) stands beside it. `CodingMode.ofCount`
picks a mode from a plain channel count, `CodingMode.ofMask` from the
speaker mask of a WAVE file, and both keep what the caller has already
decided.
-/

set_option autoImplicit false

namespace Packetizer

/-- The format of the samples that are handed to a codec. -/
inductive SampleFormat where
  | u8 | s16 | s20 | s24 | s32 | float | double | s8
  deriving DecidableEq

/-- The name of a sample format. -/
def SampleFormat.name : SampleFormat → String
  | u8 => "U8"
  | s16 => "S16"
  | s20 => "S20"
  | s24 => "S24"
  | s32 => "S32"
  | float => "Float"
  | double => "Double"
  | s8 => "S8"

/-- An A/52 audio coding mode, the LFE aside. -/
inductive CodingMode where
  | dualMono
  | mono
  | stereo
  /-- Left, centre, right. -/
  | front3
  /-- Left, right, one surround. -/
  | front2rear1
  /-- Left, centre, right, one surround. -/
  | front3rear1
  /-- Left, right, two surrounds. -/
  | front2rear2
  /-- Left, centre, right, two surrounds. -/
  | front3rear2
  deriving DecidableEq

namespace CodingMode

/-- The full-bandwidth channels of a mode. -/
def channels : CodingMode → UInt8
  | dualMono => 2
  | mono => 1
  | stereo => 2
  | front3 => 3
  | front2rear1 => 3
  | front3rear1 => 4
  | front2rear2 => 4
  | front3rear2 => 5

/-- Front and rear channels, as a mode is written. -/
def text : CodingMode → String
  | dualMono => "1+1"
  | mono => "1/0"
  | stereo => "2/0"
  | front3 => "3/0"
  | front2rear1 => "2/1"
  | front3rear1 => "3/1"
  | front2rear2 => "2/2"
  | front3rear2 => "3/2"

/-- The full-bandwidth channels of a stream: all, or one less when one
of them is the LFE. A stream without channels has no LFE to give. -/
def fullChannels (channels : UInt8) (lfe : Bool) : Option UInt8 :=
  if lfe then
    if channels = 0 then none else some (channels - 1)
  else some channels

/-- The mode of a plain stream with `full` full-bandwidth channels. -/
def ofFull? (full : UInt8) : Option CodingMode :=
  match full.toNat with
  | 1 => some mono
  | 2 => some stereo
  | 3 => some front3
  | 4 => some front2rear2
  | 5 => some front3rear2
  | _ => none

/-- The mode whose speakers, the LFE aside, are those of the mask. -/
def ofSpeakers? (mask : UInt32) (full : UInt8) : Option CodingMode :=
  match mask.toNat, full.toNat with
  | 0x04, 1 => some mono
  | 0x03, 2 => some stereo
  | 0x07, 3 => some front3
  | 0x103, 3 => some front2rear1
  | 0x107, 4 => some front3rear1
  | 0x33, 4 => some front2rear2
  | 0x37, 5 => some front3rear2
  | 0x607, 5 => some front3rear2
  | _, _ => none

/-- The mode and LFE of a plain stream. An undecided LFE is there for
six channels only. A mode that is given is kept when its channels
agree with the stream. -/
def ofCount (channels : UInt8) (mode : Option CodingMode) (lfe : Option Bool) :
    Option (CodingMode × Bool) :=
  let lfe := lfe.getD (channels = 6)
  match fullChannels channels lfe with
  | none => none
  | some full =>
      match mode with
      | some mode => if mode.channels = full then some (mode, lfe) else none
      | none => (ofFull? full).map (·, lfe)

/-- The bit of the LFE in a speaker mask. -/
def lfeSpeaker : UInt32 := 0x08

/-- The mode and LFE of a stream with a speaker mask. An undecided LFE
is there when the mask has its bit. A mode that is given is kept when
its channels agree with the stream, whatever the mask says. -/
def ofMask (channels : UInt8) (mask : UInt32) (mode : Option CodingMode)
    (lfe : Option Bool) : Option (CodingMode × Bool) :=
  let lfe := lfe.getD (mask &&& lfeSpeaker != 0)
  match fullChannels channels lfe with
  | none => none
  | some full =>
      match mode with
      | some mode => if mode.channels = full then some (mode, lfe) else none
      | none =>
          -- Without an LFE its bit stays, and then no layout fits the mask.
          let speakers := if lfe then mask &&& ~~~ lfeSpeaker else mask
          (ofSpeakers? speakers full).map (·, lfe)

end CodingMode

/-- What a change of channel order needs to know about a buffer. -/
structure StreamLayout where
  channels : UInt8
  sampleFormat : SampleFormat
  mode : Option CodingMode
  lfe : Bool
  deriving DecidableEq

end Packetizer
