import Packetizer.Audio.FrameCount
import Packetizer.Text.Number

/-!
# `Packetizer.Summary`: what a finished stream amounts to

The duration of the audio, its packets and bytes and the average
bitrate, as one line. Seconds and bitrate are floating point numbers
in which every operation is rounded; only then are they cut to
decimal places.
-/

set_option autoImplicit false

namespace Packetizer

/-- The seconds of a duration as a number of the format: the
nanoseconds are divided first, then added to the seconds. -/
def Duration.inSeconds (d : Duration) (f : BinaryFormat) : Ratio :=
  let seconds := f.round (.ofNat d.seconds.toNat)
  let nanos := f.round (.ofNat d.nanos.toNat)
  let rest := f.round (nanos.div (.ofNat 1000000000))
  f.round (seconds.add rest)

/-- What a finished stream amounts to. -/
structure Summary where
  duration : Duration
  packets : Nat
  codec : String
  framesPerPacket : FrameCount
  bytes : Nat
  deriving DecidableEq

namespace Summary

/-- The average bitrate in kbps, zero for a stream without duration. -/
def bitrate (s : Summary) : Ratio :=
  let seconds := s.duration.inSeconds binary64
  if seconds.num = 0 then .ofNat 0
  else
    let bits := binary64.round ((binary64.round (.ofNat s.bytes)).scale 8)
    let rate := binary64.round (bits.div seconds)
    binary64.round (rate.div (.ofNat 1000))

/-- The summary in one line. -/
def text (s : Summary) : String :=
  let seconds := Text.fixed 3 (s.duration.inSeconds binary64)
  let kbps := Text.fixed 1 s.bitrate
  s!"encoded {seconds} s of audio into {s.packets} {s.codec} frames of " ++
    s!"{s.framesPerPacket.text} samples, {s.bytes} bytes, average bitrate {kbps} kbps"

end Summary

end Packetizer
