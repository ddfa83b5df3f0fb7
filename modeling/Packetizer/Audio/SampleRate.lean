import Packetizer.Text.Blank
import Packetizer.Text.Numeral

/-!
# `Packetizer.Audio.SampleRate`: the supported sample rates

Ten rates, each with its value in hertz. `SampleRate.ofHz` goes back
from the value, and `SampleRate.parse` from its numeral with white
space around it.
-/

set_option autoImplicit false

namespace Packetizer

/-- A supported number of sample frames per second. -/
inductive SampleRate where
  | hz8000 | hz11025 | hz16000 | hz22050 | hz24000
  | hz32000 | hz44100 | hz48000 | hz96000 | hz192000
  deriving DecidableEq

/-- Why there is no such rate. -/
inductive RateError where
  /-- No supported rate has this many hertz. -/
  | unsupported (hz : UInt64)
  /-- The text is no numeral. -/
  | notANumber
  deriving DecidableEq

/-- The wording of each cause. -/
def RateError.message : RateError → String
  | .unsupported hz => s!"unsupported sample rate: {hz} Hz"
  | .notANumber => "sample rate is not a number"

namespace SampleRate

/-- The rate in hertz. -/
def hz : SampleRate → UInt64
  | hz8000 => 8000
  | hz11025 => 11025
  | hz16000 => 16000
  | hz22050 => 22050
  | hz24000 => 24000
  | hz32000 => 32000
  | hz44100 => 44100
  | hz48000 => 48000
  | hz96000 => 96000
  | hz192000 => 192000

/-- The rate of so many hertz. -/
def ofHz : UInt64 → Except RateError SampleRate
  | 8000 => .ok hz8000
  | 11025 => .ok hz11025
  | 16000 => .ok hz16000
  | 22050 => .ok hz22050
  | 24000 => .ok hz24000
  | 32000 => .ok hz32000
  | 44100 => .ok hz44100
  | 48000 => .ok hz48000
  | 96000 => .ok hz96000
  | 192000 => .ok hz192000
  | value => .error (.unsupported value)

/-- The numeral of the rate in hertz. -/
def text (rate : SampleRate) : String := toString rate.hz.toNat

/-- Reads a rate in hertz, with white space around it allowed. -/
def parse (text : String) : Except RateError SampleRate :=
  match Numeral.ofChars UInt64.size (Text.trim text.toList) with
  | .ok value => ofHz (UInt64.ofNat value)
  | .error _ => .error .notANumber

/-- Rates are ordered by their value. -/
instance : Ord SampleRate := ⟨fun a b => compare a.hz b.hz⟩

end SampleRate

end Packetizer
