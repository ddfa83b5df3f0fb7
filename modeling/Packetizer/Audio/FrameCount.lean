import Packetizer.Audio.SampleRate

/-!
# `Packetizer.Audio.FrameCount`: counts of sample frames and their duration

A sample frame holds one sample of each channel. `FrameCount` counts
them in 64 bits, and `FrameCount.duration` turns a count into whole
seconds and the nanoseconds left over, rounded down.
-/

set_option autoImplicit false

namespace Packetizer

/-- A span of time. -/
structure Duration where
  seconds : UInt64
  /-- Below one thousand million when built by `Duration.ofParts`. -/
  nanos : UInt32
  deriving DecidableEq

/-- The span of some seconds and nanoseconds, where a thousand
million nanoseconds or more carry over into the seconds. -/
def Duration.ofParts (seconds : UInt64) (nanos : UInt32) : Duration :=
  if nanos < 1000000000 then ⟨seconds, nanos⟩
  else ⟨seconds + (nanos / 1000000000).toUInt64, nanos % 1000000000⟩

/-- A count of sample frames. -/
structure FrameCount where
  count : UInt64
  deriving DecidableEq

namespace FrameCount

/-- The count of a natural number, modulo `2 ^ 64`. -/
def ofNat (n : Nat) : FrameCount := ⟨UInt64.ofNat n⟩

/-- The count as a natural number. -/
def toNat (f : FrameCount) : Nat := f.count.toNat

/-- The count without any frame. -/
def zero : FrameCount := ⟨0⟩

instance : Inhabited FrameCount := ⟨zero⟩

instance : Add FrameCount := ⟨fun a b => ⟨a.count + b.count⟩⟩

instance : Sub FrameCount := ⟨fun a b => ⟨a.count - b.count⟩⟩

instance : Ord FrameCount := ⟨fun a b => compare a.count b.count⟩

/-- The interleaved samples that the frames occupy, counted in 64 bits. -/
def samples (f : FrameCount) (channels : Nat) : Nat := (f.count * UInt64.ofNat channels).toNat

/-- The bytes of those samples at 16 bits each, counted in 64 bits. -/
def linearBytes (f : FrameCount) (channels : Nat) : Nat :=
  (UInt64.ofNat (f.samples channels) * 2).toNat

theorem samples_eq_mod (f : FrameCount) (channels : Nat) :
    f.samples channels = f.toNat * channels % UInt64.size := by
  rw [samples, UInt64.toNat_mul, UInt64.toNat_ofNat']
  exact Nat.mul_mod_mod _ _ _

theorem linearBytes_eq_mod (f : FrameCount) (channels : Nat) :
    f.linearBytes channels = f.toNat * channels * 2 % UInt64.size := by
  rw [linearBytes, UInt64.toNat_mul, UInt64.toNat_ofNat', samples_eq_mod]
  show f.toNat * channels % UInt64.size % UInt64.size * 2 % UInt64.size = _
  rw [Nat.mod_mod, Nat.mod_mul_mod]

/-- Below the bound of a word the samples are the product. -/
theorem samples_of_lt {f : FrameCount} {channels : Nat}
    (h : f.toNat * channels < UInt64.size) : f.samples channels = f.toNat * channels := by
  rw [samples_eq_mod, Nat.mod_eq_of_lt h]

theorem linearBytes_of_lt {f : FrameCount} {channels : Nat}
    (h : f.toNat * channels * 2 < UInt64.size) :
    f.linearBytes channels = f.samples channels * 2 := by
  rw [linearBytes_eq_mod, Nat.mod_eq_of_lt h, samples_of_lt (by omega)]

/-- The whole frames among some interleaved samples. -/
def ofSamples (samples channels : Nat) : FrameCount := ofNat (samples / channels)

/-- The whole frames among some interleaved samples, which a stream
without channels does not have. -/
def ofSamples? (samples channels : Nat) : Option FrameCount :=
  if channels = 0 then none else some (ofSamples samples channels)

/-- Whether there is no frame. -/
def isZero (f : FrameCount) : Bool := f.count == 0

/-- Reads the numeral of a count. -/
def parse (text : String) : Except NumeralError FrameCount :=
  (Numeral.read UInt64.size text).map ofNat

/-- The numeral of the count. -/
def text (f : FrameCount) : String := toString f.toNat

/-- How long the frames last. The quotient is taken before the
product with a thousand million, which the remainder alone cannot
make overflow. -/
def duration (f : FrameCount) (rate : SampleRate) : Duration :=
  -- The remainder is below 192000, so the product stays within 64 bits.
  let nanos := f.count % rate.hz * 1000000000 / rate.hz
  .ofParts (f.count / rate.hz) nanos.toUInt32

end FrameCount

end Packetizer
