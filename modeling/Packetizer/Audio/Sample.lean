import Packetizer.Arithmetic.Binary

/-!
# `Packetizer.Audio.Sample`: samples as single precision words

A sample is the 32-bit word of a single precision number, kept as
its bits so that every conversion is exact arithmetic on integers.
The module builds samples from integers, from double precision words
and from bytes, and `Sample.toLinear16` goes to signed 16-bit audio.
-/

set_option autoImplicit false

namespace Packetizer

/-- One sample, as the word of a single precision number. -/
structure Sample where
  word : UInt32
  deriving DecidableEq

namespace Sample

/-- Silence. -/
def zero : Sample := ⟨0⟩

instance : Inhabited Sample := ⟨zero⟩

/-- The highest bit of a word, set below zero. -/
def signBit : Nat := 0x80000000

/-- The leading significand bit. A word leaves it out, so that the
exponent counts in units of it. -/
def leadingBit : Nat := 0x00800000

/-- The word of a sign and the 31 bits below it. -/
def ofParts (negative : Bool) (bits : Nat) : Sample :=
  ⟨UInt32.ofNat (if negative then signBit + bits else bits)⟩

/-- The bits of positive infinity. -/
def infinityBits : Nat := 0x7F800000

/-- The sample nearest to a fraction with a sign. Counting the words
from zero upward makes a significand that rounds up to the next power
of two, or past the greatest finite number, carry into the exponent
by itself. -/
def ofRatio (negative : Bool) (a : Ratio) : Sample :=
  if a.num = 0 then ofParts negative 0
  else
    let step := (binary32.exponentAt a - binary32.minExponent).toNat
    -- The leading bit of the significand adds the one that the exponent lacks.
    ofParts negative (min (step * leadingBit + binary32.significandAt a) infinityBits)

/-- The sample nearest to `n / 2 ^ bits`. -/
def ofInt (n : Int) (bits : Nat) : Sample :=
  ofRatio (n < 0) ⟨n.natAbs, 1 <<< bits⟩

/-- The leading significand bit of a double precision word. -/
def leadingBit64 : Nat := 0x0010000000000000

/-- The sample nearest to a double precision number, given by its
word. Every number that is none becomes the same one. -/
def ofBinary64 (word : UInt64) : Sample :=
  let n := word.toNat
  let negative := 0x8000000000000000 ≤ n
  let exponent : Nat := n / leadingBit64 % 2048
  let fraction := n % leadingBit64
  -- The greatest exponent stands for infinity and for what is no number,
  -- and the least one for numbers without a leading bit.
  if exponent = 2047 then
    if fraction = 0 then ofParts negative infinityBits else ⟨0x7FC00000⟩
  else if exponent = 0 then
    ofRatio negative ((Ratio.ofNat fraction).shift (-1074))
  else
    ofRatio negative ((Ratio.ofNat (leadingBit64 + fraction)).shift ((exponent : Int) - 1075))

/-- The bits below the sign. -/
def magnitudeBits (s : Sample) : Nat := s.word.toNat % signBit

/-- Whether the sign bit is set. -/
def isNegative (s : Sample) : Bool := signBit ≤ s.word.toNat

/-- Whether the word is no number. -/
def isNaN (s : Sample) : Bool := infinityBits < s.magnitudeBits

/-- The absolute value, for a finite sample. -/
def magnitude (s : Sample) : Ratio :=
  let exponent : Nat := s.magnitudeBits / leadingBit
  let fraction := s.magnitudeBits % leadingBit
  if exponent = 0 then (Ratio.ofNat fraction).shift (-149)
  else (Ratio.ofNat (leadingBit + fraction)).shift ((exponent : Int) - 150)

/-- The word of `1.0`, below the sign. -/
def oneBits : Nat := 0x3F800000

/-- The greatest 16-bit level. -/
def fullScale : Nat := 32767

/-- The 16-bit level of an absolute value, given by its bits. The
product with the full scale is a single precision number and is
rounded as one before it goes to the nearest level. -/
def level (s : Sample) : Nat :=
  if oneBits ≤ s.magnitudeBits then fullScale
  else
    let product := binary32.round (s.magnitude.scale fullScale)
    roundDiv .awayFromZero product.num product.den

/-- The signed 16-bit level. Samples beyond full scale are clamped,
and a word that is no number counts as the negative end. -/
def toLinear16 (s : Sample) : Int16 :=
  if s.isNaN || s.isNegative then -(Int16.ofNat s.level)
  else Int16.ofNat s.level

end Sample

/-- The two bytes of a 16-bit level, the high one first. -/
def bigEndian16 (v : Int16) : List UInt8 :=
  [(v.toUInt16 >>> 8).toUInt8, v.toUInt16.toUInt8]

/-- The number whose bytes are `bs`, the low one first. -/
def littleEndian : List UInt8 → Nat
  | [] => 0
  | b :: bs => b.toNat + 256 * littleEndian bs

/-- The sample stored in four bytes, the low one first. -/
def Sample.ofBytes (bs : List UInt8) : Sample := ⟨UInt32.ofNat (littleEndian bs)⟩

end Packetizer
