import Packetizer.Audio.Chunks
import Packetizer.Audio.Sample

/-!
# `Packetizer.Wave.Encoding`: how WAVE files store samples

Six encodings, each with the bytes that one sample takes and its
conversion. Integers are scaled so that full scale becomes one, and
8-bit audio is unsigned.
-/

set_option autoImplicit false

namespace Packetizer.Wave

/-- How the samples of a file are stored. -/
inductive Encoding where
  | u8 | s16 | s24 | s32 | f32 | f64
  deriving DecidableEq

/-- The integer whose `bits` low bits are those of `n`, as a signed
number. -/
def signed (bits n : Nat) : Int := Int.bmod n (1 <<< bits)

namespace Encoding

/-- The name of an encoding. -/
def name : Encoding → String
  | u8 => "U8"
  | s16 => "S16"
  | s24 => "S24"
  | s32 => "S32"
  | f32 => "F32"
  | f64 => "F64"

/-- The bytes of one sample. -/
def width : Encoding → Nat
  | u8 => 1
  | s16 => 2
  | s24 => 3
  | s32 => 4
  | f32 => 4
  | f64 => 8

/-- The encoding with a format tag and some bytes for each sample:
tag 1 is integer audio, tag 3 floating point. -/
def ofTag? (tag width : Nat) : Option Encoding :=
  match tag, width with
  | 1, 1 => some u8
  | 1, 2 => some s16
  | 1, 3 => some s24
  | 1, 4 => some s32
  | 3, 4 => some f32
  | 3, 8 => some f64
  | _, _ => none

/-- The sample stored in some bytes. -/
def convert (e : Encoding) (bytes : List UInt8) : Sample :=
  let n := littleEndian bytes
  match e with
  | u8 => .ofInt ((n : Int) - 128) 7
  | s16 => .ofInt (signed 16 n) 15
  | s24 => .ofInt (signed 24 n) 23
  | s32 => .ofInt (signed 32 n) 31
  | f32 => .ofBytes bytes
  | f64 => .ofBinary64 (UInt64.ofNat n)

end Encoding

end Packetizer.Wave
